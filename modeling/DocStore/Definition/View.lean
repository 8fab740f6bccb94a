/-
Module: DocStore.Definition.View
Purpose: definitions of search views, the changes to them, and their JSON forms.
Main exports:
  Link, View, ViewChange, View.apply, View.analyzerNames, View.validate, View.body
-/
import DocStore.Definition.Collection

namespace DocStore

/-- The direction of a primary sort. -/
inductive SortDirection where
  | asc
  | desc
deriving DecidableEq, Repr, Inhabited

namespace SortDirection

/-- The word for a direction. -/
def word : SortDirection → String
  | asc => "asc"
  | desc => "desc"

/-- The directions by their words. -/
def words : List (String × SortDirection) :=
  [asc, desc].map fun direction => (direction.word, direction)

end SortDirection

/-- A field of the primary sort. -/
structure SortField where
  field : String
  direction : SortDirection := .asc
deriving DecidableEq, Repr, Inhabited

/-- Fields whose values a view stores. -/
structure StoredValue where
  fields : List String
  compression : Option String := none
deriving DecidableEq, Repr, Inhabited

/-- How a collection, or a field of it, is indexed by a view. -/
structure Link where
  analyzers : List String := []
  fields : Dict Link := {}
  includeAllFields : Option Bool := none
  trackListPositions : Option Bool := none
  storeValues : Option String := none
deriving Inhabited

/-- A change to a view. -/
inductive ViewChange where
  | addSort (sort : SortField)
  | addStore (stored : StoredValue)
  | addLink (collection : String) (link : Link)

/-- A search view as it is to be.  Its options are sent as they are. -/
structure View where
  name : String
  links : Dict Link := {}
  primarySort : List SortField := []
  storedValues : List StoredValue := []
  options : Dict Json := {}
  tenant : Option String := none
deriving Inhabited

/-! ### JSON forms -/

namespace SortField

/-- The members of the JSON form. -/
def members (s : SortField) : List (String × Json) :=
  [("direction", .str s.direction.word), ("field", .str s.field)]

/-- The JSON form. -/
def toJson (s : SortField) : Json :=
  .obj ⟨s.members⟩

/-- The fields of the JSON form. -/
def fieldNames : List String :=
  ["field", "direction"]

/-- What is kept of the text of a sort that carries no tag. -/
def outline : Json.Outline :=
  .record fieldNames []

/-- Read the JSON form. -/
def read? (reading : Reading) (j : Json) : Option SortField := do
  let r ← Record.read? fieldNames j
  let field ← r.required? "field" Json.readText?
  let direction ← r.defaulted? "direction" .asc (Choice.plain? SortDirection.words reading)
  some { field, direction }

end SortField

namespace StoredValue

/-- The JSON form. -/
def toJson (s : StoredValue) : Json :=
  .obj ⟨optionalMember "compression" s.compression .str ++ [("fields", .texts s.fields)]⟩

/-- The members of the JSON form under a tag. -/
def taggedMembers (s : StoredValue) (tag : String) : List (String × Json) :=
  optionalMember "compression" s.compression .str ++
    [("fields", .texts s.fields), ("op", .str tag)]

/-- The fields of the JSON form. -/
def fieldNames : List String :=
  ["fields", "compression"]

/-- What is kept of the text of a stored value that carries no tag. -/
def outline : Json.Outline :=
  .record fieldNames []

/-- Read the JSON form. -/
def read? (j : Json) : Option StoredValue := do
  let r ← Record.read? fieldNames j
  let fields ← r.required? "fields" (Json.readList? Json.readText?)
  let compression ← r.optional? "compression" Json.readText?
  some { fields, compression }

end StoredValue

mutual

/-- The JSON form of a link. -/
def Link.toJson : Link → Json
  | ⟨analyzers, ⟨fields⟩, includeAllFields, trackListPositions, storeValues⟩ =>
      .obj ⟨(if analyzers.isEmpty then [] else [("analyzers", .texts analyzers)]) ++
        (if fields.isEmpty then [] else [("fields", .obj ⟨Link.membersToJson fields⟩)]) ++
        optionalMember "includeAllFields" includeAllFields .bool ++
        optionalMember "storeValues" storeValues .str ++
        optionalMember "trackListPositions" trackListPositions .bool⟩

/-- The JSON forms of named links. -/
def Link.membersToJson : List (String × Link) → List (String × Json)
  | [] => []
  | (name, link) :: rest => (name, link.toJson) :: Link.membersToJson rest

end

/-- The fields of the JSON form of a link. -/
def Link.fieldNames : List String :=
  ["analyzers", "fields", "includeAllFields", "trackListPositions", "storeValues"]

/-- What is kept of the text of a link that is nested no deeper than `depth`. -/
def Link.outline : Nat → Json.Outline
  | 0 => .whole
  | depth + 1 => .record fieldNames [("fields", .each (Link.outline depth))]

mutual

/-- Read the JSON form of a link. -/
def Link.read? (j : Json) : Option Link :=
  match hr : Record.read? Link.fieldNames j with
  | none => none
  | some r =>
      let nested : Option (Dict Link) :=
        match hf : r.get? "fields" with
        | none => some {}
        | some value =>
            have : value.size < j.size := Record.size_lt_of_get? hr hf
            match value with
            | .obj ⟨members⟩ => (Link.readMembers? members).map Dict.ofList
            | _ => none
      do
        let analyzers ← r.defaulted? "analyzers" [] (Json.readList? Json.readText?)
        let fields ← nested
        let includeAllFields ← r.optional? "includeAllFields" Json.readBool?
        let trackListPositions ← r.optional? "trackListPositions" Json.readBool?
        let storeValues ← r.optional? "storeValues" Json.readText?
        some { analyzers, fields, includeAllFields, trackListPositions, storeValues }
termination_by 2 * j.size
decreasing_by
  simp only [Json.size] at this
  omega

/-- Read the JSON forms of named links. -/
def Link.readMembers? (members : List (String × Json)) : Option (List (String × Link)) :=
  match members with
  | [] => some []
  | (name, value) :: rest => do
      let link ← Link.read? value
      let links ← Link.readMembers? rest
      some ((name, link) :: links)
termination_by 2 * Json.sizeMembers members + 1
decreasing_by
  · simp only [Json.sizeMembers]
    omega
  · have := value.size_pos
    simp only [Json.sizeMembers]
    omega

end

/-- Read an object of links. -/
def Link.readDict? : Json → Option (Dict Link)
  | .obj ⟨members⟩ => (Link.readMembers? members).map Dict.ofList
  | _ => none

/-- The JSON form of an object of links. -/
def Link.dictToJson (links : Dict Link) : Json :=
  .obj ⟨Link.membersToJson links.entries⟩

namespace ViewChange

/-- The JSON form, with the kind of change as a tag. -/
def toJson : ViewChange → Json
  | addSort sort => .obj ⟨sort.members ++ [("op", .str "add_sort")]⟩
  | addStore stored => .obj ⟨stored.taggedMembers "add_store"⟩
  | addLink collection link => .obj ⟨[("collection", .str collection), ("link", link.toJson),
      ("op", .str "add_link")]⟩

/-- The tags of changes. -/
def tags : List String :=
  ["add_sort", "add_store", "add_link"]

/-- Read the JSON form. -/
def read? (reading : Reading) (j : Json) : Option ViewChange := do
  let (tag, body) ← Choice.tagged? "op" tags reading j
  if tag = "add_sort" then (SortField.read? .held body).map .addSort
  else if tag = "add_store" then (StoredValue.read? body).map .addStore
  else
    let r ← Record.read? ["collection", "link"] body
    let collection ← r.required? "collection" Json.readText?
    let link ← r.required? "link" Link.read?
    some (.addLink collection link)

end ViewChange

namespace View

/-- The JSON form. -/
def toJson (v : View) : Json :=
  .obj ⟨[("links", Link.dictToJson v.links), ("name", .str v.name), ("options", .obj v.options)] ++
    optionalMember "prefix" v.tenant .str ++
    [("primary_sort", .arr (v.primarySort.map SortField.toJson)),
      ("stored_values", .arr (v.storedValues.map StoredValue.toJson))]⟩

/-- The fields of the JSON form. -/
def fieldNames : List String :=
  ["name", "links", "primary_sort", "stored_values", "options", "prefix"]

/-- What is kept of the text of a definition that carries no tag. -/
def outline : Json.Outline :=
  .record fieldNames [("links", .each (Link.outline Json.depthLimit)),
    ("primary_sort", .each SortField.outline), ("stored_values", .each StoredValue.outline)]

/-- Read the JSON form. -/
def read? (reading : Reading) (j : Json) : Option View := do
  let r ← Record.read? fieldNames j
  let name ← r.required? "name" Json.readText?
  let links ← r.defaulted? "links" {} Link.readDict?
  let primarySort ← r.defaulted? "primary_sort" [] (Json.readList? (SortField.read? reading))
  let storedValues ← r.defaulted? "stored_values" [] (Json.readList? StoredValue.read?)
  let options ← r.defaulted? "options" {} (Json.readDict? Json.readAny?)
  let tenant ← r.optional? "prefix" Json.readText?
  some { name, links, primarySort, storedValues, options, tenant }

/-! ### Changes -/

/-- The view after a change.  Sorts and stored values are appended. -/
def applyOne (v : View) : ViewChange → View
  | .addSort sort => { v with primarySort := v.primarySort ++ [sort] }
  | .addStore stored => { v with storedValues := v.storedValues ++ [stored] }
  | .addLink collection link => { v with links := v.links.insert collection link }

/-- The view after changes in order. -/
def apply (v : View) (changes : List ViewChange) : View :=
  changes.foldl applyOne v

end View

/-! ### Analyzers in use -/

/-- Append a name unless it is there. -/
def addName (names : List String) (name : String) : List String :=
  if names.contains name then names else names ++ [name]

mutual

/-- Append the analyzers of a link, its own before those of its fields. -/
def Link.addAnalyzers (names : List String) : Link → List String
  | ⟨analyzers, ⟨fields⟩, _, _, _⟩ => Link.addAllAnalyzers (analyzers.foldl addName names) fields

/-- Append the analyzers of named links in order. -/
def Link.addAllAnalyzers (names : List String) : List (String × Link) → List String
  | [] => names
  | (_, link) :: rest => Link.addAllAnalyzers (link.addAnalyzers names) rest

end

/-- The analyzers that the links of a view name, each once. -/
def View.analyzerNames (v : View) : List String :=
  Link.addAllAnalyzers [] v.links.entries

/-! ### Checks -/

mutual

/-- Check a link that is reached by a path of collection and field names. -/
def Link.validate (path : String) : Link → Except SchemaFault Unit
  | ⟨analyzers, ⟨fields⟩, _, _, storeValues⟩ =>
      match storeValues with
      | some mode =>
          if mode ≠ "none" ∧ mode ≠ "id" then .error (.storeValues path mode)
          else if analyzers.any String.isEmpty then .error (.emptyAnalyzer path)
          else Link.validateAll path fields
      | none =>
          if analyzers.any String.isEmpty then .error (.emptyAnalyzer path)
          else Link.validateAll path fields

/-- Check the links of the fields below a path. -/
def Link.validateAll (path : String) : List (String × Link) → Except SchemaFault Unit
  | [] => .ok ()
  | (name, link) :: rest => do
      link.validate (path ++ "." ++ name)
      Link.validateAll path rest

end

/-- Check the links of a view. -/
def View.validateLinks (view : String) : List (String × Link) → Except SchemaFault Unit
  | [] => .ok ()
  | (collection, link) :: rest =>
      if collection.isEmpty then .error (.unnamedLink view)
      else do
        link.validate collection
        View.validateLinks view rest

/-- Check the stored values of a view. -/
def View.validateStored (view : String) : List StoredValue → Except SchemaFault Unit
  | [] => .ok ()
  | stored :: rest =>
      if stored.fields.isEmpty then .error (.emptyStored view)
      else
        match stored.compression with
        | some word =>
            if word ≠ "lz4" ∧ word ≠ "none" then .error (.compression word)
            else View.validateStored view rest
        | none => View.validateStored view rest

namespace View

/-- Check a definition. -/
def validate (v : View) : Except SchemaFault Unit :=
  if v.name.isEmpty then .error .viewName
  else do
    validateLinks v.name v.links.entries
    validateStored v.name v.storedValues

/-- The properties that can be changed later. -/
def properties (v : View) : Dict Json :=
  let linked := v.options.insert "links" (Link.dictToJson v.links)
  let sorted := if v.primarySort.isEmpty then linked
    else linked.insert "primarySort" (.arr (v.primarySort.map SortField.toJson))
  if v.storedValues.isEmpty then sorted
  else sorted.insert "storedValues" (.arr (v.storedValues.map StoredValue.toJson))

/-- The body of the request that creates the view. -/
def body (v : View) : Json :=
  .obj ((v.properties.insert "name" (.str v.name)).insert "type" (.str "arangosearch"))

end View

end DocStore
