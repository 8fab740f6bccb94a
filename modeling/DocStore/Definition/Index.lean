/-
Module: DocStore.Definition.Index
Purpose: definitions of indexes, their checks, their JSON form and their creation body.
Main exports:
  IndexKind, Index, Index.indexName, Index.validate, Index.body, Index.toJson, Index.read?
-/
import DocStore.Definition.Collection

namespace DocStore

/-- The kinds of indexes. -/
inductive IndexKind where
  | persistent
  | hash
  | skiplist
  | geo
  | fulltext
  | ttl
  | inverted
  | zkd
deriving DecidableEq, Repr, Inhabited

namespace IndexKind

/-- The word for a kind. -/
def word : IndexKind → String
  | persistent => "persistent"
  | hash => "hash"
  | skiplist => "skiplist"
  | geo => "geo"
  | fulltext => "fulltext"
  | ttl => "ttl"
  | inverted => "inverted"
  | zkd => "zkd"

/-- The kinds by their words. -/
def words : List (String × IndexKind) :=
  [persistent, hash, skiplist, geo, fulltext, ttl, inverted, zkd].map fun kind =>
    (kind.word, kind)

end IndexKind

/-- An index as it is to be. -/
structure Index where
  collection : String
  fields : List String
  kind : IndexKind := .persistent
  name : Option String := none
  unique : Bool := false
  sparse : Bool := false
  expireAfter : Option Nat := none
  options : Dict Json := {}
  tenant : Option String := none
deriving Inhabited

namespace Index

/-- The given name, or one made of the collection and the fields. -/
def indexName (i : Index) : String :=
  i.name.getD (i.collection ++ "_" ++ Text.join "_" i.fields ++ "_index")

/-- The first fault of a definition. -/
def fault? (i : Index) : Option IndexFault :=
  if i.fields.isEmpty || i.fields.any String.isEmpty then some .fieldNames
  else if i.kind = .ttl ∧ i.expireAfter.isNone then some .noExpiry
  else if (i.kind = .ttl ∨ i.kind = .fulltext) ∧ i.fields.length ≠ 1 then some .severalFields
  else if i.kind = .geo ∧ 2 < i.fields.length then some .geoFields
  else if i.expireAfter.isSome ∧ i.kind ≠ .ttl then some .unwantedExpiry
  else none

/-- Check a definition. -/
def validate (i : Index) : Except SchemaFault Unit :=
  match i.fault? with
  | none => .ok ()
  | some fault => .error (.index i.collection fault)

/-- The body of the request that creates the index. -/
def body (i : Index) : Json :=
  let named := ((((i.options.insert "type" (.str i.kind.word)).insert "fields"
    (.texts i.fields)).insert "name" (.str i.indexName)).insert "unique" (.bool i.unique)).insert
    "sparse" (.bool i.sparse)
  .obj (match i.expireAfter with
    | none => named
    | some seconds => named.insert "expireAfter" (.int seconds))

/-- The members of the JSON form. -/
def members (i : Index) : List (String × Json) :=
  [("collection", .str i.collection)] ++
    optionalMember "expire_after" i.expireAfter (fun seconds => .int seconds) ++
    [("fields", .texts i.fields)] ++
    optionalMember "name" i.name .str ++
    dictMember "options" i.options ++
    optionalMember "prefix" i.tenant .str ++
    [("sparse", .bool i.sparse), ("type", .str i.kind.word), ("unique", .bool i.unique)]

/-- The JSON form. -/
def toJson (i : Index) : Json :=
  .obj ⟨i.members⟩

/-- Read the JSON form. -/
def read? (reading : Reading) (j : Json) : Option Index := do
  let r ← Record.read? ["collection", "fields", "type", "name", "unique", "sparse",
    "expire_after", "options", "prefix"] j
  let collection ← r.required? "collection" Json.readText?
  let fields ← r.required? "fields" (Json.readList? Json.readText?)
  let kind ← r.defaulted? "type" .persistent (Choice.plain? IndexKind.words reading)
  let name ← r.optional? "name" Json.readText?
  let unique ← r.defaulted? "unique" false Json.readBool?
  let sparse ← r.defaulted? "sparse" false Json.readBool?
  let expireAfter ← r.optional? "expire_after" Json.readNatural?
  let options ← r.defaulted? "options" {} (Json.readDict? Json.readAny?)
  let tenant ← r.optional? "prefix" Json.readText?
  some { collection, fields, kind, name, unique, sparse, expireAfter, options, tenant }

end Index

end DocStore
