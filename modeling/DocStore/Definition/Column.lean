/-
Module: DocStore.Definition.Column
Purpose: columns of documents, the changes to them, and their JSON forms.
Main exports:
  ColumnOptions, ColumnType, ColumnOp, ColumnOp.toJson, ColumnOp.read?
-/
import DocStore.Json.Record

namespace DocStore

/-- Whether a column may be null, and further schema keywords for it. -/
structure ColumnOptions where
  nullable : Bool := true
  extra : Dict Json := {}
deriving Inhabited

namespace ColumnOptions

/-- The options of a column that must have a value. -/
def notNull : ColumnOptions :=
  { nullable := false }

/-- The JSON form; the keywords stand beside the flag. -/
def toJson (o : ColumnOptions) : Json :=
  .obj ((Dict.ofList [("null", .bool o.nullable)]).merge o.extra)

/-- Read the JSON form. -/
def read? : Json → Option ColumnOptions
  | .obj members => do
      let r ← Record.read? ["null"] (.obj members)
      let nullable ← r.defaulted? "null" true Json.readBool?
      let extra ← Json.readDict? Json.readAny? (.obj (members.erase "null"))
      some { nullable, extra }
  | _ => none

end ColumnOptions

mutual

/-- The type of a column. -/
inductive ColumnType where
  | primitive (name : String)
  | enumeration (values : List Json)
  | constant (value : Json)
  | arrayOf (items : ColumnType)
  | object (columns : List ColumnOp)

/-- A change to a column. -/
inductive ColumnOp where
  | add (name : String) (type : ColumnType) (options : ColumnOptions)
  | modify (name : String) (type : ColumnType) (options : ColumnOptions)
  | remove (name : String)
  | rename (source target : String)

end

instance : Inhabited ColumnType := ⟨.primitive ""⟩

instance : Inhabited ColumnOp := ⟨.remove ""⟩

namespace ColumnOp

/-- Replace the options of a column that is added or modified. -/
def withOptions (op : ColumnOp) (options : ColumnOptions) : ColumnOp :=
  match op with
  | add name type _ => .add name type options
  | modify name type _ => .modify name type options
  | other => other

/-- Let the column have no null and no further keywords. -/
def notNull (op : ColumnOp) : ColumnOp :=
  op.withOptions .notNull

end ColumnOp

mutual

/-- The JSON form of a type, under the name of its kind. -/
def ColumnType.toJson : ColumnType → Json
  | .primitive name => .obj ⟨[("primitive", .str name)]⟩
  | .enumeration values => .obj ⟨[("enum", .arr values)]⟩
  | .constant value => .obj ⟨[("const", value)]⟩
  | .arrayOf items => .obj ⟨[("array_of", items.toJson)]⟩
  | .object columns => .obj ⟨[("object", .arr (ColumnOp.listToJson columns))]⟩

/-- The JSON form of a change, with its kind as a tag. -/
def ColumnOp.toJson : ColumnOp → Json
  | .add name type options => .obj ⟨[("name", .str name), ("op", .str "add"),
      ("options", options.toJson), ("type", type.toJson)]⟩
  | .modify name type options => .obj ⟨[("name", .str name), ("op", .str "modify"),
      ("options", options.toJson), ("type", type.toJson)]⟩
  | .remove name => .obj ⟨[("name", .str name), ("op", .str "remove")]⟩
  | .rename source target => .obj ⟨[("from", .str source), ("op", .str "rename"),
      ("to", .str target)]⟩

/-- The JSON forms of changes. -/
def ColumnOp.listToJson : List ColumnOp → List Json
  | [] => []
  | op :: ops => op.toJson :: ColumnOp.listToJson ops

end

/-- The tags of column changes. -/
def ColumnOp.tags : List String :=
  ["add", "modify", "remove", "rename"]

mutual

/-- Read the JSON form of a type. -/
def ColumnType.read? (reading : Reading) (j : Json) : Option ColumnType :=
  match hs : Choice.single? j with
  | none => none
  | some (name, value) =>
      have : value.size < j.size := Choice.size_lt_of_single? hs
      if name = "primitive" then value.readText?.map .primitive
      else if name = "enum" then (Json.readList? Json.readAny? value).map .enumeration
      else if name = "const" then value.readAny?.map .constant
      else if name = "array_of" then (ColumnType.read? reading value).map .arrayOf
      else if name = "object" then
        match value with
        | .arr items => (ColumnOp.readAll? reading items).map .object
        | _ => none
      else none
termination_by 2 * j.size
decreasing_by
  · omega
  · simp only [Json.size] at this
    omega

/-- Read the JSON form of a change. -/
def ColumnOp.read? (reading : Reading) (j : Json) : Option ColumnOp :=
  match ht : Choice.tagged? "op" ColumnOp.tags reading j with
  | none => none
  | some (tag, body) =>
      if tag = "add" ∨ tag = "modify" then
        match hr : Record.read? ["name", "type", "options"] body with
        | none => none
        | some r =>
            match hv : r.get? "type" with
            | none => none
            | some value =>
                have : value.size < j.size := Nat.lt_of_lt_of_le (Record.size_lt_of_get? hr hv)
                  (Choice.size_le_of_tagged? ht)
                do
                  let name ← r.required? "name" Json.readText?
                  let type ← ColumnType.read? .held value
                  let options ← r.defaulted? "options" {} ColumnOptions.read?
                  some (if tag = "add" then .add name type options else .modify name type options)
      else if tag = "remove" then do
        let r ← Record.read? ["name"] body
        let name ← r.required? "name" Json.readText?
        some (.remove name)
      else do
        let r ← Record.read? ["from", "to"] body
        let source ← r.required? "from" Json.readText?
        let target ← r.required? "to" Json.readText?
        some (.rename source target)
termination_by 2 * j.size
decreasing_by omega

/-- Read the JSON forms of changes. -/
def ColumnOp.readAll? (reading : Reading) (items : List Json) : Option (List ColumnOp) :=
  match items with
  | [] => some []
  | item :: rest => do
      let op ← ColumnOp.read? reading item
      let ops ← ColumnOp.readAll? reading rest
      some (op :: ops)
termination_by 2 * Json.sizeItems items + 1
decreasing_by
  · simp only [Json.sizeItems]
    omega
  · have := item.size_pos
    simp only [Json.sizeItems]
    omega

end

/-- Read an array of changes. -/
def ColumnOp.readList? (reading : Reading) : Json → Option (List ColumnOp)
  | .arr items => ColumnOp.readAll? reading items
  | _ => none

end DocStore
