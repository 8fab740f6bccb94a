/-
Module: DocStore.Definition.Collection
Purpose: definitions of collections, their JSON form and their creation body.
Main exports:
  Collection, Collection.schema, Collection.body, Collection.toJson, Collection.read?
-/
import DocStore.Definition.Validation
import DocStore.Json.Outline
import DocStore.Entity.Basic

namespace DocStore

/-- A collection as it is to be.  Its columns make up its validation document; its
options are sent as they are.  A tenant is the database that it lives in. -/
structure Collection where
  name : String
  kind : CollectionKind := .document
  columns : List ColumnOp := []
  schemaLevel : Option String := none
  schemaMessage : Option String := none
  options : Dict Json := {}
  tenant : Option String := none
deriving Inhabited

/-- A member that is left out when there is no value for it. -/
def optionalMember {α : Type} (key : String) (value : Option α) (toJson : α → Json) :
    List (String × Json) :=
  match value with
  | none => []
  | some v => [(key, toJson v)]

/-- A member that is left out when its map is empty. -/
def dictMember (key : String) (members : Dict Json) : List (String × Json) :=
  if members.isEmpty then [] else [(key, .obj members)]

namespace Collection

/-- The validation document of the columns, if there are any. -/
def schema (c : Collection) : Except SchemaFault (Option Json) :=
  if c.columns.isEmpty then .ok none
  else
    let base : Json := .obj ⟨optionalMember "level" c.schemaLevel .str ++
      optionalMember "message" c.schemaMessage .str⟩
    (generateSchema c.columns (some base)).map some

/-- Whether a name can be that of a collection. -/
def isName (name : String) : Bool :=
  !name.isEmpty && !name.toList.contains '/'

/-- The body of the request that creates the collection. -/
def body (c : Collection) : Except SchemaFault Json :=
  if !isName c.name then .error (.collectionName c.name)
  else do
    let schema ← c.schema
    let named := (c.options.insert "name" (.str c.name)).insert "type" (.int c.kind.typeCode)
    .ok (.obj (match schema with
      | none => named
      | some document => named.insert "schema" document))

/-- The members of the JSON form. -/
def members (c : Collection) : List (String × Json) :=
  (if c.columns.isEmpty then [] else [("columns", .arr (ColumnOp.listToJson c.columns))]) ++
    [("name", .str c.name)] ++
    dictMember "options" c.options ++
    optionalMember "prefix" c.tenant .str ++
    optionalMember "schema_level" c.schemaLevel .str ++
    optionalMember "schema_message" c.schemaMessage .str ++
    [("type", .str c.kind.word)]

/-- The JSON form. -/
def toJson (c : Collection) : Json :=
  .obj ⟨c.members⟩

/-- The fields of the JSON form. -/
def fieldNames : List String :=
  ["name", "type", "columns", "schema_level", "schema_message", "options", "prefix"]

/-- What is kept of the text of a definition that carries no tag. -/
def outline : Json.Outline :=
  .record fieldNames []

/-- Read the JSON form. -/
def read? (reading : Reading) (j : Json) : Option Collection := do
  let r ← Record.read? fieldNames j
  let name ← r.required? "name" Json.readText?
  let kind ← r.defaulted? "type" .document (Choice.plain? CollectionKind.words reading)
  let columns ← r.defaulted? "columns" [] (ColumnOp.readList? reading)
  let schemaLevel ← r.optional? "schema_level" Json.readText?
  let schemaMessage ← r.optional? "schema_message" Json.readText?
  let options ← r.defaulted? "options" {} (Json.readDict? Json.readAny?)
  let tenant ← r.optional? "prefix" Json.readText?
  some { name, kind, columns, schemaLevel, schemaMessage, options, tenant }

end Collection

end DocStore
