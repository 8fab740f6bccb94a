/-
Module: DocStore.Adapter.Document
Purpose: the two forms of a row: its fields, and the document that is stored.
Main exports:
  Row, Entity.toDocument, Entity.ofDocument, hydrate
-/
import DocStore.Entity.Basic
import DocStore.Error

namespace DocStore

/-- The fields of an entity by name. -/
abbrev Row := Dict Json

namespace Entity

/-- Store the primary key as the key of the document. -/
def withDocumentKey (e : Entity) (fields : Row) : Except Error Row :=
  if e.primaryKey = "_key" then .ok fields
  else
    let others := fields.erase e.primaryKey
    match fields.get? e.primaryKey with
    | none => .ok others
    | some .null => .ok others
    | some (.str key) => .ok (others.insert "_key" (.str key))
    | some (.num key) => .ok (others.insert "_key" (.str key.render))
    | some other => .error (.validation (.primaryKey e.primaryKey other))

/-- Check an end of an edge: it has to name a document. -/
def checkEnd (e : Entity) (fields : Row) (side : String) : Except Error Unit :=
  match (fields.get? side).bind Json.text? with
  | none => .error (.validation (.edgeEnd e.name side))
  | some id =>
      match DocumentId.read id with
      | .ok _ => .ok ()
      | .error fault => .error (.format fault)

/-- Check both ends of an edge. -/
def checkEnds (e : Entity) (fields : Row) : Except Error Unit :=
  match e.kind with
  | .document => .ok ()
  | .edge => do
      e.checkEnd fields "_from"
      e.checkEnd fields "_to"

/-- The document of a row. -/
def toDocument (e : Entity) (fields : Row) : Except Error Row := do
  let document ← e.withDocumentKey fields
  e.checkEnds document
  .ok document

/-- The row of a document: its key as the primary key, and only the fields of the
entity. -/
def ofDocument (e : Entity) (document : Json) : Row :=
  match document with
  | .obj members =>
      let keyed :=
        match members.get? "_key" with
        | none => members
        | some key => (members.erase "_key").insert e.primaryKey key
      keyed.filterKeys e.fields.contains
  | _ => {}

end Entity

/-- The name of a column in a row; the key of a document is the primary key of its
entity. -/
def columnName (entity : Option Entity) (column : String) : String :=
  match entity with
  | none => column
  | some e => if column = "_key" then e.primaryKey else column

/-- The values of a result; a single value stands for a row of one. -/
def resultValues (columns : List String) (result : Json) : Except Error (List Json) :=
  match result with
  | .arr values => .ok values
  | other =>
      if columns.length = 1 then .ok [other]
      else .error (.validation (.notRow columns.length other))

/-- The row that a result of a query stands for. -/
def hydrate (columns : List String) (entity : Option Entity) (result : Json) :
    Except Error Row := do
  let values ← resultValues columns result
  if values.length ≠ columns.length then
    .error (.validation (.rowLength columns.length values.length))
  else .ok (.ofList ((columns.map (columnName entity)).zip values))

end DocStore
