/-
Module: DocStore.Memory.Documents
Purpose: the documents of a collection in memory: writing them, taking writes back, and
  finding those that a query asks for.
Main exports:
  StoredCollection.insertDocument, StoredCollection.changeDocument,
  StoredCollection.removeDocument, Undo, Statement.found
-/
import DocStore.Memory.Database
import DocStore.Memory.Statement

namespace DocStore

/-- How a write to documents is taken back. -/
inductive Undo where
  | remove (collection key : String)
  | restore (collection : String) (document : Document)

/-- The list with its first document that satisfies `p` replaced. -/
def replaceFirstDocument (p : Document → Bool) (new : Document) : List Document → List Document
  | [] => []
  | d :: ds => if p d then new :: ds else d :: replaceFirstDocument p new ds

namespace StoredCollection

/-- The first document with a key. -/
def document? (c : StoredCollection) (key : String) : Option Document :=
  c.documents.find? (·.hasKey key)

/-- Whether the collection holds edges. -/
def holdsEdges (c : StoredCollection) : Bool :=
  (c.properties.get? "type").bind Json.signed? == some CollectionKind.edge.typeCode

/-- The first end of an edge that a document does not give as a text. -/
def missingEnd? (d : Document) : Option String :=
  ["_from", "_to"].find? fun name => !(d.value name).isText

/-- The part of a document that answers show instead of the whole. -/
def header (d : Document) : List (String × Json) :=
  [("_id", d.value "_id"), ("_key", d.value "_key"), ("_rev", d.value "_rev")]

/-- Add a document under a key that is not taken.  In a collection of edges it
must have both ends. -/
def insertDocument (c : StoredCollection) (name key revision : String) (fields : Dict Json) :
    Except Refusal (Document × StoredCollection) :=
  if (c.document? key).isSome then .error (.keyTaken key)
  else
    match c.holdsEdges, missingEnd? fields with
    | true, some side => .error (.noEdgeEnd side)
    | _, _ =>
        let d := ((fields.insert "_key" (.str key)).insert "_id" (.str (name ++ "/" ++ key))).insert
          "_rev" (.str revision)
        .ok (d, { c with documents := c.documents ++ [d] })

/-- A document with attributes overwritten. -/
def changed (d : Document) (revision : String) : Json → Document
  | .obj changes => (d.merge changes).insert "_rev" (.str revision)
  | _ => d

/-- Overwrite the first document with a key. -/
def changeDocument (c : StoredCollection) (key : String) (new : Document) : StoredCollection :=
  { c with documents := replaceFirstDocument (·.hasKey key) new c.documents }

/-- Remove the first document with a key. -/
def removeDocument (c : StoredCollection) (key : String) : StoredCollection :=
  { c with documents := c.documents.eraseP (·.hasKey key) }

/-- Remove all documents that share their key with one of those given. -/
def removeAll (c : StoredCollection) (found : List Document) : StoredCollection :=
  { c with documents := c.documents.filter fun d =>
      !(found.any fun f => f.value "_key" == d.value "_key") }

/-- Put a document back, over the one that has its key now. -/
def restore (c : StoredCollection) (old : Document) : StoredCollection :=
  let sameKey (d : Document) : Bool := d.value "_key" == old.value "_key"
  { c with documents :=
      if c.documents.any sameKey then replaceFirstDocument sameKey old c.documents
      else c.documents ++ [old] }

/-- Remove all documents with a key. -/
def forget (c : StoredCollection) (key : String) : StoredCollection :=
  { c with documents := c.documents.filter fun d => !d.hasKey key }

end StoredCollection

namespace Database

/-- Change a collection if there is one of that name. -/
def modifyCollection (db : Database) (name : String) (f : StoredCollection → StoredCollection) :
    Database :=
  { db with collections := db.collections.modify name f }

/-- Take a write back. -/
def undo (db : Database) : Undo → Database
  | .remove collection key => db.modifyCollection collection (·.forget key)
  | .restore collection d => db.modifyCollection collection (·.restore d)

end Database

/-! ### Finding documents -/

/-- Whether the fields of a document have given values; a missing field counts as
null. -/
def Document.satisfies (d : Document) (filters : List (String × Json)) : Bool :=
  filters.all fun filter => d.value filter.1 == filter.2

/-- The order of two documents by a field. -/
def StatementSort.compare (s : StatementSort) (a b : Document) : Ordering :=
  let ordering := Json.order (a.value s.field) (b.value s.field)
  if s.descends then ordering.swap else ordering

/-- The order of two documents by fields, the first that tells them apart
deciding. -/
def compareDocuments (sorts : List StatementSort) (a b : Document) : Ordering :=
  match sorts with
  | [] => .eq
  | s :: rest => (s.compare a b).then (compareDocuments rest a b)

/-- The part of a list that a window shows. -/
def windowed {α : Type} (window : Option (Nat × Nat)) (items : List α) : List α :=
  match window with
  | none => items
  | some (offset, count) => (items.drop offset).take count

namespace Statement

/-- The documents that a query finds: those that satisfy its filters, sorted, and
of these the ones in its window.  Documents that the order does not tell apart
stay in the order of the collection. -/
def found (q : Statement) (documents : List Document) : List Document :=
  windowed q.window ((documents.filter (·.satisfies q.filters)).mergeSort fun a b =>
    compareDocuments q.sorts a b != .gt)

/-- What a query returns for the documents that it finds. -/
def rows (q : Statement) (aql : String) (documents : List Document) :
    Except Refusal (List Json) :=
  match q.ending with
  | .count => .ok [.int documents.length]
  | .nothing => .ok []
  | .fields names => .ok (documents.map fun d => .arr (names.map d.value))
  | .unsupported => .error (.unsupportedQuery aql)

end Statement

end DocStore
