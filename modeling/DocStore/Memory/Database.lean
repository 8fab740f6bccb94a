/-
Module: DocStore.Memory.Database
Purpose: the collections, views and analyzers of a database in memory, and the requests
  that define them.
Main exports:
  Document, StoredCollection, Database, Database.createCollection, Database.createIndex,
  Database.createView, Database.createAnalyzer
-/
import DocStore.Memory.Refusal

namespace DocStore

/-- A stored document: its attributes by name. -/
abbrev Document := Dict Json

/-- The value of an attribute; null if there is none. -/
def Document.value (d : Document) (name : String) : Json :=
  (Dict.get? d name).getD .null

/-- Whether the key of a document is the given text. -/
def Document.hasKey (d : Document) (key : String) : Bool :=
  (d.value "_key").isTextOf key

/-- A stored collection.  `nextIndex` numbers the next index. -/
structure StoredCollection where
  properties : Dict Json
  documents : List Document := []
  indexes : List (Dict Json) := []
  nextIndex : Nat := 1

/-- A database. -/
structure Database where
  collections : Dict StoredCollection := {}
  views : Dict (Dict Json) := {}
  analyzers : Dict Json := {}
deriving Inhabited

/-- What a request to a database leads to: an answer and the database afterwards. -/
abbrev Change := Except Refusal (Response × Database)

/-- The answer that something was done. -/
def answered (status : Nat) (body : Json) : Response :=
  { status, body }

namespace Database

/-- Whether a collection or a view has the name. -/
def nameTaken (db : Database) (name : String) : Bool :=
  db.collections.contains name || db.views.contains name

/-- The collection of a name. -/
def collection (db : Database) (name : String) : Except Refusal StoredCollection :=
  match db.collections.get? name with
  | some c => .ok c
  | none => .error (.noSource name)

/-- The view of a name. -/
def view (db : Database) (name : String) : Except Refusal (Dict Json) :=
  match db.views.get? name with
  | some v => .ok v
  | none => .error (.noSource name)

/-- The analyzer of a name. -/
def analyzer (db : Database) (name : String) : Except Refusal Json :=
  match db.analyzers.get? name with
  | some a => .ok a
  | none => .error (.noAnalyzer name)

/-- Put a collection under a name. -/
def putCollection (db : Database) (name : String) (c : StoredCollection) : Database :=
  { db with collections := db.collections.insert name c }

/-- Put a view under a name. -/
def putView (db : Database) (name : String) (v : Dict Json) : Database :=
  { db with views := db.views.insert name v }

/-- The object in a body. -/
def objectBody (what : String) : Json → Except Refusal (Dict Json)
  | .obj members => .ok members
  | _ => .error (.notObject what)

/-- The text under `name` in a body. -/
def nameIn (what : String) (body : Json) : Except Refusal String :=
  match (body.field "name").text? with
  | some name => .ok name
  | none => .error (.lacking what)

/-- The name that a collection or view may take. -/
def freshName (db : Database) (name : String) : Except Refusal Unit :=
  if db.nameTaken name then .error (.nameTaken name) else .ok ()

/-! ### Collections -/

/-- The properties of a new collection: those of its definition, and the kind and
the validation document if it does not give them. -/
def newProperties (definition : Dict Json) : Dict Json :=
  (definition.insertNew "type" (.int CollectionKind.document.typeCode)).insertNew "schema" .null

/-- Create a collection. -/
def createCollection (db : Database) (body : Json) : Change := do
  let definition ← objectBody "collection definition" body
  let name ← nameIn "collection name" body
  if name.isEmpty then .error (.lacking "collection name")
  else
    db.freshName name
    let properties := newProperties definition
    .ok (answered 200 (.obj properties), db.putCollection name { properties })

/-- Show the properties of a collection. -/
def showCollection (db : Database) (name : String) : Change := do
  let c ← db.collection name
  .ok (answered 200 (.obj c.properties), db)

/-- Overwrite properties of a collection. -/
def changeCollection (db : Database) (name : String) (body : Json) : Change := do
  let c ← db.collection name
  let properties := c.properties.merge (body.members?.getD {})
  .ok (answered 200 (.obj properties), db.putCollection name { c with properties })

/-- Give a collection another name. -/
def renameCollection (db : Database) (name : String) (body : Json) : Change := do
  let target ← nameIn "new name" body
  db.freshName target
  let c ← db.collection name
  let properties := c.properties.insert "name" (.str target)
  .ok (answered 200 (.obj properties),
    { db with collections := (db.collections.erase name).insert target { c with properties } })

/-- Drop a collection with all that is in it. -/
def dropCollection (db : Database) (name : String) : Change := do
  let _ ← db.collection name
  .ok (answered 200 (.obj ⟨[("id", .str name)]⟩),
    { db with collections := db.collections.erase name })

/-! ### Indexes -/

/-- The collection that a request about indexes names. -/
def indexedCollection (r : Request) : Except Refusal String :=
  match r.query.find? fun parameter => parameter.1 == "collection" with
  | some parameter => .ok parameter.2
  | none => .error (.lacking "collection")

/-- The index that every collection has. -/
def primaryIndex (collection : String) : Json :=
  .obj ⟨[("fields", .texts ["_key"]), ("id", .str (collection ++ "/0")),
    ("name", .str "primary"), ("type", .str "primary")]⟩

/-- Create an index.  One without a name is named by its number. -/
def createIndex (db : Database) (r : Request) (body : Json) : Change := do
  let collection ← indexedCollection r
  let definition ← objectBody "index definition" body
  let c ← db.collection collection
  let id := collection ++ "/" ++ toString c.nextIndex
  let name := (body.field "name").text?.getD ("idx_" ++ toString c.nextIndex)
  if c.indexes.any fun index => (Document.value index "name").isTextOf name then
    .error (.nameTaken name)
  else
    let index := (definition.insert "id" (.str id)).insert "name" (.str name)
    .ok (answered 201 (.obj (index.insert "isNewlyCreated" (.bool true))),
      db.putCollection collection
        { c with indexes := c.indexes ++ [index], nextIndex := c.nextIndex + 1 })

/-- List the indexes of a collection. -/
def listIndexes (db : Database) (r : Request) : Change := do
  let collection ← indexedCollection r
  let c ← db.collection collection
  .ok (answered 200
    (.obj ⟨[("indexes", .arr (primaryIndex collection :: c.indexes.map .obj))]⟩), db)

/-- Drop an index. -/
def dropIndex (db : Database) (collection number : String) : Change := do
  let id := collection ++ "/" ++ number
  let c ← db.collection collection
  let kept := c.indexes.filter fun index => !(Document.value index "id").isTextOf id
  if kept.length = c.indexes.length then .error (.noIndex id)
  else
    .ok (answered 200 (.obj ⟨[("id", .str id)]⟩),
      db.putCollection collection { c with indexes := kept })

/-! ### Views -/

/-- Create a view. -/
def createView (db : Database) (body : Json) : Change := do
  let definition ← objectBody "view definition" body
  let name ← nameIn "view name" body
  db.freshName name
  .ok (answered 201 (.obj definition), db.putView name definition)

/-- Show a view. -/
def showView (db : Database) (name : String) : Change := do
  let v ← db.view name
  .ok (answered 200 (.obj v), db)

/-- Overwrite a property of a view; links are added to those that are there. -/
def changeProperty (v : Dict Json) (key : String) (value : Json) : Dict Json :=
  match key == "links", v.get? "links", value with
  | true, some (.obj links), .obj added => v.insert "links" (.obj (links.merge added))
  | _, _, _ => v.insert key value

/-- Change properties of a view. -/
def changeView (db : Database) (name : String) (body : Json) : Change := do
  let v ← db.view name
  let changes := (body.members?.getD {}).entries
  let changed := changes.foldl (fun v change => changeProperty v change.1 change.2) v
  .ok (answered 200 (.obj changed), db.putView name changed)

/-- Give a view another name. -/
def renameView (db : Database) (name : String) (body : Json) : Change := do
  let target ← nameIn "new name" body
  db.freshName target
  let v ← db.view name
  let renamed := v.insert "name" (.str target)
  .ok (answered 200 (.obj renamed),
    { db with views := (db.views.erase name).insert target renamed })

/-- Drop a view. -/
def dropView (db : Database) (name : String) : Change := do
  let _ ← db.view name
  .ok (answered 200 (.obj ⟨[("result", .bool true)]⟩),
    { db with views := db.views.erase name })

/-! ### Analyzers -/

/-- Create an analyzer. -/
def createAnalyzer (db : Database) (body : Json) : Change := do
  let name ← nameIn "analyzer name" body
  if db.analyzers.contains name then .error (.nameTaken name)
  else .ok (answered 201 body, { db with analyzers := db.analyzers.insert name body })

/-- Show an analyzer. -/
def showAnalyzer (db : Database) (name : String) : Change := do
  let a ← db.analyzer name
  .ok (answered 200 a, db)

/-- Drop an analyzer. -/
def dropAnalyzer (db : Database) (name : String) : Change := do
  let _ ← db.analyzer name
  .ok (answered 200 (.obj ⟨[("name", .str name)]⟩),
    { db with analyzers := db.analyzers.erase name })

end Database

end DocStore
