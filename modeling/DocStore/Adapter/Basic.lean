/-
Module: DocStore.Adapter.Basic
Purpose: writing and reading entities, transactions and definitions through one adapter.
Main exports:
  Adapter, Adapter.insert, Adapter.update, Adapter.delete, Adapter.execute,
  Adapter.transaction, Adapter.define, Adapter.ensureView
-/
import DocStore.Adapter.Document
import DocStore.Adapter.Settings
import DocStore.Entity.Registry

namespace DocStore

/-- An adapter: its settings, and the entity types that it knows. -/
structure Adapter where
  settings : AdapterSettings := {}
  registry : Registry := {}

namespace Adapter

/-- The database of all requests. -/
def database (a : Adapter) : Option String :=
  a.settings.tenant

/-- Run a command on objects that live in the adapter's database unless they
declare another one. -/
def define (a : Adapter) (command : Command) : Exchange Report :=
  (command.withDefaultTenant a.database).perform none none

/-- Run a command whose report is of no interest. -/
def ensure (a : Adapter) (command : Command) : Exchange Unit := do
  let _ ← a.define command
  return ()

/-! ### Documents -/

/-- Post a document. -/
def postDocument (a : Adapter) (e : Entity) (document : Row) (transaction : Option Transaction) :
    Exchange Json :=
  .request (((Request.post ("document/" ++ e.collection) (.obj document)).withDatabase
    a.database).inTransaction transaction)

/-- Create the collection of an entity. -/
def createCollectionOf (a : Adapter) (e : Entity) : Exchange Unit :=
  a.ensure (.createIfNotExists (.collection { name := e.collection, kind := e.kind }))

/-- Whether a failed insert is to be repeated after its collection is created. -/
def createsFor (a : Adapter) (error : Error) : Bool :=
  !a.settings.staticMode && error.number? == some StoreError.dataSourceNotFound

/-- Post a document, creating its collection if that is missing and the mode allows
it. -/
def storeDocument (a : Adapter) (e : Entity) (document : Row)
    (transaction : Option Transaction) : Exchange Json := do
  match ← (a.postDocument e document transaction).attempt with
  | .ok created => return created
  | .error error =>
      if a.createsFor error then do
        a.createCollectionOf e
        a.postDocument e document transaction
      else .fail error

/-- Insert a row; the value is the row with its primary key. -/
def insert (a : Adapter) (e : Entity) (fields : Row) (transaction : Option Transaction) :
    Exchange Row := do
  let document ← .ofExcept (e.toDocument fields)
  let created ← a.storeDocument e document transaction
  match (created.field "_key").text? with
  | none => .fail (.transport (.noDocumentKey e.collection created))
  | some key => return (fields.erase "_key").insert e.primaryKey (.str key)

/-- Insert rows one after the other, up to the first that fails. -/
def insertAll (a : Adapter) (e : Entity) (rows : List Row) (transaction : Option Transaction) :
    Exchange (List Row) :=
  .forEach (fun fields => a.insert e fields transaction) rows

/-- The key in a key or a document identifier. -/
def keyOf (id : String) : Except Error String :=
  match DocumentId.keyOf id with
  | .ok key => .ok key
  | .error fault => .error (.format fault)

/-- Overwrite fields of the document with a key; the value is its row afterwards. -/
def update (a : Adapter) (e : Entity) (id : String) (fields : Row)
    (transaction : Option Transaction) : Exchange Row := do
  let key ← .ofExcept (keyOf id)
  let changes := (fields.erase e.primaryKey).erase "_key"
  let response ← .request ((((Request.patch ("document/" ++ e.collection ++ "/" ++ key)
    (.obj changes)).withQuery "returnNew" "true").withDatabase a.database).inTransaction
    transaction)
  return e.ofDocument (response.field "new")

/-- Delete the document with a key. -/
def delete (a : Adapter) (e : Entity) (id : String) (transaction : Option Transaction) :
    Exchange Unit := do
  let key ← .ofExcept (keyOf id)
  .command (((Request.delete ("document/" ++ e.collection ++ "/" ++ key)).withDatabase
    a.database).inTransaction transaction)

/-! ### Queries -/

/-- The failure of a query, with its text and parameters. -/
def explain (compiled : CompiledQuery) (r : Except Error (List Json)) :
    Except Error (List Json) :=
  match r with
  | .ok rows => .ok rows
  | .error e => .error (.query compiled.text compiled.params e)

/-- Run a query; the value is its rows.  A query that does not compile makes no
request. -/
def execute (a : Adapter) (query : Query) (operation : Operation)
    (transaction : Option Transaction) : Exchange (List Row) := do
  let compiled ← .ofExcept (query.compile operation)
  let outcome ← (Exchange.runCursor a.database compiled.text compiled.bindVars
    transaction).attempt
  let rows ← .ofExcept (explain compiled outcome)
  .ofExcept (rows.mapM (hydrate compiled.columns query.root.entity))

/-! ### Transactions -/

/-- Run an operation in a transaction of the adapter's database. -/
def transaction {α : Type} (a : Adapter) (write : List String)
    (operation : Transaction → Exchange α) : Exchange α :=
  withTransaction a.database write operation

/-! ### Views -/

/-- Create an analyzer if it is missing. -/
def ensureAnalyzer (a : Adapter) (analyzer : Analyzer) : Exchange Unit := do
  let lookup := (Request.get ("analyzer/" ++ analyzer.name)).withDatabase
    (analyzer.tenant.or a.database)
  match ← (Exchange.request lookup).attempt with
  | .ok _ => return ()
  | .error e => if e.isNotFound then a.ensure (.create (.analyzer analyzer)) else .fail e

/-- Create a linked collection if it is missing, of the kind of the entity that is
stored in it. -/
def ensureLinked (a : Adapter) (view : View) (name : String) : Exchange Unit :=
  let kind := ((a.registry.byCollection name).map Entity.kind).getD .document
  a.ensure (.createIfNotExists (.collection { name, kind, tenant := view.tenant }))

/-- Make sure that a view is there.  In static mode it must be there; otherwise the
analyzers and collections that it uses, and the view itself, are created as
needed. -/
def ensureView (a : Adapter) (view : View) (analyzers : List Analyzer) : Exchange Unit :=
  if a.settings.staticMode then
    .command ((Request.get ("view/" ++ view.name)).withDatabase (view.tenant.or a.database))
  else do
    let used := view.analyzerNames
    let _ ← .forEach a.ensureAnalyzer (analyzers.filter fun analyzer =>
      used.contains analyzer.name)
    let _ ← .forEach (a.ensureLinked view) view.links.keys
    a.ensure (.createIfNotExists (.view view))

end Adapter

end DocStore
