/-
Module: DocStore.Migration.Execution
Purpose: the requests that a command makes.
Main exports:
  Definition.create, Definition.drop, Index.find, Command.perform, Command.performLogged
-/
import DocStore.Exchange.Transaction
import DocStore.Migration.Command
import DocStore.Migration.Report

namespace DocStore

/-!
Changes of definitions are made where the object lives: in its tenant, or in the
default database.  The store makes them at once, so a transaction applies to raw
queries only.
-/

namespace Analyzer

/-- Delete the analyzer, even if a view uses it. -/
def delete (a : Analyzer) : Exchange Unit :=
  .command (((Request.delete ("analyzer/" ++ a.name)).withQuery "force" "true").withDatabase
    a.tenant)

/-- Delete the analyzer if it is there. -/
def clear (a : Analyzer) : Exchange Unit := do
  match ← a.delete.attempt with
  | .ok () => return ()
  | .error e => if e.isNotFound then return () else .fail e

/-- Create the analyzer in the place of one with its name. -/
def create (a : Analyzer) : Exchange Unit := do
  a.clear
  .command ((Request.post "analyzer" a.body).withDatabase a.tenant)

end Analyzer

namespace Index

/-- The listed index with a name. -/
def inListing? (listing : Json) (name : String) : Option Json :=
  (((listing.field "indexes").items?).getD []).find? fun index =>
    (index.field "name").isTextOf name

/-- The identifier that the store gave to the index of this name. -/
def find (i : Index) : Exchange String := do
  let listing ← .request (((Request.get "index").withQuery "collection" i.collection).withDatabase
    i.tenant)
  match (inListing? listing i.indexName).bind fun index => (index.field "id").text? with
  | some id => return id
  | none => .fail (.store 404 StoreError.indexNotFound
      ("index `" ++ i.indexName ++ "` not found on `" ++ i.collection ++ "`"))

end Index

namespace Definition

/-- Create the object. -/
def create : Definition → Exchange Unit
  | collection c => do
      let body ← .ofSchema c.body
      .command ((Request.post "collection" body).withDatabase c.tenant)
  | index i => .command (((Request.post "index" i.body).withQuery "collection"
      i.collection).withDatabase i.tenant)
  | view v => .command ((Request.post "view" v.body).withDatabase v.tenant)
  | analyzer a => a.create

/-- Drop the object. -/
def drop : Definition → Exchange Unit
  | collection c => .command ((Request.delete ("collection/" ++ c.name)).withDatabase c.tenant)
  | index i => do
      let id ← i.find
      .command ((Request.delete ("index/" ++ id)).withDatabase i.tenant)
  | view v => .command ((Request.delete ("view/" ++ v.name)).withDatabase v.tenant)
  | analyzer a => a.delete

/-- The resource under which two objects of one kind can be renamed. -/
def renamedResource : Definition → Definition → Except SchemaFault String
  | collection _, collection _ => .ok "collection"
  | view _, view _ => .ok "view"
  | index i, index _ => .error (.renameKind (index i).kindWord)
  | analyzer a, analyzer _ => .error (.renameKind (analyzer a).kindWord)
  | source, target => .error (.renameInto source.kindWord target.kindWord)

/-- What has to hold before a rename: both objects in one database, of one kind
that can be renamed, and the new one valid.  The value is the resource. -/
def checkRename (source target : Definition) : Except SchemaFault String := do
  if source.tenant ≠ target.tenant then
    .error (.renameAcross source.name source.tenant target.tenant)
  else
    let resource ← renamedResource source target
    target.validate
    .ok resource

/-- Give an object the name of another one. -/
def rename (source target : Definition) : Exchange Unit := do
  let resource ← .ofSchema (checkRename source target)
  .command ((Request.put (resource ++ "/" ++ source.name ++ "/rename")
    (.obj ⟨[("name", .str target.name)]⟩)).withDatabase source.tenant)

end Definition

/-- Change the columns of a collection, starting from its stored validation
document. -/
def Collection.alter (c : Collection) (columns : List ColumnOp) : Exchange Unit := do
  let path := "collection/" ++ c.name ++ "/properties"
  let current ← .request ((Request.get path).withDatabase c.tenant)
  let existing := (current.get? "schema").filter fun schema => !schema.isNull
  let schema ← .ofSchema (generateSchema columns existing)
  .command ((Request.put path (.obj ⟨[("schema", schema)]⟩)).withDatabase c.tenant)

/-- Change a view from its definition as it was. -/
def View.alter (v : View) (changes : List ViewChange) : Exchange Unit := do
  let changed := v.apply changes
  .ofSchema changed.validate
  .command ((Request.patch ("view/" ++ v.name ++ "/properties")
    (.obj changed.properties)).withDatabase v.tenant)

namespace Command

/-- Run a command.  A raw query runs in the given transaction and database. -/
def perform (database : Option String) (transaction : Option Transaction) :
    Command → Exchange Report
  | create o => do
      .ofSchema o.validate
      o.create
      return .created o.kindWord o.name
  | createIfNotExists o => do
      .ofSchema o.validate
      match ← o.create.attempt with
      | .ok () => return .created o.kindWord o.name
      | .error e => if e.isConflict then return .alreadyThere o.kindWord o.name else .fail e
  | drop o => do
      o.drop
      return .dropped o.kindWord o.name
  | dropIfExists o => do
      match ← o.drop.attempt with
      | .ok () => return .dropped o.kindWord o.name
      | .error e => if e.isNotFound then return .notThere o.kindWord o.name else .fail e
  | alterCollection c columns => do
      c.alter columns
      return .altered "collection" c.name
  | alterView v changes => do
      v.alter changes
      return .altered "view" v.name
  | rename source target => do
      source.rename target
      return .renamed source.kindWord source.name target.name
  | execute aql => do
      let rows ← .runCursor database aql {} transaction
      return .queried rows.length

/-- Run a command without ever failing: a failure is reported as such. -/
def performLogged (command : Command) (database : Option String)
    (transaction : Option Transaction) : Exchange Report := do
  match ← (command.perform database transaction).attempt with
  | .ok report => return report
  | .error e => do
      .report .commandFailed
      return .failed e

end Command

end DocStore
