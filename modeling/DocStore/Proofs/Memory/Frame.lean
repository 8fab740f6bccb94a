/-
Module: DocStore.Proofs.Memory.Frame
Purpose: which collections a request can change the documents of, and that it leaves the
  documents of all others as they are.
Main exports:
  Database.documentsOf, Store.documentsOf, Route.targets, Route.change?,
  Route.change?_documents, Store.perform_of_change
-/
import DocStore.Proofs.Memory.Changes
import DocStore.Proofs.Memory.Serving

namespace DocStore

namespace Database

/-- The documents of a collection, if there is one of that name. -/
def documentsOf (db : Database) (name : String) : Option (List Document) :=
  (db.collections.get? name).map (·.documents)

theorem documentsOf_putCollection_of_ne (db : Database) {name other : String}
    (c : StoredCollection) (different : other ≠ name) :
    (db.putCollection name c).documentsOf other = db.documentsOf other := by
  simp [documentsOf, putCollection, Dict.get?_insert_of_ne _ _ different]

/-- Putting a collection in place of one with the same documents leaves all
documents. -/
theorem documentsOf_putCollection_same {db : Database} {name : String} {c new : StoredCollection}
    (stored : db.collections.get? name = some c) (same : new.documents = c.documents)
    (other : String) : (db.putCollection name new).documentsOf other = db.documentsOf other := by
  unfold documentsOf putCollection
  rw [Dict.get?_insert]
  split
  · next own =>
      subst own
      simp [stored, same]
  · rfl

end Database

/-- The collection that a query removes documents of. -/
def removalTargets (body : Json) : List String :=
  match (body.field "query").text? with
  | none => []
  | some aql =>
      match Statement.read? aql ((body.field "bindVars").members?.getD {}) with
      | none => []
      | some q => if q.effect = .removal then [q.collection] else []

namespace Route

/-- The collections that what a request asks for creates, renames, drops or changes
the documents of.  The end of a transaction is not counted. -/
def targets (body : Json) : Route → List String
  | .createCollection => (body.field "name").text?.toList
  | .renameCollection name => name :: (body.field "name").text?.toList
  | .dropCollection name => [name]
  | .insertDocument collection => [collection]
  | .changeDocument collection _ => [collection]
  | .removeDocument collection _ => [collection]
  | .openCursor => removalTargets body
  | _ => []

/-- What a request that concerns definitions does to its database. -/
def change? (r : Request) (body : Json) : Route → Option (Database → Change)
  | .createCollection => some (·.createCollection body)
  | .showCollection name => some (·.showCollection name)
  | .changeCollection name => some (·.changeCollection name body)
  | .renameCollection name => some (·.renameCollection name body)
  | .dropCollection name => some (·.dropCollection name)
  | .createIndex => some (·.createIndex r body)
  | .listIndexes => some (·.listIndexes r)
  | .dropIndex collection number => some (·.dropIndex collection number)
  | .createView => some (·.createView body)
  | .showView name => some (·.showView name)
  | .changeView name => some (·.changeView name body)
  | .renameView name => some (·.renameView name body)
  | .dropView name => some (·.dropView name)
  | .createAnalyzer => some (·.createAnalyzer body)
  | .showAnalyzer name => some (·.showAnalyzer name)
  | .dropAnalyzer name => some (·.dropAnalyzer name)
  | _ => none

/-- Definitions are changed without changing documents of collections that are not
among the targets. -/
theorem change?_documents {r : Request} {body : Json} {route : Route}
    {change : Database → Change} (is : route.change? r body = some change) {db db' : Database}
    {response : Response} (changed : change db = .ok (response, db')) {name : String}
    (untouched : name ∉ route.targets body) : db'.documentsOf name = db.documentsOf name := by
  cases route <;> cases is
  case createCollection =>
    obtain ⟨_, given, _, named, _, _, _, rfl⟩ := Database.createCollection_eq_ok_iff.mp changed
    have other : name ≠ given := by
      rintro rfl
      apply untouched
      simp [targets, named, Json.text?]
    exact Database.documentsOf_putCollection_of_ne db _ other
  case changeCollection =>
    obtain ⟨c, stored, _, rfl⟩ := Database.changeCollection_eq_ok_iff.mp changed
    apply Database.documentsOf_putCollection_same stored
    rfl
  case renameCollection source =>
    obtain ⟨target, c, named, _, _, _, rfl⟩ := Database.renameCollection_eq_ok_iff.mp changed
    have others : name ≠ source ∧ name ≠ target := by
      simpa [targets, named, Json.text?] using untouched
    simp [Database.documentsOf, Dict.get?_insert_of_ne _ _ others.2, Dict.get?_erase, others.1]
  case dropCollection source =>
    obtain ⟨_, _, rfl⟩ := Database.dropCollection_eq_ok_iff.mp changed
    have other : name ≠ source := by simpa [targets] using untouched
    simp [Database.documentsOf, Dict.get?_erase, other]
  case createIndex =>
    obtain ⟨_, _, c, _, _, stored, _, _, rfl⟩ := Database.createIndex_eq_ok_iff.mp changed
    apply Database.documentsOf_putCollection_same stored
    rfl
  case listIndexes =>
    obtain ⟨_, _, _, _, _, rfl⟩ := Database.listIndexes_eq_ok_iff.mp changed
    rfl
  case dropIndex =>
    obtain ⟨c, stored, _, _, rfl⟩ := Database.dropIndex_eq_ok_iff.mp changed
    apply Database.documentsOf_putCollection_same stored
    rfl
  case createView =>
    obtain ⟨_, _, _, _, _, _, rfl⟩ := Database.createView_eq_ok_iff.mp changed
    rfl
  case renameView =>
    obtain ⟨_, _, _, _, _, _, rfl⟩ := Database.renameView_eq_ok_iff.mp changed
    rfl
  case createAnalyzer =>
    obtain ⟨_, _, _, _, rfl⟩ := Database.createAnalyzer_eq_ok_iff.mp changed
    rfl
  -- What is left shows something, or changes or drops a view or an analyzer.
  all_goals
    obtain ⟨_, _, rest⟩ := exceptBind_eq_ok_iff.mp changed
    cases rest
    rfl

end Route

namespace Store

/-- The documents of a collection of a database, if there is one of that name. -/
def documentsOf (s : Store) (database name : String) : Option (List Document) :=
  (s.database database).documentsOf name

theorem documentsOf_putDatabase_of_ne (s : Store) {database other : String} (db : Database)
    (different : other ≠ database) (name : String) :
    (s.putDatabase database db).documentsOf other name = s.documentsOf other name := by
  rw [documentsOf, database_putDatabase_of_ne s db different, documentsOf]

theorem perform_of_change {s : Store} {r : Request} {body : Json} {route : Route}
    {change : Database → Change} (is : route.change? r body = some change) :
    s.perform r body route = s.serveChange (s.databaseOf r) change := by
  cases route <;> cases is <;> rfl

/-- A change of definitions either fails and leaves the store, or puts the changed
database in place. -/
theorem serveChange_cases (s : Store) (database : String) (change : Database → Change) :
    (∃ refusal, s.serveChange database change = (.error refusal, s)) ∨
      ∃ response db, change (s.database database) = .ok (response, db) ∧
        s.serveChange database change = (.ok response, s.putDatabase database db) := by
  unfold serveChange
  cases changed : change (s.database database) with
  | error refusal => exact Or.inl ⟨refusal, rfl⟩
  | ok result => exact Or.inr ⟨result.1, result.2, rfl, rfl⟩

end Store

end DocStore
