/-
Module: DocStore.Proofs.Memory.Labelled
Purpose: the identifiers of the indexes of a collection begin with its name, unless the collection
  got its name from a request that renames.
Main exports:
  Database.Labelled, Request.MovesTo, Store.labelled_answer
-/
import DocStore.Proofs.Memory.Namespace

namespace DocStore

/-!
An index gets its identifier when it is created: the name of its collection and a number.  The
identifier stays when the collection is renamed.  So it begins with the name of the collection as
long as no collection is moved to that name.
-/

/-- The identifiers of the indexes begin with the name. -/
def StoredCollection.Labelled (name : String) (c : StoredCollection) : Prop :=
  ∀ index ∈ c.indexes, ∃ number : Nat,
    Document.value index "id" = .str (name ++ "/" ++ toString number)

theorem DocumentWrite.labelled_apply {name : String} {c : StoredCollection}
    (labelled : c.Labelled name) (w : DocumentWrite) : (w.apply c).Labelled name := by
  cases w <;> exact labelled

namespace Database

/-- So do those of the collection of the name, if there is one. -/
def Labelled (name : String) (db : Database) : Prop :=
  ∀ c, db.collections.get? name = some c → c.Labelled name

namespace Labelled

variable {db db' : Database} {name : String}

theorem putCollection (labelled : db.Labelled name) {other : String} {c : StoredCollection}
    (own : other = name → c.Labelled name) : (db.putCollection other c).Labelled name := by
  intro d stored
  rw [Database.putCollection, Dict.get?_insert] at stored
  split at stored
  · next same =>
      cases stored
      exact own same.symm
  · exact labelled d stored

/-- What is put under a name of a collection has the indexes of that collection, or has others
that bear the name. -/
theorem putStored (labelled : db.Labelled name) {other : String} {c new : StoredCollection}
    (stored : db.collections.get? other = some c)
    (kept : c.Labelled name → new.Labelled name) : (db.putCollection other new).Labelled name := by
  apply labelled.putCollection
  rintro rfl
  exact kept (labelled c stored)

theorem eraseCollection (labelled : db.Labelled name) (other : String) :
    { db with collections := db.collections.erase other }.Labelled name := by
  intro d stored
  rw [Dict.get?_erase] at stored
  split at stored
  · cases stored
  · exact labelled d stored

/-- A change of definitions keeps the identifiers, unless it moves a collection to the name. -/
theorem becomes {body : Json} {route : Route} (labelled : db.Labelled name)
    (defined : db.Becomes body route db')
    (unmoved : ∀ source, route = .renameCollection source → body.field "name" ≠ .str name) :
    db'.Labelled name := by
  cases defined with
  | shown => exact labelled
  | collectionCreated =>
      exact labelled.putCollection fun _ _ member => absurd member List.not_mem_nil
  | collectionChanged stored => exact labelled.putStored stored id
  | @collectionRenamed source target c _ named free stored =>
      apply (labelled.eraseCollection source).putCollection
      rintro rfl
      exact absurd named (unmoved source rfl)
  | collectionDropped => exact labelled.eraseCollection _
  | @indexCreated collection c definition stored unused =>
      apply labelled.putCollection
      rintro rfl
      have new := (StoredCollection.Numbered.value_newIndex collection c definition).2
      exact List.forall_mem_append.mpr
        ⟨labelled c stored, List.forall_mem_singleton.mpr ⟨c.nextIndex, new⟩⟩
  | indexDropped stored =>
      refine labelled.putStored stored fun own index member => ?_
      exact own index (List.mem_filter.mp member).1
  | viewCreated => exact labelled
  | viewChanged => exact labelled
  | viewRenamed => exact labelled
  | viewDropped => exact labelled
  | analyzers => exact labelled

/-- Taking writes back concerns documents only. -/
theorem undoAll (labelled : db.Labelled name) (undos : List Undo) :
    (undos.foldl Database.undo db).Labelled name := by
  have modified : ∀ (db : Database) (other : String) (f : StoredCollection → StoredCollection),
      (∀ c, (f c).indexes = c.indexes) → db.Labelled name →
        (db.modifyCollection other f).Labelled name := by
    intro db other f kept labelled
    unfold modifyCollection Dict.modify
    cases stored : db.collections.get? other with
    | none => exact labelled
    | some c =>
        refine labelled.putStored stored fun own => ?_
        unfold StoredCollection.Labelled
        rw [kept c]
        exact own
  induction undos generalizing db with
  | nil => exact labelled
  | cons u rest inductionHypothesis =>
      apply inductionHypothesis
      cases u with
      | remove collection key => exact modified db collection _ (fun _ => rfl) labelled
      | restore collection d => exact modified db collection _ (fun _ => rfl) labelled

end Labelled

end Database

/-- The request moves a collection of the database to the name. -/
def Request.MovesTo (home database name : String) (r : Request) : Prop :=
  (∃ source, Route.of? r = some (.renameCollection source)) ∧
    (r.body.getD .null).field "name" = .str name ∧ r.database.getD home = database

namespace Store

variable {s s' : Store} {r : Request} {database name : String}

theorem labelled_putDatabase {other : String} {db : Database}
    (labelled : (s.database database).Labelled name)
    (own : other = database → db.Labelled name) :
    ((s.putDatabase other db).database database).Labelled name := by
  by_cases here : database = other
  · subst here
    rw [database_putDatabase_self]
    exact own rfl
  · rw [database_putDatabase_of_ne s db here]
    exact labelled

theorem labelled_step {route : Route} (labelled : (s.database database).Labelled name)
    (routed : Route.of? r = some route) (unmoved : ¬r.MovesTo s.home database name)
    (step : s.Step r route (r.body.getD .null) s') : (s'.database database).Labelled name := by
  cases step with
  | idle same =>
      rw [same.database_eq]
      exact labelled
  | @redefined db defined same =>
      rw [same.database_eq]
      apply labelled_putDatabase labelled
      rintro rfl
      exact labelled.becomes defined fun source is named =>
        unmoved ⟨⟨source, is ▸ routed⟩, named, rfl⟩
  | @wrote collection c w stored follows same =>
      rw [same.database_eq, Store.database, databases_noteUndos]
      change ((s.putCollection (s.databaseOf r) collection (w.apply c)).database
        database).Labelled name
      apply labelled_putDatabase labelled
      rintro rfl
      exact labelled.putStored stored fun own => w.labelled_apply own
  | begun same =>
      rw [same.database_eq]
      exact labelled
  | committed same =>
      rw [same.database_eq]
      exact labelled
  | @aborted id t opened same =>
      rw [same.database_eq]
      have kept : (({ s with transactions := s.transactions.erase id } : Store).database
        database).Labelled name := labelled
      apply labelled_putDatabase kept
      rintro rfl
      exact labelled.undoAll t.undo

theorem labelled_answer (labelled : (s.database database).Labelled name)
    (unmoved : ¬r.MovesTo s.home database name) :
    ((Store.server.answer s r).2.database database).Labelled name := by
  rcases step_answer s r with same | ⟨route, routed, step⟩
  · rw [same.database_eq]
    exact labelled
  · exact labelled_step labelled routed unmoved step

end Store

end DocStore
