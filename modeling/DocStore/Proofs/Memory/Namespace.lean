/-
Module: DocStore.Proofs.Memory.Namespace
Purpose: in every database that requests lead to, no name is that of a collection and of a
  view, and the indexes of a collection are told apart by their names and by their numbers.
Main exports:
  StoredCollection.Numbered, Database.Namespace, Database.Namespace.becomes,
  Store.Namespace.answer, Store.namespace_of_requests
-/
import DocStore.Proofs.Memory.Alike
import DocStore.Proofs.Memory.Step

namespace DocStore

/-! ### Collections -/

/-- The indexes of a collection have names and numbers of their own.  The numbers are below
the one that the next index gets, so that it will be told apart too. -/
structure StoredCollection.Numbered (c : StoredCollection) : Prop where
  positive : 1 ≤ c.nextIndex
  named : ∀ index ∈ c.indexes, ∃ name, Document.value index "name" = .str name
  names : c.indexes.Pairwise fun a b => Document.value a "name" ≠ Document.value b "name"
  numbered : ∀ index ∈ c.indexes, ∃ owner number,
    Document.value index "id" = .str (owner ++ "/" ++ toString number) ∧
      1 ≤ number ∧ number < c.nextIndex
  ids : c.indexes.Pairwise fun a b => Document.value a "id" ≠ Document.value b "id"

namespace StoredCollection.Numbered

variable {c new : StoredCollection}

/-- A new collection has no indexes. -/
theorem fresh (properties : Dict Json) : Numbered { properties } where
  positive := Nat.le_refl 1
  named _ member := absurd member List.not_mem_nil
  names := List.Pairwise.nil
  numbered _ member := absurd member List.not_mem_nil
  ids := List.Pairwise.nil

/-- Properties and documents do not matter. -/
theorem of_eq (numbered : c.Numbered) (indexes : new.indexes = c.indexes)
    (next : new.nextIndex = c.nextIndex) : new.Numbered := by
  constructor
  · rw [next]
    exact numbered.positive
  · rw [indexes]
    exact numbered.named
  · rw [indexes]
    exact numbered.names
  · rw [indexes, next]
    exact numbered.numbered
  · rw [indexes]
    exact numbered.ids

/-- A new index is named and numbered. -/
theorem value_newIndex (collection : String) (c : StoredCollection) (definition : Dict Json) :
    (∃ name, Document.value (Database.newIndex collection c definition) "name" = .str name) ∧
      Document.value (Database.newIndex collection c definition) "id" =
        .str (collection ++ "/" ++ toString c.nextIndex) := by
  unfold Document.value Database.newIndex
  rw [Dict.get?_insert_self, Dict.get?_insert_of_ne _ _ (by decide), Dict.get?_insert_self]
  exact ⟨⟨_, rfl⟩, rfl⟩

/-- An index with the next number, and with a name that no other one has. -/
theorem withIndex (numbered : c.Numbered) {collection : String} {definition : Dict Json}
    (unused : ∀ index ∈ c.indexes, Document.value index "name" ≠
      Document.value (Database.newIndex collection c definition) "name") :
    Numbered
      { c with
        indexes := c.indexes ++ [Database.newIndex collection c definition]
        nextIndex := c.nextIndex + 1 } := by
  obtain ⟨named, isId⟩ := value_newIndex collection c definition
  constructor
  · exact Nat.le_add_left 1 c.nextIndex
  · exact List.forall_mem_append.mpr ⟨numbered.named, List.forall_mem_singleton.mpr named⟩
  · refine List.pairwise_append.mpr ⟨numbered.names, List.pairwise_singleton _ _, ?_⟩
    intro index member last isLast
    cases List.mem_singleton.mp isLast
    exact unused index member
  · refine List.forall_mem_append.mpr ⟨fun index member => ?_, ?_⟩
    · obtain ⟨owner, number, is, positive, below⟩ := numbered.numbered index member
      exact ⟨owner, number, is, positive, Nat.lt_succ_of_lt below⟩
    · exact List.forall_mem_singleton.mpr
        ⟨collection, c.nextIndex, isId, numbered.positive, Nat.lt_succ_self _⟩
  · refine List.pairwise_append.mpr ⟨numbered.ids, List.pairwise_singleton _ _, ?_⟩
    intro index member last isLast
    cases List.mem_singleton.mp isLast
    obtain ⟨owner, number, is, _, below⟩ := numbered.numbered index member
    rw [is, isId]
    intro same
    exact Nat.ne_of_lt below (Database.id_injective (Json.str.inj same))

/-- Indexes are dropped, and the next number stays. -/
theorem sublist (numbered : c.Numbered) {kept : List (Dict Json)}
    (sub : kept.Sublist c.indexes) : Numbered { c with indexes := kept } where
  positive := numbered.positive
  named index member := numbered.named index (sub.mem member)
  names := numbered.names.sublist sub
  numbered index member := numbered.numbered index (sub.mem member)
  ids := numbered.ids.sublist sub

end StoredCollection.Numbered

theorem DocumentWrite.numbered_apply {c : StoredCollection} (numbered : c.Numbered)
    (w : DocumentWrite) : (w.apply c).Numbered := by
  cases w <;> exact numbered.of_eq rfl rfl

/-! ### Databases -/

namespace Database

/-- Collections and views share one space of names, and the indexes of each collection are
told apart. -/
structure Namespace (db : Database) : Prop where
  apart : ∀ name, ¬(db.collections.contains name = true ∧ db.views.contains name = true)
  numbered : ∀ name c, db.collections.get? name = some c → c.Numbered

namespace Namespace

variable {db db' : Database} {name : String} {c : StoredCollection}

theorem empty : ({} : Database).Namespace where
  apart _ both := Bool.false_ne_true both.1
  numbered _ _ stored := by cases stored

/-- Under the name of a collection there is no view. -/
theorem noView (space : db.Namespace) (stored : db.collections.get? name = some c) :
    db.views.contains name = false := by
  rw [← Bool.not_eq_true]
  intro isView
  refine space.apart name ⟨?_, isView⟩
  rw [Dict.contains_eq, stored]
  rfl

theorem noCollection (space : db.Namespace) {v : Dict Json}
    (stored : db.views.get? name = some v) : db.collections.contains name = false := by
  rw [← Bool.not_eq_true]
  intro isCollection
  refine space.apart name ⟨isCollection, ?_⟩
  rw [Dict.contains_eq, stored]
  rfl

theorem putCollection (space : db.Namespace) (noView : db.views.contains name = false)
    (own : c.Numbered) : (db.putCollection name c).Namespace where
  apart other both := by
    rw [Database.putCollection, Dict.contains_insert] at both
    rcases both with ⟨rfl | old, isView⟩
    · rw [noView] at isView
      cases isView
    · exact space.apart other ⟨old, isView⟩
  numbered other d stored := by
    rw [Database.putCollection, Dict.get?_insert] at stored
    split at stored
    · cases stored
      exact own
    · exact space.numbered other d stored

theorem putView (space : db.Namespace) {v : Dict Json}
    (noCollection : db.collections.contains name = false) : (db.putView name v).Namespace where
  apart other both := by
    rw [Database.putView, Dict.contains_insert] at both
    rcases both with ⟨isCollection, rfl | old⟩
    · rw [noCollection] at isCollection
      cases isCollection
    · exact space.apart other ⟨isCollection, old⟩
  numbered := space.numbered

theorem eraseCollection (space : db.Namespace) (name : String) :
    { db with collections := db.collections.erase name }.Namespace where
  apart other both := by
    rw [Dict.contains_eq, Dict.get?_erase] at both
    split at both
    · cases both.1
    · exact space.apart other both
  numbered other d stored := by
    rw [Dict.get?_erase] at stored
    split at stored
    · cases stored
    · exact space.numbered other d stored

theorem eraseView (space : db.Namespace) (name : String) :
    { db with views := db.views.erase name }.Namespace where
  apart other both := by
    rw [Dict.contains_eq db.collections, Dict.contains_eq, Dict.get?_erase] at both
    split at both
    · cases both.2
    · exact space.apart other both
  numbered := space.numbered

/-- A change of definitions keeps names and numbers apart. -/
theorem becomes {body : Json} {route : Route} (space : db.Namespace)
    (defined : db.Becomes body route db') : db'.Namespace := by
  have fresh : ∀ {name}, db.nameTaken name = false →
      db.collections.contains name = false ∧ db.views.contains name = false :=
    fun free => Bool.or_eq_false_iff.mp free
  cases defined with
  | shown => exact space
  | collectionCreated named free => exact space.putCollection (fresh free).2 (.fresh _)
  | collectionChanged stored =>
      exact space.putCollection (space.noView stored) ((space.numbered _ _ stored).of_eq rfl rfl)
  | @collectionRenamed source target c _ named free stored =>
      -- The indexes move with the collection; their identifiers keep its old name.
      exact (space.eraseCollection source).putCollection (fresh free).2
        ((space.numbered source c stored).of_eq rfl rfl)
  | collectionDropped => exact space.eraseCollection _
  | indexCreated stored unused =>
      exact space.putCollection (space.noView stored)
        ((space.numbered _ _ stored).withIndex unused)
  | indexDropped stored =>
      exact space.putCollection (space.noView stored)
        ((space.numbered _ _ stored).sublist List.filter_sublist)
  | viewCreated named free => exact space.putView (fresh free).1
  | viewChanged stored => exact space.putView (space.noCollection stored)
  | viewRenamed named free stored => exact (space.eraseView _).putView (fresh free).1
  | viewDropped => exact space.eraseView _
  | analyzers => exact ⟨space.apart, space.numbered⟩

/-- Taking writes back concerns documents only. -/
theorem undo (space : db.Namespace) (u : Undo) : (db.undo u).Namespace := by
  have modified : ∀ (name : String) (f : StoredCollection → StoredCollection),
      (∀ c, (f c).indexes = c.indexes ∧ (f c).nextIndex = c.nextIndex) →
        (db.modifyCollection name f).Namespace := by
    intro name f kept
    unfold modifyCollection Dict.modify
    cases stored : db.collections.get? name with
    | none => exact space
    | some c =>
        exact space.putCollection (space.noView stored)
          ((space.numbered name c stored).of_eq (kept c).1 (kept c).2)
  cases u with
  | remove collection key => exact modified collection _ fun c => ⟨rfl, rfl⟩
  | restore collection d => exact modified collection _ fun c => ⟨rfl, rfl⟩

theorem undoAll (space : db.Namespace) (undos : List Undo) :
    (undos.foldl Database.undo db).Namespace := by
  induction undos generalizing db with
  | nil => exact space
  | cons u rest inductionHypothesis => exact inductionHypothesis (space.undo u)

end Namespace

end Database

/-! ### Stores -/

namespace Store

/-- Names and numbers are apart in all databases of a store. -/
def Namespace (s : Store) : Prop :=
  ∀ database, (s.database database).Namespace

variable {s s' : Store} {r : Request} {route : Route} {body : Json}

theorem Namespace.of_same (space : s.Namespace) (same : SameData s s') : s'.Namespace := by
  intro database
  rw [same.database_eq]
  exact space database

theorem Namespace.withTransactions (space : s.Namespace)
    (transactions : Dict OpenTransaction) : Namespace { s with transactions } :=
  space

theorem Namespace.putDatabase (space : s.Namespace) {database : String} {db : Database}
    (own : db.Namespace) : (s.putDatabase database db).Namespace := by
  intro name
  by_cases here : name = database
  · subst here
    rw [database_putDatabase_self]
    exact own
  · rw [database_putDatabase_of_ne s db here]
    exact space name

theorem Namespace.step (space : s.Namespace) (step : s.Step r route body s') : s'.Namespace := by
  cases step with
  | idle same => exact space.of_same same
  | redefined defined same =>
      exact (space.putDatabase ((space _).becomes defined)).of_same same
  | @wrote collection c w stored follows same =>
      have own := space (s.databaseOf r)
      have put : (s.putCollection (s.databaseOf r) collection (w.apply c)).Namespace :=
        space.putDatabase
          (own.putCollection (own.noView stored) (w.numbered_apply (own.numbered _ c stored)))
      refine Namespace.of_same (fun database => ?_) same
      rw [Store.database, databases_noteUndos]
      exact put database
  | begun same => exact (space.withTransactions _).of_same same
  | committed same => exact (space.withTransactions _).of_same same
  | @aborted id t opened same =>
      have kept := space.withTransactions (s.transactions.erase id)
      exact (kept.putDatabase ((space t.database).undoAll t.undo)).of_same same

theorem Namespace.answer (space : s.Namespace) (r : Request) :
    (Store.server.answer s r).2.Namespace := by
  rcases step_answer s r with same | ⟨route, _, step⟩
  · exact space.of_same same
  · exact space.step step

theorem Namespace.answers (space : s.Namespace) (requests : List Request) :
    (s.answers requests).Namespace := by
  induction requests generalizing s with
  | nil => exact space
  | cons r rest inductionHypothesis => exact inductionHypothesis (space.answer r)

/-- Whatever requests of whatever kind an empty store has answered, in whatever databases and
transactions, in every database no collection shares its name with a view, and the indexes of
each collection have names and numbers of their own. -/
theorem namespace_of_requests (home : String) (batchSize : Nat) (requests : List Request)
    (database : String) :
    ((({ home, batchSize } : Store).answers requests).database database).Namespace := by
  have start : ({ home, batchSize } : Store).Namespace := fun _ => Database.Namespace.empty
  exact start.answers requests database

/-- A number is not given again when its index is dropped, and a renamed collection goes on
counting: its indexes keep their identifiers. -/
example :
    let define := fun name => (Request.post "index" (.obj ⟨[("name", .str name)]⟩)).withQuery
    let s := ({} : Store).answers
      [.post "collection" (.obj ⟨[("name", .str "users")]⟩), define "a" "collection" "users",
        define "b" "collection" "users", .delete "index/users/1",
        .put "collection/users/rename" (.obj ⟨[("name", .str "people")]⟩),
        define "a" "collection" "people"]
    (s.indexes none "people").map (fun index => Document.value index "id") =
      [.str "users/2", .str "people/3"] := by
  rfl

end Store

end DocStore
