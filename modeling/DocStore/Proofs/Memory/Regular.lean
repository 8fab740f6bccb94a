/-
Module: DocStore.Proofs.Memory.Regular
Purpose: what holds of the definitions in every database that orderly requests lead to: they
  carry the names that they are stored under, no collection shares its name with a view, and
  indexes are numbered.
Main exports:
  StoredCollection.Regular, Database.Regular, Route.Orderly, Request.Orderly,
  Store.Regular.answer
-/
import DocStore.Proofs.Memory.Definitions
import DocStore.Proofs.Memory.Routing

namespace DocStore

/-! ### Databases -/

/-- A collection carries its name, and its indexes are numbered below the next one. -/
structure StoredCollection.Regular (name : String) (c : StoredCollection) : Prop where
  named : c.properties.get? "name" = some (.str name)
  numbered : ∀ index ∈ c.indexes, ∃ owner number,
    Document.value index "id" = .str (owner ++ "/" ++ toString number) ∧ number < c.nextIndex

namespace Database

/-- The collections and views of a database carry their names.  A name of a collection
has no slash and is not that of a view. -/
structure Regular (db : Database) : Prop where
  collections : ∀ name c, db.collections.get? name = some c → c.Regular name
  plain : ∀ name c, db.collections.get? name = some c → '/' ∉ name.toList
  apart : ∀ name c, db.collections.get? name = some c → db.views.get? name = none
  views : ∀ name v, db.views.get? name = some v → v.get? "name" = some (.str name)

namespace Regular

variable {db : Database} {name source target : String} {c : StoredCollection}

theorem empty : ({} : Database).Regular where
  collections _ _ := nofun
  plain _ _ := nofun
  apart _ _ := nofun
  views _ _ := nofun

theorem putCollection (regular : db.Regular) (own : c.Regular name) (plain : '/' ∉ name.toList)
    (noView : db.views.get? name = none) : (db.putCollection name c).Regular where
  collections other d stored := by
    rw [Database.putCollection, Dict.get?_insert] at stored
    split at stored
    · next same =>
        cases stored
        exact same ▸ own
    · exact regular.collections other d stored
  plain other d stored := by
    rw [Database.putCollection, Dict.get?_insert] at stored
    split at stored
    · next same => exact same ▸ plain
    · exact regular.plain other d stored
  apart other d stored := by
    rw [Database.putCollection, Dict.get?_insert] at stored
    split at stored
    · next same => exact same ▸ noView
    · exact regular.apart other d stored
  views := regular.views

/-- A collection that is there is put back with other contents. -/
theorem putAgain (regular : db.Regular) {old : StoredCollection}
    (stored : db.collections.get? name = some old) (own : c.Regular name) :
    (db.putCollection name c).Regular :=
  regular.putCollection own (regular.plain name old stored) (regular.apart name old stored)

/-- The documents do not matter. -/
theorem putDocuments (regular : db.Regular) (stored : db.collections.get? name = some c)
    (documents : List Document) :
    (db.putCollection name { c with documents := documents }).Regular :=
  regular.putAgain stored ⟨(regular.collections name c stored).named,
    (regular.collections name c stored).numbered⟩

theorem eraseCollection (regular : db.Regular) (name : String) :
    { db with collections := db.collections.erase name }.Regular := by
  have kept : ∀ other d, (db.collections.erase name).get? other = some d →
      db.collections.get? other = some d := by
    intro other d stored
    rw [Dict.get?_erase] at stored
    split at stored
    · cases stored
    · exact stored
  exact ⟨fun other d stored => regular.collections other d (kept other d stored),
    fun other d stored => regular.plain other d (kept other d stored),
    fun other d stored => regular.apart other d (kept other d stored), regular.views⟩

theorem putView (regular : db.Regular) {v : Dict Json} (named : v.get? "name" = some (.str name))
    (noCollection : db.collections.get? name = none) : (db.putView name v).Regular where
  collections := regular.collections
  plain := regular.plain
  apart other d stored := by
    rw [Database.putView, Dict.get?_insert]
    split
    · next same =>
        subst same
        cases noCollection.symm.trans stored
    · exact regular.apart other d stored
  views other w stored := by
    rw [Database.putView, Dict.get?_insert] at stored
    split at stored
    · next same =>
        cases stored
        exact same ▸ named
    · exact regular.views other w stored

theorem eraseView (regular : db.Regular) (name : String) :
    { db with views := db.views.erase name }.Regular where
  collections := regular.collections
  plain := regular.plain
  apart other d stored := by
    rw [Dict.get?_erase]
    split
    · rfl
    · exact regular.apart other d stored
  views other w stored := by
    rw [Dict.get?_erase] at stored
    split at stored
    · cases stored
    · exact regular.views other w stored

end Regular

theorem get?_field {fields : Dict Json} {key : String} {value : Json} (nonnull : value ≠ .null)
    (is : (Json.obj fields).field key = value) : fields.get? key = some value := by
  simp only [Json.field, Json.get?] at is
  cases found : fields.get? key with
  | none =>
      rw [found] at is
      exact absurd is.symm nonnull
  | some given =>
      rw [found, Option.getD_some] at is
      rw [is]

end Database

/-! ### Orderly requests -/

/-- Whether a change of definitions keeps to the names: collections get names without
slashes, and no properties are changed under which a name is found. -/
def Route.Orderly (body : Json) : Route → Prop
  | .createCollection => ∀ name, body.field "name" = .str name → '/' ∉ name.toList
  | .renameCollection _ => ∀ name, body.field "name" = .str name → '/' ∉ name.toList
  | .changeCollection _ => (body.members?.getD {}).get? "name" = none
  | .changeView _ => False
  | _ => True

theorem Database.Regular.change {db db' : Database} {r : Request} {body : Json} {route : Route}
    {change : Database → Change} {response : Response} (regular : db.Regular)
    (is : route.change? r body = some change) (orderly : route.Orderly body)
    (changed : change db = .ok (response, db')) : db'.Regular := by
  cases route <;> cases is
  case createCollection =>
    obtain ⟨fields, name, rfl, named, _, fresh, _, rfl⟩ :=
      createCollection_eq_ok_iff.mp changed
    refine regular.putCollection ⟨?_, ?_⟩ (orderly name named) (nameTaken_eq_false_iff.mp fresh).2
    · rw [get?_newProperties_of_ne _ (by decide) (by decide)]
      exact get?_field nofun named
    · exact fun index member => absurd member List.not_mem_nil
  case changeCollection =>
    obtain ⟨c, stored, _, rfl⟩ := changeCollection_eq_ok_iff.mp changed
    have own := regular.collections _ c stored
    refine regular.putAgain stored ⟨?_, own.numbered⟩
    exact (Dict.get?_merge_of_none _ orderly).trans own.named
  case renameCollection source =>
    obtain ⟨target, c, named, fresh, stored, _, rfl⟩ := renameCollection_eq_ok_iff.mp changed
    have own := regular.collections _ c stored
    exact (regular.eraseCollection source).putCollection
      ⟨Dict.get?_insert_self _ _ _, own.numbered⟩ (orderly target named)
      (nameTaken_eq_false_iff.mp fresh).2
  case dropCollection =>
    obtain ⟨_, _, rfl⟩ := dropCollection_eq_ok_iff.mp changed
    exact regular.eraseCollection _
  case createIndex =>
    obtain ⟨collection, definition, c, _, _, stored, _, _, rfl⟩ :=
      createIndex_eq_ok_iff.mp changed
    have own := regular.collections _ c stored
    refine regular.putAgain stored ⟨own.named, fun index member => ?_⟩
    rcases List.mem_append.mp member with old | new
    · obtain ⟨owner, number, numbered, below⟩ := own.numbered index old
      exact ⟨owner, number, numbered, Nat.lt_succ_of_lt below⟩
    · cases List.mem_singleton.mp new
      refine ⟨collection, c.nextIndex, ?_, Nat.lt_succ_self _⟩
      simp [newIndex, Document.value, Dict.get?_insert]
  case listIndexes =>
    obtain ⟨_, _, _, _, _, rfl⟩ := listIndexes_eq_ok_iff.mp changed
    exact regular
  case dropIndex =>
    obtain ⟨c, stored, _, _, rfl⟩ := dropIndex_eq_ok_iff.mp changed
    have own := regular.collections _ c stored
    refine regular.putAgain stored ⟨own.named, fun index member => ?_⟩
    exact own.numbered index (List.mem_filter.mp member).1
  case createView =>
    obtain ⟨definition, name, rfl, named, fresh, _, rfl⟩ := createView_eq_ok_iff.mp changed
    exact regular.putView (get?_field nofun named) (nameTaken_eq_false_iff.mp fresh).1
  case changeView => exact absurd orderly id
  case renameView source =>
    obtain ⟨target, v, _, fresh, stored, _, rfl⟩ := renameView_eq_ok_iff.mp changed
    exact (regular.eraseView source).putView (Dict.get?_insert_self _ _ _)
      (nameTaken_eq_false_iff.mp fresh).1
  case dropView =>
    obtain ⟨_, _, rfl⟩ := dropView_eq_ok_iff.mp changed
    exact regular.eraseView _
  case createAnalyzer =>
    obtain ⟨_, _, _, _, rfl⟩ := createAnalyzer_eq_ok_iff.mp changed
    exact ⟨regular.collections, regular.plain, regular.apart, regular.views⟩
  case dropAnalyzer =>
    obtain ⟨_, _, rfl⟩ := dropAnalyzer_eq_ok_iff.mp changed
    exact ⟨regular.collections, regular.plain, regular.apart, regular.views⟩
  -- What is left shows something.
  all_goals
    obtain ⟨_, _, rest⟩ := exceptBind_eq_ok_iff.mp changed
    cases rest
    exact regular

/-- Taking a write back concerns documents only. -/
theorem Database.Regular.undo {db : Database} (regular : db.Regular) (u : Undo) :
    (db.undo u).Regular := by
  have modified : ∀ (name : String) (f : StoredCollection → StoredCollection),
      (∀ c, ∃ documents, f c = { c with documents := documents }) →
        (db.modifyCollection name f).Regular := by
    intro name f documentsOnly
    unfold modifyCollection Dict.modify
    cases stored : db.collections.get? name with
    | none => exact regular
    | some c =>
        obtain ⟨documents, is⟩ := documentsOnly c
        simp only [is]
        exact regular.putDocuments stored documents
  cases u with
  | remove collection key => exact modified collection _ fun c => ⟨_, rfl⟩
  | restore collection d => exact modified collection _ fun c => ⟨_, rfl⟩

/-- Whether a request is orderly, whatever it asks for. -/
def Request.Orderly (r : Request) : Prop :=
  ∀ route, Route.of? r = some route → route.Orderly (r.body.getD .null)

namespace Store

/-- All databases of the store are regular. -/
def Regular (s : Store) : Prop :=
  ∀ name, (s.database name).Regular

theorem Regular.of_same {s s' : Store} (regular : s.Regular) (same : SameData s s') :
    s'.Regular := by
  intro name
  rw [same.database_eq]
  exact regular name

theorem Regular.putDatabase {s : Store} (regular : s.Regular) {database : String} {db : Database}
    (own : db.Regular) : (s.putDatabase database db).Regular := by
  intro name
  by_cases here : name = database
  · subst here
    rw [database_putDatabase_self]
    exact own
  · rw [database_putDatabase_of_ne s db here]
    exact regular name

theorem Regular.documentStep {s s' : Store} {r : Request} {body : Json} {targets : List String}
    (regular : s.Regular) (step : DocumentStep s r body targets s') : s'.Regular := by
  cases step with
  | idle same => exact regular.of_same same
  | @wrote collection c w listed permitted stored fits same =>
      refine Regular.of_same (fun name => ?_) same
      have put : (s.putCollection (s.databaseOf r) collection (w.apply c)).Regular := by
        apply regular.putDatabase
        have own := regular (s.databaseOf r)
        cases w <;> exact own.putDocuments stored _
      have unchanged : ((s.putCollection (s.databaseOf r) collection (w.apply c)).noteUndos r
          (w.undos collection)).database name =
            (s.putCollection (s.databaseOf r) collection (w.apply c)).database name := by
        simp only [Store.database, databases_noteUndos]
      rw [unchanged]
      exact put name

theorem Regular.abort {s : Store} (regular : s.Regular) (id : String) :
    (s.abortTransaction id).2.Regular := by
  unfold abortTransaction
  split
  · exact regular
  · next t _ =>
      have undone : ∀ (undos : List Undo) (db : Database), db.Regular →
          (undos.foldl Database.undo db).Regular := by
        intro undos
        induction undos with
        | nil => exact fun _ own => own
        | cons u rest inductionHypothesis =>
            exact fun db own => inductionHypothesis _ (own.undo u)
      have kept : { s with transactions := s.transactions.erase id }.Regular := regular
      exact kept.putDatabase (undone t.undo _ (regular t.database))

theorem Regular.perform {s : Store} {r : Request} {body : Json} {route : Route}
    (regular : s.Regular) (orderly : route.Orderly body) : (s.perform r body route).2.Regular := by
  cases changes : route.change? r body with
  | some change =>
      rw [perform_of_change changes]
      rcases serveChange_cases s (s.databaseOf r) change with ⟨_, failed⟩ | ⟨_, db, changed, put⟩
      · rw [failed]
        exact regular
      · rw [put]
        exact regular.putDatabase ((regular _).change changes orderly changed)
  | none =>
      cases within : route.isTransactional with
      | false => exact regular.documentStep (documentStep_perform changes within)
      | true =>
          cases route with
          | beginTransaction => exact regular
          | commitTransaction id =>
              change (s.commitTransaction id).2.Regular
              unfold commitTransaction
              split <;> exact regular
          | abortTransaction id => exact regular.abort id
          | _ => cases within

/-- Orderly requests keep all databases regular. -/
theorem Regular.answer {s : Store} {r : Request} (regular : s.Regular) (orderly : r.Orderly) :
    (Store.server.answer s r).2.Regular := by
  have noted := regular.of_same (sameData_noteRequest s r)
  rcases answer_cases s r with ⟨_, refused⟩ | ⟨route, routed, _, answered⟩
  · rw [refused]
    exact noted
  · rw [answered]
    exact noted.perform (orderly route routed)

end Store

end DocStore
