/-
Module: DocStore.Proofs.Memory.Step
Purpose: all that the answer to a request can do to the store in memory, and what many
  requests lead to.
Main exports:
  Database.Becomes, Route.becomes_of_change, DocumentWrite.Follows, Store.Step,
  Store.step_answer, Store.answers, Store.Meets
-/
import DocStore.Proofs.Memory.Untouched

namespace DocStore

/-!
A step says of an answer what invariants need to know: which definition came, went or
moved, which write was made to which collection for which request, and which transaction
began or ended.  The invariants below are proved by cases on steps, so that no one of them
opens the functions of the store.
-/

/-! ### Definitions -/

/-- What a request that concerns definitions makes of a database by its body, if it is not
refused. -/
inductive Database.Becomes (db : Database) (body : Json) : Route → Database → Prop where
  | shown {route : Route} : Becomes db body route db
  | collectionCreated {name : String} {properties : Dict Json}
      (named : body.field "name" = .str name) (free : db.nameTaken name = false) :
      Becomes db body .createCollection (db.putCollection name { properties })
  | collectionChanged {name : String} {c : StoredCollection} {properties : Dict Json}
      (stored : db.collections.get? name = some c) :
      Becomes db body (.changeCollection name) (db.putCollection name { c with properties })
  | collectionRenamed {source target : String} {c : StoredCollection} {properties : Dict Json}
      (named : body.field "name" = .str target) (free : db.nameTaken target = false)
      (stored : db.collections.get? source = some c) :
      Becomes db body (.renameCollection source)
        { db with
          collections := (db.collections.erase source).insert target { c with properties } }
  | collectionDropped {name : String} :
      Becomes db body (.dropCollection name) { db with collections := db.collections.erase name }
  | indexCreated {collection : String} {c : StoredCollection} {definition : Dict Json}
      (stored : db.collections.get? collection = some c)
      (unused : ∀ index ∈ c.indexes, Document.value index "name" ≠
        Document.value (newIndex collection c definition) "name") :
      Becomes db body .createIndex (db.putCollection collection
        { c with
          indexes := c.indexes ++ [newIndex collection c definition]
          nextIndex := c.nextIndex + 1 })
  | indexDropped {collection number : String} {c : StoredCollection}
      (stored : db.collections.get? collection = some c) :
      Becomes db body (.dropIndex collection number) (db.putCollection collection
        { c with indexes := indexesWithout (collection ++ "/" ++ number) c.indexes })
  | viewCreated {name : String} {v : Dict Json} (named : body.field "name" = .str name)
      (free : db.nameTaken name = false) :
      Becomes db body .createView (db.putView name v)
  | viewChanged {name : String} {v changed : Dict Json} (stored : db.views.get? name = some v) :
      Becomes db body (.changeView name) (db.putView name changed)
  | viewRenamed {source target : String} {v : Dict Json}
      (named : body.field "name" = .str target) (free : db.nameTaken target = false)
      (stored : db.views.get? source = some v) :
      Becomes db body (.renameView source)
        { db with
          views := (db.views.erase source).insert target (v.insert "name" (.str target)) }
  | viewDropped {name : String} :
      Becomes db body (.dropView name) { db with views := db.views.erase name }
  | analyzers {route : Route} {analyzers : Dict Json} : Becomes db body route { db with analyzers }

/-- All changes of definitions are among these. -/
theorem Route.becomes_of_change {r : Request} {body : Json} {route : Route}
    {change : Database → Change} (is : route.change? r body = some change) {db db' : Database}
    {response : Response} (changed : change db = .ok (response, db')) :
    db.Becomes body route db' := by
  cases route <;> cases is
  case createCollection =>
    obtain ⟨_, _, _, named, _, free, _, rfl⟩ := Database.createCollection_eq_ok_iff.mp changed
    exact .collectionCreated named free
  case changeCollection =>
    obtain ⟨_, stored, _, rfl⟩ := Database.changeCollection_eq_ok_iff.mp changed
    exact .collectionChanged stored
  case renameCollection =>
    obtain ⟨_, _, named, free, stored, _, rfl⟩ := Database.renameCollection_eq_ok_iff.mp changed
    exact .collectionRenamed named free stored
  case dropCollection =>
    obtain ⟨_, _, rfl⟩ := Database.dropCollection_eq_ok_iff.mp changed
    exact .collectionDropped
  case createIndex =>
    obtain ⟨_, _, _, _, rfl, stored, unused, _, rfl⟩ :=
      Database.createIndex_eq_ok_iff.mp changed
    refine .indexCreated stored fun index member same => ?_
    have other := List.any_eq_false.mp unused index member
    rw [Database.newIndex, Document.value, Document.value, Dict.get?_insert_self] at same
    apply other
    rw [Document.value, same]
    exact beq_self_eq_true _
  case listIndexes =>
    obtain ⟨_, _, _, _, _, rfl⟩ := Database.listIndexes_eq_ok_iff.mp changed
    exact .shown
  case dropIndex =>
    obtain ⟨_, stored, _, _, rfl⟩ := Database.dropIndex_eq_ok_iff.mp changed
    exact .indexDropped stored
  case createView =>
    obtain ⟨_, _, _, named, free, _, rfl⟩ := Database.createView_eq_ok_iff.mp changed
    exact .viewCreated named free
  case changeView =>
    obtain ⟨v, found, rest⟩ := exceptBind_eq_ok_iff.mp changed
    cases rest
    exact .viewChanged (Database.view_eq_ok_iff.mp found)
  case renameView =>
    obtain ⟨_, _, named, free, stored, _, rfl⟩ := Database.renameView_eq_ok_iff.mp changed
    exact .viewRenamed named free stored
  case dropView =>
    obtain ⟨_, _, rfl⟩ := Database.dropView_eq_ok_iff.mp changed
    exact .viewDropped
  case createAnalyzer =>
    obtain ⟨_, _, _, _, rfl⟩ := Database.createAnalyzer_eq_ok_iff.mp changed
    exact .analyzers
  case dropAnalyzer =>
    obtain ⟨_, _, rfl⟩ := Database.dropAnalyzer_eq_ok_iff.mp changed
    exact .analyzers
  -- What is left shows something.
  all_goals
    obtain ⟨_, _, rest⟩ := exceptBind_eq_ok_iff.mp changed
    cases rest
    exact .shown

/-! ### Documents -/

/-- What a write to a collection is like for a request: only insertions make documents, under
a free key and with an identifier, and only changes overwrite attributes, of the document that
the request names. -/
def DocumentWrite.Follows (route : Route) (body : Json) (collection : String)
    (c : StoredCollection) : DocumentWrite → Prop
  | insert key d => c.document? key = none ∧ d.value "_key" = .str key ∧
      d.value "_id" = .str (collection ++ "/" ++ key)
  | change key old new => route = .changeDocument collection key ∧ c.document? key = some old ∧
      ∃ revision, new = StoredCollection.changed old revision body
  | remove key old => c.document? key = some old
  | removeAll found => ∃ others, (found ++ others).Perm c.documents

/-- A new document is named after its collection and its key. -/
theorem StoredCollection.value_id_of_inserted {c new : StoredCollection}
    {name key revision : String} {fields : Dict Json} {d : Document}
    (inserted : c.insertDocument name key revision fields = .ok (d, new)) :
    d.value "_id" = .str (name ++ "/" ++ key) := by
  unfold insertDocument at inserted
  split at inserted
  · cases inserted
  · split at inserted
    · cases inserted
    · cases inserted
      rw [Document.value, Dict.get?_insert_of_ne _ _ (by decide), Dict.get?_insert_self]
      rfl

namespace Store

/-- What an answer leads to, but for names, revisions, cursors and what is noted. -/
inductive Step (s : Store) (r : Request) (route : Route) (body : Json) : Store → Prop where
  | idle {s' : Store} (same : SameData s s') : Step s r route body s'
  | redefined {s' : Store} {db : Database}
      (defined : (s.database (s.databaseOf r)).Becomes body route db)
      (same : SameData (s.putDatabase (s.databaseOf r) db) s') : Step s r route body s'
  | wrote {s' : Store} {collection : String} {c : StoredCollection} (w : DocumentWrite)
      (stored : (s.database (s.databaseOf r)).collections.get? collection = some c)
      (follows : w.Follows route body collection c)
      (same : SameData ((s.putCollection (s.databaseOf r) collection (w.apply c)).noteUndos r
        (w.undos collection)) s') : Step s r route body s'
  | begun {s' : Store} {id : String} {write : List String}
      (same : SameData
        { s with
          transactions := s.transactions.insert id { database := s.databaseOf r, write } } s') :
      Step s r route body s'
  | committed {s' : Store} {id : String}
      (same : SameData { s with transactions := s.transactions.erase id } s') :
      Step s r route body s'
  | aborted {s' : Store} {id : String} {t : OpenTransaction}
      (opened : s.transactions.get? id = some t)
      (same : SameData ({ s with transactions := s.transactions.erase id }.putDatabase t.database
        (t.undo.foldl Database.undo (s.database t.database))) s') : Step s r route body s'

variable {s s₁ s₂ : Store} {r : Request} {route : Route} {body : Json}

theorem Step.trans_same (step : s.Step r route body s₁) (same : SameData s₁ s₂) :
    s.Step r route body s₂ := by
  cases step with
  | idle first => exact .idle (first.trans same)
  | redefined defined first => exact .redefined defined (first.trans same)
  | wrote w stored follows first => exact .wrote w stored follows (first.trans same)
  | begun first => exact .begun (first.trans same)
  | committed first => exact .committed (first.trans same)
  | aborted opened first => exact .aborted opened (first.trans same)

theorem SameData.putDatabase (same : SameData s s₁) (name : String) (db : Database) :
    SameData (s.putDatabase name db) (s₁.putDatabase name db) :=
  ⟨same.home_eq, same.batchSize_eq, by simp [Store.putDatabase, same.databases_eq],
    same.transactions_eq, same.names_le⟩

theorem SameData.withTransactions (same : SameData s s₁) (transactions : Dict OpenTransaction) :
    SameData { s with transactions } { s₁ with transactions } :=
  ⟨same.home_eq, same.batchSize_eq, same.databases_eq, rfl, same.names_le⟩

/-- A step of a store is one of every other store with the same data. -/
theorem Step.of_same (step : s₁.Step r route body s₂) (same : SameData s s₁) :
    s.Step r route body s₂ := by
  cases step with
  | idle second => exact .idle (same.trans second)
  | redefined defined second =>
      rw [same.databaseOf_eq] at defined second
      rw [same.database_eq] at defined
      exact .redefined defined ((same.putDatabase _ _).trans second)
  | wrote w stored follows second =>
      rw [same.databaseOf_eq] at stored second
      rw [same.database_eq] at stored
      exact .wrote w stored follows (((same.putCollection _ _ _).noteUndos r _).trans second)
  | begun second =>
      rw [same.databaseOf_eq, same.transactions_eq] at second
      exact .begun ((same.withTransactions _).trans second)
  | committed second =>
      rw [same.transactions_eq] at second
      exact .committed ((same.withTransactions _).trans second)
  | aborted opened second =>
      rw [same.transactions_eq] at opened second
      rw [same.database_eq] at second
      exact .aborted opened (((same.withTransactions _).putDatabase _ _).trans second)

theorem step_insertDocument (s : Store) (r : Request) (collection : String) (body : Json) :
    s.Step r (.insertDocument collection) body (s.insertDocument r collection body).2 := by
  unfold insertDocument
  split
  · exact .idle (SameData.refl s)
  · exact .idle (SameData.refl s)
  · next fields _ _ =>
      have noted := sameData_takeRevision s
      dsimp only
      split
      · exact .idle noted
      · next c stored =>
          have kept := noted.trans (sameData_keyFor s.takeRevision.2 fields)
          split
          · exact .idle kept
          · next d new inserted =>
              obtain ⟨rfl, free, keyed, _⟩ := insertDocument_documents inserted
              have identified := StoredCollection.value_id_of_inserted inserted
              refine .wrote (.insert (s.takeRevision.2.keyFor fields).1 d)
                (Database.collection_eq_ok_iff.mp stored) ⟨free, keyed, identified⟩ ?_
              exact (kept.putCollection _ _ _).noteUndos r [_]

theorem step_changeDocument (s : Store) (r : Request) (collection key : String) (body : Json) :
    s.Step r (.changeDocument collection key) body
      (s.changeDocument r collection key body).2 := by
  unfold changeDocument
  split
  · exact .idle (SameData.refl s)
  · have noted := sameData_takeRevision s
    dsimp only
    split
    · exact .idle noted
    · next c old found =>
        obtain ⟨stored, is⟩ := findDocument_eq_ok found
        refine .wrote (.change key old (StoredCollection.changed old s.takeRevision.1 body))
          stored ⟨rfl, is, _, rfl⟩ ?_
        exact (noted.putCollection _ _ _).noteUndos r [_]

theorem step_removeDocument (s : Store) (r : Request) (collection key : String) (body : Json) :
    s.Step r (.removeDocument collection key) body (s.removeDocument r collection key).2 := by
  unfold removeDocument
  split
  · exact .idle (SameData.refl s)
  · dsimp only
    split
    · exact .idle (SameData.refl s)
    · next c old found =>
        obtain ⟨stored, is⟩ := findDocument_eq_ok found
        exact .wrote (.remove key old) stored is (SameData.refl _)

theorem step_runStatement (s : Store) (r : Request) (aql : String) (q : Statement)
    (route : Route) (body : Json) : s.Step r route body (s.runStatement r aql q).2 := by
  unfold runStatement
  dsimp only
  split
  · exact .idle (SameData.refl s)
  · exact .idle (SameData.refl s)
  · next c _ stored =>
      cases q.effect with
      | reading => exact .idle (SameData.refl s)
      | update => exact .idle (SameData.refl s)
      | removal =>
          dsimp only
          rw [removeFound_eq]
          exact .wrote (.removeAll (q.found c.documents)) (Database.collection_eq_ok_iff.mp stored)
            (q.exists_append_perm_found c.documents) (SameData.refl _)

theorem step_runQuery (s : Store) (r : Request) (aql : String) (bindVars : Dict Json)
    (route : Route) (body : Json) : s.Step r route body (s.runQuery r aql bindVars).2 := by
  unfold runQuery
  split
  · exact .idle (SameData.refl s)
  · exact step_runStatement s r aql _ route body

theorem step_openCursor (s : Store) (r : Request) (route : Route) (body : Json) :
    s.Step r route body (s.openCursor r body).2 := by
  unfold openCursor
  split
  · exact .idle (SameData.refl s)
  · next aql _ =>
      have noted : SameData s { s with queries := s.queries ++ [aql] } :=
        ⟨rfl, rfl, rfl, rfl, Nat.le_refl _⟩
      have ran := (step_runQuery { s with queries := s.queries ++ [aql] } r aql
        ((body.field "bindVars").members?.getD {}) route body).of_same noted
      dsimp only
      cases served : { s with queries := s.queries ++ [aql] }.runQuery r aql
          ((body.field "bindVars").members?.getD {}) with
      | mk outcome s₁ =>
          rw [served] at ran
          cases outcome with
          | error refusal => exact ran
          | ok rows => exact ran.trans_same (sameData_page s₁ rows _)

theorem step_perform (s : Store) (r : Request) (body : Json) (route : Route) :
    s.Step r route body (s.perform r body route).2 := by
  cases is : route.change? r body with
  | some change =>
      rw [perform_of_change is]
      rcases serveChange_cases s (s.databaseOf r) change with ⟨_, failed⟩ | ⟨_, db, changed, put⟩
      · rw [failed]
        exact .idle (SameData.refl s)
      · rw [put]
        exact .redefined (Route.becomes_of_change is changed) (SameData.refl _)
  | none =>
      cases route with
      | insertDocument collection => exact step_insertDocument s r collection body
      | showDocument collection key =>
          apply Step.idle
          change SameData s (s.showDocument r collection key).2
          unfold showDocument
          split <;> exact SameData.refl s
      | changeDocument collection key => exact step_changeDocument s r collection key body
      | removeDocument collection key => exact step_removeDocument s r collection key body
      | openCursor => exact step_openCursor s r _ body
      | readCursor id => exact .idle (readCursor_same s id)
      | beginTransaction =>
          exact @Step.begun s r _ body _ (hexName (s.names + 1)) (declaredWrites body)
            ⟨rfl, rfl, rfl, rfl, Nat.le_succ _⟩
      | commitTransaction id =>
          change s.Step r _ body (s.commitTransaction id).2
          unfold commitTransaction
          split
          · exact .idle (SameData.refl s)
          · exact .committed (SameData.refl _)
      | abortTransaction id =>
          change s.Step r _ body (s.abortTransaction id).2
          unfold abortTransaction
          split
          · exact .idle (SameData.refl s)
          · next opened => exact .aborted opened (SameData.refl _)
      | _ => cases is

/-- An answer leaves the data of the store, or is one step for the route of the request. -/
theorem step_answer (s : Store) (r : Request) :
    SameData s (Store.server.answer s r).2 ∨
      ∃ route, Route.of? r = some route ∧
        s.Step r route (r.body.getD .null) (Store.server.answer s r).2 := by
  have noted := sameData_noteRequest s r
  rcases answer_cases s r with ⟨_, refused⟩ | ⟨route, routed, _, answered⟩
  · rw [refused]
    exact Or.inl noted
  · rw [answered]
    exact Or.inr ⟨route, routed, (step_perform _ r _ route).of_same noted⟩

/-! ### Runs -/

/-- The store after requests that it answers one after the other. -/
def answers (s : Store) : List Request → Store
  | [] => s
  | r :: rest => (Store.server.answer s r).2.answers rest

/-- Whether each of these requests meets a condition in the store that it comes to. -/
def Meets (condition : Store → Request → Prop) (s : Store) : List Request → Prop
  | [] => True
  | r :: rest => condition s r ∧ (Store.server.answer s r).2.Meets condition rest

end Store

end DocStore
