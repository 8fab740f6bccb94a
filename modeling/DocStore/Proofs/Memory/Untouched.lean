/-
Module: DocStore.Proofs.Memory.Untouched
Purpose: what a request leaves untouched: the documents of collections that are not among
  its targets, and the transactions that it does not belong to.
Main exports:
  Database.documentsOf_undo, Store.Onward, Store.onward_answer, Store.documentsOf_perform,
  Store.transaction_perform
-/
import DocStore.Proofs.Memory.Writes

namespace DocStore

namespace Database

theorem documentsOf_undo {db : Database} {u : Undo} {name : String} (other : u.collection ≠ name) :
    (db.undo u).documentsOf name = db.documentsOf name := by
  have apart : name ≠ u.collection := fun same => other same.symm
  cases u with
  | remove collection key =>
      simp only [Undo.collection] at apart
      simp [undo, documentsOf, modifyCollection, Dict.get?_modify, apart]
  | restore collection d =>
      simp only [Undo.collection] at apart
      simp [undo, documentsOf, modifyCollection, Dict.get?_modify, apart]

/-- Taking writes to other collections back leaves the documents of a collection. -/
theorem documentsOf_undoAll {db : Database} {undos : List Undo} {name : String}
    (others : ∀ u ∈ undos, u.collection ≠ name) :
    (undos.foldl Database.undo db).documentsOf name = db.documentsOf name := by
  induction undos generalizing db with
  | nil => rfl
  | cons u rest inductionHypothesis =>
      calc
        (rest.foldl Database.undo (db.undo u)).documentsOf name
            = (db.undo u).documentsOf name :=
          inductionHypothesis fun other member => others other (List.mem_cons_of_mem _ member)
        _ = db.documentsOf name := documentsOf_undo (others u List.mem_cons_self)

end Database

namespace Store

theorem SameData.documentsOf_eq {s s' : Store} (same : SameData s s') (database name : String) :
    s'.documentsOf database name = s.documentsOf database name := by
  rw [documentsOf, documentsOf, same.database_eq]

/-! ### Notes of writes -/

/-- A note of a write concerns the transactions only. -/
theorem noteUndo_eq (s : Store) (r : Request) (undo : Undo) :
    s.noteUndo r undo = { s with transactions := (s.noteUndo r undo).transactions } := by
  unfold noteUndo
  split <;> rfl

theorem noteUndos_eq (s : Store) (r : Request) (undos : List Undo) :
    s.noteUndos r undos = { s with transactions := (s.noteUndos r undos).transactions } := by
  induction undos generalizing s with
  | nil => rfl
  | cons u rest inductionHypothesis =>
      calc
        (s.noteUndo r u).noteUndos r rest
            = { s.noteUndo r u with
                transactions := ((s.noteUndo r u).noteUndos r rest).transactions } :=
          inductionHypothesis (s.noteUndo r u)
        _ = { s with transactions := ((s.noteUndo r u).noteUndos r rest).transactions } :=
          congrArg (fun noted : Store => { noted with
            transactions := ((s.noteUndo r u).noteUndos r rest).transactions }) (noteUndo_eq s r u)

theorem databases_noteUndos (s : Store) (r : Request) (undos : List Undo) :
    (s.noteUndos r undos).databases = s.databases := by
  rw [noteUndos_eq]

theorem documentsOf_noteUndos (s : Store) (r : Request) (undos : List Undo)
    (database name : String) :
    (s.noteUndos r undos).documentsOf database name = s.documentsOf database name := by
  simp [documentsOf, Store.database, databases_noteUndos]

/-- A transaction gets the notes of its own requests, the latest in front. -/
theorem transaction_noteUndos (s : Store) (r : Request) (undos : List Undo) (id : String) :
    (s.noteUndos r undos).transactions.get? id =
      if r.transaction = some id then
        (s.transactions.get? id).map fun t => { t with undo := undos.reverse ++ t.undo }
      else s.transactions.get? id := by
  induction undos generalizing s with
  | nil =>
      split
      · cases found : s.transactions.get? id <;> simp [noteUndos, found]
      · rfl
  | cons u rest inductionHypothesis =>
      have first : (s.noteUndo r u).transactions.get? id =
          if r.transaction = some id then
            (s.transactions.get? id).map fun t => { t with undo := u :: t.undo }
          else s.transactions.get? id := by
        unfold noteUndo
        cases r.transaction with
        | none => simp
        | some other =>
            by_cases own : id = other
            · subst own
              simp
            · have apart : other ≠ id := fun same => own same.symm
              simp [Dict.get?_modify, own, apart]
      change ((s.noteUndo r u).noteUndos r rest).transactions.get? id = _
      rw [inductionHypothesis, first]
      split
      · rw [Option.map_map]
        congr 1
        funext t
        simp
      · rfl

theorem Opened.noteUndos {s : Store} {t : Option Transaction} (opened : s.Opened t)
    (r : Request) (undos : List Undo) : (s.noteUndos r undos).Opened t := by
  intro handle member
  have isOpen := opened handle member
  rw [Dict.contains_eq] at isOpen ⊢
  rw [transaction_noteUndos]
  split
  · rw [Option.isSome_map]
    exact isOpen
  · exact isOpen

/-! ### What every request keeps -/

/-- The second store comes after the first: it is set up like it, and has given at
least as many names. -/
structure Onward (s s' : Store) : Prop where
  home_eq : s'.home = s.home
  batchSize_eq : s'.batchSize = s.batchSize
  names_le : s.names ≤ s'.names

theorem Onward.refl (s : Store) : Onward s s := ⟨rfl, rfl, Nat.le_refl _⟩

theorem Onward.trans {s₁ s₂ s₃ : Store} (first : Onward s₁ s₂) (second : Onward s₂ s₃) :
    Onward s₁ s₃ :=
  ⟨second.home_eq.trans first.home_eq, second.batchSize_eq.trans first.batchSize_eq,
    Nat.le_trans first.names_le second.names_le⟩

theorem SameData.onward {s s' : Store} (same : SameData s s') : Onward s s' :=
  ⟨same.home_eq, same.batchSize_eq, same.names_le⟩

theorem onward_noteUndos (s : Store) (r : Request) (undos : List Undo) :
    Onward s (s.noteUndos r undos) := by
  rw [noteUndos_eq]
  exact ⟨rfl, rfl, Nat.le_refl _⟩

theorem DocumentStep.onward {s s' : Store} {r : Request} {body : Json} {targets : List String}
    (step : DocumentStep s r body targets s') : Onward s s' := by
  cases step with
  | idle same => exact same.onward
  | wrote w listed permitted stored fits same =>
      have put : ∀ database name c, Onward s (s.putCollection database name c) :=
        fun _ _ _ => ⟨rfl, rfl, Nat.le_refl _⟩
      exact ((put _ _ _).trans (onward_noteUndos _ r _)).trans same.onward

theorem onward_perform (s : Store) (r : Request) (body : Json) (route : Route) :
    Onward s (s.perform r body route).2 := by
  cases changes : route.change? r body with
  | some change =>
      rw [perform_of_change changes]
      rcases serveChange_cases s (s.databaseOf r) change with ⟨_, failed⟩ | ⟨_, _, _, put⟩
      · rw [failed]
        exact Onward.refl s
      · rw [put]
        exact ⟨rfl, rfl, Nat.le_refl _⟩
  | none =>
      cases within : route.isTransactional with
      | false => exact (documentStep_perform changes within).onward
      | true =>
          cases route with
          | beginTransaction => exact ⟨rfl, rfl, Nat.le_succ _⟩
          | commitTransaction id =>
              change Onward s (s.commitTransaction id).2
              unfold commitTransaction
              split
              · exact Onward.refl s
              · exact ⟨rfl, rfl, Nat.le_refl _⟩
          | abortTransaction id =>
              change Onward s (s.abortTransaction id).2
              unfold abortTransaction
              split
              · exact Onward.refl s
              · exact ⟨rfl, rfl, Nat.le_refl _⟩
          | _ => cases within

/-- An answer is a refusal that leaves the store, or what the route asks for. -/
theorem answer_cases (s : Store) (r : Request) :
    (∃ refusal, Store.server.answer s r =
        (.answered (Refusal.response refusal), s.noteRequest r)) ∨
      ∃ route, Route.of? r = some route ∧ s.knowsTransaction r = .ok () ∧
        Store.server.answer s r =
          (.answered (responseTo ((s.noteRequest r).perform r (r.body.getD .null) route).1),
            ((s.noteRequest r).perform r (r.body.getD .null) route).2) := by
  cases known : s.knowsTransaction r with
  | error refusal =>
      have noted := ((sameData_noteRequest s r).knowsTransaction_eq r).trans known
      left
      refine ⟨refusal, ?_⟩
      change answer s r = _
      simp only [answer, serve, noted]
      rfl
  | ok =>
      have noted := ((sameData_noteRequest s r).knowsTransaction_eq r).trans known
      cases routed : Route.of? r with
      | none =>
          left
          refine ⟨.noRoute r.method r.path, ?_⟩
          change answer s r = _
          simp only [answer, serve, noted, routed]
          rfl
      | some route => exact Or.inr ⟨route, rfl, rfl, answer_of_route known routed⟩

theorem onward_answer (s : Store) (r : Request) : Onward s (Store.server.answer s r).2 := by
  have noted := (sameData_noteRequest s r).onward
  rcases answer_cases s r with ⟨_, refused⟩ | ⟨route, _, _, answered⟩
  · rw [refused]
    exact noted
  · rw [answered]
    exact noted.trans (onward_perform _ _ _ _)

/-! ### Documents and transactions -/

theorem DocumentStep.documentsOf_eq {s s' : Store} {r : Request} {body : Json}
    {targets : List String} (step : DocumentStep s r body targets s') {database name : String}
    (untouched : name ∉ targets ∨ database ≠ s.databaseOf r) :
    s'.documentsOf database name = s.documentsOf database name := by
  cases step with
  | idle same => exact same.documentsOf_eq database name
  | @wrote collection c w listed permitted stored fits same =>
      rw [same.documentsOf_eq, documentsOf_noteUndos, putCollection]
      by_cases here : database = s.databaseOf r
      · subst here
        have other : name ≠ collection := by
          rintro rfl
          exact untouched.elim (fun absent => absent listed) (fun away => away rfl)
        rw [documentsOf, database_putDatabase_self,
          Database.documentsOf_putCollection_of_ne _ _ other, documentsOf]
      · exact documentsOf_putDatabase_of_ne s _ here name

/-- Each transaction is as it was, but for notes of its own requests about their
targets. -/
theorem DocumentStep.transaction_eq {s s' : Store} {r : Request} {body : Json}
    {targets : List String} (step : DocumentStep s r body targets s') (id : String) :
    ∃ noted : List Undo, (∀ u ∈ noted, r.transaction = some id ∧ u.collection ∈ targets) ∧
      s'.transactions.get? id =
        (s.transactions.get? id).map fun t => { t with undo := noted ++ t.undo } := by
  have unchanged : ∀ t : Option OpenTransaction, t = t.map fun t =>
      { t with undo := [] ++ t.undo } := by
    intro t
    cases t <;> rfl
  cases step with
  | idle same =>
      refine ⟨[], by simp, ?_⟩
      rw [same.transactions_eq]
      exact unchanged _
  | @wrote collection c w listed permitted stored fits same =>
      rw [same.transactions_eq, transaction_noteUndos]
      change ∃ noted : List Undo, _ ∧ (if r.transaction = some id then
        (s.transactions.get? id).map _ else s.transactions.get? id) = _
      split
      · next own =>
          refine ⟨(w.undos collection).reverse, ?_, rfl⟩
          intro u member
          rw [List.mem_reverse] at member
          rw [DocumentWrite.collection_of_mem_undos member]
          exact ⟨own, listed⟩
      · exact ⟨[], by simp, unchanged _⟩

theorem documentsOf_serveChange {s : Store} {r : Request} {body : Json} {route : Route}
    {change : Database → Change} (is : route.change? r body = some change)
    {database name : String}
    (untouched : name ∉ route.targets body ∨ database ≠ s.databaseOf r) :
    (s.serveChange (s.databaseOf r) change).2.documentsOf database name =
      s.documentsOf database name := by
  rcases serveChange_cases s (s.databaseOf r) change with ⟨_, failed⟩ | ⟨response, db, changed, put⟩
  · rw [failed]
  · rw [put]
    by_cases here : database = s.databaseOf r
    · subst here
      have absent := untouched.resolve_right (fun away => away rfl)
      rw [documentsOf, database_putDatabase_self, Route.change?_documents is changed absent,
        documentsOf]
    · exact documentsOf_putDatabase_of_ne s db here name

/-- A request that neither begins nor ends a transaction leaves the documents of
collections that are not among its targets. -/
theorem documentsOf_perform {s : Store} {r : Request} {body : Json} {route : Route}
    (within : route.isTransactional = false) {database name : String}
    (untouched : name ∉ route.targets body ∨ database ≠ s.databaseOf r) :
    (s.perform r body route).2.documentsOf database name = s.documentsOf database name := by
  cases changes : route.change? r body with
  | some change =>
      rw [perform_of_change changes]
      exact documentsOf_serveChange changes untouched
  | none => exact (documentStep_perform changes within).documentsOf_eq untouched

/-- A request that neither begins nor ends a transaction leaves transactions as they
are, but for notes in its own about its targets. -/
theorem transaction_perform (s : Store) (r : Request) (body : Json) {route : Route}
    (within : route.isTransactional = false) (id : String) :
    ∃ noted : List Undo,
      (∀ u ∈ noted, r.transaction = some id ∧ u.collection ∈ route.targets body) ∧
      (s.perform r body route).2.transactions.get? id =
        (s.transactions.get? id).map fun t => { t with undo := noted ++ t.undo } := by
  cases changes : route.change? r body with
  | some change =>
      refine ⟨[], by simp, ?_⟩
      rw [perform_of_change changes]
      have same : (s.serveChange (s.databaseOf r) change).2.transactions = s.transactions := by
        rcases serveChange_cases s (s.databaseOf r) change with ⟨_, failed⟩ | ⟨_, _, _, put⟩
        · rw [failed]
        · rw [put]
          rfl
      rw [same]
      cases s.transactions.get? id <;> rfl
  | none => exact (documentStep_perform changes within).transaction_eq id

end Store

end DocStore
