/-
Module: DocStore.Proofs.Memory.PageSize
Purpose: a query to the store in memory comes to the same whatever the size of its pages.
Main exports:
  Store.withBatchSize, Store.runQuery_withBatchSize, Store.reads_withBatchSize,
  Exchange.runCursor_withBatchSize
-/
import DocStore.Proofs.Memory.Paging
import DocStore.Proofs.Memory.Untouched

namespace DocStore

namespace Store

/-- The store with another size of pages. -/
def withBatchSize (s : Store) (size : Nat) : Store :=
  { s with batchSize := size }

theorem noteUndo_withBatchSize (s : Store) (r : Request) (undo : Undo) (size : Nat) :
    (s.withBatchSize size).noteUndo r undo = (s.noteUndo r undo).withBatchSize size := by
  unfold noteUndo
  cases r.transaction <;> rfl

theorem noteUndos_withBatchSize (s : Store) (r : Request) (undos : List Undo) (size : Nat) :
    (s.withBatchSize size).noteUndos r undos = (s.noteUndos r undos).withBatchSize size := by
  induction undos generalizing s with
  | nil => rfl
  | cons u rest inductionHypothesis =>
      change ((s.withBatchSize size).noteUndo r u).noteUndos r rest = _
      rw [noteUndo_withBatchSize, inductionHypothesis]
      rfl

theorem cursors_noteUndos (s : Store) (r : Request) (undos : List Undo) :
    (s.noteUndos r undos).cursors = s.cursors := by
  rw [noteUndos_eq]

/-- A query does not depend on the size of pages, opens no cursor, and ends no transaction. -/
theorem runQuery_withBatchSize (s : Store) (r : Request) (aql : String) (bindVars : Dict Json) :
    ∃ (outcome : Except Refusal (List Json)) (s₁ : Store), s₁.cursors = s.cursors ∧
      (∀ t : Option Transaction, s.Opened t → s₁.Opened t) ∧
      ∀ size, (s.withBatchSize size).runQuery r aql bindVars =
        (outcome, s₁.withBatchSize size) := by
  have idle : ∀ outcome : Except Refusal (List Json), ∃ (given : Except Refusal (List Json))
      (s₁ : Store), s₁.cursors = s.cursors ∧
      (∀ t : Option Transaction, s.Opened t → s₁.Opened t) ∧
      ∀ size, (outcome, s.withBatchSize size) = (given, s₁.withBatchSize size) :=
    fun outcome => ⟨outcome, s, rfl, fun _ opened => opened, fun _ => rfl⟩
  unfold runQuery
  cases Statement.read? aql bindVars with
  | none => exact idle _
  | some q =>
      have permission : ∀ size, (s.withBatchSize size).permitWrite r q.collection =
          s.permitWrite r q.collection := fun _ => rfl
      have container : ∀ size, ((s.withBatchSize size).database
          ((s.withBatchSize size).databaseOf r)).collection q.collection =
          (s.database (s.databaseOf r)).collection q.collection := fun _ => rfl
      simp only [runStatement, permission, container]
      split
      · exact idle _
      · exact idle _
      · next c _ _ =>
          cases q.effect with
          | reading => exact idle _
          | update => exact idle _
          | removal =>
              have removed : ∀ size, (s.withBatchSize size).removeFound r q.collection c
                  (q.found c.documents) =
                    (s.removeFound r q.collection c (q.found c.documents)).withBatchSize size := by
                intro size
                rw [removeFound_eq, removeFound_eq, ← noteUndos_withBatchSize]
                rfl
              refine ⟨_, s.removeFound r q.collection c (q.found c.documents), ?_, ?_,
                fun size => congrArg (Prod.mk _) (removed size)⟩
              · rw [removeFound_eq, cursors_noteUndos]
                rfl
              · intro t opened
                have kept : (s.putCollection (s.databaseOf r) q.collection
                  ((DocumentWrite.removeAll (q.found c.documents)).apply c)).Opened t := opened
                rw [removeFound_eq]
                exact kept.noteUndos r _

/-- The first answer to a query: its rows, or a refusal, whatever the size of pages. -/
theorem answer_withBatchSize (s : Store) (database : Option String) (aql : String)
    (bindVars : Dict Json) (transaction : Option Transaction) :
    ∃ (outcome : Except Refusal (List Json)) (s₁ : Store), s₁.cursors = s.cursors ∧
      (∀ rows, outcome = .ok rows → s₁.Opened transaction) ∧
      ∀ size, let served := firstPage size (outcome, s₁.withBatchSize size)
        Store.server.answer (s.withBatchSize size)
          (startRequest database aql bindVars transaction) =
            (.answered (responseTo served.1), served.2) := by
  let r := startRequest database aql bindVars transaction
  cases known : s.knowsTransaction r with
  | error refusal =>
      exact ⟨.error refusal, s.noteRequest r, rfl, (fun _ is => by cases is),
        fun size => answer_of_unknown (s := s.withBatchSize size) known⟩
  | ok =>
      have opened : s.Opened transaction :=
        opened_of_knows (transaction_request (.start database aql bindVars transaction)) known
      obtain ⟨outcome, s₁, cursors, kept, run⟩ :=
        runQuery_withBatchSize (s.noteQuery r aql) r aql bindVars
      refine ⟨outcome, s₁, cursors, fun _ _ => kept transaction opened, fun size => ?_⟩
      have answered := answer_startRequest (s := s.withBatchSize size) database aql bindVars opened
      exact run size ▸ answered

/-- A query is read to the same end whatever the size of pages, if a page has room for a row, or
there are no rows. -/
theorem reads_withBatchSize (s : Store) (database : Option String) (aql : String)
    (bindVars : Dict Json) (transaction : Option Transaction) :
    ∃ (outcome : Except Error (List Json)) (s₁ : Store), ∀ size,
      (∀ rows, outcome = .ok rows → rows.length ≤ size ∨ 0 < size) → ∃ sent s',
        Store.server.Reads (s.withBatchSize size) (.start database aql bindVars transaction) sent
          outcome s' ∧
        Store.server.drain (s.withBatchSize size) (.start database aql bindVars transaction) =
          ⟨outcome, s', sent, []⟩ ∧
        (∀ rows, outcome = .ok rows → sent.length = pageCount size rows.length) ∧
        SameData (s₁.withBatchSize size) s' ∧ s.LeavesNoCursor s' := by
  obtain ⟨outcome, s₁, cursors, opened, answered⟩ :=
    answer_withBatchSize s database aql bindVars transaction
  cases outcome with
  | error refusal =>
      refine ⟨.error (.store refusal.status refusal.number refusal.message), s₁, fun size _ => ?_⟩
      obtain ⟨reads, drained⟩ := reads_refused (answered size)
      refine ⟨_, _, reads, drained, fun _ is => (by cases is), SameData.refl _, ?_⟩
      exact fun id rows kept => cursors ▸ kept
  | ok rows =>
      refine ⟨.ok rows, s₁, fun size batch => ?_⟩
      have openedKept : (s₁.withBatchSize size).Opened transaction := opened rows rfl
      have fits : rows.length ≤ (s₁.withBatchSize size).batchSize ∨
          0 < (s₁.withBatchSize size).batchSize := batch rows rfl
      obtain ⟨sent, s', reads, count, same, leaves⟩ :=
        reads_rows (c := .start database aql bindVars transaction) openedKept fits (answered size)
      refine ⟨sent, s', reads, drain_of_reads fits (answered size) reads count, ?_, same,
        fun id rows kept => cursors ▸ leaves id rows kept⟩
      rintro _ ⟨⟩
      exact count

end Store

namespace Exchange

/-- A query is run alike whatever the size of pages: with the same rows in the same order, or the
same error, and with the same changes.  Its reading comes to an end without a bound on the pages,
takes as many of them as its rows fill, and leaves no cursor open. -/
theorem runCursor_withBatchSize (s : Store) (database : Option String) (aql : String)
    (bindVars : Dict Json) (transaction : Option Transaction) {size large : Nat}
    (positive : 1 ≤ size) :
    let paged := (runCursor database aql bindVars transaction).runOn Store.server
      (s.withBatchSize size)
    let whole := (runCursor database aql bindVars transaction).runOn Store.server
      (s.withBatchSize large)
    (∀ rows, paged.outcome = .ok rows → rows.length ≤ large) →
      paged.outcome = whole.outcome ∧ paged.state.databases = whole.state.databases ∧
        paged.state.transactions = whole.state.transactions ∧
        Store.server.Reads (s.withBatchSize size) (.start database aql bindVars transaction)
          paged.sent paged.outcome paged.state ∧
        (∀ rows, paged.outcome = .ok rows →
          paged.sent.length = Store.pageCount size rows.length) ∧
        s.LeavesNoCursor paged.state := by
  intro paged whole enough
  obtain ⟨outcome, s₁, alike⟩ := Store.reads_withBatchSize s database aql bindVars transaction
  obtain ⟨sent, s', reads, drained, count, same, leaves⟩ := alike size fun _ _ => Or.inr positive
  have isPaged : paged = ⟨outcome, s', sent, []⟩ := by
    simp only [paged, runCursor, runOn, drained, List.append_nil]
  rw [isPaged] at enough ⊢
  obtain ⟨_, t', _, drainedAlso, _, sameAlso, _⟩ :=
    alike large fun rows is => Or.inl (enough rows is)
  have isWhole : whole.outcome = outcome ∧ whole.state = t' := by
    simp only [whole, runCursor, runOn, drainedAlso, and_self]
  rw [isWhole.1, isWhole.2]
  exact ⟨rfl, same.databases_eq.trans sameAlso.databases_eq.symm,
    same.transactions_eq.trans sameAlso.transactions_eq.symm, reads, count, leaves⟩

/-- Three users. -/
def threeUsers : List Document :=
  [⟨[("_key", .str "ann")]⟩, ⟨[("_key", .str "bob")]⟩, ⟨[("_key", .str "eve")]⟩]

/-- A store with three users. -/
def threeUsersStore : Store :=
  { databases := ⟨[("_system", { collections :=
      ⟨[("users", { properties := {}, documents := threeUsers })]⟩ })]⟩ }

/-- The query for the keys of all users. -/
def userKeys : String :=
  "FOR u0 IN `users` RETURN [ u0.`_key` ]"

/-- Three keys fill two pages of two rows. -/
theorem runCursor_userKeys_withBatchSize :
    let paged := (runCursor none userKeys {} none).runOn Store.server
      (threeUsersStore.withBatchSize 2)
    let whole := (runCursor none userKeys {} none).runOn Store.server
      (threeUsersStore.withBatchSize 3)
    paged.outcome = .ok [.arr [.str "ann"], .arr [.str "bob"], .arr [.str "eve"]] ∧
      paged.sent.length = 2 ∧ paged.outcome = whole.outcome ∧
      threeUsersStore.LeavesNoCursor paged.state := by
  intro paged whole
  have reads : (Statement.read? userKeys {}).map (fun q => (q.collection, q.effect, q.ending)) =
      some ("users", .reading, .fields ["_key"]) := by decide +kernel
  have clauses : (Statement.read? userKeys {}).map (fun q =>
      (q.filters.length, q.sorts.length, q.window)) = some (0, 0, none) := by decide +kernel
  obtain ⟨q, is, reads⟩ := Option.map_eq_some_iff.mp reads
  rw [is, Option.map_some] at clauses
  obtain ⟨collection, filters, sorts, window, effect, ending⟩ := q
  simp only [Option.some.injEq, Prod.mk.injEq, List.length_eq_zero_iff] at reads clauses
  obtain ⟨rfl, rfl, rfl⟩ := reads
  obtain ⟨rfl, rfl, rfl⟩ := clauses
  -- No clause restricts or sorts what is found.
  have found : Statement.found ⟨"users", [], [], none, .reading, .fields ["_key"]⟩ threeUsers =
      threeUsers := List.mergeSort_of_pairwise (by decide)
  have run : ((threeUsersStore.withBatchSize 2).noteQuery
      (Store.startRequest none userKeys {} none) userKeys).runQuery
        (Store.startRequest none userKeys {} none) userKeys {} =
      (.ok [.arr [.str "ann"], .arr [.str "bob"], .arr [.str "eve"]],
        (threeUsersStore.withBatchSize 2).noteQuery
          (Store.startRequest none userKeys {} none) userKeys) := by
    rw [Store.runQuery, is]
    refine (Store.runStatement_reading (c := ⟨{}, threeUsers, [], 1⟩) rfl rfl).trans ?_
    rw [found]
    rfl
  obtain ⟨_, ends, _⟩ := Store.ends_runCursor_ok (Store.opened_none _) (by decide) run rfl
    (Store.opened_none _)
  have answers : paged.outcome = .ok [.arr [.str "ann"], .arr [.str "bob"], .arr [.str "eve"]] :=
    ends.1
  have enough : ∀ rows, paged.outcome = .ok rows → rows.length ≤ 3 := by
    intro rows other
    cases answers.symm.trans other
    decide
  obtain ⟨same, _, _, _, pages, leaves⟩ :=
    runCursor_withBatchSize threeUsersStore none userKeys {} none (by decide : 1 ≤ 2) enough
  exact ⟨answers, pages _ answers, same, leaves⟩

end Exchange

end DocStore
