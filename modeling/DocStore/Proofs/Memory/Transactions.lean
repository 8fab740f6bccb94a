/-
Module: DocStore.Proofs.Memory.Transactions
Purpose: how transactions begin and end in the store in memory, and an operation in a
  transaction of its own: what it does stays after a value and is taken back after an error.
Main exports:
  Transaction.ends_begin, Transaction.ends_commit, Transaction.ends_abort,
  ends_withTransaction_ok, ends_withTransaction_error, Store.Holds.withTransaction
-/
import DocStore.Proofs.Memory.Guarded

namespace DocStore

namespace Transaction

/-- The request that begins a transaction. -/
def beginRequest (database : Option String) (write read : List String) : Request :=
  (Request.post "transaction/begin" (.obj ⟨[("collections",
    .obj ⟨[("read", .texts read), ("write", .texts write)]⟩)]⟩)).withDatabase database

/-- The request that commits the transaction. -/
def commitRequest (t : Transaction) : Request :=
  { method := .put, path := t.path, database := t.database }

/-- The request that aborts the transaction. -/
def abortRequest (t : Transaction) : Request :=
  { method := .delete, path := t.path, database := t.database }

theorem route_beginRequest (database : Option String) (write read : List String) :
    Route.of? (beginRequest database write read) = some .beginTransaction := by
  have cut := Route.segments_append "transaction" "begin" (by decide)
  rw [Text.splitAt_of_notMem (by decide : '/' ∉ "begin".toList)] at cut
  change Route.ofPost? (Text.splitAt '/' ("transaction" ++ "/" ++ "begin")) = _
  rw [cut]
  rfl

theorem segments_path {t : Transaction} (plain : '/' ∉ t.id.toList) :
    Text.splitAt '/' t.path = ["transaction", t.id] := by
  have cut := Route.segments_append "transaction" t.id (by decide)
  rw [Text.splitAt_of_notMem plain] at cut
  exact cut

theorem route_commitRequest {t : Transaction} (plain : '/' ∉ t.id.toList) :
    Route.of? t.commitRequest = some (.commitTransaction t.id) := by
  change Route.ofPut? (Text.splitAt '/' t.path) = _
  rw [segments_path plain]
  rfl

theorem route_abortRequest {t : Transaction} (plain : '/' ∉ t.id.toList) :
    Route.of? t.abortRequest = some (.abortTransaction t.id) := by
  change Route.ofDelete? (Text.splitAt '/' t.path) = _
  rw [segments_path plain]
  rfl

/-- The handle that the store gives next. -/
def next (s : Store) (database : Option String) : Transaction :=
  { id := hexName (s.names + 1), database }

theorem slash_notMem_next (s : Store) (database : Option String) :
    '/' ∉ (next s database).id.toList :=
  slash_notMem_hexName _

theorem declaredWrites_beginRequest (database : Option String) (write read : List String) :
    Store.declaredWrites ((beginRequest database write read).body.getD .null) = write := by
  change (write.map Json.str).filterMap Json.text? = write
  rw [List.filterMap_map]
  exact List.filterMap_some

/-- The answer about a transaction is a success. -/
theorem result_transactionAnswer {status : Nat} (success : 200 ≤ status ∧ status < 300)
    (id word : String) :
    (Store.transactionAnswer status id word).result =
      .ok (.obj ⟨[("result", .obj ⟨[("id", .str id), ("status", .str word)]⟩)]⟩) :=
  Response.result_answered success nofun

end Transaction

namespace Store

/-- The store after it began a transaction. -/
def begun (s : Store) (r : Request) (write : List String) : Store :=
  { s.noteRequest r with
    names := s.names + 1
    transactions := s.transactions.insert (hexName (s.names + 1))
      { database := s.databaseOf r, write } }

/-- The store after it committed a transaction. -/
def committed (s : Store) (r : Request) (id : String) : Store :=
  { s.noteRequest r with transactions := s.transactions.erase id }

/-- The store after it aborted a transaction. -/
def aborted (s : Store) (r : Request) (id : String) (o : OpenTransaction) : Store :=
  { s.noteRequest r with transactions := s.transactions.erase id }.putDatabase o.database
    (o.undo.foldl Database.undo (s.database o.database))

end Store

namespace Transaction

variable {s : Store}

/-- A transaction always begins. -/
theorem ends_begin (s : Store) (database : Option String) (write read : List String) :
    (Transaction.begin database write read).Ends Store.server s (.ok (next s database))
      (s.begun (beginRequest database write read) write) := by
  have answered := Store.answer_of_route (s := s) (Store.knowsTransaction_none rfl)
    (route_beginRequest database write read)
  have result := result_transactionAnswer (by decide : 200 ≤ 201 ∧ 201 < 300)
    (hexName (s.names + 1)) "running"
  apply Exchange.Ends.bind
  · apply Exchange.ends_request_iff.mpr
    change _ = (Store.server.answer s (beginRequest database write read)).1.result ∧
      _ = (Store.server.answer s (beginRequest database write read)).2
    rw [answered]
    exact ⟨result.symm, rfl⟩
  · apply Exchange.ends_pure_iff.mpr
    refine ⟨rfl, ?_⟩
    rw [Store.perform, Store.beginTransaction, declaredWrites_beginRequest]
    rfl

/-- An open transaction is always committed. -/
theorem ends_commit {t : Transaction} {o : OpenTransaction} (plain : '/' ∉ t.id.toList)
    (found : s.transactions.get? t.id = some o) :
    t.commit.Ends Store.server s (.ok ()) (s.committed t.commitRequest t.id) := by
  have answered := Store.answer_of_route (s := s) (Store.knowsTransaction_none rfl)
    (route_commitRequest plain)
  have kept : (s.noteRequest t.commitRequest).transactions.get? t.id = some o := found
  have result := result_transactionAnswer (by decide : 200 ≤ 200 ∧ 200 < 300) t.id "committed"
  rw [Store.perform, Store.commitTransaction, kept] at answered
  exact Store.ends_command_answered answered result

/-- An open transaction is always aborted. -/
theorem ends_abort {t : Transaction} {o : OpenTransaction} (plain : '/' ∉ t.id.toList)
    (found : s.transactions.get? t.id = some o) :
    t.abort.Ends Store.server s (.ok ()) (s.aborted t.abortRequest t.id o) := by
  have answered := Store.answer_of_route (s := s) (Store.knowsTransaction_none rfl)
    (route_abortRequest plain)
  have kept : (s.noteRequest t.abortRequest).transactions.get? t.id = some o := found
  have result := result_transactionAnswer (by decide : 200 ≤ 200 ∧ 200 < 300) t.id "aborted"
  rw [Store.perform, Store.abortTransaction, kept] at answered
  exact Store.ends_command_answered answered result

end Transaction

/-! ### An operation in a transaction of its own -/

section

variable {α : Type} {operation : Transaction → Exchange α} {database : Option String}
  {write : List String} {s s₁ : Store}

/-- An operation that ends with a value in its transaction is committed. -/
theorem ends_withTransaction_ok {a : α}
    (inside : (operation (Transaction.next s database)).Ends Store.server
      (s.begun (Transaction.beginRequest database write []) write) (.ok a) s₁)
    (opened : s₁.Opened (some (Transaction.next s database))) :
    (withTransaction database write operation).Ends Store.server s (.ok a)
      (s₁.committed (Transaction.next s database).commitRequest
        (Transaction.next s database).id) := by
  obtain ⟨o, found⟩ := Option.isSome_iff_exists.mp (opened _ rfl)
  apply Exchange.Ends.bind (Transaction.ends_begin s database write [])
  apply Exchange.Ends.bind (Exchange.ends_attempt_iff.mpr ⟨_, rfl, inside⟩)
  have noSlash := Transaction.slash_notMem_next s database
  apply Exchange.Ends.bind (Transaction.ends_commit noSlash found)
  exact Exchange.ends_pure_iff.mpr ⟨rfl, rfl⟩

/-- An operation that ends with an error in its transaction is aborted. -/
theorem ends_withTransaction_error {e : Error} {o : OpenTransaction}
    (inside : (operation (Transaction.next s database)).Ends Store.server
      (s.begun (Transaction.beginRequest database write []) write) (.error e) s₁)
    (found : s₁.transactions.get? (Transaction.next s database).id = some o) :
    (withTransaction database write operation).Ends Store.server s (.error e)
      (s₁.aborted (Transaction.next s database).abortRequest
        (Transaction.next s database).id o) := by
  have aborts := Exchange.ends_attempt_iff.mpr
    ⟨_, rfl, Transaction.ends_abort (Transaction.slash_notMem_next s database) found⟩
  apply Exchange.Ends.bind (Transaction.ends_begin s database write [])
  apply Exchange.Ends.bind (Exchange.ends_attempt_iff.mpr ⟨_, rfl, inside⟩)
  apply Exchange.Ends.bind aborts
  exact Exchange.ends_fail_iff.mpr ⟨rfl, rfl⟩

end

namespace Store

variable {home name : String} {database : Option String} {documents : List Document} {s : Store}

theorem Holds.begun (holds : s.Holds home (database.getD home) name documents)
    {write : List String} (declared : write.contains name = true) :
    (s.begun (Transaction.beginRequest database write []) write).Guarded home (database.getD home)
      name documents (some (Transaction.next s database)) where
  home_eq := holds.home_eq
  batch := holds.batch
  documents_eq := holds.documents_eq
  opened handle member := by
    cases member
    refine ⟨_, Dict.get?_insert_self _ _ _, ?_, declared, fun u inUndo => ?_⟩
    · change database.getD s.home = _
      rw [holds.home_eq]
    · cases inUndo

theorem Guarded.aborted {t : Transaction}
    (guarded : s.Guarded home (database.getD home) name documents (some t)) {o : OpenTransaction}
    (found : s.transactions.get? t.id = some o) (r : Request) :
    (s.aborted r t.id o).Holds home (database.getD home) name documents where
  home_eq := guarded.home_eq
  batch := guarded.batch
  documents_eq := by
    obtain ⟨_, same, inDatabase, _, others⟩ := guarded.opened t rfl
    cases found.symm.trans same
    rw [← guarded.documents_eq, ← inDatabase, Store.aborted, documentsOf,
      database_putDatabase_self, Database.documentsOf_undoAll others, documentsOf]

/-- An operation in a transaction of its own that leaves a collection alone unless it
ends with a value: what the collection holds then is kept, and the collection is as
before otherwise. -/
theorem Holds.withTransaction {α : Type} {operation : Transaction → Exchange α}
    {p : List Document → Prop} {write : List String} (declared : write.contains name = true)
    (inside : ∀ t s₁, t.database = database →
      s₁.Guarded home (database.getD home) name documents (some t) →
        ∃ outcome s₂, (operation t).Ends Store.server s₁ outcome s₂ ∧
          (∀ a, outcome = .ok a → ∃ after, p after ∧
            s₂.Holds home (database.getD home) name after ∧ s₂.Opened (some t)) ∧
          ∀ e, outcome = .error e →
            s₂.Guarded home (database.getD home) name documents (some t))
    (holds : s.Holds home (database.getD home) name documents) :
    ∃ outcome s', (withTransaction database write operation).Ends Store.server s outcome s' ∧
      (∀ a, outcome = .ok a → ∃ after, p after ∧
        s'.Holds home (database.getD home) name after) ∧
      ∀ e, outcome = .error e → s'.Holds home (database.getD home) name documents := by
  obtain ⟨outcome, s₂, ends, afterValue, afterError⟩ :=
    inside (Transaction.next s database) _ rfl (holds.begun declared)
  cases outcome with
  | ok a =>
      obtain ⟨after, holdsAfter, kept, opened⟩ := afterValue a rfl
      refine ⟨_, _, ends_withTransaction_ok ends opened, fun _ _ => ?_, fun e is => ?_⟩
      · exact ⟨after, holdsAfter, kept.home_eq, kept.batch, kept.documents_eq⟩
      · cases is
  | error e =>
      have guarded := afterError e rfl
      obtain ⟨o, found⟩ := Option.isSome_iff_exists.mp (guarded.isOpen _ rfl)
      refine ⟨_, _, ends_withTransaction_error ends found, fun a is => ?_, fun _ _ => ?_⟩
      · cases is
      · exact guarded.aborted found _

end Store

end DocStore
