/-
Module: DocStore.Exchange.Transaction
Purpose: stream transactions, begun, and committed or aborted.
Main exports:
  Transaction.begin, Transaction.commit, Transaction.abort, Transaction.finish,
  withTransaction
-/
import DocStore.Exchange.Basic

namespace DocStore

namespace Transaction

/-- Open a transaction in a database, with the collections that it writes to and
reads from. -/
def begin (database : Option String) (write read : List String) : Exchange Transaction := do
  let body ← .request ((Request.post "transaction/begin" (.obj ⟨[("collections",
    .obj ⟨[("read", .texts read), ("write", .texts write)]⟩)]⟩)).withDatabase database)
  match ((body.field "result").field "id").text? with
  | some id => return { id, database }
  | none => .fail (.transport (.noTransactionId body))

/-- The path of a transaction. -/
def path (t : Transaction) : String :=
  "transaction/" ++ t.id

/-- Keep what happened in the transaction. -/
def commit (t : Transaction) : Exchange Unit :=
  .command { method := .put, path := t.path, database := t.database }

/-- Take back what happened in the transaction. -/
def abort (t : Transaction) : Exchange Unit :=
  .command { method := .delete, path := t.path, database := t.database }

/-- End the transaction by the outcome of what happened in it: commit after a
value, abort after an error.  That error stays the outcome even if the abort
fails. -/
def finish {α : Type} (t : Transaction) : Except Error α → Exchange α
  | .ok value => do
      t.commit
      return value
  | .error e => do
      match ← t.abort.attempt with
      | .ok () => .fail e
      | .error _ => do
          .report .abortFailed
          .fail e

end Transaction

/-- Run an operation in a transaction of its own. -/
def withTransaction {α : Type} (database : Option String) (write : List String)
    (operation : Transaction → Exchange α) : Exchange α := do
  let t ← Transaction.begin database write []
  let outcome ← (operation t).attempt
  t.finish outcome

end DocStore
