/-
Module: DocStore.Proofs.Exchange.Replies
Purpose: the replies to requests that are sent one after the other, and the state that they
  lead to: no run does anything but to send its requests.
Main exports:
  Server.after, Server.replies, Exchange.runOn_state, Server.after_keeps
-/
import DocStore.Proofs.Exchange.Run

namespace DocStore

namespace Server

variable {σ : Type}

/-- The state after requests that are answered one after the other. -/
def after (server : Server σ) (s : σ) : List Request → σ
  | [] => s
  | r :: rest => server.after (server.answer s r).2 rest

/-- The replies to these requests. -/
def replies (server : Server σ) (s : σ) : List Request → List Reply
  | [] => []
  | r :: rest => (server.answer s r).1 :: server.replies (server.answer s r).2 rest

variable (server : Server σ)

theorem after_append (s : σ) (first second : List Request) :
    server.after s (first ++ second) = server.after (server.after s first) second := by
  induction first generalizing s with
  | nil => rfl
  | cons r rest inductionHypothesis => exact inductionHypothesis _

/-- What each of these requests keeps is there after all of them. -/
theorem after_keeps {p : Request → Prop} {I : σ → Prop}
    (keeps : ∀ s r, I s → p r → I (server.answer s r).2) {s : σ} {requests : List Request}
    (each : ∀ r ∈ requests, p r) (start : I s) : I (server.after s requests) := by
  induction requests generalizing s with
  | nil => exact start
  | cons r rest inductionHypothesis =>
      rw [List.forall_mem_cons] at each
      exact inductionHypothesis each.2 (keeps s r start each.1)

/-! ### The state that a run leaves -/

theorem follow_state (pages : Nat) (s : σ) (cursor : CursorRead) :
    (server.follow pages s cursor).state =
      server.after s (server.follow pages s cursor).sent := by
  induction pages generalizing s cursor with
  | zero =>
      cases received : cursor.receive (server.answer s cursor.request).1 with
      | finished result =>
          rw [server.follow_finished s cursor 0 received]
          rfl
      | more next =>
          rw [server.follow_zero_more s cursor received]
          rfl
  | succ pages inductionHypothesis =>
      cases received : cursor.receive (server.answer s cursor.request).1 with
      | finished result =>
          rw [server.follow_finished s cursor (pages + 1) received]
          rfl
      | more next =>
          rw [server.follow_succ_more s cursor pages received]
          exact inductionHypothesis _ next

theorem drain_state (s : σ) (cursor : CursorRead) :
    (server.drain s cursor).state = server.after s (server.drain s cursor).sent := by
  cases received : cursor.receive (server.answer s cursor.request).1 with
  | finished result =>
      rw [server.drain_finished s cursor received]
      rfl
  | more next =>
      rw [server.drain_more s cursor received]
      exact server.follow_state _ _ next

end Server

/-- A run leaves the state that its requests lead to. -/
theorem Exchange.runOn_state {σ α : Type} (server : Server σ) (s : σ) (x : Exchange α) :
    (x.runOn server s).state = server.after s (x.runOn server s).sent := by
  induction x generalizing s with
  | done outcome => rfl
  | send request next inductionHypothesis => exact inductionHypothesis _ _
  | drain cursor next inductionHypothesis =>
      calc
        ((next (server.drain s cursor).outcome).runOn server (server.drain s cursor).state).state
            = server.after (server.drain s cursor).state _ := inductionHypothesis _ _
        _ = server.after (server.after s (server.drain s cursor).sent) _ := by
          rw [server.drain_state]
        _ = server.after s ((Exchange.drain cursor next).runOn server s).sent :=
          (server.after_append s _ _).symm
  | warn warning next inductionHypothesis => exact inductionHypothesis _

end DocStore
