/-
Module: DocStore.Proofs.Exchange.Failing
Purpose: the errors that an operation can end with, whatever it is answered.
Main exports:
  Error.OfReply, Server.ofReply_of_drain, Exchange.Fails, Exchange.fails_bind,
  Exchange.fails_attempt_bind, Exchange.Fails.of_ends
-/
import DocStore.Proofs.Exchange.Run

namespace DocStore

/-- An error that replies can lead to: one of the store, or of the transport. -/
inductive Error.OfReply : Error → Prop where
  | store (status : Nat) (number : Int) (message : String) : OfReply (.store status number message)
  | transport (fault : TransportFault) : OfReply (.transport fault)

theorem Response.ofReply_of_result {response : Response} {e : Error}
    (failed : response.result = .error e) : e.OfReply := by
  unfold Response.result at failed
  split at failed
  · cases failed
  · cases failed
    exact .store _ _ _

theorem Reply.ofReply_of_result {reply : Reply} {e : Error} (failed : reply.result = .error e) :
    e.OfReply := by
  cases reply with
  | answered response => exact Response.ofReply_of_result failed
  | lost fault =>
      cases failed
      exact .transport fault

theorem CursorRead.ofReply_of_receive {c : CursorRead} {reply : Reply} {e : Error}
    (failed : c.receive reply = .finished (.error e)) : e.OfReply := by
  unfold receive at failed
  split at failed
  · next refused =>
      cases failed
      exact Reply.ofReply_of_result refused
  · unfold receivePage at failed
    split at failed
    · cases failed
      exact .transport _
    · split at failed
      · split at failed
        · cases failed
        · cases failed
          exact .transport _
      · cases failed

namespace Server

variable {σ : Type} {server : Server σ} {e : Error}

theorem ofReply_of_follow (pages : Nat) {s : σ} {cursor : CursorRead}
    (failed : (server.follow pages s cursor).outcome = .error e) : e.OfReply := by
  induction pages generalizing s cursor with
  | zero =>
      cases received : cursor.receive (server.answer s cursor.request).1 with
      | finished result =>
          rw [server.follow_finished s cursor 0 received] at failed
          cases failed
          exact CursorRead.ofReply_of_receive received
      | more next =>
          rw [server.follow_zero_more s cursor received] at failed
          cases failed
          exact .transport _
  | succ pages inductionHypothesis =>
      cases received : cursor.receive (server.answer s cursor.request).1 with
      | finished result =>
          rw [server.follow_finished s cursor (pages + 1) received] at failed
          cases failed
          exact CursorRead.ofReply_of_receive received
      | more next =>
          rw [server.follow_succ_more s cursor pages received] at failed
          exact inductionHypothesis failed

/-- Rows that cannot be read are the fault of a reply. -/
theorem ofReply_of_drain {s : σ} {cursor : CursorRead}
    (failed : (server.drain s cursor).outcome = .error e) : e.OfReply := by
  cases received : cursor.receive (server.answer s cursor.request).1 with
  | finished result =>
      rw [server.drain_finished s cursor received] at failed
      cases failed
      exact CursorRead.ofReply_of_receive received
  | more next =>
      rw [server.drain_more s cursor received] at failed
      exact ofReply_of_follow _ failed

end Server

namespace Exchange

variable {σ α β : Type} {p : Error → Prop}

/-- Every error that the operation can end with satisfies `p`, whatever it is
answered. -/
def Fails (p : Error → Prop) : Exchange α → Prop
  | .done outcome => ∀ e, outcome = .error e → p e
  | .send _ next => ∀ reply, (next reply).Fails p
  | .drain _ next => ∀ rows, (∀ e, rows = .error e → e.OfReply) → (next rows).Fails p
  | .warn _ next => next.Fails p

theorem Fails.mono {q : Error → Prop} {x : Exchange α} (fails : x.Fails p)
    (weaker : ∀ e, p e → q e) : x.Fails q := by
  induction x with
  | done outcome => exact fun e failed => weaker e (fails e failed)
  | send request next inductionHypothesis =>
      exact fun reply => inductionHypothesis reply (fails reply)
  | drain cursor next inductionHypothesis =>
      exact fun rows read => inductionHypothesis rows (fails rows read)
  | warn warning next inductionHypothesis => exact inductionHypothesis fails

theorem fails_bind {x : Exchange α} {f : α → Exchange β} (first : x.Fails p)
    (second : ∀ a, (f a).Fails p) : (x >>= f).Fails p := by
  rw [bind_eq]
  induction x with
  | done outcome =>
      cases outcome with
      | ok a => exact second a
      | error e =>
          rintro _ ⟨⟩
          exact first e rfl
  | send request next inductionHypothesis =>
      exact fun reply => inductionHypothesis reply (first reply)
  | drain cursor next inductionHypothesis =>
      exact fun rows read => inductionHypothesis rows (first rows read)
  | warn warning next inductionHypothesis => exact inductionHypothesis first

/-- An attempt does not fail, and goes on with an error that satisfies `p`. -/
theorem fails_attempt_bind {x : Exchange α} {f : Except Error α → Exchange β} (first : x.Fails p)
    (value : ∀ a, (f (.ok a)).Fails p) (error : ∀ e, p e → (f (.error e)).Fails p) :
    (x.attempt >>= f).Fails p := by
  rw [bind_eq]
  induction x with
  | done outcome =>
      cases outcome with
      | ok a => exact value a
      | error e => exact error e (first e rfl)
  | send request next inductionHypothesis =>
      exact fun reply => inductionHypothesis reply (first reply)
  | drain cursor next inductionHypothesis =>
      exact fun rows read => inductionHypothesis rows (first rows read)
  | warn warning next inductionHypothesis => exact inductionHypothesis first

theorem fails_pure (a : α) : (pure a : Exchange α).Fails p := by
  rintro _ ⟨⟩

theorem fails_fail {e : Error} (fault : p e) : (Exchange.fail e : Exchange α).Fails p := by
  rintro _ ⟨⟩
  exact fault

theorem fails_report (warning : Warning) : (Exchange.report warning).Fails p := by
  rintro _ ⟨⟩

theorem fails_ofSchema (schema : ∀ fault, p (.schema fault)) (x : Except SchemaFault α) :
    (Exchange.ofSchema x).Fails p := by
  cases x with
  | ok a => exact fails_pure a
  | error fault => exact fails_fail (schema fault)

section

variable (replies : ∀ e : Error, e.OfReply → p e)

include replies

theorem fails_request (r : Request) : (Exchange.request r).Fails p :=
  fun _ e failed => replies e (Reply.ofReply_of_result failed)

theorem fails_command (r : Request) : (Exchange.command r).Fails p := by
  intro reply e failed
  cases result : reply.result with
  | ok body =>
      rw [result] at failed
      cases failed
  | error fault =>
      rw [result] at failed
      cases failed
      exact replies _ (Reply.ofReply_of_result result)

theorem fails_runCursor (database : Option String) (aql : String) (bindVars : Dict Json)
    (transaction : Option Transaction) :
    (Exchange.runCursor database aql bindVars transaction).Fails p :=
  fun _ read e failed => replies e (read e failed)

end

/-- An attempt of which some failures are tolerated. -/
theorem fails_tolerant {x : Exchange Unit} {done other : α} {tolerated : Error → Bool}
    (first : x.Fails p) :
    Exchange.Fails p (do
      match ← x.attempt with
      | .ok () => return done
      | .error e => if tolerated e then return other else .fail e) := by
  apply fails_attempt_bind first
  · exact fun _ => fails_pure done
  · intro e fault
    dsimp only
    split
    · exact fails_pure other
    · exact fails_fail fault

/-- An operation that ends with an error ends with one of those that it can fail
with. -/
theorem Fails.of_ends {server : Server σ} {x : Exchange α} (fails : x.Fails p) {s s' : σ}
    {e : Error} (ends : x.Ends server s (.error e) s') : p e := by
  rcases ends with ⟨error, reached⟩
  clear reached
  induction x generalizing s with
  | done outcome => exact fails e error
  | send request next inductionHypothesis => exact inductionHypothesis _ (fails _) error
  | drain cursor next inductionHypothesis =>
      exact inductionHypothesis _ (fails _ fun _ failed => Server.ofReply_of_drain failed) error
  | warn warning next inductionHypothesis => exact inductionHypothesis fails error

end Exchange

end DocStore
