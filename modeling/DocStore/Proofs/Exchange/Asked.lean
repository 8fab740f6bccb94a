/-
Module: DocStore.Proofs.Exchange.Asked
Purpose: which requests an operation can send, whatever it is answered, and what every
  run keeps because each of these requests keeps it.
Main exports:
  CursorRead.Asks, Exchange.Asks, Exchange.asks_bind, Exchange.asks_attempt,
  Exchange.asks_tolerant, Exchange.Asks.keeps, Exchange.Asks.sent
-/
import DocStore.Proofs.Exchange.Run

namespace DocStore

namespace CursorRead

/-- Every request of a reading satisfies `p`: the next one, and that for the next
page of any cursor. -/
def Asks (p : Request → Prop) (c : CursorRead) : Prop :=
  p c.request ∧ ∀ id, p { c with position := .page id }.request

/-- A reading goes on at a page, in the same database and transaction. -/
theorem receive_eq_more {c next : CursorRead} {reply : Reply}
    (more : c.receive reply = .more next) :
    ∃ id rows, next = { c with position := .page id, rows := rows } := by
  unfold receive at more
  split at more
  · cases more
  · unfold receivePage at more
    split at more
    · cases more
    · split at more
      · split at more
        · cases more
          exact ⟨_, _, rfl⟩
        · cases more
      · cases more

theorem Asks.more {p : Request → Prop} {c next : CursorRead} {reply : Reply}
    (asks : c.Asks p) (more : c.receive reply = .more next) : next.Asks p := by
  rcases receive_eq_more more with ⟨id, rows, rfl⟩
  exact ⟨asks.2 id, fun other => asks.2 other⟩

theorem Asks.mono {p q : Request → Prop} {c : CursorRead} (asks : c.Asks p)
    (weaker : ∀ r, p r → q r) : c.Asks q :=
  ⟨weaker _ asks.1, fun id => weaker _ (asks.2 id)⟩

theorem Asks.and {p q : Request → Prop} {c : CursorRead} (first : c.Asks p) (second : c.Asks q) :
    c.Asks fun r => p r ∧ q r :=
  ⟨⟨first.1, second.1⟩, fun id => ⟨first.2 id, second.2 id⟩⟩

end CursorRead

namespace Exchange

variable {σ α β : Type} {p q : Request → Prop}

/-- Every request that the operation can ever send satisfies `p`, whatever the
replies to those before it are. -/
def Asks (p : Request → Prop) : Exchange α → Prop
  | .done _ => True
  | .send request next => p request ∧ ∀ reply, (next reply).Asks p
  | .drain cursor next => cursor.Asks p ∧ ∀ rows, (next rows).Asks p
  | .warn _ next => next.Asks p

theorem Asks.mono {x : Exchange α} (asks : x.Asks p) (weaker : ∀ r, p r → q r) : x.Asks q := by
  induction x with
  | done => trivial
  | send request next inductionHypothesis =>
      exact ⟨weaker _ asks.1, fun reply => inductionHypothesis reply (asks.2 reply)⟩
  | drain cursor next inductionHypothesis =>
      exact ⟨asks.1.mono weaker, fun rows => inductionHypothesis rows (asks.2 rows)⟩
  | warn warning next inductionHypothesis => exact inductionHypothesis asks

theorem Asks.and {x : Exchange α} (first : x.Asks p) (second : x.Asks q) :
    x.Asks fun r => p r ∧ q r := by
  induction x with
  | done => trivial
  | send request next inductionHypothesis =>
      exact ⟨⟨first.1, second.1⟩, fun reply => inductionHypothesis reply (first.2 reply)
        (second.2 reply)⟩
  | drain cursor next inductionHypothesis =>
      exact ⟨first.1.and second.1, fun rows => inductionHypothesis rows (first.2 rows)
        (second.2 rows)⟩
  | warn warning next inductionHypothesis => exact inductionHypothesis first second

theorem asks_true (x : Exchange α) : x.Asks fun _ => True := by
  induction x with
  | done => trivial
  | send request next inductionHypothesis => exact ⟨trivial, inductionHypothesis⟩
  | drain cursor next inductionHypothesis =>
      exact ⟨⟨trivial, fun _ => trivial⟩, inductionHypothesis⟩
  | warn warning next inductionHypothesis => exact inductionHypothesis

theorem asks_bind {x : Exchange α} {f : α → Exchange β} (first : x.Asks p)
    (second : ∀ a, (f a).Asks p) : (x >>= f).Asks p := by
  rw [bind_eq]
  induction x with
  | done outcome =>
      cases outcome with
      | ok a => exact second a
      | error e => trivial
  | send request next inductionHypothesis =>
      exact ⟨first.1, fun reply => inductionHypothesis reply (first.2 reply)⟩
  | drain cursor next inductionHypothesis =>
      exact ⟨first.1, fun rows => inductionHypothesis rows (first.2 rows)⟩
  | warn warning next inductionHypothesis => exact inductionHypothesis first

theorem asks_attempt {x : Exchange α} (asks : x.Asks p) : x.attempt.Asks p := by
  induction x with
  | done => trivial
  | send request next inductionHypothesis =>
      exact ⟨asks.1, fun reply => inductionHypothesis reply (asks.2 reply)⟩
  | drain cursor next inductionHypothesis =>
      exact ⟨asks.1, fun rows => inductionHypothesis rows (asks.2 rows)⟩
  | warn warning next inductionHypothesis => exact inductionHypothesis asks

theorem asks_request {r : Request} (h : p r) : (Exchange.request r).Asks p :=
  ⟨h, fun _ => trivial⟩

theorem asks_command {r : Request} (h : p r) : (Exchange.command r).Asks p :=
  ⟨h, fun _ => trivial⟩

theorem asks_pure (a : α) : (pure a : Exchange α).Asks p := trivial

theorem asks_fail (e : Error) : (Exchange.fail e : Exchange α).Asks p := trivial

theorem asks_ofExcept (x : Except Error α) : (Exchange.ofExcept x).Asks p := trivial

theorem asks_ofExcept_bind {x : Except Error α} {f : α → Exchange β}
    (second : ∀ a, x = .ok a → (f a).Asks p) : (Exchange.ofExcept x >>= f).Asks p := by
  cases x with
  | ok a => exact second a rfl
  | error e => trivial

theorem asks_ofSchema (x : Except SchemaFault α) : (Exchange.ofSchema x).Asks p := by
  cases x <;> trivial

theorem asks_ofSchema_bind {x : Except SchemaFault α} {f : α → Exchange β}
    (second : ∀ a, x = .ok a → (f a).Asks p) : (Exchange.ofSchema x >>= f).Asks p := by
  cases x with
  | ok a => exact second a rfl
  | error fault => trivial

theorem asks_report (warning : Warning) : (Exchange.report warning).Asks p := trivial

theorem asks_runCursor {database : Option String} {aql : String} {bindVars : Dict Json}
    {transaction : Option Transaction}
    (asks : (CursorRead.start database aql bindVars transaction).Asks p) :
    (Exchange.runCursor database aql bindVars transaction).Asks p :=
  ⟨asks, fun _ => trivial⟩

/-- An attempt of which some failures are tolerated. -/
theorem asks_tolerant {x : Exchange Unit} {done other : α} {tolerated : Error → Bool}
    (asks : x.Asks p) :
    Exchange.Asks p (do
      match ← x.attempt with
      | .ok () => return done
      | .error e => if tolerated e then return other else .fail e) := by
  apply asks_bind (asks_attempt asks)
  intro outcome
  cases outcome with
  | ok => exact asks_pure done
  | error e =>
      dsimp only
      split
      · exact asks_pure other
      · exact asks_fail e

/-! ### What every run keeps -/

variable {server : Server σ} {I : σ → Prop}

theorem follow_keeps (keeps : ∀ s r, I s → p r → I (server.answer s r).2) (pages : Nat) {s : σ}
    {cursor : CursorRead} (asks : cursor.Asks p) (start : I s) :
    I (server.follow pages s cursor).state := by
  induction pages generalizing s cursor with
  | zero =>
      have answered := keeps s cursor.request start asks.1
      cases received : cursor.receive (server.answer s cursor.request).1 with
      | finished result =>
          rw [server.follow_finished s cursor 0 received]
          exact answered
      | more following =>
          rw [server.follow_zero_more s cursor received]
          exact answered
  | succ pages inductionHypothesis =>
      have answered := keeps s cursor.request start asks.1
      cases received : cursor.receive (server.answer s cursor.request).1 with
      | finished result =>
          rw [server.follow_finished s cursor (pages + 1) received]
          exact answered
      | more following =>
          rw [server.follow_succ_more s cursor pages received]
          exact inductionHypothesis (asks.more received) answered

theorem drain_keeps (keeps : ∀ s r, I s → p r → I (server.answer s r).2) {s : σ}
    {cursor : CursorRead} (asks : cursor.Asks p) (start : I s) :
    I (server.drain s cursor).state := by
  have answered := keeps s cursor.request start asks.1
  cases received : cursor.receive (server.answer s cursor.request).1 with
  | finished result =>
      rw [server.drain_finished s cursor received]
      exact answered
  | more following =>
      rw [server.drain_more s cursor received]
      exact follow_keeps keeps _ (asks.more received) answered

/-- What each request of an operation keeps, each of its runs keeps. -/
theorem Asks.keeps {x : Exchange α} (asks : x.Asks p)
    (keeps : ∀ s r, I s → p r → I (server.answer s r).2) {s : σ} (start : I s) :
    I (x.runOn server s).state := by
  induction x generalizing s with
  | done => exact start
  | send request next inductionHypothesis =>
      exact inductionHypothesis _ (asks.2 _) (keeps s request start asks.1)
  | drain cursor next inductionHypothesis =>
      exact inductionHypothesis _ (asks.2 _) (drain_keeps keeps asks.1 start)
  | warn warning next inductionHypothesis => exact inductionHypothesis asks start

theorem Asks.keeps_of_ends {x : Exchange α} (asks : x.Asks p)
    (keeps : ∀ s r, I s → p r → I (server.answer s r).2) {s s' : σ}
    {outcome : Except Error α} (ends : x.Ends server s outcome s') (start : I s) : I s' :=
  ends.2 ▸ asks.keeps keeps start

/-! ### What every run sends -/

theorem follow_sent (pages : Nat) {s : σ} {cursor : CursorRead} (asks : cursor.Asks p) :
    ∀ r ∈ (server.follow pages s cursor).sent, p r := by
  have first : ∀ r ∈ [cursor.request], p r := List.forall_mem_singleton.mpr asks.1
  induction pages generalizing s cursor with
  | zero =>
      cases received : cursor.receive (server.answer s cursor.request).1 with
      | finished result =>
          rw [server.follow_finished s cursor 0 received]
          exact first
      | more following =>
          rw [server.follow_zero_more s cursor received]
          exact first
  | succ pages inductionHypothesis =>
      cases received : cursor.receive (server.answer s cursor.request).1 with
      | finished result =>
          rw [server.follow_finished s cursor (pages + 1) received]
          exact first
      | more following =>
          have next := asks.more received
          rw [server.follow_succ_more s cursor pages received]
          exact List.forall_mem_cons.mpr
            ⟨asks.1, inductionHypothesis next (List.forall_mem_singleton.mpr next.1)⟩

theorem drain_sent {s : σ} {cursor : CursorRead} (asks : cursor.Asks p) :
    ∀ r ∈ (server.drain s cursor).sent, p r := by
  cases received : cursor.receive (server.answer s cursor.request).1 with
  | finished result =>
      rw [server.drain_finished s cursor received]
      exact List.forall_mem_singleton.mpr asks.1
  | more following =>
      rw [server.drain_more s cursor received]
      exact List.forall_mem_cons.mpr ⟨asks.1, follow_sent _ (asks.more received)⟩

/-- Each request that is sent is one that the operation can send. -/
theorem Asks.sent {x : Exchange α} (asks : x.Asks p) {s : σ} :
    ∀ r ∈ (x.runOn server s).sent, p r := by
  induction x generalizing s with
  | done => exact fun r member => absurd member List.not_mem_nil
  | send request next inductionHypothesis =>
      exact List.forall_mem_cons.mpr ⟨asks.1, inductionHypothesis _ (asks.2 _)⟩
  | drain cursor next inductionHypothesis =>
      intro r member
      rcases List.mem_append.mp member with read | later
      · exact drain_sent asks.1 r read
      · exact inductionHypothesis _ (asks.2 _) r later
  | warn warning next inductionHypothesis => exact inductionHypothesis asks

end Exchange

end DocStore
