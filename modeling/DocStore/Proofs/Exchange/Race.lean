/-
Module: DocStore.Proofs.Exchange.Race
Purpose: two operations that race on one server, which answers a request of either in turn,
  and what both of them see of such a run.
Main exports:
  Exchange.Event.flip, Exchange.Race, Exchange.Race.left_send, Exchange.Traced,
  Exchange.among_map, Exchange.among_bind_pure, Exchange.bind_eq_attempt_bind
-/
import DocStore.Proofs.Exchange.Among

namespace DocStore

namespace Exchange

variable {σ α β : Type}

/-! ### Races -/

/-- The event as the other one of two operations sees it. -/
def Event.flip (event : Event σ) : Event σ :=
  { event with own := !event.own }

@[simp] theorem Event.own_flip (event : Event σ) : event.flip.own = !event.own := rfl

@[simp] theorem Event.before_flip (event : Event σ) : event.flip.before = event.before := rfl

@[simp] theorem Event.request_flip (event : Event σ) : event.flip.request = event.request := rfl

@[simp] theorem Event.flip_flip (event : Event σ) : event.flip.flip = event := by
  simp [Event.flip]

theorem Event.map_flip_flip (events : List (Event σ)) :
    (events.map Event.flip).map Event.flip = events := by
  rw [List.map_map]
  exact List.map_id'' Event.flip_flip events

/-- Two operations, run at the same time on one server from one state to another, have the
outcomes.  The events are the requests of both in the order in which they are answered: each
is one of the left operation, and then the right one is among others, or the other way
round. -/
structure Race (server : Server σ) (s : σ) (x : Exchange α) (y : Exchange β)
    (events : List (Event σ)) (left : Except Error α) (right : Except Error β) (s' : σ) :
    Prop where
  left : x.Among server s events left s'
  right : y.Among server s (events.map Event.flip) right s'

section

variable {server : Server σ} {s s₁ s' : σ} {events : List (Event σ)} {x : Exchange α}
  {y : Exchange β} {left : Except Error α} {right : Except Error β} {request : Request}
  {cursor : CursorRead} {reply : Reply} {result : Except Error (List Json)}

theorem race_done (server : Server σ) (s : σ) (left : Except Error α) (right : Except Error β) :
    Race server s (.done left) (.done right) [] left right s :=
  ⟨.done s left, .done s right⟩

/-- The left operation comes first with its next request. -/
theorem Race.left_send {next : Reply → Exchange α}
    (rest : Race server (server.answer s request).2 (next (server.answer s request).1) y events
      left right s') :
    Race server s (.send request next) y (⟨true, s, request⟩ :: events) left right s' :=
  ⟨.send rest.left, .other request rest.right⟩

/-- The left operation comes first and reads the last page of a cursor. -/
theorem Race.left_finish {next : Except Error (List Json) → Exchange α}
    (answers : server.answer s cursor.request = (reply, s₁))
    (received : cursor.receive reply = .finished result)
    (rest : Race server s₁ (next result) y events left right s') :
    Race server s (.drain cursor next) y (⟨true, s, cursor.request⟩ :: events) left right s' := by
  refine ⟨.finish (by rw [answers]; exact received) ?_, .other cursor.request ?_⟩
  · rw [answers]
    exact rest.left
  · rw [answers]
    exact rest.right

/-- The right operation comes first with its next request. -/
theorem Race.right_send {next : Reply → Exchange β}
    (rest : Race server (server.answer s request).2 x (next (server.answer s request).1) events
      left right s') :
    Race server s x (.send request next) (⟨false, s, request⟩ :: events) left right s' :=
  ⟨.other request rest.left, .send rest.right⟩

/-- The right operation comes first and reads the last page of a cursor. -/
theorem Race.right_finish {next : Except Error (List Json) → Exchange β}
    (answers : server.answer s cursor.request = (reply, s₁))
    (received : cursor.receive reply = .finished result)
    (rest : Race server s₁ x (next result) events left right s') :
    Race server s x (.drain cursor next) (⟨false, s, cursor.request⟩ :: events) left right s' := by
  refine ⟨.other cursor.request ?_, .finish (by rw [answers]; exact received) ?_⟩
  · rw [answers]
    exact rest.left
  · rw [answers]
    exact rest.right

end

/-! ### Traces -/

/-- Each event starts in the state that the one before it left. -/
def Traced (server : Server σ) (s : σ) : List (Event σ) → σ → Prop
  | [], s' => s' = s
  | event :: rest, s' => event.before = s ∧ Traced server (event.after server) rest s'

section

variable {server : Server σ} {s s' : σ} {events : List (Event σ)}

theorem Among.traced {x : Exchange α} {outcome : Except Error α}
    (run : x.Among server s events outcome s') : Traced server s events s' := by
  induction run with
  | done => rfl
  | send rest inductionHypothesis => exact ⟨rfl, inductionHypothesis⟩
  | finish received rest inductionHypothesis => exact ⟨rfl, inductionHypothesis⟩
  | page received rest inductionHypothesis => exact ⟨rfl, inductionHypothesis⟩
  | warn rest inductionHypothesis => exact inductionHypothesis
  | other request rest inductionHypothesis => exact ⟨rfl, inductionHypothesis⟩

/-- What every request keeps holds all along a trace. -/
theorem Traced.keeps {I : σ → Prop} (keeps : ∀ s r, I s → I (server.answer s r).2)
    (traced : Traced server s events s') (start : I s) :
    I s' ∧ ∀ event ∈ events, I event.before := by
  induction events generalizing s with
  | nil =>
      cases traced
      exact ⟨start, fun _ member => absurd member List.not_mem_nil⟩
  | cons event rest inductionHypothesis =>
      obtain ⟨rfl, following⟩ := traced
      obtain ⟨last, each⟩ := inductionHypothesis following (keeps _ event.request start)
      exact ⟨last, List.forall_mem_cons.mpr ⟨start, each⟩⟩

/-! ### Runs that are observed -/

/-- Others may be answered after the end of an operation. -/
theorem Among.waits {x : Exchange α} {outcome : Except Error α} {s₁ : σ}
    {later : List (Event σ)} (run : x.Among server s events outcome s₁)
    (waiting : Waits server s₁ later s') : x.Among server s (events ++ later) outcome s' := by
  induction run with
  | done s outcome => exact (among_done outcome waiting).2
  | send rest inductionHypothesis => exact .send (inductionHypothesis waiting)
  | finish received rest inductionHypothesis =>
      exact .finish received (inductionHypothesis waiting)
  | page received rest inductionHypothesis => exact .page received (inductionHypothesis waiting)
  | warn rest inductionHypothesis => exact .warn (inductionHypothesis waiting)
  | other request rest inductionHypothesis => exact .other request (inductionHypothesis waiting)

/-- A run of the first part of a sequence, followed by one of the second part. -/
theorem Among.bind {x : Exchange α} {f : α → Exchange β} {a : α} {outcome : Except Error β}
    {s₁ : σ} {later : List (Event σ)} (first : x.Among server s events (.ok a) s₁)
    (second : (f a).Among server s₁ later outcome s') :
    (x >>= f).Among server s (events ++ later) outcome s' := by
  rw [bind_eq]
  generalize isValue : Except.ok a = given at first
  induction first with
  | done s given =>
      cases isValue
      exact second
  | send rest inductionHypothesis => exact .send (inductionHypothesis second isValue)
  | finish received rest inductionHypothesis =>
      exact .finish received (inductionHypothesis second isValue)
  | page received rest inductionHypothesis =>
      exact .page received (inductionHypothesis second isValue)
  | warn rest inductionHypothesis => exact .warn (inductionHypothesis second isValue)
  | other request rest inductionHypothesis =>
      exact .other request (inductionHypothesis second isValue)

/-- An operation whose value is turned into an outcome runs like the operation itself. -/
theorem among_map {x : Exchange α} {f : α → Except Error β} {outcome : Except Error β}
    (run : (x >>= fun a => .ofExcept (f a)).Among server s events outcome s') :
    ∃ given, x.Among server s events given s' ∧ outcome = given.bind f := by
  rcases among_bind run with ⟨a, middle, first, second, one, two, rfl⟩ | ⟨e, one, rfl⟩
  · obtain ⟨rfl, waiting⟩ := among_done (.ok ()) two
    exact ⟨.ok a, one.waits waiting, rfl⟩
  · exact ⟨.error e, one, rfl⟩

/-- An operation whose value is put into another one runs like the operation itself. -/
theorem among_bind_pure {x : Exchange α} {f : α → β} {outcome : Except Error β}
    (run : (x >>= fun a => pure (f a)).Among server s events outcome s') :
    ∃ given, x.Among server s events given s' ∧ outcome = given.map f := by
  obtain ⟨given, first, rfl⟩ := among_map (f := fun a => .ok (f a)) run
  refine ⟨given, first, ?_⟩
  cases given <;> rfl

end

/-- Two sequences race through their first parts, and then through their second parts. -/
theorem Race.bind {γ δ : Type} {server : Server σ} {s s₁ s' : σ} {events later : List (Event σ)}
    {x : Exchange α} {y : Exchange β} {f : α → Exchange γ} {g : β → Exchange δ} {a : α} {b : β}
    {left : Except Error γ} {right : Except Error δ}
    (first : Race server s x y events (.ok a) (.ok b) s₁)
    (second : Race server s₁ (f a) (g b) later left right s') :
    Race server s (x >>= f) (y >>= g) (events ++ later) left right s' where
  left := first.left.bind second.left
  right := by
    rw [List.map_append]
    exact first.right.bind second.right

/-- A sequence attempts its first part, and goes on or fails with the outcome. -/
theorem bind_eq_attempt_bind (x : Exchange α) (f : α → Exchange β) :
    x >>= f = x.attempt >>= fun outcome =>
      match outcome with
      | .ok a => f a
      | .error e => .fail e := by
  simp only [bind_eq]
  induction x with
  | done outcome => cases outcome <;> rfl
  | send request next inductionHypothesis =>
      simp only [Exchange.bind, attempt, inductionHypothesis]
  | drain cursor next inductionHypothesis =>
      simp only [Exchange.bind, attempt, inductionHypothesis]
  | warn warning next inductionHypothesis =>
      simp only [Exchange.bind, attempt, inductionHypothesis]

end Exchange

end DocStore
