/-
Module: DocStore.Proofs.Exchange.Run
Purpose: runs of composed operations in terms of the runs of their parts.
Main exports:
  Exchange.Ends, Exchange.ends_bind_iff, Exchange.ends_attempt_iff,
  Exchange.ends_request_iff, Exchange.exists_ends
-/
import DocStore.Exchange.Server

namespace DocStore

/-!
`Ends` keeps of a run its outcome and the last state of the server.  The laws
below take an operation apart at its first step, so that what a composed
operation does follows from what its requests do.
-/

namespace Run

variable {σ α β : Type}

/-- A run, with what an earlier run sent and reported in front. -/
def after (run : Run σ α) (earlier : Run σ β) : Run σ α :=
  { run with
    sent := earlier.sent ++ run.sent
    warnings := earlier.warnings ++ run.warnings }

/-- A run that failed, as a run of any type. -/
def failing (run : Run σ β) (e : Error) : Run σ α :=
  { outcome := .error e, state := run.state, sent := run.sent, warnings := run.warnings }

/-- The same run, with another value made of its value. -/
def map (f : α → β) (run : Run σ α) : Run σ β :=
  { outcome := run.outcome.map f, state := run.state, sent := run.sent, warnings := run.warnings }

end Run

namespace Server

variable {σ : Type} (server : Server σ) (s : σ) (cursor : CursorRead)

theorem follow_finished {result : Except Error (List Json)} (pages : Nat)
    (received : cursor.receive (server.answer s cursor.request).1 = .finished result) :
    server.follow pages s cursor =
      ⟨result, (server.answer s cursor.request).2, [cursor.request], []⟩ := by
  rcases answered : server.answer s cursor.request with ⟨reply, after⟩
  rw [answered] at received
  rw [follow, answered]
  simp only [received]

theorem follow_zero_more {next : CursorRead}
    (received : cursor.receive (server.answer s cursor.request).1 = .more next) :
    server.follow 0 s cursor =
      ⟨.error endlessCursor, (server.answer s cursor.request).2, [cursor.request], []⟩ := by
  rcases answered : server.answer s cursor.request with ⟨reply, after⟩
  rw [answered] at received
  rw [follow, answered]
  simp only [received]

theorem follow_succ_more {next : CursorRead} (pages : Nat)
    (received : cursor.receive (server.answer s cursor.request).1 = .more next) :
    server.follow (pages + 1) s cursor =
      { server.follow pages (server.answer s cursor.request).2 next with
        sent := cursor.request ::
          (server.follow pages (server.answer s cursor.request).2 next).sent } := by
  rcases answered : server.answer s cursor.request with ⟨reply, after⟩
  rw [answered] at received
  rw [follow, answered]
  simp only [received]

theorem drain_finished {result : Except Error (List Json)}
    (received : cursor.receive (server.answer s cursor.request).1 = .finished result) :
    server.drain s cursor =
      ⟨result, (server.answer s cursor.request).2, [cursor.request], []⟩ := by
  rcases answered : server.answer s cursor.request with ⟨reply, after⟩
  rw [answered] at received
  rw [drain, answered]
  simp only [received]

theorem drain_more {next : CursorRead}
    (received : cursor.receive (server.answer s cursor.request).1 = .more next) :
    server.drain s cursor =
      { server.follow (server.pagesLeft (server.answer s cursor.request).2)
          (server.answer s cursor.request).2 next with
        sent := cursor.request ::
          (server.follow (server.pagesLeft (server.answer s cursor.request).2)
            (server.answer s cursor.request).2 next).sent } := by
  rcases answered : server.answer s cursor.request with ⟨reply, after⟩
  rw [answered] at received
  rw [drain, answered]
  simp only [received]

end Server

namespace Exchange

variable {σ α β : Type}

theorem bind_eq (x : Exchange α) (f : α → Exchange β) : x >>= f = x.bind f := rfl

theorem bind_assoc {γ : Type} (x : Exchange α) (f : α → Exchange β) (g : β → Exchange γ) :
    (x >>= f) >>= g = x >>= fun a => f a >>= g := by
  simp only [bind_eq]
  induction x with
  | done outcome => cases outcome <;> rfl
  | send request next inductionHypothesis =>
      simp only [Exchange.bind, inductionHypothesis]
  | drain cursor next inductionHypothesis =>
      simp only [Exchange.bind, inductionHypothesis]
  | warn warning next inductionHypothesis =>
      simp only [Exchange.bind, inductionHypothesis]

/-- The run of a sequence is the run of its first part, followed by that of the
second if the first had a value. -/
theorem runOn_bind (server : Server σ) (s : σ) (x : Exchange α) (f : α → Exchange β) :
    (x >>= f).runOn server s =
      match (x.runOn server s).outcome with
      | .ok a => ((f a).runOn server (x.runOn server s).state).after (x.runOn server s)
      | .error e => (x.runOn server s).failing e := by
  rw [bind_eq]
  induction x generalizing s with
  | done outcome =>
      cases outcome with
      | ok a => simp [Exchange.bind, runOn, Run.after]
      | error e => simp [Exchange.bind, runOn, Run.failing]
  | send request next inductionHypothesis =>
      simp only [Exchange.bind, runOn, inductionHypothesis]
      cases ((next (server.answer s request).1).runOn server
        (server.answer s request).2).outcome with
      | ok a => simp [Run.after]
      | error e => simp [Run.failing]
  | drain cursor next inductionHypothesis =>
      simp only [Exchange.bind, runOn, inductionHypothesis]
      cases ((next (server.drain s cursor).outcome).runOn server
        (server.drain s cursor).state).outcome with
      | ok a => simp [Run.after]
      | error e => simp [Run.failing]
  | warn warning next inductionHypothesis =>
      simp only [Exchange.bind, runOn, inductionHypothesis]
      cases (next.runOn server s).outcome with
      | ok a => simp [Run.after]
      | error e => simp [Run.failing]

/-- An attempt runs like the operation itself, and has its outcome as the value. -/
theorem runOn_attempt (server : Server σ) (s : σ) (x : Exchange α) :
    x.attempt.runOn server s =
      { outcome := .ok (x.runOn server s).outcome
        state := (x.runOn server s).state
        sent := (x.runOn server s).sent
        warnings := (x.runOn server s).warnings } := by
  induction x generalizing s with
  | done outcome => rfl
  | send request next inductionHypothesis =>
      simp [attempt, runOn, inductionHypothesis]
  | drain cursor next inductionHypothesis =>
      simp [attempt, runOn, inductionHypothesis]
  | warn warning next inductionHypothesis =>
      simp [attempt, runOn, inductionHypothesis]

/-- The operation, run from `s` on, has the outcome and leaves the server in `s'`. -/
def Ends (server : Server σ) (s : σ) (x : Exchange α) (outcome : Except Error α) (s' : σ) :
    Prop :=
  (x.runOn server s).outcome = outcome ∧ (x.runOn server s).state = s'

section

variable {server : Server σ} {s s' : σ}

/-- Every operation ends. -/
theorem exists_ends (server : Server σ) (s : σ) (x : Exchange α) :
    ∃ outcome s', x.Ends server s outcome s' :=
  ⟨_, _, rfl, rfl⟩

theorem Ends.unique {x : Exchange α} {one two : Except Error α} {s₁ s₂ : σ}
    (first : x.Ends server s one s₁) (second : x.Ends server s two s₂) :
    one = two ∧ s₁ = s₂ :=
  ⟨first.1.symm.trans second.1, first.2.symm.trans second.2⟩

@[simp] theorem ends_done_iff {given outcome : Except Error α} :
    (Exchange.done given).Ends server s outcome s' ↔ outcome = given ∧ s' = s := by
  simp only [Ends, runOn]
  exact ⟨fun h => ⟨h.1.symm, h.2.symm⟩, fun h => ⟨h.1.symm, h.2.symm⟩⟩

@[simp] theorem ends_pure_iff {a : α} {outcome : Except Error α} :
    (pure a : Exchange α).Ends server s outcome s' ↔ outcome = .ok a ∧ s' = s :=
  ends_done_iff

@[simp] theorem ends_fail_iff {e : Error} {outcome : Except Error α} :
    (Exchange.fail e : Exchange α).Ends server s outcome s' ↔ outcome = .error e ∧ s' = s :=
  ends_done_iff

@[simp] theorem ends_ofExcept_iff {given outcome : Except Error α} :
    (Exchange.ofExcept given).Ends server s outcome s' ↔ outcome = given ∧ s' = s :=
  ends_done_iff

@[simp] theorem ends_ofSchema_iff {given : Except SchemaFault α} {outcome : Except Error α} :
    (Exchange.ofSchema given).Ends server s outcome s' ↔
      outcome = given.mapError .schema ∧ s' = s := by
  cases given <;> exact ends_done_iff

@[simp] theorem ends_report_iff {warning : Warning} {outcome : Except Error Unit} :
    (Exchange.report warning).Ends server s outcome s' ↔ outcome = .ok () ∧ s' = s := by
  simp only [Ends, report, runOn]
  exact ⟨fun h => ⟨h.1.symm, h.2.symm⟩, fun h => ⟨h.1.symm, h.2.symm⟩⟩

@[simp] theorem ends_request_iff {r : Request} {outcome : Except Error Json} :
    (Exchange.request r).Ends server s outcome s' ↔
      outcome = (server.answer s r).1.result ∧ s' = (server.answer s r).2 := by
  simp only [Ends, request, runOn]
  exact ⟨fun h => ⟨h.1.symm, h.2.symm⟩, fun h => ⟨h.1.symm, h.2.symm⟩⟩

@[simp] theorem ends_command_iff {r : Request} {outcome : Except Error Unit} :
    (Exchange.command r).Ends server s outcome s' ↔
      outcome = (server.answer s r).1.result.map (fun _ => ()) ∧
        s' = (server.answer s r).2 := by
  simp only [Ends, command, runOn]
  exact ⟨fun h => ⟨h.1.symm, h.2.symm⟩, fun h => ⟨h.1.symm, h.2.symm⟩⟩

theorem Ends.bind {x : Exchange α} {f : α → Exchange β} {a : α} {middle : σ}
    {outcome : Except Error β} (first : x.Ends server s (.ok a) middle)
    (second : (f a).Ends server middle outcome s') : (x >>= f).Ends server s outcome s' := by
  rcases first with ⟨value, reached⟩
  rcases second with ⟨outcomeEq, stateEq⟩
  subst reached
  simp only [Ends, runOn_bind, value]
  exact ⟨outcomeEq, stateEq⟩

theorem Ends.bind_error {x : Exchange α} {f : α → Exchange β} {e : Error}
    (first : x.Ends server s (.error e) s') : (x >>= f).Ends server s (.error e) s' := by
  rcases first with ⟨value, reached⟩
  simp only [Ends, runOn_bind, value]
  exact ⟨rfl, reached⟩

/-- Another value made of that of an operation. -/
theorem Ends.map {x : Exchange α} {outcome : Except Error α} (ends : x.Ends server s outcome s')
    (f : α → β) : (x >>= fun a => pure (f a)).Ends server s (outcome.map f) s' := by
  cases outcome with
  | ok a => exact ends.bind (ends_pure_iff.mpr ⟨rfl, rfl⟩)
  | error e => exact ends.bind_error

/-- A sequence ends with its first part if that fails, and with its second part
otherwise. -/
theorem ends_bind_iff {x : Exchange α} {f : α → Exchange β} {outcome : Except Error β} :
    (x >>= f).Ends server s outcome s' ↔
      (∃ a middle, x.Ends server s (.ok a) middle ∧ (f a).Ends server middle outcome s') ∨
        ∃ e, x.Ends server s (.error e) s' ∧ outcome = .error e := by
  constructor
  · intro ends
    rcases exists_ends server s x with ⟨given, middle, first⟩
    cases given with
    | ok a =>
        rcases exists_ends server middle (f a) with ⟨_, _, second⟩
        rcases ends.unique (first.bind second) with ⟨rfl, rfl⟩
        exact Or.inl ⟨a, middle, first, second⟩
    | error e =>
        rcases ends.unique first.bind_error with ⟨rfl, rfl⟩
        exact Or.inr ⟨e, first, rfl⟩
  · rintro (⟨a, middle, first, second⟩ | ⟨e, first, rfl⟩)
    · exact first.bind second
    · exact first.bind_error

/-- A sequence that ends with a value has a value for each of its parts. -/
theorem ends_bind_ok_iff {x : Exchange α} {f : α → Exchange β} {b : β} :
    (x >>= f).Ends server s (.ok b) s' ↔
      ∃ a middle, x.Ends server s (.ok a) middle ∧ (f a).Ends server middle (.ok b) s' := by
  rw [ends_bind_iff]
  constructor
  · rintro (both | ⟨_, _, is⟩)
    · exact both
    · cases is
  · exact Or.inl

@[simp] theorem ends_attempt_iff {x : Exchange α} {outcome : Except Error (Except Error α)} :
    x.attempt.Ends server s outcome s' ↔
      ∃ given, outcome = .ok given ∧ x.Ends server s given s' := by
  simp only [Ends, runOn_attempt]
  constructor
  · rintro ⟨rfl, reached⟩
    exact ⟨_, rfl, rfl, reached⟩
  · rintro ⟨given, rfl, value, reached⟩
    exact ⟨by rw [value], reached⟩

/-- An attempt of which some failures are tolerated ends with what was attempted. -/
theorem ends_tolerant {x : Exchange Unit} {done other : α} {tolerated : Error → Bool}
    {outcome : Except Error α}
    (ends : Exchange.Ends server s (do
      match ← x.attempt with
      | .ok () => return done
      | .error e => if tolerated e then return other else .fail e) outcome s') :
    x.Ends server s (.ok ()) s' ∧ outcome = .ok done ∨
      ∃ e, x.Ends server s (.error e) s' ∧
        outcome = if tolerated e then .ok other else .error e := by
  rcases ends_bind_iff.mp ends with ⟨given, middle, attempted, rest⟩ | ⟨_, attempted, _⟩
  · obtain ⟨_, same, own⟩ := ends_attempt_iff.mp attempted
    cases same
    cases given with
    | ok value =>
        obtain ⟨rfl, rfl⟩ := ends_pure_iff.mp rest
        exact Or.inl ⟨own, rfl⟩
    | error e =>
        dsimp only at rest
        split at rest
        · next is =>
            obtain ⟨rfl, rfl⟩ := ends_pure_iff.mp rest
            exact Or.inr ⟨e, own, (if_pos is).symm⟩
        · next not =>
            obtain ⟨rfl, rfl⟩ := ends_fail_iff.mp rest
            exact Or.inr ⟨e, own, (if_neg not).symm⟩
  · obtain ⟨_, same, _⟩ := ends_attempt_iff.mp attempted
    cases same

/-- A query ends as its cursor is drained. -/
theorem ends_runCursor_iff {database : Option String} {aql : String} {bindVars : Dict Json}
    {transaction : Option Transaction} {outcome : Except Error (List Json)} :
    (Exchange.runCursor database aql bindVars transaction).Ends server s outcome s' ↔
      outcome = (server.drain s (.start database aql bindVars transaction)).outcome ∧
        s' = (server.drain s (.start database aql bindVars transaction)).state := by
  simp only [Ends, runCursor, runOn]
  exact ⟨fun h => ⟨h.1.symm, h.2.symm⟩, fun h => ⟨h.1.symm, h.2.symm⟩⟩

end

end Exchange

end DocStore
