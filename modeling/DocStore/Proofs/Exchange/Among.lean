/-
Module: DocStore.Proofs.Exchange.Among
Purpose: runs of an operation among the requests of others, which the server may answer
  before, between and after those of the operation.
Main exports:
  Exchange.Event, Exchange.Among, Exchange.among_bind, Exchange.among_attempt_bind,
  Exchange.among_single, Exchange.Asks.keepsAmong
-/
import DocStore.Proofs.Exchange.Asked

namespace DocStore

namespace Exchange

variable {σ α β : Type}

/-- A request that is answered during a run: whether the operation or someone else sent
it, and the state of the server before it. -/
structure Event (σ : Type) where
  own : Bool
  before : σ
  request : Request

/-- The state of the server after the request. -/
def Event.after (server : Server σ) (event : Event σ) : σ :=
  (server.answer event.before event.request).2

/-- The operation, run from one state to another among the requests of others, has the
outcome.  The events are all requests in the order in which they are answered.  The
pages of a cursor are read one by one, so that others come in between these too. -/
inductive Among (server : Server σ) :
    σ → Exchange α → List (Event σ) → Except Error α → σ → Prop where
  | done (s : σ) (outcome : Except Error α) : Among server s (.done outcome) [] outcome s
  | send {s s' : σ} {request : Request} {next : Reply → Exchange α} {events : List (Event σ)}
      {outcome : Except Error α}
      (rest : Among server (server.answer s request).2 (next (server.answer s request).1) events
        outcome s') :
      Among server s (.send request next) (⟨true, s, request⟩ :: events) outcome s'
  | finish {s s' : σ} {cursor : CursorRead} {next : Except Error (List Json) → Exchange α}
      {events : List (Event σ)} {outcome : Except Error α} {result : Except Error (List Json)}
      (received : cursor.receive (server.answer s cursor.request).1 = .finished result)
      (rest : Among server (server.answer s cursor.request).2 (next result) events outcome s') :
      Among server s (.drain cursor next) (⟨true, s, cursor.request⟩ :: events) outcome s'
  | page {s s' : σ} {cursor following : CursorRead}
      {next : Except Error (List Json) → Exchange α} {events : List (Event σ)}
      {outcome : Except Error α}
      (received : cursor.receive (server.answer s cursor.request).1 = .more following)
      (rest : Among server (server.answer s cursor.request).2 (.drain following next) events
        outcome s') :
      Among server s (.drain cursor next) (⟨true, s, cursor.request⟩ :: events) outcome s'
  | warn {s s' : σ} {warning : Warning} {next : Exchange α} {events : List (Event σ)}
      {outcome : Except Error α} (rest : Among server s next events outcome s') :
      Among server s (.warn warning next) events outcome s'
  | other {s s' : σ} {x : Exchange α} {events : List (Event σ)} {outcome : Except Error α}
      (request : Request)
      (rest : Among server (server.answer s request).2 x events outcome s') :
      Among server s x (⟨false, s, request⟩ :: events) outcome s'

/-- Only others are answered, from one state to another. -/
def Waits (server : Server σ) (s : σ) (events : List (Event σ)) (s' : σ) : Prop :=
  (pure () : Exchange Unit).Among server s events (.ok ()) s'

section

variable {server : Server σ} {s s' : σ} {events : List (Event σ)}

/-! ### Runs of composed operations -/

/-- After the end of an operation only others are answered, whatever its outcome is. -/
theorem among_done {given outcome : Except Error α} (other : Except Error β)
    (run : (Exchange.done given).Among server s events outcome s') :
    outcome = given ∧ (Exchange.done other).Among server s events other s' := by
  generalize whole : Exchange.done given = y at run
  induction run with
  | done s outcome =>
      cases whole
      exact ⟨rfl, .done s other⟩
  | other request rest inductionHypothesis =>
      obtain ⟨same, waiting⟩ := inductionHypothesis whole
      exact ⟨same, .other _ waiting⟩
  | _ => cases whole

theorem among_bind_done {given : Except Error α} {f : α → Exchange β} {outcome : Except Error β}
    (run : ((Exchange.done given).bind f).Among server s events outcome s') :
    (∃ a middle first second, (Exchange.done given).Among server s first (.ok a) middle ∧
        (f a).Among server middle second outcome s' ∧ events = first ++ second) ∨
      ∃ e, (Exchange.done given).Among server s events (.error e) s' ∧ outcome = .error e := by
  cases given with
  | ok a => exact Or.inl ⟨a, s, [], events, .done s _, run, rfl⟩
  | error e =>
      obtain ⟨rfl, failed⟩ := among_done (.error e) run
      exact Or.inr ⟨e, failed, rfl⟩

/-- A run of a sequence goes through the first part, and then through the second part
unless the first one failed. -/
theorem among_bind {x : Exchange α} {f : α → Exchange β} {outcome : Except Error β}
    (run : (x >>= f).Among server s events outcome s') :
    (∃ a middle first second, x.Among server s first (.ok a) middle ∧
        (f a).Among server middle second outcome s' ∧ events = first ++ second) ∨
      ∃ e, x.Among server s events (.error e) s' ∧ outcome = .error e := by
  rw [bind_eq] at run
  generalize whole : x.bind f = y at run
  -- The shape of the first part decides which step of the whole comes next, except that
  -- others come at any time.
  induction run generalizing x with
  | done s outcome =>
      cases x with
      | done given => exact among_bind_done (whole ▸ .done s outcome)
      | _ => cases whole
  | @send s s' request next events outcome rest inductionHypothesis =>
      cases x with
      | done given => exact among_bind_done (whole ▸ .send rest)
      | send given after =>
          cases whole
          rcases inductionHypothesis rfl with ⟨a, middle, first, second, one, two, rfl⟩ |
            ⟨e, one, same⟩
          · exact Or.inl ⟨a, middle, _, second, .send one, two, rfl⟩
          · exact Or.inr ⟨e, .send one, same⟩
      | _ => cases whole
  | @finish s s' cursor next events outcome result received rest inductionHypothesis =>
      cases x with
      | done given => exact among_bind_done (whole ▸ .finish received rest)
      | drain given after =>
          cases whole
          rcases inductionHypothesis rfl with ⟨a, middle, first, second, one, two, rfl⟩ |
            ⟨e, one, same⟩
          · exact Or.inl ⟨a, middle, _, second, .finish received one, two, rfl⟩
          · exact Or.inr ⟨e, .finish received one, same⟩
      | _ => cases whole
  | @page s s' cursor following next events outcome received rest inductionHypothesis =>
      cases x with
      | done given => exact among_bind_done (whole ▸ .page received rest)
      | drain given after =>
          cases whole
          have again : (Exchange.drain following after).bind f = .drain following fun rows =>
            (after rows).bind f := rfl
          rcases inductionHypothesis again with ⟨a, middle, first, second, one, two, rfl⟩ |
            ⟨e, one, same⟩
          · exact Or.inl ⟨a, middle, _, second, .page received one, two, rfl⟩
          · exact Or.inr ⟨e, .page received one, same⟩
      | _ => cases whole
  | @warn s s' warning next events outcome rest inductionHypothesis =>
      cases x with
      | done given => exact among_bind_done (whole ▸ .warn rest)
      | warn given after =>
          cases whole
          rcases inductionHypothesis rfl with ⟨a, middle, first, second, one, two, rfl⟩ |
            ⟨e, one, same⟩
          · exact Or.inl ⟨a, middle, _, second, .warn one, two, rfl⟩
          · exact Or.inr ⟨e, .warn one, same⟩
      | _ => cases whole
  | other request rest inductionHypothesis =>
      rcases inductionHypothesis whole with ⟨a, middle, first, second, one, two, rfl⟩ |
        ⟨e, one, same⟩
      · exact Or.inl ⟨a, middle, _, second, .other _ one, two, rfl⟩
      · exact Or.inr ⟨e, .other _ one, same⟩

/-- A run of an attempt is one of the operation, whose outcome is its value. -/
theorem among_attempt {x : Exchange α} {outcome : Except Error (Except Error α)}
    (run : x.attempt.Among server s events outcome s') :
    ∃ given, outcome = .ok given ∧ x.Among server s events given s' := by
  generalize whole : x.attempt = y at run
  induction run generalizing x with
  | done s outcome =>
      cases x with
      | done given =>
          cases whole
          exact ⟨given, rfl, .done s given⟩
      | _ => cases whole
  | send rest inductionHypothesis =>
      cases x with
      | send given after =>
          cases whole
          obtain ⟨given, same, run⟩ := inductionHypothesis rfl
          exact ⟨given, same, .send run⟩
      | _ => cases whole
  | finish received rest inductionHypothesis =>
      cases x with
      | drain given after =>
          cases whole
          obtain ⟨given, same, run⟩ := inductionHypothesis rfl
          exact ⟨given, same, .finish received run⟩
      | _ => cases whole
  | @page s s' cursor following next events outcome received rest inductionHypothesis =>
      cases x with
      | drain given after =>
          cases whole
          have again : (Exchange.drain following after).attempt = .drain following fun rows =>
            (after rows).attempt := rfl
          obtain ⟨given, same, run⟩ := inductionHypothesis again
          exact ⟨given, same, .page received run⟩
      | _ => cases whole
  | warn rest inductionHypothesis =>
      cases x with
      | warn given after =>
          cases whole
          obtain ⟨given, same, run⟩ := inductionHypothesis rfl
          exact ⟨given, same, .warn run⟩
      | _ => cases whole
  | other request rest inductionHypothesis =>
      obtain ⟨given, same, run⟩ := inductionHypothesis whole
      exact ⟨given, same, .other _ run⟩

/-- A run that goes on from the outcome of an attempt goes through the operation first. -/
theorem among_attempt_bind {x : Exchange α} {f : Except Error α → Exchange β}
    {outcome : Except Error β} (run : (x.attempt >>= f).Among server s events outcome s') :
    ∃ given middle first second, x.Among server s first given middle ∧
      (f given).Among server middle second outcome s' ∧ events = first ++ second := by
  rcases among_bind run with ⟨_, middle, first, second, one, two, split⟩ | ⟨_, one, _⟩
  · obtain ⟨_, same, one⟩ := among_attempt one
    cases same
    exact ⟨_, middle, first, second, one, two, split⟩
  · obtain ⟨_, same, _⟩ := among_attempt one
    cases same

/-- Before a request is sent only others are answered. -/
theorem among_send {request : Request} {next : Reply → Exchange α} {outcome : Except Error α}
    (run : (Exchange.send request next).Among server s events outcome s') :
    ∃ earlier middle later, events = earlier ++ ⟨true, middle, request⟩ :: later ∧
      Waits server s earlier middle ∧ (next (server.answer middle request).1).Among server
        (server.answer middle request).2 later outcome s' := by
  generalize whole : Exchange.send request next = y at run
  induction run with
  | @send s s' request' next' events outcome rest _ =>
      cases whole
      exact ⟨[], s, events, rfl, .done s _, rest⟩
  | other request rest inductionHypothesis =>
      obtain ⟨earlier, middle, later, rfl, waiting, following⟩ := inductionHypothesis whole
      exact ⟨_ :: earlier, middle, later, rfl, .other _ waiting, following⟩
  | _ => cases whole

/-- An operation that sends a single request ends as the server answers that, and only
others are answered before and after. -/
theorem among_single {x : Exchange α} {request : Request} {next : Reply → Exchange α}
    {outcome : Except Error α} (is : x = .send request next)
    (single : ∀ reply, ∃ given, next reply = .done given)
    (run : x.Among server s events outcome s') :
    ∃ earlier middle later, events = earlier ++ ⟨true, middle, request⟩ :: later ∧
      Waits server s earlier middle ∧
      x.Ends server middle outcome (server.answer middle request).2 ∧
      Waits server (server.answer middle request).2 later s' := by
  subst is
  obtain ⟨earlier, middle, later, split, waiting, rest⟩ := among_send run
  obtain ⟨given, ended⟩ := single (server.answer middle request).1
  rw [ended] at rest
  obtain ⟨rfl, after⟩ := among_done (.ok ()) rest
  refine ⟨earlier, middle, later, split, waiting, ?_, after⟩
  simp only [Ends, runOn, ended]
  exact ⟨trivial, trivial⟩

end

/-! ### What every run keeps -/

variable {server : Server σ} {I : σ → Prop} {p : Request → Prop}

/-- What each request of an operation keeps, and those of others keep when their turn
comes, every run among them keeps; it holds whenever the operation sends a request. -/
theorem Asks.keepsAmong {x : Exchange α} {s s' : σ} {events : List (Event σ)}
    {outcome : Except Error α} (asks : x.Asks p) (run : x.Among server s events outcome s')
    (keeps : ∀ s r, I s → p r → I (server.answer s r).2)
    (others : ∀ event ∈ events, event.own = false → I event.before → I (event.after server))
    (start : I s) :
    I s' ∧ ∀ event ∈ events, event.own = true → I event.before ∧ p event.request := by
  induction run with
  | done => exact ⟨start, fun _ member => absurd member List.not_mem_nil⟩
  | @send s s' request next events outcome rest inductionHypothesis =>
      obtain ⟨last, each⟩ := inductionHypothesis (asks.2 _) (List.forall_mem_cons.mp others).2
        (keeps s request start asks.1)
      exact ⟨last, List.forall_mem_cons.mpr ⟨fun _ => ⟨start, asks.1⟩, each⟩⟩
  | @finish s s' cursor next events outcome result received rest inductionHypothesis =>
      obtain ⟨last, each⟩ := inductionHypothesis (asks.2 _) (List.forall_mem_cons.mp others).2
        (keeps s cursor.request start asks.1.1)
      exact ⟨last, List.forall_mem_cons.mpr ⟨fun _ => ⟨start, asks.1.1⟩, each⟩⟩
  | @page s s' cursor following next events outcome received rest inductionHypothesis =>
      obtain ⟨last, each⟩ := inductionHypothesis ⟨asks.1.more received, asks.2⟩
        (List.forall_mem_cons.mp others).2 (keeps s cursor.request start asks.1.1)
      exact ⟨last, List.forall_mem_cons.mpr ⟨fun _ => ⟨start, asks.1.1⟩, each⟩⟩
  | warn rest inductionHypothesis => exact inductionHypothesis asks others start
  | @other s s' x events outcome request rest inductionHypothesis =>
      obtain ⟨first, later⟩ := List.forall_mem_cons.mp others
      obtain ⟨last, each⟩ := inductionHypothesis asks later (first rfl start)
      exact ⟨last, List.forall_mem_cons.mpr ⟨nofun, each⟩⟩

/-- Each own request is one that the operation can send. -/
theorem Asks.own_requests {x : Exchange α} {s s' : σ} {events : List (Event σ)}
    {outcome : Except Error α} (asks : x.Asks p) (run : x.Among server s events outcome s') :
    ∀ event ∈ events, event.own = true → p event.request := by
  have each := (asks.keepsAmong (I := fun _ => True) run (fun _ _ _ _ => trivial)
    (fun _ _ _ _ => trivial) trivial).2
  exact fun event member own => (each event member own).2

theorem Waits.keeps {s s' : σ} {events : List (Event σ)} (waits : Waits server s events s')
    (others : ∀ event ∈ events, event.own = false → I event.before → I (event.after server))
    (start : I s) : I s' := by
  have asks : (pure () : Exchange Unit).Asks fun _ => False := asks_pure ()
  exact (asks.keepsAmong waits (fun _ _ _ absurd => absurd.elim) others start).1

theorem Waits.own_eq_false {s s' : σ} {events : List (Event σ)} (waits : Waits server s events s') :
    ∀ event ∈ events, event.own = false := by
  have asks : (pure () : Exchange Unit).Asks fun _ => False := asks_pure ()
  intro event member
  cases own : event.own with
  | false => rfl
  | true => exact (asks.own_requests waits event member own).elim

end Exchange

end DocStore
