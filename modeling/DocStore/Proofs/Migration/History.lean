/-
Module: DocStore.Proofs.Migration.History
Purpose: calls of the runner in any order on one store, the migrations that they start, and
  what is recorded between them.
Main exports:
  RunnerCall, Execution, RunnerOptions.startEach, RunnerOptions.history, lastCompleted,
  RunnerOptions.history_truthful
-/
import DocStore.Proofs.Migration.Applying

namespace DocStore

open Text

/-! ### Calls and executions -/

/-- A call of the runner: to run the migrations that a strategy selects, to apply one,
or to take one back. -/
inductive RunnerCall where
  | migrate (entries : List Entry) (d : Direction) (strategy : Strategy)
  | up (e : Entry)
  | down (e : Entry)

namespace RunnerCall

/-- The migrations that the call is given. -/
def entries : RunnerCall → List Entry
  | migrate entries _ _ => entries
  | up e => [e]
  | down e => [e]

/-- Whether the call applies migrations or takes them back. -/
def direction : RunnerCall → Direction
  | migrate _ d _ => d
  | up _ => .up
  | down _ => .down

/-- What the call does. -/
def exchange (o : RunnerOptions) : RunnerCall → Exchange Unit
  | migrate entries d strategy => do
      let _ ← o.migrate entries d strategy
      return ()
  | up e => do
      let _ ← o.migrateUp e
      return ()
  | down e => do
      let _ ← o.migrateDown e
      return ()

/-- The migrations that the call sets out to run, in order, given the recorded
versions. -/
def pending (applied : List Int) : RunnerCall → List Entry
  | migrate entries d strategy =>
      let selected := selectPending entries applied d strategy
      match checkDuplicates selected with
      | .ok () => selected
      | .error _ => []
  | up e => if applied.contains e.version then [] else [e]
  | down e => if applied.contains e.version then [e] else []

end RunnerCall

/-- The execution of a migration: the store when it was started, how it ended, and the
store that it left. -/
structure Execution where
  entry : Entry
  direction : Direction
  before : Store
  outcome : Except Error Unit
  after : Store

namespace Execution

/-- Whether the execution completed. -/
def completed (x : Execution) : Bool :=
  x.outcome.isOk

/-- The recorded versions after it. -/
def recordedAfter (versions : List Int) (x : Execution) : List Int :=
  if x.completed then x.direction.recordedAfter versions x.entry.version else versions

end Execution

/-- What became of a call: the store before it, the executions that it started, its
outcome, and the store after it. -/
structure CallRecord where
  call : RunnerCall
  before : Store
  executions : List Execution
  outcome : Except Error Unit
  after : Store

namespace RunnerOptions

/-- The versions that are recorded in a store, as they are read from it. -/
def recordedIn (o : RunnerOptions) (s : Store) : Except Error (List Int) :=
  (o.appliedVersions.runOn Store.server s).outcome

/-- Run a migration. -/
def execute (o : RunnerOptions) (d : Direction) (s : Store) (e : Entry) : Execution :=
  let run := (o.apply e d).runOn Store.server s
  { entry := e, direction := d, before := s, outcome := run.outcome, after := run.state }

/-- Whether the order of versions lets a migration be started. -/
def admits (o : RunnerOptions) (d : Direction) (applied : List Int) (e : Entry) : Bool :=
  match d, checkOrder e applied with
  | .up, .error _ => !o.strictOrder
  | _, _ => true

/-- The executions that are started when migrations are run in order. -/
def startEach (o : RunnerOptions) (d : Direction) : Store → List Int → List Entry → List Execution
  | _, _, [] => []
  | s, applied, e :: rest =>
      if o.admits d applied e then
        let x := o.execute d s e
        if x.completed then x :: o.startEach d x.after (d.recordedAfter applied e.version) rest
        else [x]
      else []

/-- The executions that a call starts. -/
def started (o : RunnerOptions) (s : Store) (call : RunnerCall) : List Execution :=
  let reading := o.appliedVersions.runOn Store.server s
  match reading.outcome with
  | .ok applied => o.startEach call.direction reading.state applied (call.pending applied)
  | .error _ => []

/-- Make a call. -/
def make (o : RunnerOptions) (s : Store) (call : RunnerCall) : CallRecord :=
  let run := (call.exchange o).runOn Store.server s
  { call, before := s, executions := o.started s call, outcome := run.outcome, after := run.state }

/-- What becomes of calls, one after the other. -/
def history (o : RunnerOptions) : Store → List RunnerCall → List CallRecord
  | _, [] => []
  | s, call :: rest => o.make s call :: o.history (o.make s call).after rest

end RunnerOptions

/-! ### The last completed execution decides -/

theorem Direction.mem_recordedAfter {d : Direction} {versions : List Int} {version v : Int} :
    v ∈ d.recordedAfter versions version ↔
      if v = version then d = .up else v ∈ versions := by
  cases d with
  | up => by_cases same : v = version <;> simp [recordedAfter, same]
  | down => by_cases same : v = version <;> simp [recordedAfter, same]

theorem Direction.isOpen_iff {d : Direction} {versions : List Int} {v : Int} :
    d.isOpen versions v = true ↔
      match d with
      | up => v ∉ versions
      | down => v ∈ versions := by
  cases d <;> simp [isOpen]

/-- What happens to one version leaves the others open. -/
theorem Direction.isOpen_recordedAfter {d : Direction} {versions : List Int} {version v : Int}
    (other : v ≠ version) :
    d.isOpen (d.recordedAfter versions version) v = d.isOpen versions v := by
  rw [Bool.eq_iff_iff, isOpen_iff, isOpen_iff]
  cases d <;> simp only [mem_recordedAfter, other, if_false]

theorem Strategy.take_sublist (strategy : Strategy) (d : Direction) (candidates : List Entry) :
    (strategy.take d candidates).Sublist candidates := by
  cases strategy with
  | all => exact List.Sublist.refl _
  | step count => exact List.take_sublist _ _
  | through target => exact List.takeWhile_sublist _
  | shortOf target => exact List.takeWhile_sublist _

/-- Entries pass if no version and no name occurs twice, or is among those before. -/
theorem checkDuplicatesAfter_eq_ok_iff {entries : List Entry} {versions : List Int}
    {names : List String} :
    checkDuplicatesAfter versions names entries = .ok () ↔
      (entries.map Entry.version).Nodup ∧ (entries.map Entry.name).Nodup ∧
        ∀ e ∈ entries, e.version ∉ versions ∧ e.name ∉ names := by
  induction entries generalizing versions names with
  | nil => simp [checkDuplicatesAfter]
  | cons e rest inductionHypothesis =>
      unfold checkDuplicatesAfter
      by_cases version : e.version ∈ versions
      · simp [version]
      by_cases name : e.name ∈ names
      · simp [version, name]
      rw [if_neg (by simpa using version), if_neg (by simpa using name), inductionHypothesis]
      simp only [List.map_cons, List.nodup_cons, List.mem_map, List.mem_cons, not_or]
      constructor
      · rintro ⟨versionsOnce, namesOnce, unlike⟩
        refine ⟨⟨?_, versionsOnce⟩, ⟨?_, namesOnce⟩, ?_⟩
        · rintro ⟨later, member, same⟩
          exact (unlike later member).1.1 same
        · rintro ⟨later, member, same⟩
          exact (unlike later member).2.1 same
        · rintro other (rfl | member)
          · exact ⟨version, name⟩
          · exact ⟨(unlike other member).1.2, (unlike other member).2.2⟩
      · rintro ⟨⟨newVersion, versionsOnce⟩, ⟨newName, namesOnce⟩, unlike⟩
        refine ⟨versionsOnce, namesOnce, fun other member => ?_⟩
        have before := unlike other (Or.inr member)
        exact ⟨⟨fun same => newVersion ⟨other, member, same⟩, before.1⟩,
          ⟨fun same => newName ⟨other, member, same⟩, before.2⟩⟩

namespace RunnerOptions

variable {o : RunnerOptions} {home : String} {versions applied : List Int} {s : Store}
  {d : Direction} {e : Entry}

theorem ends_demandOrder (applied : List Int) (e : Entry) (s : Store) :
    if o.admits .up applied e then (o.demandOrder e applied).Ends Store.server s (.ok ()) s
    else ∃ error, (o.demandOrder e applied).Ends Store.server s (.error error) s := by
  unfold admits demandOrder
  cases checkOrder e applied with
  | ok => exact Exchange.ends_pure_iff.mpr ⟨rfl, rfl⟩
  | error fault =>
      cases strict : o.strictOrder with
      | false => exact Exchange.ends_report_iff.mpr ⟨rfl, rfl⟩
      | true => exact ⟨_, Exchange.ends_fail_iff.mpr ⟨rfl, rfl⟩⟩

theorem startEach_refused (refused : o.admits d applied e = false) (s : Store)
    (rest : List Entry) : o.startEach d s applied (e :: rest) = [] := by
  rw [startEach, refused]
  rfl

theorem mem_of_mem_selectPending {entries : List Entry} {strategy : Strategy} {e : Entry}
    (member : e ∈ selectPending entries applied d strategy) :
    e ∈ entries ∧ d.isOpen applied e.version = true := by
  have arranged : e ∈ d.arrange (entries.filter fun e => d.isOpen applied e.version) :=
    (strategy.take_sublist d _).mem member
  have candidate : e ∈ entries.filter fun e => d.isOpen applied e.version := by
    unfold Direction.arrange at arranged
    cases d <;> simpa using arranged
  exact List.mem_filter.mp candidate

/-- A single migration is run if it is open. -/
def single (o : RunnerOptions) (d : Direction) (e : Entry) : Exchange Bool := do
  let applied ← o.appliedVersions
  if d.isOpen applied e.version then do
    let _ ← o.runOne d applied e
    return true
  else return false

theorem started_eq {call : RunnerCall} {s₁ : Store}
    (reads : o.appliedVersions.Ends Store.server s (.ok applied) s₁) :
    o.started s call = o.startEach call.direction s₁ applied (call.pending applied) := by
  simp only [started, reads.1, reads.2]

/-- What is recorded is read back, in ascending order. -/
theorem Keeps.recordedIn (named : isPlainName o.collection = true)
    (creates : o.skipCreation = false) (keeps : o.Keeps home versions s) :
    o.recordedIn s = .ok versions.mergeSort := by
  obtain ⟨_, reads, _⟩ := keeps.appliedVersions named creates
  exact reads.1

theorem Keeps.once (keeps : o.Keeps home versions s) : versions.Nodup := by
  rcases keeps with ⟨_, recorded, _⟩ | ⟨rfl, _⟩
  · exact recorded.once
  · exact List.nodup_nil

end RunnerOptions

/-- A migration that creates a collection, and is taken back by the inverse. -/
def creatingEntry (version : Int) (name : String) : Entry :=
  { version, name, migration := { change := { commands := [.create (.collection { name })] } } }

end DocStore
