/-
Module: DocStore.Proofs.Migration.Noting
Purpose: the runner with notes of the versions that it completes, and the transactions that its
  requests name.
Main exports:
  Context.asks_run_inside, RunnerOptions.noteEach, RunnerOptions.noteRun,
  RunnerOptions.migrate_eq, RunnerOptions.completed_of_noteRun,
  RunnerOptions.namesOwn_noteRun
-/
import DocStore.Proofs.Memory.Revocable
import DocStore.Proofs.Migration.History

namespace DocStore

open Exchange Text

/-! ### Where the requests of commands belong -/

namespace Definition

theorem asks_create_inside (o : Definition) (t : Option Transaction) :
    o.create.Asks (Request.Inside t) := by
  cases o with
  | collection c => exact asks_ofSchema_bind fun _ _ => asks_command (Or.inl rfl)
  | index i => exact asks_command (Or.inl rfl)
  | view v => exact asks_command (Or.inl rfl)
  | analyzer a =>
      apply asks_bind (asks_tolerant (asks_command (Or.inl rfl)))
      exact fun _ => asks_command (Or.inl rfl)

theorem asks_drop_inside (o : Definition) (t : Option Transaction) :
    o.drop.Asks (Request.Inside t) := by
  cases o with
  | collection c => exact asks_command (Or.inl rfl)
  | index i =>
      apply asks_bind
      · apply asks_bind (asks_request (Or.inl rfl))
        intro listing
        split
        · exact asks_pure _
        · exact asks_fail _
      · exact fun id => asks_command (Or.inl rfl)
  | view v => exact asks_command (Or.inl rfl)
  | analyzer a => exact asks_command (Or.inl rfl)

end Definition

theorem CursorRead.asks_inside (database : Option String) (aql : String) (bindVars : Dict Json)
    (t : Option Transaction) :
    (CursorRead.start database aql bindVars t).Asks (Request.Inside t) :=
  ⟨Or.inr (Request.transaction_inTransaction _ t rfl),
    fun _ => Or.inr (Request.transaction_inTransaction _ t rfl)⟩

/-- A command makes its requests in the given transaction, or in none. -/
theorem Command.asks_perform_inside (command : Command) (database : Option String)
    (t : Option Transaction) : (command.perform database t).Asks (Request.Inside t) := by
  cases command with
  | create o =>
      apply asks_bind (asks_ofSchema _)
      intro _
      exact asks_bind (o.asks_create_inside t) fun _ => asks_pure _
  | createIfNotExists o =>
      apply asks_bind (asks_ofSchema _)
      intro _
      exact asks_tolerant (o.asks_create_inside t)
  | drop o => exact asks_bind (o.asks_drop_inside t) fun _ => asks_pure _
  | dropIfExists o => exact asks_tolerant (o.asks_drop_inside t)
  | alterCollection c columns =>
      apply asks_bind _ fun _ => asks_pure _
      apply asks_bind (asks_request (Or.inl rfl))
      intro current
      exact asks_ofSchema_bind fun _ _ => asks_command (Or.inl rfl)
  | alterView v changes =>
      apply asks_bind _ fun _ => asks_pure _
      exact asks_ofSchema_bind fun _ _ => asks_command (Or.inl rfl)
  | rename source target =>
      apply asks_bind _ fun _ => asks_pure _
      exact asks_ofSchema_bind fun _ _ => asks_command (Or.inl rfl)
  | execute aql =>
      exact asks_bind (asks_runCursor (CursorRead.asks_inside _ _ _ t)) fun _ => asks_pure _

theorem Context.asks_run_inside (c : Context) (s : Script) :
    (c.run s).Asks (Request.Inside c.transaction) :=
  asks_run_of fun _ _ => Command.asks_perform_inside _ _ _

/-! ### Requests outside of transactions -/

/-- Whether a request, made in no transaction, leaves a collection alone, or can only create
one. -/
def Request.Idle (home database name : String) (r : Request) : Prop :=
  (r.Spares home database name ∨ r.Creates) ∧ r.transaction = none

theorem Request.Spares.unended {database name : String} {r : Request}
    (spares : r.Spares home database name) (id : String) :
    Route.of? r ≠ some (.commitTransaction id) ∧ Route.of? r ≠ some (.abortTransaction id) := by
  constructor
  · intro commits
    cases (spares _ commits).1
  · intro aborts
    cases (spares _ aborts).1

theorem Request.Idle.namesOnly {home database name : String} {r : Request}
    (idle : r.Idle home database name) : r.NamesOnly none := by
  apply Request.Inside.namesOnly (Or.inl idle.2)
  rcases idle.1 with spares | creates
  · exact spares.unended
  · intro id
    constructor
    · intro commits
      cases creates _ commits
    · intro aborts
      cases creates _ aborts

/-! ### The runner with notes -/

/-- What is noted of a run of migrations: the versions that it completed, in order, and its
outcome. -/
structure RunNotes (α : Type) where
  completed : List Int
  outcome : Except Error α

namespace RunnerOptions

/-- Run migrations in order, up to the first that fails, and note those that complete. -/
def noteEach (o : RunnerOptions) (d : Direction) (applied : List Int) :
    List Entry → Exchange (RunNotes Unit)
  | [] => return ⟨[], .ok ()⟩
  | e :: rest => do
      match ← (o.runOne d applied e).attempt with
      | .error error => return ⟨[], .error error⟩
      | .ok next => do
          let notes ← o.noteEach d next rest
          return ⟨e.version :: notes.completed, notes.outcome⟩

/-- Run the migrations that a strategy selects, and note those that complete. -/
def noteRun (o : RunnerOptions) (entries : List Entry) (d : Direction) (s : Strategy) :
    Exchange (RunNotes (List Int)) := do
  match ← o.appliedVersions.attempt with
  | .error error => return ⟨[], .error error⟩
  | .ok applied =>
      let pending := selectPending entries applied d s
      match checkDuplicates pending with
      | .error fault => return ⟨[], .error (.order fault)⟩
      | .ok () => do
          let notes ← o.noteEach d applied pending
          return ⟨notes.completed, notes.outcome.map fun _ => pending.map Entry.version⟩

variable {o : RunnerOptions} {d : Direction} {home : String} {e : Entry} {s s' : Store}
  {events : List (Event Store)}

theorem runEach_eq (o : RunnerOptions) (d : Direction) (applied : List Int)
    (entries : List Entry) :
    o.runEach d applied entries =
      o.noteEach d applied entries >>= fun notes => .ofExcept notes.outcome := by
  induction entries generalizing applied with
  | nil => rfl
  | cons e rest inductionHypothesis =>
      rw [runEach, noteEach, bind_eq_attempt_bind, bind_assoc]
      congr 1
      funext outcome
      cases outcome with
      | ok next =>
          dsimp only
          rw [inductionHypothesis, bind_assoc]
          rfl
      | error error => rfl

/-- The runner does the same whether notes are taken or not. -/
theorem migrate_eq (o : RunnerOptions) (entries : List Entry) (d : Direction) (s : Strategy) :
    o.migrate entries d s = o.noteRun entries d s >>= fun notes => .ofExcept notes.outcome := by
  rw [migrate, noteRun, bind_eq_attempt_bind, bind_assoc]
  congr 1
  funext outcome
  cases outcome with
  | error error => rfl
  | ok applied =>
      dsimp only
      cases checkDuplicates (selectPending entries applied d s) with
      | error fault => rfl
      | ok =>
          dsimp only
          rw [runEach_eq, bind_assoc, bind_assoc]
          congr 1
          funext notes
          cases notes.outcome <;> rfl

theorem completed_of_noteEach {σ : Type} {server : Server σ} {s s' : σ} {events : List (Event σ)}
    {applied : List Int} {pending : List Entry} {completed : List Int}
    (run : (o.noteEach d applied pending).Among server s events (.ok ⟨completed, .ok ()⟩) s') :
    completed = pending.map Entry.version := by
  induction pending generalizing applied s events completed with
  | nil =>
      cases (among_done (.ok ()) run).1
      rfl
  | cons e rest inductionHypothesis =>
      obtain ⟨given, middle, first, second, one, two, rfl⟩ := among_attempt_bind run
      cases given with
      | error error => cases (among_done (.ok ()) two).1
      | ok next =>
          dsimp only at two
          obtain ⟨noted, following, is⟩ := among_bind_pure two
          cases noted with
          | error error => cases is
          | ok notes =>
              obtain ⟨others, outcome⟩ := notes
              cases is
              rw [inductionHypothesis following, List.map_cons]

/-- A run that ends well has completed the versions that it returns. -/
theorem completed_of_noteRun {σ : Type} {server : Server σ} {s s' : σ} {events : List (Event σ)}
    {entries : List Entry} {strategy : Strategy} {completed versions : List Int}
    (run : (o.noteRun entries d strategy).Among server s events
      (.ok ⟨completed, .ok versions⟩) s') : completed = versions := by
  obtain ⟨given, middle, first, second, one, two, rfl⟩ := among_attempt_bind run
  cases given with
  | error error => cases (among_done (.ok ()) two).1
  | ok applied =>
      dsimp only at two
      cases checked : checkDuplicates (selectPending entries applied d strategy) with
      | error fault =>
          rw [checked] at two
          cases (among_done (.ok ()) two).1
      | ok =>
          rw [checked] at two
          dsimp only at two
          obtain ⟨noted, each, is⟩ := among_bind_pure two
          cases noted with
          | error error => cases is
          | ok notes =>
              obtain ⟨completed', outcome⟩ := notes
              cases outcome with
              | error error => cases is
              | ok =>
                  cases is
                  exact completed_of_noteEach each

/-! ### The transactions that the runner names -/

theorem asks_ensureBookkeeping (o : RunnerOptions) (home database name : String) :
    o.ensureBookkeeping.Asks (Request.Idle home database name) := by
  unfold ensureBookkeeping
  split
  · exact asks_pure ()
  · apply asks_bind _ fun _ => asks_pure ()
    apply asks_bind (asks_ofSchema _)
    intro _
    apply asks_tolerant
    apply asks_ofSchema_bind
    intro body _
    apply asks_command
    refine ⟨Or.inr fun route routed => ?_, rfl⟩
    rw [Route.of?_post "collection" rfl rfl (by decide)] at routed
    cases routed
    rfl

/-- To read the records is to create their collection at most. -/
theorem asks_appliedVersions (named : isPlainName o.collection = true) (home database : String) :
    o.appliedVersions.Asks (Request.Idle home database o.collection) := by
  apply asks_bind (o.asks_ensureBookkeeping home database o.collection)
  intro _
  apply asks_ofExcept_bind
  intro compiled is
  apply asks_bind
  · apply asks_runCursor
    refine ⟨⟨Or.inl ?_, rfl⟩, fun id => ⟨Or.inl (Request.spares_page rfl), rfl⟩⟩
    apply Request.spares_start rfl
    intro statement reads removes
    have effect := (versionsQuery_plain named).effect_of_select (List.cons_ne_nil _ _)
      (by decide : ∀ name ∈ ["version"], isPlainName name = true) rfl is reads
    rw [effect] at removes
    cases removes
  · intro rows
    exact asks_bind (asks_ofExcept _) fun _ => asks_pure _

theorem asks_record (named : isPlainName o.collection = true) (version : Int) (d : Direction)
    (t : Option Transaction) : (o.record version d t).Asks (Request.NamesOnly t) := by
  cases d with
  | up =>
      have inside : (o.upRequest version t).Inside t :=
        Or.inr (Request.transaction_inTransaction _ t rfl)
      apply asks_command (r := o.upRequest version t)
      apply inside.namesOnly
      intro id
      rw [route_upRequest named]
      exact ⟨nofun, nofun⟩
  | down =>
      have inside : (o.downRequest version t).Inside t :=
        Or.inr (Request.transaction_inTransaction _ t rfl)
      apply asks_command (r := o.downRequest version t)
      apply inside.namesOnly
      intro id
      rw [route_downRequest named]
      exact ⟨nofun, nofun⟩

theorem asks_runBody (named : isPlainName o.collection = true)
    (spares : e.migration.Spares home (o.tenant.getD home) o.collection o.tenant)
    (t : Option Transaction) : (o.runBody e d t).Asks (Request.NamesOnly t) := by
  apply asks_ofExcept_bind
  intro script body
  apply asks_bind
  · have spared := Context.asks_run (c := { tenant := o.tenant, transaction := t })
      (spares.of_body body)
    have inside := Context.asks_run_inside { tenant := o.tenant, transaction := t } script
    exact (spared.and inside).mono fun r both => both.2.namesOnly both.1.unended
  · intro progress
    apply asks_bind (asks_ofExcept _)
    exact fun _ => asks_record named e.version d t

theorem asks_demandOrder {p : Request → Prop} (o : RunnerOptions) (e : Entry)
    (applied : List Int) : (o.demandOrder e applied).Asks p := by
  unfold demandOrder
  split
  · exact asks_pure ()
  · split
    · exact asks_fail _
    · exact asks_report _

theorem namesOwn_apply (named : isPlainName o.collection = true)
    (spares : e.migration.Spares home (o.tenant.getD home) o.collection o.tenant) :
    (o.apply e d).NamesOwn := by
  unfold apply
  split
  · exact (asks_runBody named spares none).namesOwn
  · exact namesOwn_withTransaction _ _ fun t => asks_runBody named spares (some t)

theorem namesOwn_runOne (named : isPlainName o.collection = true)
    (spares : e.migration.Spares home (o.tenant.getD home) o.collection o.tenant)
    (applied : List Int) : (o.runOne d applied e).NamesOwn := by
  have silent : ∀ {α : Type} (a : α), (pure a : Exchange α).NamesOwn :=
    fun a => (asks_pure a).namesOwn
  cases d with
  | up =>
      apply namesOwn_bind (o.asks_demandOrder e applied).namesOwn
      intro _
      exact namesOwn_bind (namesOwn_apply named spares) fun _ => silent _
  | down => exact namesOwn_bind (namesOwn_apply named spares) fun _ => silent _

theorem namesOwn_noteEach (named : isPlainName o.collection = true) {pending : List Entry}
    (spares : ∀ e ∈ pending,
      e.migration.Spares home (o.tenant.getD home) o.collection o.tenant)
    (applied : List Int) : (o.noteEach d applied pending).NamesOwn := by
  induction pending generalizing applied with
  | nil => exact (asks_pure _).namesOwn
  | cons e rest inductionHypothesis =>
      apply namesOwn_bind
      · exact namesOwn_attempt (namesOwn_runOne named (spares e List.mem_cons_self) applied)
      · intro outcome
        cases outcome with
        | error error => exact (asks_pure _).namesOwn
        | ok next =>
            apply namesOwn_bind (inductionHypothesis
              (fun later member => spares later (List.mem_cons_of_mem _ member)) next)
            exact fun notes => (asks_pure _).namesOwn

/-- The runner names only transactions that it has begun. -/
theorem namesOwn_noteRun (named : isPlainName o.collection = true) {entries : List Entry}
    (spares : ∀ e ∈ entries,
      e.migration.Spares home (o.tenant.getD home) o.collection o.tenant)
    (strategy : Strategy) : (o.noteRun entries d strategy).NamesOwn := by
  apply namesOwn_bind
  · apply namesOwn_attempt
    have asks := asks_appliedVersions named home (o.tenant.getD home)
    exact (asks.mono fun _ idle => idle.namesOnly).namesOwn
  · intro outcome
    cases outcome with
    | error error => exact (asks_pure _).namesOwn
    | ok applied =>
        dsimp only
        split
        · exact (asks_pure _).namesOwn
        · apply namesOwn_bind
          · apply namesOwn_noteEach named
            exact fun e member => spares e (mem_of_mem_selectPending member).1
          · exact fun notes => (asks_pure _).namesOwn

end RunnerOptions

end DocStore
