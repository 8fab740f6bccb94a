/-
Module: DocStore.Proofs.Migration.Tenancy
Purpose: migrations stay in the database of their runner, whether they are applied, taken
  back or only listed, and wherever they fail.
Main exports:
  Command.objects, Command.NamesOnly, Command.asks_perform_staysIn, Migration.NamesOnly,
  RunnerTask, RunnerOptions.staysIn_apply, tasks_leave_other_databases
-/
import DocStore.Proofs.Memory.Tenancy
import DocStore.Proofs.Migration.Inverting
import DocStore.Proofs.Migration.Noting

namespace DocStore

open Exchange

variable {home database : String} {tenant : Option String}

/-! ### The requests about an object -/

namespace Definition

theorem tenant_withDefaultTenant (o : Definition) (tenant : Option String) :
    (o.withDefaultTenant tenant).tenant = o.tenant.or tenant := by
  cases o <;> rfl

theorem asks_create_staysIn {o : Definition} (addressed : o.tenant.getD home = database) :
    o.create.Asks (Request.StaysIn home database) := by
  cases o with
  | collection c =>
      apply asks_ofSchema_bind
      intro body _
      exact asks_command (Request.staysIn_at "collection" rfl (by decide) (by decide) addressed)
  | index i =>
      exact asks_command (Request.staysIn_at "index" rfl (by decide) (by decide) addressed)
  | view v =>
      exact asks_command (Request.staysIn_at "view" rfl (by decide) (by decide) addressed)
  | analyzer a =>
      apply asks_bind
      · apply asks_tolerant
        exact asks_command
          (Request.staysIn_below "analyzer" _ rfl (by decide) (by decide) addressed)
      · intro _
        exact asks_command
          (Request.staysIn_at "analyzer" rfl (by decide) (by decide) addressed)

theorem asks_drop_staysIn {o : Definition} (addressed : o.tenant.getD home = database) :
    o.drop.Asks (Request.StaysIn home database) := by
  cases o with
  | collection c =>
      exact asks_command
        (Request.staysIn_below "collection" _ rfl (by decide) (by decide) addressed)
  | index i =>
      apply asks_bind
      · apply asks_bind
        · exact asks_request (Request.staysIn_at "index" rfl (by decide) (by decide) addressed)
        · intro listing
          split
          · exact asks_pure _
          · exact asks_fail _
      · intro id
        exact asks_command
          (Request.staysIn_below "index" id rfl (by decide) (by decide) addressed)
  | view v =>
      exact asks_command (Request.staysIn_below "view" _ rfl (by decide) (by decide) addressed)
  | analyzer a =>
      exact asks_command
        (Request.staysIn_below "analyzer" _ rfl (by decide) (by decide) addressed)

theorem asks_rename_staysIn {source target : Definition}
    (addressed : source.tenant.getD home = database) :
    (source.rename target).Asks (Request.StaysIn home database) := by
  apply asks_ofSchema_bind
  intro resource checked
  apply asks_command
  obtain ⟨_, _, ⟨_, _, _, _, rfl⟩ | ⟨_, _, _, _, rfl⟩⟩ := checkRename_eq_ok checked
  · exact Request.staysIn_below "collection" _ (Route.path_below "collection" source.name "rename")
      (by decide) (by decide) addressed
  · exact Request.staysIn_below "view" _ (Route.path_below "view" source.name "rename")
      (by decide) (by decide) addressed

end Definition

theorem Collection.asks_alter_staysIn {c : Collection} (columns : List ColumnOp)
    (addressed : c.tenant.getD home = database) :
    (c.alter columns).Asks (Request.StaysIn home database) := by
  have stays : ∀ r : Request, r.path = "collection/" ++ c.name ++ "/properties" →
      r.database = c.tenant → r.StaysIn home database := by
    intro r path given
    refine Request.staysIn_below "collection" _
      (path.trans (Route.path_below "collection" c.name "properties")) (by decide) (by decide) ?_
    rw [given]
    exact addressed
  apply asks_bind (asks_request (stays _ rfl rfl))
  intro current
  apply asks_ofSchema_bind
  intro schema _
  exact asks_command (stays _ rfl rfl)

theorem View.asks_alter_staysIn {v : View} (changes : List ViewChange)
    (addressed : v.tenant.getD home = database) :
    (v.alter changes).Asks (Request.StaysIn home database) := by
  apply asks_ofSchema_bind
  intro _ _
  exact asks_command (Request.staysIn_below "view" _
    (Route.path_below "view" v.name "properties") (by decide) (by decide) addressed)

/-! ### Commands -/

namespace Command

/-- The objects that a command is about. -/
def objects : Command → List Definition
  | create o => [o]
  | createIfNotExists o => [o]
  | drop o => [o]
  | dropIfExists o => [o]
  | alterCollection c _ => [.collection c]
  | alterView v _ => [.view v]
  | rename source target => [source, target]
  | execute _ => []

/-- Whether the objects of a command declare no database or the given one. -/
def NamesOnly (tenant : Option String) (command : Command) : Prop :=
  ∀ o ∈ command.objects, o.tenant = none ∨ o.tenant = tenant

theorem objects_withDefaultTenant (command : Command) (tenant : Option String) :
    (command.withDefaultTenant tenant).objects =
      command.objects.map (·.withDefaultTenant tenant) := by
  cases command <;> rfl

/-- With a default all objects live in the database. -/
theorem NamesOnly.tenant_eq {command : Command} (names : command.NamesOnly tenant)
    {o : Definition} (member : o ∈ (command.withDefaultTenant tenant).objects) :
    o.tenant = tenant := by
  rw [objects_withDefaultTenant] at member
  obtain ⟨given, isGiven, rfl⟩ := List.mem_map.mp member
  rw [Definition.tenant_withDefaultTenant]
  rcases names given isGiven with none | same
  · rw [none, Option.none_or]
  · rw [same, Option.or_self]

/-- The inverse of a command is about the same objects. -/
theorem NamesOnly.reverse {command inverse : Command} (names : command.NamesOnly tenant)
    (reversed : command.reverse = .ok inverse) : inverse.NamesOnly tenant := by
  cases command with
  | rename source target =>
      cases reversed
      intro o member
      apply names o
      simpa [objects, or_comm] using member
  | alterCollection c columns =>
      obtain ⟨inverses, rfl⟩ := exists_of_reverse_alterCollection reversed
      exact names
  | alterView v changes => cases reversed
  | execute aql => cases reversed
  | _ =>
      cases reversed
      exact names

/-- A command on objects of one database stays there, and so do the queries that it
sends there. -/
theorem asks_perform_staysIn {command : Command} {sentTo : Option String}
    {transaction : Option Transaction}
    (live : ∀ o ∈ command.objects, o.tenant.getD home = database)
    (queries : ∀ aql, command = .execute aql →
      (CursorRead.start sentTo aql {} transaction).Asks (Request.StaysIn home database)) :
    (command.perform sentTo transaction).Asks (Request.StaysIn home database) := by
  cases command with
  | create o =>
      apply asks_bind (asks_ofSchema _)
      intro _
      have creates := Definition.asks_create_staysIn (live o List.mem_cons_self)
      exact asks_bind creates fun _ => asks_pure _
  | createIfNotExists o =>
      apply asks_bind (asks_ofSchema _)
      intro _
      exact asks_tolerant (Definition.asks_create_staysIn (live o List.mem_cons_self))
  | drop o =>
      have drops := Definition.asks_drop_staysIn (live o List.mem_cons_self)
      exact asks_bind drops fun _ => asks_pure _
  | dropIfExists o =>
      exact asks_tolerant (Definition.asks_drop_staysIn (live o List.mem_cons_self))
  | alterCollection c columns =>
      have alters := Collection.asks_alter_staysIn columns (live _ List.mem_cons_self)
      exact asks_bind alters fun _ => asks_pure _
  | alterView v changes =>
      have alters := View.asks_alter_staysIn changes (live _ List.mem_cons_self)
      exact asks_bind alters fun _ => asks_pure _
  | rename source target =>
      have renames : (source.rename target).Asks (Request.StaysIn home database) :=
        Definition.asks_rename_staysIn (live source List.mem_cons_self)
      exact asks_bind renames fun _ => asks_pure _
  | execute aql => exact asks_bind (asks_runCursor (queries aql rfl)) fun _ => asks_pure _

end Command

/-! ### Bodies -/

/-- Whether all commands of a body name no database or the given one. -/
def Script.NamesOnly (tenant : Option String) (s : Script) : Prop :=
  ∀ command ∈ s.commands, command.NamesOnly tenant

/-- Whether all bodies of a migration name no database or the given one. -/
structure Migration.NamesOnly (tenant : Option String) (m : Migration) : Prop where
  change : m.change.NamesOnly tenant
  up : ∀ s ∈ m.up, s.NamesOnly tenant
  down : ∀ s ∈ m.down, s.NamesOnly tenant

/-- The inverse of a body is about the same objects. -/
theorem Script.NamesOnly.inverse {s inverse : Script} (names : s.NamesOnly tenant)
    (inverts : s.inverse = .ok inverse) : inverse.NamesOnly tenant :=
  Script.forall_mem_inverse (fun reversed own => own.reverse reversed) inverts names

theorem Migration.NamesOnly.of_body {m : Migration} (names : m.NamesOnly tenant) {d : Direction}
    {s : Script} (body : m.body d = .ok s) : s.NamesOnly tenant := by
  unfold Migration.body at body
  cases d with
  | up =>
      cases body
      cases own : m.up with
      | none => exact names.change
      | some script => exact names.up script own
  | down =>
      cases own : m.down with
      | none =>
          simp only [own] at body
          exact names.change.inverse body
      | some script =>
          simp only [own] at body
          cases body
          exact names.down _ own

theorem Context.asks_run_staysIn {c : Context} {s : Script}
    (names : ∀ command ∈ s.commands, command.NamesOnly c.tenant)
    (within : ∀ handle ∈ c.transaction, handle.database = none ∨ handle.database = c.tenant)
    (addressed : c.tenant.getD home = database) :
    (c.run s).Asks (Request.StaysIn home database) := by
  apply asks_run_of
  intro command member
  apply Command.asks_perform_staysIn
  · intro o about
    rw [(names command member).tenant_eq about]
    exact addressed
  · exact fun _ _ => Request.asks_staysIn within addressed

/-! ### The runner -/

namespace RunnerOptions

variable {o : RunnerOptions}

theorem asks_ensureBookkeeping_staysIn (addressed : o.tenant.getD home = database) :
    o.ensureBookkeeping.Asks (Request.StaysIn home database) := by
  unfold ensureBookkeeping
  split
  · exact asks_pure _
  · apply asks_bind
    · apply Command.asks_perform_staysIn
      · intro object member
        cases List.mem_singleton.mp member
        exact addressed
      · intro aql queries
        cases queries
    · exact fun _ => asks_pure _

theorem asks_appliedVersions_staysIn (addressed : o.tenant.getD home = database) :
    o.appliedVersions.Asks (Request.StaysIn home database) := by
  apply asks_bind (asks_ensureBookkeeping_staysIn addressed)
  intro _
  apply asks_ofExcept_bind
  intro compiled _
  apply asks_bind
    (asks_runCursor (Request.asks_staysIn (fun _ member => by cases member) addressed))
  exact fun _ => asks_ofExcept_bind fun _ _ => asks_pure _

theorem asks_record_staysIn (addressed : o.tenant.getD home = database) (version : Int)
    (d : Direction) {t : Option Transaction} (within : ∀ handle ∈ t, handle.database = o.tenant) :
    (o.record version d t).Asks (Request.StaysIn home database) := by
  have either : ∀ handle ∈ t, handle.database = none ∨ handle.database = o.tenant :=
    fun handle member => Or.inr (within handle member)
  apply asks_command
  cases d with
  | up =>
      refine Request.staysIn_below "document" _ (Request.path_inTransaction _ t) (by decide)
        (by decide) ?_
      rw [Request.addressed_inTransaction either rfl]
      exact addressed
  | down => exact Request.staysIn_document rfl either rfl addressed

theorem asks_runBody_staysIn {e : Entry} (names : e.migration.NamesOnly o.tenant)
    (addressed : o.tenant.getD home = database) (d : Direction) {t : Option Transaction}
    (within : ∀ handle ∈ t, handle.database = o.tenant) :
    (o.runBody e d t).Asks (Request.StaysIn home database) := by
  apply asks_ofExcept_bind
  intro script body
  apply asks_bind
  · exact Context.asks_run_staysIn (c := { tenant := o.tenant, transaction := t })
      (names.of_body body) (fun handle member => Or.inr (within handle member)) addressed
  · intro progress
    exact asks_ofExcept_bind fun _ _ => asks_record_staysIn addressed e.version d within

/-- Running a migration stays in the database, in a transaction or not. -/
theorem staysIn_apply {e : Entry} (names : e.migration.NamesOnly o.tenant)
    (addressed : o.tenant.getD home = database) (d : Direction) :
    (o.apply e d).StaysIn home database := by
  unfold apply
  split
  · apply staysIn_of_asks
    exact asks_runBody_staysIn names addressed d fun _ member => by cases member
  · apply staysIn_withTransaction addressed
    intro t within
    apply staysIn_of_asks
    apply asks_runBody_staysIn names addressed d
    intro handle member
    cases member
    exact within

theorem staysIn_demandOrder (e : Entry) (applied : List Int) :
    (o.demandOrder e applied).StaysIn home database :=
  staysIn_of_asks (o.asks_demandOrder e applied)

theorem staysIn_runEach {entries : List Entry}
    (names : ∀ e ∈ entries, e.migration.NamesOnly o.tenant)
    (addressed : o.tenant.getD home = database) (d : Direction) (applied : List Int) :
    (o.runEach d applied entries).StaysIn home database := by
  induction entries generalizing applied with
  | nil => exact staysIn_done _
  | cons e rest inductionHypothesis =>
      have applies := staysIn_apply (names e List.mem_cons_self) addressed d
      apply staysIn_bind
      · cases d with
        | up =>
            apply staysIn_bind (staysIn_demandOrder e applied)
            exact fun _ => staysIn_bind applies fun _ => staysIn_done _
        | down => exact staysIn_bind applies fun _ => staysIn_done _
      · exact inductionHypothesis fun other inRest => names other (List.mem_cons_of_mem _ inRest)

end RunnerOptions

/-- What is asked of a runner: to run migrations, or to list them with their states. -/
inductive RunnerTask where
  | run (call : RunnerCall)
  | status (entries : List Entry)

namespace RunnerTask

/-- The migrations that the task is given. -/
def entries : RunnerTask → List Entry
  | run call => call.entries
  | status entries => entries

/-- What the task does. -/
def exchange (o : RunnerOptions) : RunnerTask → Exchange Unit
  | run call => call.exchange o
  | status entries => do
      let _ ← o.status entries
      return ()

/-- The store after tasks, each of a runner with its own options. -/
def after (s : Store) (tasks : List (RunnerOptions × RunnerTask)) : Store :=
  tasks.foldl (fun s task => ((task.2.exchange task.1).runOn Store.server s).state) s

/-- Every task stays in the database of its runner, whether it fails or not. -/
theorem staysIn_exchange {o : RunnerOptions} {task : RunnerTask}
    (names : ∀ e ∈ task.entries, e.migration.NamesOnly o.tenant)
    (addressed : o.tenant.getD home = database) : (task.exchange o).StaysIn home database := by
  have reads := staysIn_of_asks (RunnerOptions.asks_appliedVersions_staysIn addressed)
  cases task with
  | status entries =>
      exact staysIn_bind (staysIn_bind reads fun _ => staysIn_done _) fun _ => staysIn_done _
  | run call =>
      cases call with
      | migrate entries d strategy =>
          apply staysIn_bind _ fun _ => staysIn_done _
          apply staysIn_bind reads
          intro applied
          dsimp only
          split
          · exact staysIn_done _
          · apply staysIn_bind _ fun _ => staysIn_done _
            apply RunnerOptions.staysIn_runEach _ addressed
            exact fun e member => names e (RunnerOptions.mem_of_mem_selectPending member).1
      | up e =>
          have applies := RunnerOptions.staysIn_apply (names e List.mem_cons_self) addressed .up
          apply staysIn_bind _ fun _ => staysIn_done _
          apply staysIn_bind reads
          intro applied
          split
          · exact staysIn_done _
          · apply staysIn_bind (RunnerOptions.staysIn_demandOrder e applied)
            exact fun _ => staysIn_bind applies fun _ => staysIn_done _
      | down e =>
          have applies := RunnerOptions.staysIn_apply (names e List.mem_cons_self) addressed .down
          apply staysIn_bind _ fun _ => staysIn_done _
          apply staysIn_bind reads
          intro applied
          split
          · exact staysIn_bind applies fun _ => staysIn_done _
          · exact staysIn_done _

/-- Tasks of runners of one database leave all other databases as they are, however each
of them ends. -/
theorem after_leaves_others {s : Store} {tasks : List (RunnerOptions × RunnerTask)}
    (runners : ∀ task ∈ tasks, task.1.tenant = tenant)
    (names : ∀ task ∈ tasks, ∀ e ∈ task.2.entries, e.migration.NamesOnly tenant) {other : String}
    (different : other ≠ tenant.getD s.home) :
    (after s tasks).database other = s.database other := by
  induction tasks generalizing s with
  | nil => rfl
  | cons task rest inductionHypothesis =>
      have own := runners task List.mem_cons_self
      have stays : (task.2.exchange task.1).StaysIn s.home (tenant.getD s.home) := by
        apply staysIn_exchange
        · rw [own]
          exact names task List.mem_cons_self
        · rw [own]
      have home := (Store.onward_runOn (task.2.exchange task.1) s).home_eq
      have later := inductionHypothesis (s := ((task.2.exchange task.1).runOn Store.server s).state)
        (fun later member => runners later (List.mem_cons_of_mem _ member))
        (fun later member => names later (List.mem_cons_of_mem _ member)) (home ▸ different)
      exact later.trans (stays.database_eq different)

/-! ### A runner beside a database with the same collection -/

/-- A store whose home database has a collection of users. -/
def homeStore : Store :=
  { databases := ⟨[("_system", { collections := ⟨[("users",
      { properties := {}, documents := [⟨[("_key", .str "ann")]⟩] })]⟩ })]⟩ }

/-- A migration that creates a collection and removes all that is in it. -/
def clearingEntry : Entry :=
  { version := 1, name := "users"
    migration := { change := { commands := [
      .createIfNotExists (.collection { name := "users" }),
      .execute "FOR u0 IN `users` REMOVE u0 IN `users`"] } } }

/-- The migration is run, fails to be taken back, and is listed. -/
def clearingTasks : List (RunnerOptions × RunnerTask) :=
  [({ tenant := some "blue" }, .run (.migrate [clearingEntry] .up .all)),
    ({ tenant := some "blue", strictOrder := true }, .run (.down clearingEntry)),
    ({ tenant := some "blue" }, .status [clearingEntry])]

theorem after_leaves_others_of_clearingTasks :
    (∀ task ∈ clearingTasks, task.1.tenant = some "blue") ∧
      (after homeStore clearingTasks).database "_system" = homeStore.database "_system" := by
  have runners : ∀ task ∈ clearingTasks, task.1.tenant = some "blue" := by
    simp [clearingTasks]
  have unnamed : clearingEntry.migration.NamesOnly (some "blue") := by
    refine ⟨fun command member o inCommand => ?_, fun _ => nofun, fun _ => nofun⟩
    simp only [clearingEntry, List.mem_cons, List.not_mem_nil, or_false] at member
    rcases member with rfl | rfl
    · cases List.mem_singleton.mp inCommand
      exact Or.inl rfl
    · cases inCommand
  have names : ∀ task ∈ clearingTasks, ∀ e ∈ task.2.entries,
      e.migration.NamesOnly (some "blue") := by
    have entries : ∀ task ∈ clearingTasks, task.2.entries = [clearingEntry] := by
      simp [clearingTasks, RunnerTask.entries, RunnerCall.entries]
    intro task member e inTask
    rw [entries task member] at inTask
    cases List.mem_singleton.mp inTask
    exact unnamed
  exact ⟨runners, after_leaves_others runners names (by decide)⟩

end RunnerTask

end DocStore
