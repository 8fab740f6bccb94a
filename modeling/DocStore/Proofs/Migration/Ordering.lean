/-
Module: DocStore.Proofs.Migration.Ordering
Purpose: under a strict order of versions a run of migrations fails before anything is done,
  or applies versions that are newer than all recorded ones.
Main exports:
  Error.OfCommand, Command.fails_perform, RunnerOptions.fails_runEach,
  RunnerOptions.strict_order
-/
import DocStore.Migration.File
import DocStore.Proofs.Exchange.Failing
import DocStore.Proofs.Migration.Consulting
import DocStore.Proofs.Migration.Selecting

namespace DocStore

open Exchange Text

/-! ### What commands fail with -/

/-- An error that a command can end with: one that a reply leads to, or a fault of a
definition. -/
inductive Error.OfCommand : Error → Prop where
  | reply {e : Error} (replied : e.OfReply) : OfCommand e
  | schema (fault : SchemaFault) : OfCommand (.schema fault)

theorem Error.OfCommand.ne_order {e : Error} (failed : e.OfCommand) (fault : OrderFault) :
    e ≠ .order fault := by
  cases failed with
  | reply replied => cases replied <;> exact Error.noConfusion
  | schema => exact Error.noConfusion

namespace Definition

/-- Creating an object has no failure of its own, unless it is a collection without a body. -/
theorem fails_create_of_body {o : Definition}
    (bodied : ∀ c, o = .collection c → ∃ body, c.body = .ok body) :
    o.create.Fails Error.OfReply := by
  cases o with
  | collection c =>
      obtain ⟨body, is⟩ := bodied c rfl
      rw [create, is]
      exact fails_command (fun _ => id) _
  | index i => exact fails_command (fun _ => id) _
  | view v => exact fails_command (fun _ => id) _
  | analyzer a =>
      have cleared : a.clear.Fails Error.OfReply :=
        fails_tolerant (fails_command (fun _ => id) _)
      exact fails_bind cleared fun _ => fails_command (fun _ => id) _

theorem fails_create (o : Definition) : o.create.Fails Error.OfCommand := by
  cases o with
  | collection c =>
      exact fails_bind (fails_ofSchema .schema _) fun _ => fails_command (fun _ => .reply) _
  | index i => exact Fails.mono (fails_create_of_body fun _ => nofun) fun _ => .reply
  | view v => exact Fails.mono (fails_create_of_body fun _ => nofun) fun _ => .reply
  | analyzer a => exact Fails.mono (fails_create_of_body fun _ => nofun) fun _ => .reply

/-- Dropping an object has no failure of its own. -/
theorem fails_drop (o : Definition) : o.drop.Fails Error.OfReply := by
  cases o with
  | collection c => exact fails_command (fun _ => id) _
  | index i =>
      have found : i.find.Fails Error.OfReply := by
        apply fails_bind (fails_request (fun _ => id) _)
        intro listing
        split
        · exact fails_pure _
        · exact fails_fail (.store _ _ _)
      exact fails_bind found fun _ => fails_command (fun _ => id) _
  | view v => exact fails_command (fun _ => id) _
  | analyzer a => exact fails_command (fun _ => id) _

end Definition

theorem Command.fails_perform (command : Command) (database : Option String)
    (transaction : Option Transaction) :
    (command.perform database transaction).Fails Error.OfCommand := by
  have schemaChecked {α : Type} (x : Except SchemaFault α) :
      (Exchange.ofSchema x).Fails Error.OfCommand := fails_ofSchema .schema x
  have requested (r : Request) : (Exchange.command r).Fails Error.OfCommand :=
    fails_command (fun _ => .reply) r
  cases command with
  | create o =>
      exact fails_bind (schemaChecked _) fun _ => fails_bind o.fails_create fun _ => fails_pure _
  | createIfNotExists o =>
      exact fails_bind (schemaChecked _) fun _ => fails_tolerant o.fails_create
  | drop o => exact fails_bind (o.fails_drop.mono fun _ => .reply) fun _ => fails_pure _
  | dropIfExists o => exact fails_tolerant (o.fails_drop.mono fun _ => .reply)
  | alterCollection c columns =>
      have altered : (c.alter columns).Fails Error.OfCommand :=
        fails_bind (fails_request (fun _ => .reply) _) fun _ =>
          fails_bind (schemaChecked _) fun _ => requested _
      exact fails_bind altered fun _ => fails_pure _
  | alterView v changes =>
      have altered : (v.alter changes).Fails Error.OfCommand :=
        fails_bind (schemaChecked _) fun _ => requested _
      exact fails_bind altered fun _ => fails_pure _
  | rename source target =>
      have renamed : (source.rename target).Fails Error.OfCommand :=
        fails_bind (schemaChecked _) fun _ => requested _
      exact fails_bind renamed fun _ => fails_pure _
  | execute aql =>
      exact fails_bind (fails_runCursor (fun _ => .reply) _ _ _ _) fun _ => fails_pure _

/-- What follows a body that has no failure of its own gets, if the body stopped early, an
error of one of its commands. -/
theorem Context.fails_issueAll_bind {β : Type} (c : Context) (commands : List Command)
    {f : Progress → Exchange β}
    (next : ∀ p : Progress, (∀ e, p.failure = some e → e.OfCommand) →
      (f p).Fails Error.OfCommand) :
    (c.issueAll none commands >>= f).Fails Error.OfCommand := by
  induction commands generalizing f with
  | nil => exact next _ fun _ absurd => by cases absurd
  | cons command rest inductionHypothesis =>
      rw [issueAll, bind_assoc]
      apply fails_attempt_bind (Command.fails_perform _ _ _)
      · intro report
        dsimp only
        rw [bind_assoc]
        exact inductionHypothesis fun p stopped => next _ stopped
      · rintro e failed
        refine next _ fun error is => ?_
        cases is
        exact failed

theorem fails_withTransaction {α : Type} (database : Option String) (write : List String)
    {operation : Transaction → Exchange α}
    (fails : ∀ t, (operation t).Fails Error.OfCommand) :
    (withTransaction database write operation).Fails Error.OfCommand := by
  have begun : (Transaction.begin database write []).Fails Error.OfCommand := by
    apply fails_bind (fails_request (fun _ => .reply) _)
    intro body
    split
    · exact fails_pure _
    · exact fails_fail (.reply (.transport _))
  apply fails_bind begun
  intro t
  apply fails_attempt_bind (fails t)
  · intro value
    exact fails_bind (fails_command (fun _ => .reply) _) fun _ => fails_pure value
  · intro e failed
    apply fails_attempt_bind (fails_command (fun _ => .reply) _)
    · exact fun _ => fails_fail failed
    · exact fun _ _ => fails_bind (fails_report _) fun _ => fails_fail failed

/-- A migration that a file declares. -/
def Migration.Declared (m : Migration) : Prop :=
  ∃ f : MigrationFile, m = f.migration

theorem Migration.Declared.body_up {m : Migration} (declared : m.Declared) :
    ∃ commands, m.body .up = .ok { commands } := by
  rcases declared with ⟨f, rfl⟩
  cases given : f.up with
  | none => exact ⟨f.change, by simp [body, MigrationFile.migration, given]⟩
  | some commands => exact ⟨commands, by simp [body, MigrationFile.migration, given]⟩

/-! ### The order of versions -/

namespace RunnerOptions

variable {o : RunnerOptions} {s s' : Store} {applied : List Int}

theorem fails_apply {e : Entry} (declared : e.migration.Declared) :
    (o.apply e .up).Fails Error.OfCommand := by
  have ran : ∀ t, (o.runBody e .up t).Fails Error.OfCommand := by
    intro t
    obtain ⟨commands, is⟩ := declared.body_up
    unfold runBody
    rw [is]
    refine Context.fails_issueAll_bind _ commands fun p stopped => ?_
    refine fails_bind ?_ fun _ => fails_command (fun _ => .reply) _
    intro error failed
    unfold Progress.outcome at failed
    split at failed
    · cases failed
    · next is =>
        cases failed
        exact stopped error is
  unfold apply
  split
  · exact ran none
  · exact fails_withTransaction _ _ fun t => ran (some t)

/-- Migrations that are newer than what is applied, each newer than those before it, are
never refused for their order. -/
theorem fails_runEach {pending : List Entry} (declared : ∀ e ∈ pending, e.migration.Declared)
    (ascending : (pending.map Entry.version).Pairwise (· < ·))
    (newer : ∀ e ∈ pending, ∀ v ∈ applied, v < e.version) :
    (o.runEach .up applied pending).Fails Error.OfCommand := by
  induction pending generalizing applied with
  | nil => exact fails_pure ()
  | cons e rest inductionHypothesis =>
      rw [List.map_cons, List.pairwise_cons] at ascending
      have ordered := checkOrder_eq_ok_iff.mpr (newer e List.mem_cons_self)
      have demanded : o.demandOrder e applied = pure () := by
        rw [demandOrder, ordered]
      have newerAfter : ∀ later ∈ rest, ∀ v ∈ applied ++ [e.version], v < later.version := by
        intro later member v known
        rcases List.mem_append.mp known with before | own
        · exact newer later (List.mem_cons_of_mem _ member) v before
        · rw [List.mem_singleton] at own
          exact own ▸ ascending.1 _ (List.mem_map_of_mem member)
      rw [runEach, runOne, demanded, bind_assoc, bind_assoc]
      refine fails_bind (fails_pure ()) fun _ => ?_
      refine fails_bind (fails_apply (declared e List.mem_cons_self)) fun _ => ?_
      exact inductionHypothesis (fun later member => declared later (List.mem_cons_of_mem _ member))
        ascending.2 newerAfter

/-- Under a strict order, migrations in ascending order are all newer than what is applied,
or the first of them is refused before anything is done. -/
theorem newer_or_refused (strict : o.strictOrder = true) {pending : List Entry}
    (ascending : (pending.map Entry.version).Pairwise (· < ·)) (applied : List Int) :
    (∀ e ∈ pending, ∀ v ∈ applied, v < e.version) ∨
      (∃ fault, o.runEach .up applied pending = .fail (.order fault)) ∧
        ∀ s, o.startEach .up s applied pending = [] := by
  cases pending with
  | nil => exact Or.inl fun _ member => absurd member List.not_mem_nil
  | cons e rest =>
      rw [List.map_cons, List.pairwise_cons] at ascending
      cases ordered : checkOrder e applied with
      | ok =>
          left
          have newer := checkOrder_eq_ok_iff.mp ordered
          refine List.forall_mem_cons.mpr ⟨newer, fun later member v known => ?_⟩
          exact Int.lt_trans (newer v known) (ascending.1 _ (List.mem_map_of_mem member))
      | error fault =>
          right
          have refused : o.admits .up applied e = false := by
            simp [admits, ordered, strict]
          refine ⟨⟨fault, ?_⟩, fun s => startEach_refused refused s rest⟩
          simp only [runEach, runOne, demandOrder, ordered, strict, if_true]
          rfl

/-! ### Whole runs -/

variable {entries : List Entry} {strategy : Strategy}

/-- What a run does once it has read the records. -/
def proceed (o : RunnerOptions) (entries : List Entry) (d : Direction) (strategy : Strategy)
    (applied : List Int) : Exchange (List Int) :=
  match checkDuplicates (selectPending entries applied d strategy) with
  | .error fault => .fail (.order fault)
  | .ok () => do
      o.runEach d applied (selectPending entries applied d strategy)
      return (selectPending entries applied d strategy).map Entry.version

theorem migrate_eq_proceed (o : RunnerOptions) (entries : List Entry) (d : Direction)
    (strategy : Strategy) :
    o.migrate entries d strategy = o.appliedVersions >>= o.proceed entries d strategy := rfl

/-- A run that cannot read the records fails as reading them does. -/
theorem runOn_migrate_unread {d : Direction} {e : Error}
    (reading : (o.appliedVersions.runOn Store.server s).outcome = .error e) :
    (o.migrate entries d strategy).runOn Store.server s =
      (o.appliedVersions.runOn Store.server s).failing e := by
  rw [migrate_eq_proceed, runOn_bind, reading]

/-- A run that is refused once the records are read has done nothing but to read them. -/
theorem runOn_migrate_refused {d : Direction} {e : Error}
    (reading : (o.appliedVersions.runOn Store.server s).outcome = .ok applied)
    (refused : o.proceed entries d strategy applied = .fail e) :
    (o.migrate entries d strategy).runOn Store.server s =
      (o.appliedVersions.runOn Store.server s).failing e := by
  rw [migrate_eq_proceed, runOn_bind, reading]
  simp [refused, Run.after, Run.failing, fail, runOn]

/-- Going on after the records are read, a run ends at once and starts nothing, or none of
its migrations can be refused for its order. -/
theorem proceed_cases (strict : o.strictOrder = true)
    (declared : ∀ e ∈ entries, e.migration.Declared) (strategy : Strategy) (applied : List Int) :
    ((∃ fault, o.proceed entries .up strategy applied = .fail (.order fault)) ∧
      ∀ s, o.startEach .up s applied ((RunnerCall.migrate entries .up strategy).pending applied) =
        []) ∨
    ((selectPending entries applied .up strategy).map Entry.version).Pairwise (· < ·) ∧
      (∀ e ∈ selectPending entries applied .up strategy, ∀ v ∈ applied, v < e.version) ∧
      (o.proceed entries .up strategy applied).Fails Error.OfCommand ∧
      o.proceed entries .up strategy applied =
        (o.runEach .up applied (selectPending entries applied .up strategy) >>= fun _ =>
          pure ((selectPending entries applied .up strategy).map Entry.version)) := by
  cases checked : checkDuplicates (selectPending entries applied .up strategy) with
  | error fault =>
      simp only [proceed, RunnerCall.pending, checked]
      exact Or.inl ⟨⟨fault, rfl⟩, fun _ => rfl⟩
  | ok =>
      have ascending := pairwise_lt_selectPending checked
      simp only [proceed, RunnerCall.pending, checked]
      rcases newer_or_refused strict ascending applied with newer | ⟨⟨fault, refused⟩, nothing⟩
      · refine Or.inr ⟨ascending, newer, ?_, trivial⟩
        have each : ∀ e ∈ selectPending entries applied .up strategy, e.migration.Declared :=
          fun e member => declared e (mem_of_mem_selectPending member).1
        exact fails_bind (fails_runEach each ascending newer) fun _ => fails_pure _
      · refine Or.inl ⟨⟨fault, ?_⟩, nothing⟩
        rw [refused]
        rfl

/-- A run that ends with a fault of the order of versions has only read the records. -/
theorem reads_only_of_order (strict : o.strictOrder = true)
    (declared : ∀ e ∈ entries, e.migration.Declared) {fault : OrderFault}
    (failed : ((o.migrate entries .up strategy).runOn Store.server s).outcome =
      .error (.order fault)) :
    o.started s (.migrate entries .up strategy) = [] ∧
      ((o.migrate entries .up strategy).runOn Store.server s).sent =
        (o.appliedVersions.runOn Store.server s).sent ∧
      ((o.migrate entries .up strategy).runOn Store.server s).state =
        (o.appliedVersions.runOn Store.server s).state := by
  cases reading : (o.appliedVersions.runOn Store.server s).outcome with
  | error e =>
      rw [runOn_migrate_unread reading]
      simp only [started, reading]
      exact ⟨trivial, rfl, rfl⟩
  | ok applied =>
      rw [started_eq ⟨reading, rfl⟩]
      rcases proceed_cases strict declared strategy applied with
        ⟨⟨other, refused⟩, nothing⟩ | ⟨_, _, fails, _⟩
      · rw [runOn_migrate_refused reading refused]
        exact ⟨nothing _, rfl, rfl⟩
      · rw [migrate_eq_proceed, runOn_bind, reading] at failed
        have ends : (o.proceed entries .up strategy applied).Ends Store.server
            (o.appliedVersions.runOn Store.server s).state (.error (.order fault)) _ :=
          ⟨failed, rfl⟩
        exact absurd rfl ((fails.of_ends ends).ne_order fault)

/-- Under a strict order of versions a run going up fails for that order before anything is
done: no migration is started, nothing is asked but what the records are, no transaction is
begun, and all documents stay as they are.  If it succeeds, the versions that ran ascend, and
each of them is greater than all that were recorded before. -/
theorem strict_order (strict : o.strictOrder = true) (named : isPlainName o.collection = true)
    (batch : 0 < s.batchSize) (declared : ∀ e ∈ entries, e.migration.Declared) :
    let run := (o.migrate entries .up strategy).runOn Store.server s
    (∀ fault, run.outcome = .error (.order fault) →
      o.started s (.migrate entries .up strategy) = [] ∧
      run.sent = (o.appliedVersions.runOn Store.server s).sent ∧
      (∀ r ∈ run.sent, r.Consults) ∧ s.Undocumented run.state) ∧
    ∀ ran, run.outcome = .ok ran → ran.Pairwise (· < ·) ∧
      ∀ documents, s.documentsOf (o.tenant.getD s.home) o.collection = some documents →
        ∀ d ∈ documents, ∀ v, (d.value "version").signed? = some v → ∀ w ∈ ran, v < w := by
  intro run
  constructor
  · intro fault failed
    obtain ⟨nothing, sent, state⟩ := reads_only_of_order strict declared failed
    have consults := asks_appliedVersions_consults named
    refine ⟨nothing, sent, ?_, ?_⟩
    · rw [sent]
      exact consults.sent
    · rw [state]
      exact consults.keeps (fun _ _ kept asked => kept.trans (Store.undocumented_answer asked))
        (.refl s)
  · intro ran succeeded
    have ends : (o.migrate entries .up strategy).Ends Store.server s (.ok ran) run.state :=
      ⟨succeeded, rfl⟩
    rw [migrate_eq_proceed] at ends
    obtain ⟨applied, s₁, reads, proceeds⟩ := ends_bind_ok_iff.mp ends
    rcases proceed_cases strict declared strategy applied with
      ⟨⟨fault, refused⟩, _⟩ | ⟨ascending, newer, _, is⟩
    · rw [refused] at proceeds
      cases (ends_fail_iff.mp proceeds).1
    · rw [is] at proceeds
      obtain ⟨_, _, _, same⟩ := ends_bind_ok_iff.mp proceeds
      cases (ends_pure_iff.mp same).1
      refine ⟨ascending, fun documents stored d member v recorded w among => ?_⟩
      obtain ⟨e, selected, rfl⟩ := List.mem_map.mp among
      exact newer e selected v (mem_appliedVersions named batch reads stored member recorded)

end RunnerOptions

/-- A store whose records show version 5. -/
def recordingStore : Store :=
  { databases := ⟨[("_system", { collections := ⟨[(defaultBookkeeping,
      { properties := {}, documents := [⟨[("_key", .str "5"), ("version", .int 5)]⟩] })]⟩ })]⟩ }

theorem recordingStore_keeps (strict : Bool) :
    ({ strictOrder := strict } : RunnerOptions).Keeps "_system" [5] recordingStore := by
  have recorded : Recorded [⟨[("_key", .str "5"), ("version", .int 5)]⟩] [5] :=
    ⟨.cons ⟨rfl, rfl⟩ .nil, List.nodup_singleton _, by decide⟩
  exact Or.inl ⟨_, recorded, rfl, by decide, rfl⟩

theorem strict_order_of_recordingStore :
    (({ strictOrder := true } : RunnerOptions).migrate [creatingEntry 3 "users"] .up
        .all).Ends Store.server recordingStore (.error (.order (.outdated 3 "users" 5)))
          (({ strictOrder := true } : RunnerOptions).appliedVersions.runOn Store.server
            recordingStore).state ∧
      ({ strictOrder := true } : RunnerOptions).started recordingStore
        (.migrate [creatingEntry 3 "users"] .up .all) = [] := by
  obtain ⟨s', reads, _⟩ := (recordingStore_keeps true).appliedVersions (by decide) rfl
  have refused : (({ strictOrder := true } : RunnerOptions).migrate [creatingEntry 3 "users"] .up
      .all).Ends Store.server recordingStore (.error (.order (.outdated 3 "users" 5))) s' := by
    rw [List.mergeSort_singleton] at reads
    apply reads.bind
    simp [selectPending, Strategy.take, Direction.arrange, Direction.isOpen, creatingEntry,
      checkDuplicates, checkDuplicatesAfter, RunnerOptions.runEach, RunnerOptions.runOne,
      RunnerOptions.demandOrder, checkOrder]
    exact ends_fail_iff.mpr ⟨rfl, rfl⟩
  have declared : ∀ e ∈ [creatingEntry 3 "users"], e.migration.Declared :=
    List.forall_mem_singleton.mpr ⟨{ change := [.create (.collection { name := "users" })] }, rfl⟩
  obtain ⟨nothing, _⟩ := (RunnerOptions.strict_order rfl (by decide) (by decide) declared).1 _
    refused.1
  exact ⟨reads.2 ▸ refused, nothing⟩

end DocStore