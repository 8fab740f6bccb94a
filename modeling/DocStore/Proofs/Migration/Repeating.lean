/-
Module: DocStore.Proofs.Migration.Repeating
Purpose: a version that two migrations share stops a run going up before anything is done, if
  both are selected; a number of steps can cut between them, and then the second one is lost.
Main exports:
  Strategy.Clashes, Strategy.Clashes.both_selected, RunnerOptions.repeated_version_stops,
  step_between_repeated
-/
import DocStore.Proofs.Migration.Ordering
import DocStore.Proofs.Migration.Racing
import DocStore.Proofs.Migration.Staging

namespace DocStore

open Exchange Text

/-- Two places of a list whose entries share a version are found. -/
theorem checkDuplicates_of_repeated {entries : List Entry} {a b : Entry}
    (twice : [a, b].Sublist entries) (same : a.version = b.version) :
    ∃ fault, checkDuplicates entries = .error fault := by
  cases checked : checkDuplicates entries with
  | error fault => exact ⟨fault, rfl⟩
  | ok =>
      obtain ⟨versions, _⟩ :=
        checkDuplicatesAfter_eq_ok_iff.mp (checkDuplicates_of_sublist twice checked)
      simp [same] at versions

/-- Of two places of a list, both are left by a filter that keeps their elements. -/
theorem pair_sublist_filter {α : Type} {p : α → Bool} {a b : α} {items : List α}
    (twice : [a, b].Sublist items) (first : p a = true) (second : p b = true) :
    [a, b].Sublist (items.filter p) := by
  have kept := twice.filter p
  rwa [List.filter_cons_of_pos first, List.filter_cons_of_pos second, List.filter_nil] at kept

namespace Strategy

/-- Two of the entries, at different places, share a version that is not applied, and a run
going up selects one of them at least.  A number of steps does not end between them. -/
structure Clashes (strategy : Strategy) (entries : List Entry) (applied : List Int)
    (a b : Entry) : Prop where
  twice : [a, b].Sublist entries
  same : a.version = b.version
  fresh : a.version ∉ applied
  selected : a ∈ selectPending entries applied .up strategy ∨
    b ∈ selectPending entries applied .up strategy
  uncut : ∀ count, strategy = .step count →
    [a, b].Sublist (selectPending entries applied .up strategy)

namespace Clashes

variable {strategy : Strategy} {entries : List Entry} {applied : List Int} {a b : Entry}

/-- Without a target both are candidates, in the order in which they were given. -/
theorem sublist_all (clashes : Clashes strategy entries applied a b) :
    [a, b].Sublist (selectPending entries applied .up .all) := by
  have isOpen : Direction.up.isOpen applied a.version = true :=
    Direction.isOpen_iff.mpr clashes.fresh
  refine List.pair_sublist_mergeSort ?_ ?_ ?_
    (pair_sublist_filter clashes.twice isOpen (clashes.same ▸ isOpen))
  · intro a b c
    simp only [decide_eq_true_eq]
    exact Int.le_trans
  · intro a b
    simp only [Bool.or_eq_true, decide_eq_true_eq]
    exact Int.le_total _ _
  · exact decide_eq_true (Int.le_of_eq clashes.same)

/-- A target cuts off both or neither, since it is compared with their version. -/
theorem both_selected (clashes : Clashes strategy entries applied a b) :
    [a, b].Sublist (selectPending entries applied .up strategy) := by
  have every := clashes.sublist_all
  -- What is kept by a condition on the version is kept of both entries.
  have kept : ∀ p : Int → Prop, [DecidablePred p] → (p a.version ∨ p b.version) →
      [a, b].Sublist
        ((selectPending entries applied .up .all).filter fun e => p e.version) := by
    intro p _ holds
    rw [← clashes.same, or_self] at holds
    exact pair_sublist_filter every (decide_eq_true holds)
      (decide_eq_true (clashes.same ▸ holds))
  have selected := clashes.selected
  cases strategy with
  | all => exact every
  | step count => exact clashes.uncut count rfl
  | through target =>
      rw [selectPending_through] at selected ⊢
      simp only [List.mem_filter, decide_eq_true_eq] at selected
      exact kept (Direction.up.NotAfter · target) (selected.imp And.right And.right)
  | shortOf target =>
      rw [selectPending_shortOf] at selected ⊢
      simp only [List.mem_filter, decide_eq_true_eq] at selected
      exact kept (Direction.up.Precedes · target) (selected.imp And.right And.right)

end Clashes

end Strategy

namespace RunnerOptions

variable {o : RunnerOptions} {s : Store} {entries : List Entry} {strategy : Strategy}

/-- A run of migrations that clash fails after it read the records, and starts nothing. -/
theorem failing_of_clashes
    (clashes : ∀ applied, o.recordedIn s = .ok applied →
      ∃ a b, strategy.Clashes entries applied a b) :
    ∃ e, (o.migrate entries .up strategy).runOn Store.server s =
        (o.appliedVersions.runOn Store.server s).failing e ∧
      (∀ applied, o.recordedIn s = .ok applied → ∃ fault, e = .order fault) ∧
      o.started s (.migrate entries .up strategy) = [] := by
  cases read : (o.appliedVersions.runOn Store.server s).outcome with
  | error e =>
      refine ⟨e, runOn_migrate_unread read, fun applied is => ?_, ?_⟩
      · cases read.symm.trans is
      · simp only [started, read]
  | ok applied =>
      obtain ⟨a, b, clash⟩ := clashes applied read
      obtain ⟨fault, refused⟩ := checkDuplicates_of_repeated clash.both_selected clash.same
      refine ⟨.order fault, runOn_migrate_refused read ?_, fun _ _ => ⟨fault, rfl⟩, ?_⟩
      · simp only [proceed, refused]
      · rw [started_eq ⟨read, rfl⟩]
        simp only [RunnerCall.pending, refused, startEach]

/-- A version that two selected migrations share stops a run going up before anything is done.
The run fails, for the order of versions if the recorded ones can be read.  It starts no
migration and asks no more than what is recorded: what is recorded stays so, and all documents
stay as they are. -/
theorem repeated_version_stops
    (clashes : ∀ applied, o.recordedIn s = .ok applied →
      ∃ a b, strategy.Clashes entries applied a b) :
    let run := (o.migrate entries .up strategy).runOn Store.server s
    let reading := o.appliedVersions.runOn Store.server s
    (∃ e, run.outcome = .error e ∧
      ∀ applied, o.recordedIn s = .ok applied → ∃ fault, e = .order fault) ∧
    o.started s (.migrate entries .up strategy) = [] ∧
    run.sent = reading.sent ∧ run.state = reading.state ∧
    (isPlainName o.collection = true → 0 < s.batchSize →
      (∀ r ∈ run.sent, r.Consults) ∧ s.Undocumented run.state ∧
      ∀ applied, o.recordedIn s = .ok applied → o.recordedIn run.state = .ok applied) := by
  intro run reading
  obtain ⟨e, failed, ordered, nothing⟩ := failing_of_clashes clashes
  have stopped : run = reading.failing e := failed
  have sent : run.sent = reading.sent := by rw [stopped, Run.failing]
  have state : run.state = reading.state := by rw [stopped, Run.failing]
  refine ⟨⟨e, by rw [stopped, Run.failing], ordered⟩, nothing, sent, state,
    fun named batch => ?_⟩
  have consults := asks_appliedVersions_consults named
  rw [sent, state]
  refine ⟨consults.sent, Store.undocumented_of_asks consults s, fun applied is => ?_⟩
  obtain ⟨_, again, _⟩ := appliedVersions_again named batch ⟨is, rfl⟩
  exact again.1

end RunnerOptions

/-- Two migrations of one version. -/
def sharedEntries : List Entry :=
  [idleEntry 1 "first", idleEntry 1 "second"]

/-- Both are candidates as long as their version is not applied. -/
theorem selectPending_sharedEntries : selectPending sharedEntries [] .up .all = sharedEntries := by
  have candidates : sharedEntries.filter (fun e => Direction.up.isOpen [] e.version) =
      sharedEntries := rfl
  rw [selectPending, candidates]
  exact List.mergeSort_of_pairwise (by decide)

/-- The store after the records were read, of which there are none. -/
def consultedStore : Store :=
  recordsStore.noteQuery (readyOptions.readRequest recordsQuery) recordsQuery.text

theorem ends_appliedVersions_recordsStore :
    readyOptions.appliedVersions.Ends Store.server recordsStore (.ok []) consultedStore := by
  have reads := RunnerOptions.ends_appliedVersions_short (o := readyOptions) (s := recordsStore)
    (by decide) rfl rfl .nil (by decide) compile_recordsQuery
  rwa [List.mergeSort_nil] at reads

theorem repeated_version_stops_of_sharedEntries :
    (∃ fault, ((readyOptions.migrate sharedEntries .up .all).runOn Store.server
      recordsStore).outcome = .error (.order fault)) ∧
    readyOptions.started recordsStore (.migrate sharedEntries .up .all) = [] := by
  have recorded : readyOptions.recordedIn recordsStore = .ok [] :=
    ends_appliedVersions_recordsStore.1
  have clashes : ∀ applied, readyOptions.recordedIn recordsStore = .ok applied →
      ∃ a b, Strategy.all.Clashes sharedEntries applied a b := by
    intro applied is
    cases recorded.symm.trans is
    refine ⟨_, _, .refl sharedEntries, rfl, by decide, Or.inl ?_,
      fun _ absurd => by cases absurd⟩
    rw [selectPending_sharedEntries]
    exact List.mem_cons_self
  obtain ⟨⟨e, failed, ordered⟩, nothing, _⟩ := RunnerOptions.repeated_version_stops clashes
  obtain ⟨fault, rfl⟩ := ordered [] recorded
  exact ⟨⟨fault, failed⟩, nothing⟩

/-- The version is recorded there. -/
theorem ends_record_consultedStore :
    ∃ s' documents, (readyOptions.record 1 .up none).Ends Store.server consultedStore (.ok ()) s' ∧
      Recorded documents [1] ∧ s'.Holds "_system" "_system" defaultBookkeeping documents := by
  have succeeds : ((readyOptions.record 1 .up none).runOn Store.server consultedStore).outcome =
      .ok () := by
    rfl
  have holds : consultedStore.Holds "_system" "_system" defaultBookkeeping [] :=
    ⟨rfl, by decide, rfl⟩
  have fresh : (1 : Int) ∉ [] := List.not_mem_nil
  rcases RunnerOptions.ends_record_up (o := readyOptions) (by decide)
      (fun _ absent => by cases absent) .nil fresh (by decide) holds.guarded_none with
    ⟨s', documents, ends, recorded, kept, _⟩ | ⟨e, s', ends, _⟩
  · exact ⟨s', documents, ends, recorded, kept⟩
  · cases succeeds.symm.trans ends.1

/-- A number of steps that ends between two migrations of one version: the run does not fail
but applies the first one, and then no run selects the second one any more. -/
theorem step_between_repeated :
    sharedEntries.map Entry.version = [1, 1] ∧
    readyOptions.recordedIn recordsStore = .ok [] ∧
    selectPending sharedEntries [] .up (.step 1) = [idleEntry 1 "first"] ∧
    ∃ s', (readyOptions.migrate sharedEntries .up (.step 1)).Ends Store.server recordsStore
        (.ok [1]) s' ∧
      readyOptions.recordedIn s' = .ok [1] ∧
      ∀ strategy, selectPending sharedEntries [1] .up strategy = [] := by
  have selected : selectPending sharedEntries [] .up (.step 1) = [idleEntry 1 "first"] := by
    change (selectPending sharedEntries [] .up .all).take 1 = _
    rw [selectPending_sharedEntries]
    rfl
  obtain ⟨s', documents, records, recorded, holds⟩ := ends_record_consultedStore
  have ran : (readyOptions.runEach .up [] [idleEntry 1 "first"]).Ends Store.server
      consultedStore (.ok ()) s' := by
    rw [RunnerOptions.runEach_cons]
    exact records.bind (ends_pure_iff.mpr ⟨rfl, rfl⟩)
  obtain ⟨_, again, _⟩ := RunnerOptions.Records.appliedVersions (o := readyOptions) (by decide)
    ⟨documents, recorded, holds⟩
  rw [List.mergeSort_singleton] at again
  refine ⟨rfl, ends_appliedVersions_recordsStore.1, selected, s', ?_, again.1, fun strategy => ?_⟩
  · refine RunnerOptions.ends_migrate_ok_iff.mpr
      ⟨[], consultedStore, ends_appliedVersions_recordsStore, ?_⟩
    rw [selected]
    exact ⟨rfl, ran, rfl⟩
  · have none : selectPending sharedEntries [1] .up .all = [] := List.mergeSort_nil
    have among := selectPending_sublist_all sharedEntries [1] .up strategy
    rw [none] at among
    exact List.sublist_nil.mp among

end DocStore
