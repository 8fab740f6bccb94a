/-
Module: DocStore.Proofs.Migration.Staging
Purpose: to migrate in two stages is to migrate at once: the same migrations run in the same
  order, and leave the same databases.
Main exports:
  RunnerOptions.runEach_append, RunnerOptions.records_of_runEach,
  RunnerOptions.staged_equals_whole
-/
import DocStore.Proofs.Migration.Consulting
import DocStore.Proofs.Migration.Selecting
import DocStore.Proofs.Migration.Twin

namespace DocStore

open Exchange Text

namespace RunnerOptions

variable {o : RunnerOptions} {d : Direction} {home : String} {s s' : Store}
  {versions applied : List Int} {entries : List Entry}

/-! ### Runs in two parts -/

/-- To run migrations is to run the first part of them, and then the others, with what is
applied by then. -/
theorem runEach_append (o : RunnerOptions) (d : Direction) (applied : List Int)
    (first second : List Entry) :
    o.runEach d applied (first ++ second) =
      o.runEach d applied first >>= fun _ =>
        o.runEach d ((first.map Entry.version).foldl d.recordedAfter applied) second := by
  induction first generalizing applied with
  | nil => rfl
  | cons e rest inductionHypothesis =>
      rw [List.cons_append, runEach_cons, runEach_cons, bind_assoc]
      congr 1
      funext _
      exact inductionHypothesis _

/-- A migration that is admitted and completes is applied. -/
theorem ends_apply_of_advance {e : Entry}
    (ends : (o.advance d applied e).Ends Store.server s (.ok ()) s') :
    (o.apply e d).Ends Store.server s (.ok ()) s' := by
  cases d with
  | up =>
      obtain ⟨_, s₁, demanded, applies⟩ := ends_bind_ok_iff.mp ends
      have demands := ends_demandOrder (o := o) applied e s
      split at demands
      · obtain ⟨_, rfl⟩ := demanded.unique demands
        exact applies
      · obtain ⟨error, refused⟩ := demands
        cases (demanded.unique refused).1
  | down => exact ends

/-- Migrations that all complete are recorded, whatever else is known to be applied. -/
theorem records_of_runEach (named : isPlainName o.collection = true) {pending : List Entry}
    (spares : ∀ e ∈ pending, e.version ≤ signedLimit ∧
      e.migration.Spares home (o.tenant.getD home) o.collection o.tenant)
    (isOpen : ∀ e ∈ pending, d.isOpen versions e.version = true)
    (distinct : (pending.map Entry.version).Nodup) (records : o.Records home versions s)
    (ends : (o.runEach d applied pending).Ends Store.server s (.ok ()) s') :
    o.Records home ((pending.map Entry.version).foldl d.recordedAfter versions) s' := by
  induction pending generalizing s versions applied with
  | nil =>
      obtain ⟨_, rfl⟩ := ends_pure_iff.mp ends
      exact records
  | cons e rest inductionHypothesis =>
      rw [List.map_cons, List.nodup_cons] at distinct
      rw [runEach_cons] at ends
      obtain ⟨_, s₁, advanced, later⟩ := ends_bind_ok_iff.mp ends
      obtain ⟨fits, spared⟩ := spares e List.mem_cons_self
      obtain ⟨documents, recorded, holds⟩ := records
      obtain ⟨outcome, _, applies, afterValue, _⟩ :=
        ends_apply named spared recorded (isOpen e List.mem_cons_self) fits holds
      obtain ⟨rfl, rfl⟩ := (ends_apply_of_advance advanced).unique applies
      refine inductionHypothesis (fun other member => spares other (List.mem_cons_of_mem _ member))
        (fun other member => ?_) distinct.2 (afterValue () rfl) later
      rw [Direction.isOpen_recordedAfter]
      · exact isOpen other (List.mem_cons_of_mem _ member)
      · intro same
        exact distinct.1 (List.mem_map.mpr ⟨other, member, same⟩)

/-! ### Reading the records again -/

/-- A store whose records were read cannot be told apart from what it was before. -/
theorem Records.twin_appliedVersions (named : isPlainName o.collection = true)
    (records : o.Records home versions s) :
    ∃ t, o.appliedVersions.Ends Store.server s (.ok versions.mergeSort) t ∧
      Store.Twin none none s t := by
  obtain ⟨t, reads, same⟩ := records.appliedVersions named
  have unrevised : ∀ r : Request, r.Consults → ∀ route, Route.of? r = some route →
      route.revises = false := by
    intro r consults route routed
    rcases consults.2 route routed with rfl | ⟨rfl, _⟩ | ⟨id, rfl⟩ <;> rfl
  have revisions : t.revisions = s.revisions :=
    (asks_appliedVersions_consults named).keeps_of_ends
      (I := fun s₁ => s₁.revisions = s.revisions)
      (fun _ r kept consults => (Store.revisions_answer (unrevised r consults)).trans kept)
      reads rfl
  have batch : 0 < s.batchSize := by
    obtain ⟨_, _, holds⟩ := records
    exact holds.batch
  exact ⟨t, reads, (Store.Twin.refl_none batch).of_same (.refl s) same revisions⟩

/-! ### Stages -/

/-- A run that succeeds has read the records, and ran what it selected. -/
theorem ends_migrate_ok_iff {strategy : Strategy} {ran : List Int} :
    (o.migrate entries d strategy).Ends Store.server s (.ok ran) s' ↔
      ∃ applied s₁, o.appliedVersions.Ends Store.server s (.ok applied) s₁ ∧
        checkDuplicates (selectPending entries applied d strategy) = .ok () ∧
        (o.runEach d applied (selectPending entries applied d strategy)).Ends Store.server s₁
          (.ok ()) s' ∧
        ran = (selectPending entries applied d strategy).map Entry.version := by
  constructor
  · intro ends
    obtain ⟨applied, s₁, reads, later⟩ := ends_bind_ok_iff.mp ends
    refine ⟨applied, s₁, reads, ?_⟩
    dsimp only at later
    cases checked : checkDuplicates (selectPending entries applied d strategy) with
    | error fault =>
        rw [checked] at later
        cases (ends_fail_iff.mp later).1
    | ok =>
        rw [checked] at later
        obtain ⟨_, s₂, runs, returns⟩ := ends_bind_ok_iff.mp later
        obtain ⟨same, rfl⟩ := ends_pure_iff.mp returns
        exact ⟨rfl, runs, Except.ok.inj same⟩
  · rintro ⟨applied, s₁, reads, checked, runs, rfl⟩
    apply reads.bind
    simp only [checked]
    exact runs.bind (ends_pure_iff.mpr ⟨rfl, rfl⟩)

/-- To migrate in two stages is to migrate at once.  If a run succeeds from a store whose
collection of records, if it is there, holds records, then so do two runs, the second after
the first, that go as far: by numbers of steps that add up, or to a target on the way and then
to the same one.  They run the same migrations in the same order, and leave the same databases
with all that is in them. -/
theorem staged_equals_whole (named : isPlainName o.collection = true) (batch : 0 < s.batchSize)
    (kept : ∀ documents, s.documentsOf (o.tenant.getD s.home) o.collection = some documents →
      ∃ versions, Recorded documents versions)
    (distinct : (entries.map Entry.version).Nodup)
    (spares : ∀ e ∈ entries, e.version ≤ signedLimit ∧
      e.migration.Spares s.home (o.tenant.getD s.home) o.collection o.tenant)
    {first second whole : Strategy} (staged : Strategy.Staged d first second whole)
    {ran : List Int} (ends : (o.migrate entries d whole).Ends Store.server s (.ok ran) s') :
    ∃ ranFirst s₁ ranSecond s₂,
      (o.migrate entries d first).Ends Store.server s (.ok ranFirst) s₁ ∧
      (o.migrate entries d second).Ends Store.server s₁ (.ok ranSecond) s₂ ∧
      ranFirst ++ ranSecond = ran ∧ s₂.databases = s'.databases := by
  obtain ⟨applied, s₀, reads, checked, runs, rfl⟩ := ends_migrate_ok_iff.mp ends
  obtain ⟨versions, rfl, records⟩ := records_of_appliedVersions named batch kept reads
  have sorted : ∀ v, v ∈ versions.mergeSort ↔ v ∈ versions := fun v => List.mem_mergeSort
  obtain ⟨rest, selected, later⟩ := staged.selectPending_eq distinct versions.mergeSort
  rw [selected] at checked runs ⊢
  rw [runEach_append] at runs
  obtain ⟨_, s₁, runsFirst, runsSecond⟩ := ends_bind_ok_iff.mp runs
  have checkedFirst := checkDuplicates_of_sublist (List.sublist_append_left _ rest) checked
  have checkedSecond := checkDuplicates_of_sublist (List.sublist_append_right _ rest) checked
  -- The second stage finds recorded what the first one completed, and selects the others.
  have recordsFirst := records_of_runEach named
    (fun e member => spares e (mem_of_mem_selectPending member).1)
    (fun e member => (Direction.isOpen_congr sorted e.version).symm.trans
      (mem_of_mem_selectPending member).2)
    (checkDuplicatesAfter_eq_ok_iff.mp checkedFirst).1 records runsFirst
  obtain ⟨t₁, readsAgain, twin⟩ := recordsFirst.twin_appliedVersions named
  let done := (selectPending entries versions.mergeSort d first).map Entry.version
  have known : ∀ v, v ∈ done.foldl d.recordedAfter versions.mergeSort ↔
      v ∈ (done.foldl d.recordedAfter versions).mergeSort := by
    intro v
    rw [List.mem_mergeSort, Direction.mem_foldl_congr sorted]
  have selectedSecond :
      selectPending entries (done.foldl d.recordedAfter versions).mergeSort d second = rest := by
    refine later _ fun v => ?_
    rw [← Direction.isOpen_congr known, Direction.isOpen_foldl_recordedAfter]
  -- It runs them as the single run does, from a store that cannot be told apart.
  obtain ⟨t₂, runsAgain, twinAfter⟩ := twins_runEach named rest known s₁ t₁ twin _ _ runsSecond
  refine ⟨_, s₁, rest.map Entry.version, t₂,
    ends_migrate_ok_iff.mpr ⟨_, s₀, reads, checkedFirst, runsFirst, rfl⟩,
    ends_migrate_ok_iff.mpr ⟨_, t₁, readsAgain, ?_⟩, (List.map_append).symm,
    twinAfter.databases_eq⟩
  change checkDuplicates (selectPending entries (done.foldl d.recordedAfter versions).mergeSort d
    second) = _ ∧ _
  rw [selectedSecond]
  exact ⟨checkedSecond, runsAgain, rfl⟩

end RunnerOptions

/-- A migration that does nothing, outside of transactions. -/
def idleEntry (version : Int) (name : String) : Entry :=
  { version, name, migration := { disableTransaction := true } }

/-- A store whose records show the versions 1 and 2. -/
def advancedStore : Store :=
  { databases := ⟨[("_system", { collections := ⟨[(defaultBookkeeping,
      { properties := {}, documents := [RunnerOptions.row 1, RunnerOptions.row 2] })]⟩ })]⟩ }

theorem recorded_advancedStore : Recorded [RunnerOptions.row 1, RunnerOptions.row 2] [1, 2] :=
  ⟨.cons ⟨rfl, rfl⟩ (.cons ⟨rfl, rfl⟩ .nil), by decide, by decide⟩

/-- Such a migration is always taken back. -/
theorem ends_advance_idleEntry {o : RunnerOptions} {home : String} {versions : List Int}
    {version : Int} {s : Store} (named : isPlainName o.collection = true) (name : String)
    (applied : List Int) (records : o.Records home versions s) (member : version ∈ versions) :
    ∃ s', (o.advance .down applied (idleEntry version name)).Ends Store.server s (.ok ()) s' ∧
      o.Records home (versions.filter (· != version)) s' := by
  obtain ⟨documents, recorded, holds⟩ := records
  obtain ⟨s', after, ends, recordedAfter, holdsAfter, _⟩ := RunnerOptions.ends_record_down named
    (fun _ absent => by cases absent) recorded member holds.guarded_none
  exact ⟨s', ends, after, recordedAfter, holdsAfter⟩

theorem ends_migrate_advancedStore :
    ∃ s', (({} : RunnerOptions).migrate [idleEntry 1 "first", idleEntry 2 "second"] .down
      (.step 2)).Ends Store.server advancedStore (.ok [2, 1]) s' := by
  have keeps : ({} : RunnerOptions).Keeps "_system" [1, 2] advancedStore :=
    Or.inl ⟨_, recorded_advancedStore, rfl, by decide, rfl⟩
  obtain ⟨s₀, reads, records⟩ := keeps.appliedVersions (by decide) rfl
  have sorted : ([1, 2] : List Int).mergeSort = [1, 2] := List.mergeSort_of_pairwise (by decide)
  have arranged : [idleEntry 1 "first", idleEntry 2 "second"].mergeSort
      (fun a b => a.version ≤ b.version) = [idleEntry 1 "first", idleEntry 2 "second"] :=
    List.mergeSort_of_pairwise (by decide)
  have selected : selectPending [idleEntry 1 "first", idleEntry 2 "second"] [1, 2] .down
      (.step 2) = [idleEntry 2 "second", idleEntry 1 "first"] := by
    have candidates : [idleEntry 1 "first", idleEntry 2 "second"].filter
        (fun e => Direction.down.isOpen [1, 2] e.version) =
          [idleEntry 1 "first", idleEntry 2 "second"] := rfl
    rw [selectPending, candidates, Direction.arrange, arranged]
    rfl
  obtain ⟨s₁, second, records₁⟩ := ends_advance_idleEntry (by decide) "second" [1, 2] records
    (by decide : (2 : Int) ∈ [1, 2])
  obtain ⟨s₂, first, _⟩ := ends_advance_idleEntry (by decide) "first" [1] records₁
    (by decide : (1 : Int) ∈ [1, 2].filter (· != 2))
  refine ⟨s₂, RunnerOptions.ends_migrate_ok_iff.mpr ⟨_, s₀, reads, ?_⟩⟩
  rw [sorted, selected]
  refine ⟨rfl, ?_, rfl⟩
  rw [RunnerOptions.runEach_cons, RunnerOptions.runEach_cons]
  exact second.bind (first.bind (ends_pure_iff.mpr ⟨rfl, rfl⟩))

theorem staged_equals_whole_of_advancedStore :
    ∃ ranFirst s₁ ranSecond s₂,
      (({} : RunnerOptions).migrate [idleEntry 1 "first", idleEntry 2 "second"] .down
        (.step 1)).Ends Store.server advancedStore (.ok ranFirst) s₁ ∧
      (({} : RunnerOptions).migrate [idleEntry 1 "first", idleEntry 2 "second"] .down
        (.step 1)).Ends Store.server s₁ (.ok ranSecond) s₂ ∧
      ranFirst ++ ranSecond = [2, 1] := by
  have stored : advancedStore.documentsOf "_system" defaultBookkeeping =
      some [RunnerOptions.row 1, RunnerOptions.row 2] := rfl
  have spared : ∀ version name, (idleEntry version name).migration.Spares "_system" "_system"
      defaultBookkeeping none :=
    fun _ _ => ⟨fun _ absent => absurd absent List.not_mem_nil, fun _ => nofun, fun _ => nofun⟩
  obtain ⟨s', ends⟩ := ends_migrate_advancedStore
  obtain ⟨ranFirst, s₁, ranSecond, s₂, first, second, same, _⟩ :=
    RunnerOptions.staged_equals_whole (o := {}) (s := advancedStore) (by decide) (by decide)
      (fun documents is =>
        ⟨[1, 2], Option.some.inj (stored.symm.trans is) ▸ recorded_advancedStore⟩)
      (by decide)
      (fun e member => by
        simp only [List.mem_cons, List.not_mem_nil, or_false] at member
        rcases member with rfl | rfl <;> exact ⟨by decide, spared _ _⟩)
      (Strategy.Staged.steps 1 1) ends
  exact ⟨ranFirst, s₁, ranSecond, s₂, first, second, same⟩

end DocStore
