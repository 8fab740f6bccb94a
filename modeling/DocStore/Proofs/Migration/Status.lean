/-
Module: DocStore.Proofs.Migration.Status
Purpose: the status of migrations against the migrations that a run would select.
Main exports:
  Entry.statusLine, StatusLine.isOpen, unclaimed, statusLines_perm, pairwise_statusLines,
  statusLines_open, RunnerOptions.status_agrees
-/
import DocStore.Proofs.Migration.Selecting
import DocStore.Proofs.Migration.Staging

namespace DocStore

open Exchange Text

/-!
The status lists what is known and what is recorded as one list in the order of versions.  A
run splits the entries by what is recorded and sorts the parts.  Both come to the same since
lines with ascending versions are told by which lines there are.
-/

/-! ### Lines -/

/-- The line of an entry, given the recorded versions. -/
def Entry.statusLine (recorded : List Int) (e : Entry) : StatusLine :=
  ⟨decide (e.version ∈ recorded), e.version, some e.name⟩

/-- The line of a version that is recorded without an entry. -/
def StatusLine.unnamed (version : Int) : StatusLine :=
  ⟨true, version, none⟩

/-- Whether a line shows a known migration that can go in a direction: up if it is not applied,
down if it is. -/
def StatusLine.isOpen (d : Direction) (l : StatusLine) : Bool :=
  l.name.isSome && match d with
    | .up => !l.applied
    | .down => l.applied

/-- The recorded versions that no entry has. -/
def unclaimed (entries : List Entry) (recorded : List Int) : List Int :=
  recorded.filter fun v => v ∉ entries.map Entry.version

section

variable {entries : List Entry} {recorded : List Int} {lines others : List StatusLine}

theorem mem_unclaimed {v : Int} :
    v ∈ unclaimed entries recorded ↔ v ∈ recorded ∧ v ∉ entries.map Entry.version := by
  simp [unclaimed]

/-- The lines are those of the entries and of the other recorded versions. -/
theorem statusLines_perm (entries : List Entry) (recorded : List Int) :
    (statusLines entries recorded).Perm
      (entries.map (Entry.statusLine recorded) ++
        (unclaimed entries recorded).map StatusLine.unnamed) := by
  have known : (entries.map fun e =>
      (⟨recorded.contains e.version, e.version, some e.name⟩ : StatusLine)) =
        entries.map (Entry.statusLine recorded) := by
    refine List.map_congr_left fun e _ => ?_
    rw [Entry.statusLine, List.contains_eq_mem]
  have unknown : (recorded.filter fun v => !entries.any fun e => e.version == v) =
      unclaimed entries recorded := by
    refine List.filter_congr fun v _ => ?_
    rw [Bool.eq_iff_iff]
    simp
  rw [statusLines, known, unknown]
  exact List.mergeSort_perm _ _

theorem pairwise_le_statusLines (entries : List Entry) (recorded : List Int) :
    (statusLines entries recorded).Pairwise fun a b => a.version ≤ b.version := by
  have sorted : (statusLines entries recorded).Pairwise
      fun a b => decide (a.version ≤ b.version) = true := by
    apply List.pairwise_mergeSort
    · intro a b c first second
      simp only [decide_eq_true_eq] at first second ⊢
      exact Int.le_trans first second
    · intro a b
      simp only [Bool.or_eq_true, decide_eq_true_eq]
      exact Int.le_total _ _
  exact sorted.imp fun le => by simpa using le

/-- If no version is given or recorded twice, no version has two lines. -/
theorem pairwise_statusLines (distinct : (entries.map Entry.version).Nodup)
    (once : recorded.Nodup) :
    (statusLines entries recorded).Pairwise fun a b => a.version < b.version := by
  have versions : ((entries.map (Entry.statusLine recorded) ++
      (unclaimed entries recorded).map StatusLine.unnamed).map StatusLine.version) =
        entries.map Entry.version ++ unclaimed entries recorded := by
    rw [List.map_append, List.map_map, List.map_map]
    exact congrArg (_ ++ ·) (List.map_id _)
  have apart : (entries.map Entry.version ++ unclaimed entries recorded).Nodup := by
    refine List.nodup_append.mpr ⟨distinct, once.filter _, ?_⟩
    rintro v isEntry w isUnclaimed rfl
    exact (mem_unclaimed.mp isUnclaimed).2 isEntry
  rw [← versions, ← ((statusLines_perm entries recorded).map _).nodup_iff] at apart
  exact ((pairwise_le_statusLines entries recorded).and (List.pairwise_map.mp apart)).imp
    fun both => by omega

/-- Lines with ascending versions are told by which lines there are. -/
theorem eq_of_ascending (first : lines.Pairwise fun a b => a.version < b.version)
    (second : others.Pairwise fun a b => a.version < b.version) (same : lines.Perm others) :
    lines = others :=
  List.Perm.eq_of_pairwise
    (fun _ _ _ _ before after => absurd before (Int.lt_asymm after)) first second same

/-! ### Parts of the lines -/

/-- The lines with a name are those of the entries. -/
theorem statusLines_named (entries : List Entry) (recorded : List Int) :
    ((statusLines entries recorded).filter (·.name.isSome)).Perm
      (entries.map (Entry.statusLine recorded)) := by
  have filtered := (statusLines_perm entries recorded).filter (·.name.isSome)
  rw [List.filter_append, List.filter_map, List.filter_map] at filtered
  simpa [Function.comp_def, Entry.statusLine, StatusLine.unnamed] using filtered

/-- The lines without a name are those of the recorded versions that no entry has. -/
theorem statusLines_unnamed (entries : List Entry) (recorded : List Int) :
    ((statusLines entries recorded).filter (·.name.isNone)).Perm
      ((unclaimed entries recorded).map StatusLine.unnamed) := by
  have filtered := (statusLines_perm entries recorded).filter (·.name.isNone)
  rw [List.filter_append, List.filter_map, List.filter_map] at filtered
  simpa [Function.comp_def, Entry.statusLine, StatusLine.unnamed] using filtered

/-- The lines that can go in a direction are those of the entries that wait to go in it. -/
theorem statusLines_open (d : Direction) (entries : List Entry) (recorded : List Int) :
    ((statusLines entries recorded).filter (StatusLine.isOpen d)).Perm
      ((selectPending entries recorded d .all).map (Entry.statusLine recorded)) := by
  have selected := (selectPending_all_perm entries recorded d).map (Entry.statusLine recorded)
  have named := (statusLines_named entries recorded).filter (StatusLine.isOpen d)
  rw [List.filter_filter, List.filter_map] at named
  have waiting : entries.filter (StatusLine.isOpen d ∘ Entry.statusLine recorded) =
      entries.filter fun e => d.Awaits recorded e.version := by
    refine List.filter_congr fun e _ => ?_
    rw [Bool.eq_iff_iff, decide_eq_true_iff]
    cases d with
    | up => simp [StatusLine.isOpen, Entry.statusLine, Direction.Awaits]
    | down => simp [StatusLine.isOpen, Entry.statusLine, Direction.Awaits]
  rw [waiting] at named
  have already : ((statusLines entries recorded).filter fun l => l.isOpen d && l.name.isSome) =
      (statusLines entries recorded).filter (StatusLine.isOpen d) := by
    refine List.filter_congr fun l _ => ?_
    cases d with
    | up => cases h : l.name.isSome <;> simp [StatusLine.isOpen, h]
    | down => cases h : l.name.isSome <;> simp [StatusLine.isOpen, h]
  rw [already] at named
  exact named.trans selected.symm

/-- Going up, the entries that wait are selected in the order of their lines. -/
theorem statusLines_pending (distinct : (entries.map Entry.version).Nodup)
    (once : recorded.Nodup) :
    (statusLines entries recorded).filter (StatusLine.isOpen .up) =
      (selectPending entries recorded .up .all).map (Entry.statusLine recorded) := by
  refine eq_of_ascending ((pairwise_statusLines distinct once).filter _) ?_
    (statusLines_open .up entries recorded)
  exact List.pairwise_map.mpr (Direction.pairwise_arrange (d := .up)
    (distinct.sublist (List.filter_sublist.map Entry.version)))

/-- Going down, they are selected in the reverse order. -/
theorem statusLines_applied (distinct : (entries.map Entry.version).Nodup)
    (once : recorded.Nodup) :
    (statusLines entries recorded).filter (StatusLine.isOpen .down) =
      ((selectPending entries recorded .down .all).map (Entry.statusLine recorded)).reverse := by
  refine eq_of_ascending ((pairwise_statusLines distinct once).filter _) ?_
    ((statusLines_open .down entries recorded).trans (List.reverse_perm _).symm)
  exact List.pairwise_reverse.mpr (List.pairwise_map.mpr (Direction.pairwise_arrange (d := .down)
    (distinct.sublist (List.filter_sublist.map Entry.version))))

end

/-! ### The status of a store -/

namespace RunnerOptions

variable {o : RunnerOptions} {home : String} {versions : List Int} {s : Store}
  {entries : List Entry}

/-- Records that are there, or that are still to be created, can be read. -/
theorem ends_appliedVersions_readable (named : isPlainName o.collection = true)
    (readable : o.Records home versions s ∨ o.skipCreation = false ∧ o.Keeps home versions s) :
    ∃ s', o.appliedVersions.Ends Store.server s (.ok versions.mergeSort) s' := by
  rcases readable with records | ⟨creates, keeps⟩
  · obtain ⟨s', reads, _⟩ := records.appliedVersions named
    exact ⟨s', reads⟩
  · obtain ⟨s', reads, _⟩ := keeps.appliedVersions named creates
    exact ⟨s', reads⟩

theorem once_of_readable
    (readable : o.Records home versions s ∨ o.skipCreation = false ∧ o.Keeps home versions s) :
    versions.Nodup := by
  rcases readable with ⟨_, recorded, _⟩ | ⟨_, ⟨_, recorded, _⟩ | ⟨rfl, _⟩⟩
  · exact recorded.once
  · exact recorded.once
  · exact List.nodup_nil

/-- The status of entries of distinct versions is listed in the order of versions, with one line
for each entry and one without a name for each recorded version that no entry has.  Its named
lines that are not applied are those of the migrations that a run going up would select, in
this order; the applied ones are those that a run going down would select, in the reverse
order. -/
theorem status_agrees (named : isPlainName o.collection = true)
    (distinct : (entries.map Entry.version).Nodup)
    (readable : o.Records home versions s ∨ o.skipCreation = false ∧ o.Keeps home versions s) :
    ∃ lines recorded s', (o.status entries).Ends Store.server s (.ok lines) s' ∧
      o.recordedIn s = .ok recorded ∧ recorded.Perm versions ∧
      lines.Pairwise (fun a b => a.version < b.version) ∧
      (lines.filter (·.name.isSome)).Perm (entries.map (Entry.statusLine recorded)) ∧
      (lines.filter (·.name.isNone)).Perm
        ((unclaimed entries recorded).map StatusLine.unnamed) ∧
      lines.filter (StatusLine.isOpen .up) =
        (selectPending entries recorded .up .all).map (Entry.statusLine recorded) ∧
      lines.filter (StatusLine.isOpen .down) =
        ((selectPending entries recorded .down .all).map (Entry.statusLine recorded)).reverse := by
  obtain ⟨s', reads⟩ := ends_appliedVersions_readable named readable
  have sorted := List.mergeSort_perm versions (· ≤ ·)
  have once : versions.mergeSort.Nodup := sorted.nodup_iff.mpr (once_of_readable readable)
  refine ⟨_, _, s', reads.bind (ends_pure_iff.mpr ⟨rfl, rfl⟩), reads.1, sorted,
    pairwise_statusLines distinct once, statusLines_named entries _,
    statusLines_unnamed entries _, statusLines_pending distinct once,
    statusLines_applied distinct once⟩

end RunnerOptions

/-- Of the versions 1 and 2 that are recorded, one has an entry, and version 3 is still to be
applied. -/
theorem status_agrees_of_advancedStore :
    ∃ lines s', (({} : RunnerOptions).status [idleEntry 3 "third", idleEntry 2 "second"]).Ends
        Store.server advancedStore (.ok lines) s' ∧
      lines.Pairwise (fun a b => a.version < b.version) ∧
      (lines.filter (·.name.isSome)).Perm
        [⟨false, 3, some "third"⟩, ⟨true, 2, some "second"⟩] ∧
      (lines.filter (·.name.isNone)).Perm [⟨true, 1, none⟩] := by
  have records : ({} : RunnerOptions).Records "_system" [1, 2] advancedStore :=
    ⟨_, recorded_advancedStore, rfl, by decide, rfl⟩
  have distinct : ([idleEntry 3 "third", idleEntry 2 "second"].map Entry.version).Nodup := by
    decide
  obtain ⟨lines, recorded, s', ends, _, versions, ascending, named, others, _⟩ :=
    RunnerOptions.status_agrees (by decide) distinct (Or.inl records)
  have third : (3 : Int) ∉ recorded := fun member => absurd (versions.mem_iff.mp member) (by decide)
  have second : (2 : Int) ∈ recorded := versions.mem_iff.mpr (by decide)
  have rest : (unclaimed [idleEntry 3 "third", idleEntry 2 "second"] recorded).Perm [1] :=
    versions.filter _
  refine ⟨lines, s', ends, ascending, ?_, ?_⟩
  · simpa [Entry.statusLine, idleEntry, third, second] using named
  · exact others.trans (rest.map StatusLine.unnamed)

end DocStore
