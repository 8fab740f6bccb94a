/-
Module: DocStore.Proofs.Migration.Selecting
Purpose: which migrations a strategy selects and in which order, and what is left to be
  selected once the first of them ran.
Main exports:
  checkDuplicates_of_sublist, checkOrder_eq_ok_iff, Direction.pairwise_arrange,
  Direction.Awaits, Direction.NotAfter, selectPending_exact,
  RunnerOptions.pairwise_lt_selectPending, Strategy.Staged, Strategy.Staged.selectPending_eq
-/
import DocStore.Proofs.Migration.History

namespace DocStore

/-! ### Checks -/

theorem checkDuplicates_of_sublist {part entries : List Entry} (among : part.Sublist entries)
    (checked : checkDuplicates entries = .ok ()) : checkDuplicates part = .ok () := by
  obtain ⟨versions, names, _⟩ := checkDuplicatesAfter_eq_ok_iff.mp checked
  refine checkDuplicatesAfter_eq_ok_iff.mpr ⟨?_, ?_, fun _ _ => by simp⟩
  · exact versions.sublist (among.map Entry.version)
  · exact names.sublist (among.map Entry.name)

theorem checkOrder_eq_ok_iff {e : Entry} {applied : List Int} :
    checkOrder e applied = .ok () ↔ ∀ v ∈ applied, v < e.version := by
  unfold checkOrder
  cases latest : applied.max? with
  | none =>
      rw [List.max?_eq_none_iff] at latest
      simp [latest]
  | some newest =>
      obtain ⟨member, newer⟩ := List.max?_eq_some_iff.mp latest
      dsimp only
      split
      · next later =>
          refine iff_of_true rfl fun v inApplied => ?_
          exact Int.lt_of_le_of_lt (newer v inApplied) later
      · next notLater => exact iff_of_false nofun fun all => notLater (all newest member)

/-! ### The order of a direction -/

namespace Direction

variable {d : Direction} {entries : List Entry}

/-- Whether a version comes before another one in a direction. -/
def Precedes (d : Direction) (v w : Int) : Prop :=
  match d with
  | up => v < w
  | down => w < v

instance (d : Direction) (v w : Int) : Decidable (d.Precedes v w) :=
  match d with
  | up => inferInstanceAs (Decidable (v < w))
  | down => inferInstanceAs (Decidable (w < v))

theorem Precedes.asymm {v w : Int} (first : d.Precedes v w) : ¬ d.Precedes w v := by
  cases d with
  | up => exact Int.lt_asymm first
  | down => exact Int.lt_asymm first

/-- Whether a version comes before another one in a direction, or is the same. -/
def NotAfter (d : Direction) (v w : Int) : Prop :=
  match d with
  | up => v ≤ w
  | down => w ≤ v

instance (d : Direction) (v w : Int) : Decidable (d.NotAfter v w) :=
  match d with
  | up => inferInstanceAs (Decidable (v ≤ w))
  | down => inferInstanceAs (Decidable (w ≤ v))

theorem NotAfter.trans {u v w : Int} (first : d.NotAfter u v) (second : d.NotAfter v w) :
    d.NotAfter u w := by
  cases d with
  | up => exact Int.le_trans first second
  | down => exact Int.le_trans second first

theorem NotAfter.trans_precedes {u v w : Int} (first : d.NotAfter u v)
    (second : d.Precedes v w) : d.Precedes u w := by
  cases d with
  | up => exact Int.lt_of_le_of_lt first second
  | down => exact Int.lt_of_lt_of_le second first

/-- Whether a version has still to go in a direction: up unless it is applied, down if
it is. -/
def Awaits (d : Direction) (applied : List Int) (v : Int) : Prop :=
  match d with
  | up => v ∉ applied
  | down => v ∈ applied

instance (d : Direction) (applied : List Int) (v : Int) : Decidable (d.Awaits applied v) :=
  match d with
  | up => inferInstanceAs (Decidable (v ∉ applied))
  | down => inferInstanceAs (Decidable (v ∈ applied))

theorem isOpen_eq (d : Direction) (applied : List Int) (v : Int) :
    d.isOpen applied v = decide (d.Awaits applied v) := by
  rw [Bool.eq_iff_iff, isOpen_iff, decide_eq_true_eq]
  cases d <;> rfl

theorem reaches_eq (d : Direction) (target v : Int) :
    d.reaches target v = decide (d.NotAfter v target) := by
  cases d <;> rfl

theorem approaches_eq (d : Direction) (target v : Int) :
    d.approaches target v = decide (d.Precedes v target) := by
  cases d <;> rfl

theorem arrange_perm (d : Direction) (entries : List Entry) : (d.arrange entries).Perm entries := by
  cases d with
  | up => exact List.mergeSort_perm _ _
  | down => exact (List.reverse_perm _).trans (List.mergeSort_perm _ _)

theorem pairwise_arrange_up (entries : List Entry) :
    (up.arrange entries).Pairwise fun a b => a.version ≤ b.version := by
  have sorted : (entries.mergeSort fun a b => decide (a.version ≤ b.version)).Pairwise
      fun a b => decide (a.version ≤ b.version) = true := by
    apply List.pairwise_mergeSort
    · intro a b c first second
      simp only [decide_eq_true_eq] at first second ⊢
      exact Int.le_trans first second
    · intro a b
      simp only [Bool.or_eq_true, decide_eq_true_eq]
      exact Int.le_total _ _
  exact sorted.imp fun le => by simpa using le

theorem pairwise_notAfter_arrange (d : Direction) (entries : List Entry) :
    (d.arrange entries).Pairwise fun a b => d.NotAfter a.version b.version := by
  cases d with
  | up => exact pairwise_arrange_up entries
  | down => exact List.pairwise_reverse.mpr (pairwise_arrange_up entries)

/-- Entries with distinct versions are arranged strictly. -/
theorem pairwise_arrange (distinct : (entries.map Entry.version).Nodup) :
    (d.arrange entries).Pairwise fun a b => d.Precedes a.version b.version := by
  have once : ((up.arrange entries).map Entry.version).Nodup :=
    ((up.arrange_perm entries).map Entry.version).nodup_iff.mpr distinct
  have ascending : (up.arrange entries).Pairwise fun a b => a.version < b.version :=
    ((pairwise_arrange_up entries).and (List.pairwise_map.mp once)).imp fun both => by omega
  cases d with
  | up => exact ascending
  | down => exact List.pairwise_reverse.mpr ascending

/-- Whether a version is open is up to which versions are applied, not to their order. -/
theorem isOpen_congr {applied others : List Int} (same : ∀ v, v ∈ applied ↔ v ∈ others) (v : Int) :
    d.isOpen applied v = d.isOpen others v := by
  rw [Bool.eq_iff_iff, isOpen_iff, isOpen_iff]
  cases d <;> simp only [same]

theorem mem_foldl_congr {applied others : List Int} (same : ∀ v, v ∈ applied ↔ v ∈ others)
    (versions : List Int) (v : Int) :
    v ∈ versions.foldl d.recordedAfter applied ↔ v ∈ versions.foldl d.recordedAfter others := by
  induction versions generalizing applied others with
  | nil => exact same v
  | cons w rest inductionHypothesis =>
      refine inductionHypothesis fun u => ?_
      rw [mem_recordedAfter, mem_recordedAfter, same]

/-- What is open after versions went in a direction: what was open before, without them. -/
theorem isOpen_foldl_recordedAfter (versions applied : List Int) (v : Int) :
    d.isOpen (versions.foldl d.recordedAfter applied) v = true ↔
      d.isOpen applied v = true ∧ v ∉ versions := by
  induction versions generalizing applied with
  | nil => simp
  | cons w rest inductionHypothesis =>
      rw [List.foldl_cons, inductionHypothesis, List.mem_cons, not_or, ← and_assoc]
      refine and_congr_left fun _ => ?_
      by_cases same : v = w
      · subst same
        rw [isOpen_iff]
        cases d <;> simp [mem_recordedAfter]
      · rw [isOpen_recordedAfter same]
        simp [same]

/-- Of entries that are arranged, those are left that did not run yet. -/
theorem arrange_rest {applied after : List Int} {ran rest : List Entry}
    (distinct : (entries.map Entry.version).Nodup)
    (cut : d.arrange (entries.filter fun e => d.isOpen applied e.version) = ran ++ rest)
    (moved : ∀ v, d.isOpen after v = true ↔
      d.isOpen applied v = true ∧ v ∉ ran.map Entry.version) :
    d.arrange (entries.filter fun e => d.isOpen after e.version) = rest := by
  have among : ∀ p : Entry → Bool, ((entries.filter p).map Entry.version).Nodup := fun p =>
    distinct.sublist (List.filter_sublist.map Entry.version)
  have strictly : ∀ p : Entry → Bool, (d.arrange (entries.filter p)).Pairwise
      fun a b => d.Precedes a.version b.version := fun p => pairwise_arrange (among p)
  have whole := (((d.arrange_perm _).map Entry.version).nodup_iff.mpr
    (among fun e => d.isOpen applied e.version))
  rw [cut, List.map_append] at whole
  have apart := (List.nodup_append.mp whole).2.2
  have restOnce : rest.Nodup := (List.nodup_append.mp whole).2.1.of_map Entry.version
  have leftOnce : (d.arrange (entries.filter fun e => d.isOpen after e.version)).Nodup :=
    (d.arrange_perm _).nodup_iff.mpr ((among _).of_map Entry.version)
  refine List.Perm.eq_of_pairwise (fun a b _ _ first second => absurd second first.asymm)
    (strictly _) ?_ ?_
  · have pairs := strictly fun e => d.isOpen applied e.version
    rw [cut] at pairs
    exact pairs.sublist (List.sublist_append_right ran rest)
  · refine (List.perm_ext_iff_of_nodup leftOnce restOnce).mpr fun e => ?_
    have candidate : e ∈ ran ++ rest ↔ e ∈ entries ∧ d.isOpen applied e.version = true := by
      rw [← cut, (d.arrange_perm _).mem_iff, List.mem_filter]
    rw [(d.arrange_perm _).mem_iff, List.mem_filter, moved, ← and_assoc, ← candidate,
      List.mem_append]
    constructor
    · rintro ⟨done | left, unlike⟩
      · exact absurd (List.mem_map_of_mem done) unlike
      · exact left
    · intro left
      refine ⟨Or.inr left, fun again => ?_⟩
      exact apart _ again _ (List.mem_map_of_mem left) rfl

end Direction

/-! ### Selections -/

theorem takeWhile_eq_filter {α : Type} {r : α → α → Prop} {p : α → Bool}
    (closed : ∀ a b, r a b → p b = true → p a = true) {items : List α}
    (sorted : items.Pairwise r) : items.takeWhile p = items.filter p := by
  induction sorted with
  | nil => rfl
  | @cons a rest first _ inductionHypothesis =>
      cases holds : p a with
      | true =>
          rw [List.takeWhile_cons_of_pos holds, List.filter_cons_of_pos holds,
            inductionHypothesis]
      | false =>
          -- It holds of nothing after `a`, or it would of `a`.
          have none : rest.filter p = [] := by
            refine List.filter_eq_nil_iff.mpr fun b member later => ?_
            rw [closed a b (first b member) later] at holds
            cases holds
          rw [List.takeWhile_cons_of_neg (by simp [holds]),
            List.filter_cons_of_neg (by simp [holds]), none]

section

variable (entries : List Entry) (applied : List Int) (d : Direction)

theorem selectPending_all_perm : (selectPending entries applied d .all).Perm
    (entries.filter fun e => d.Awaits applied e.version) := by
  unfold selectPending Strategy.take
  simp only [Direction.isOpen_eq]
  exact d.arrange_perm _

/-- A target that is included cuts off what comes after it. -/
theorem selectPending_through (target : Int) :
    selectPending entries applied d (.through target) =
      (selectPending entries applied d .all).filter fun e => d.NotAfter e.version target := by
  unfold selectPending Strategy.take
  simp only [Direction.reaches_eq]
  refine takeWhile_eq_filter (fun a b before => ?_) (d.pairwise_notAfter_arrange _)
  simp only [decide_eq_true_eq]
  exact before.trans

/-- A target that is not included cuts off itself and what comes after it. -/
theorem selectPending_shortOf (target : Int) :
    selectPending entries applied d (.shortOf target) =
      (selectPending entries applied d .all).filter fun e => d.Precedes e.version target := by
  unfold selectPending Strategy.take
  simp only [Direction.approaches_eq]
  refine takeWhile_eq_filter (fun a b before => ?_) (d.pairwise_notAfter_arrange _)
  simp only [decide_eq_true_eq]
  exact before.trans_precedes

theorem selectPending_sublist_all (strategy : Strategy) :
    (selectPending entries applied d strategy).Sublist
      (selectPending entries applied d .all) := by
  unfold selectPending
  exact strategy.take_sublist d _

/-- Whatever is selected is in the order of the direction. -/
theorem pairwise_selectPending (strategy : Strategy) :
    ((selectPending entries applied d strategy).map Entry.version).Pairwise d.NotAfter :=
  List.pairwise_map.mpr
    ((d.pairwise_notAfter_arrange _).sublist (selectPending_sublist_all entries applied d strategy))

/-- Every strategy selects just what it says, each entry as often as it was given, in the order
of the direction: all that wait to go in it; of these, those up to a target, with or without
it; or the first of them, as many as asked for. -/
theorem selectPending_exact :
    (selectPending entries applied d .all).Perm
        (entries.filter fun e => d.Awaits applied e.version) ∧
      (∀ target, (selectPending entries applied d (.through target)).Perm
        (entries.filter fun e => d.Awaits applied e.version ∧ d.NotAfter e.version target)) ∧
      (∀ target, (selectPending entries applied d (.shortOf target)).Perm
        (entries.filter fun e => d.Awaits applied e.version ∧ d.Precedes e.version target)) ∧
      (∀ count, selectPending entries applied d (.step count) =
          (selectPending entries applied d .all).take count ∧
        (selectPending entries applied d (.step count)).length =
          min count (entries.countP fun e => d.Awaits applied e.version)) ∧
      ∀ strategy,
        ((selectPending entries applied d strategy).map Entry.version).Pairwise d.NotAfter := by
  have every := selectPending_all_perm entries applied d
  -- What is cut from all candidates is what both conditions leave of the entries.
  have cut : ∀ p : Entry → Prop, [DecidablePred p] →
      ((selectPending entries applied d .all).filter fun e => p e).Perm
        (entries.filter fun e => d.Awaits applied e.version ∧ p e) := by
    intro p _
    have filtered := every.filter fun e => decide (p e)
    rw [List.filter_filter] at filtered
    simpa only [Bool.decide_and, Bool.and_comm] using filtered
  refine ⟨every, fun target => ?_, fun target => ?_, fun count => ⟨rfl, ?_⟩,
    pairwise_selectPending entries applied d⟩
  · rw [selectPending_through]
    exact cut _
  · rw [selectPending_shortOf]
    exact cut _
  · change ((selectPending entries applied d .all).take count).length = _
    rw [List.length_take, every.length_eq, List.countP_eq_length_filter]

end

namespace RunnerOptions

/-- Going up, entries are selected by ascending version. -/
theorem pairwise_le_selectPending (entries : List Entry) (applied : List Int)
    (strategy : Strategy) :
    ((selectPending entries applied .up strategy).map Entry.version).Pairwise (· ≤ ·) :=
  pairwise_selectPending entries applied .up strategy

/-- Entries that pass the check for duplicates are selected by strictly ascending version. -/
theorem pairwise_lt_selectPending {entries : List Entry} {applied : List Int}
    {strategy : Strategy}
    (checked : checkDuplicates (selectPending entries applied .up strategy) = .ok ()) :
    ((selectPending entries applied .up strategy).map Entry.version).Pairwise (· < ·) := by
  have distinct := (checkDuplicatesAfter_eq_ok_iff.mp checked).1
  exact ((pairwise_le_selectPending entries applied strategy).and distinct).imp fun both => by
    omega

end RunnerOptions

namespace Strategy

/-- Two strategies that, one after the other, go as far as a third one: numbers of steps that
add up, or a target on the way to another one. -/
inductive Staged (d : Direction) : Strategy → Strategy → Strategy → Prop where
  | steps (m n : Nat) : Staged d (.step m) (.step n) (.step (m + n))
  | targets {a b : Int} (onTheWay : d.reaches b a = true) :
      Staged d (.through a) (.through b) (.through b)

theorem takeWhile_eq_append {α : Type} {p q : α → Bool} (weaker : ∀ a, p a = true → q a = true)
    (items : List α) :
    items.takeWhile q = items.takeWhile p ++ (items.dropWhile p).takeWhile q := by
  induction items with
  | nil => rfl
  | cons a rest inductionHypothesis =>
      cases holds : p a with
      | false => simp [holds]
      | true => simp [holds, weaker a holds, inductionHypothesis]

variable {d : Direction} {first second whole : Strategy}

/-- The first strategy takes the first part of what the third one takes, and the second one
takes the other part. -/
theorem Staged.take_eq (staged : Staged d first second whole) (candidates : List Entry) :
    ∃ rest, candidates = first.take d candidates ++ rest ∧
      whole.take d candidates = first.take d candidates ++ second.take d rest := by
  cases staged with
  | steps m n =>
      exact ⟨candidates.drop m, (List.take_append_drop m candidates).symm, List.take_add⟩
  | @targets a b onTheWay =>
      have farther : ∀ e : Entry, d.reaches a e.version = true → d.reaches b e.version = true := by
        intro e reached
        rw [Direction.reaches_eq, decide_eq_true_eq] at onTheWay reached ⊢
        exact reached.trans onTheWay
      exact ⟨_, List.takeWhile_append_dropWhile.symm, takeWhile_eq_append farther candidates⟩

/-- In two stages the same migrations are selected as at once: the second stage selects the
others, once those of the first one ran. -/
theorem Staged.selectPending_eq (staged : Staged d first second whole) {entries : List Entry}
    (distinct : (entries.map Entry.version).Nodup) (applied : List Int) :
    ∃ rest, selectPending entries applied d whole =
        selectPending entries applied d first ++ rest ∧
      ∀ after, (∀ v, d.isOpen after v = true ↔ d.isOpen applied v = true ∧
          v ∉ (selectPending entries applied d first).map Entry.version) →
        selectPending entries after d second = rest := by
  obtain ⟨rest, cut, takes⟩ := staged.take_eq
    (d.arrange (entries.filter fun e => d.isOpen applied e.version))
  refine ⟨second.take d rest, takes, fun after moved => ?_⟩
  rw [selectPending, Direction.arrange_rest distinct cut moved]

end Strategy

end DocStore
