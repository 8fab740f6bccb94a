/-
Module: DocStore.Proofs.Query.Sorting
Purpose: the order of values is a total preorder, and sorting by it is stable.
Main exports:
  StablySorted, stablySorted_mergeSort, StablySorted.unique
-/
import DocStore.Memory.Documents

namespace DocStore

open Std

/-! ### The order of values -/

namespace Json

/-- The number that tells two numbers apart. -/
def numberKey : Json → Int
  | .num a => a.toDouble.units
  | _ => 0

/-- The text that tells two texts apart. -/
def textKey : Json → String
  | .str a => a
  | _ => ""

/-- The truth value that tells two Booleans apart. -/
def flagKey : Json → Nat
  | .bool a => a.toNat
  | _ => 0

/-- Values are compared by their kinds, and those of one kind by one key. -/
theorem order_eq_compareLex :
    order = compareLex (compareOn rank)
      (compareLex (compareOn numberKey) (compareLex (compareOn textKey) (compareOn flagKey))) := by
  funext a b
  cases a <;> cases b
  case str.str a b =>
    change compare a b = _
    simp [compareLex, compareOn, rank, numberKey, textKey, flagKey]
  all_goals
    simp [order, compareLex, compareOn, rank, numberKey, textKey, flagKey, Number.order] <;> rfl

instance : TransCmp order :=
  order_eq_compareLex ▸ inferInstance

end Json

theorem Json.swap_order (a b : Json) : (order a b).swap = order b a :=
  OrientedCmp.eq_swap.symm

instance (s : StatementSort) : TransCmp s.compare where
  eq_swap {a b} := by
    unfold StatementSort.compare
    split
    · have swap := Json.swap_order (b.value s.field) (a.value s.field)
      change (Json.order (a.value s.field) (b.value s.field)).swap =
        (Json.order (b.value s.field) (a.value s.field)).swap.swap
      rw [swap]
    · exact (Json.swap_order _ _).symm
  isLE_trans {a b c} := by
    unfold StatementSort.compare
    split
    · simp only [Json.swap_order]
      exact fun first second => TransCmp.isLE_trans second first
    · intro first second
      have chain : (Json.order (a.value s.field) (c.value s.field)).isLE :=
        TransCmp.isLE_trans first second
      exact chain

instance transCmp_compareDocuments (sorts : List StatementSort) :
    TransCmp (compareDocuments sorts) := by
  induction sorts with
  | nil =>
      have equal : compareDocuments [] = compareOn (fun _ : Document => 0) := by
        funext a b
        simp [compareDocuments, compareOn]
      exact equal ▸ inferInstance
  | cons s rest inductionHypothesis =>
      have lexicographic : compareDocuments (s :: rest) =
          compareLex s.compare (compareDocuments rest) := rfl
      exact lexicographic ▸ inferInstance

/-! ### Stable sorting -/

/-- A list with the elements of another in ascending order, where elements that the
order does not tell apart stand in the order of that other list. -/
structure StablySorted {α : Type} (cmp : α → α → Ordering) (source sorted : List α) : Prop where
  perm : sorted.Perm source
  ordered : sorted.Pairwise fun a b => cmp a b ≠ .gt
  stable : ∀ a, sorted.filter (fun b => cmp a b == .eq) = source.filter (fun b => cmp a b == .eq)

theorem stablySorted_mergeSort {α : Type} (cmp : α → α → Ordering) [TransCmp cmp]
    (source : List α) : StablySorted cmp source (source.mergeSort fun a b => cmp a b != .gt) := by
  have trans : ∀ a b c, (cmp a b != .gt) = true → (cmp b c != .gt) = true →
      (cmp a c != .gt) = true := by
    intro a b c first second
    simp only [bne_iff_ne, ne_eq, ← Ordering.isLE_iff_ne_gt] at first second ⊢
    exact TransCmp.isLE_trans first second
  have total : ∀ a b, ((cmp a b != .gt) || (cmp b a != .gt)) = true := by
    intro a b
    have swap : cmp b a = (cmp a b).swap := OrientedCmp.eq_swap
    rw [swap]
    cases cmp a b <;> rfl
  have perm := List.mergeSort_perm source fun a b => cmp a b != .gt
  constructor
  · exact perm
  · exact (List.pairwise_mergeSort trans total source).imp fun le => by simpa using le
  · intro a
    -- The equals of `a` are sorted already, so sorting keeps them as a sublist.
    have equals : (source.filter fun b => cmp a b == .eq).Pairwise
        fun b c => (cmp b c != .gt) = true := by
      refine List.pairwise_of_forall_mem_list fun b bMember c cMember => ?_
      have left : cmp a b = .eq := by simpa using (List.mem_filter.mp bMember).2
      have right : cmp a c = .eq := by simpa using (List.mem_filter.mp cMember).2
      rw [← TransCmp.congr_left left, right]
      rfl
    have kept := (List.sublist_mergeSort trans total equals List.filter_sublist).filter
      fun b => cmp a b == .eq
    rw [List.filter_filter] at kept
    simp only [Bool.and_self] at kept
    exact (kept.eq_of_length (perm.filter _).length_eq.symm).symm

/-- Two sorted lists with the same elements are the same if equal elements stand in
the same order in both. -/
theorem eq_of_stable {α : Type} {cmp : α → α → Ordering} [TransCmp cmp] {l m : List α}
    (perm : l.Perm m) (first : l.Pairwise fun a b => cmp a b ≠ .gt)
    (second : m.Pairwise fun a b => cmp a b ≠ .gt)
    (stable : ∀ a, l.filter (fun b => cmp a b == .eq) = m.filter (fun b => cmp a b == .eq)) :
    l = m := by
  induction l generalizing m with
  | nil => exact perm.nil_eq
  | cons a l inductionHypothesis =>
      cases m with
      | nil => exact absurd perm.length_eq (by simp)
      | cons b m =>
          rw [List.pairwise_cons] at first second
          have self : ∀ x : α, cmp x x = .eq := fun x => ReflCmp.compare_self
          have heads : cmp a b = .eq := by
            have member : b ∈ a :: l := perm.mem_iff.mpr List.mem_cons_self
            rcases List.mem_cons.mp member with rfl | inL
            · exact self b
            · rcases List.mem_cons.mp (perm.mem_iff.mp List.mem_cons_self : a ∈ b :: m) with
                rfl | inM
              · exact self a
              · have below := first.1 b inL
                have above := second.1 a inM
                have swap : cmp b a = (cmp a b).swap := OrientedCmp.eq_swap
                rw [swap] at above
                cases compared : cmp a b with
                | lt =>
                    rw [compared] at above
                    exact absurd rfl above
                | eq => rfl
                | gt => exact absurd compared below
          have equal : a = b := by
            have lists := stable a
            rw [List.filter_cons, List.filter_cons, self a, heads] at lists
            simpa using (List.cons.inj lists).1
          subst equal
          rw [inductionHypothesis perm.cons_inv first.2 second.2 fun x => ?_]
          have lists := stable x
          rw [List.filter_cons, List.filter_cons] at lists
          split at lists
          · exact (List.cons.inj lists).2
          · exact lists

/-- There is one way to sort a list stably. -/
theorem StablySorted.unique {α : Type} {cmp : α → α → Ordering} [TransCmp cmp]
    {source one other : List α} (first : StablySorted cmp source one)
    (second : StablySorted cmp source other) : one = other :=
  eq_of_stable (first.perm.trans second.perm.symm) first.ordered second.ordered
    fun a => (first.stable a).trans (second.stable a).symm

end DocStore
