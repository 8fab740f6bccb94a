/-
Module: DocStore.Proofs.Fallible
Purpose: when a computation that can fail succeeds.
Main exports:
  exceptBind_eq_ok_iff, exceptMap_eq_ok_iff, mapM_map_eq_some, forall₂_of_mapM
-/
import Mathlib.Data.List.Forall2

namespace DocStore

theorem exceptBind_eq_ok_iff {ε α β : Type} {x : Except ε α} {f : α → Except ε β} {b : β} :
    (x >>= f) = .ok b ↔ ∃ a, x = .ok a ∧ f a = .ok b := by
  cases x with
  | ok a =>
      constructor
      · intro h
        exact ⟨a, rfl, h⟩
      · rintro ⟨_, ⟨rfl⟩, h⟩
        exact h
  | error e =>
      constructor
      · intro h
        cases h
      · rintro ⟨_, h, _⟩
        cases h

theorem exceptMap_eq_ok_iff {ε α β : Type} {x : Except ε α} {f : α → β} {b : β} :
    x.map f = .ok b ↔ ∃ a, x = .ok a ∧ f a = b := by
  cases x <;> simp [Except.map]

/-- A list is read item by item if each item is read. -/
theorem mapM_map_eq_some {α β γ : Type} {written : α → β} {read : β → Option γ} {value : α → γ}
    {items : List α} (each : ∀ a ∈ items, read (written a) = some (value a)) :
    (items.map written).mapM read = some (items.map value) := by
  induction items with
  | nil => rfl
  | cons a rest inductionHypothesis =>
      have first := each a List.mem_cons_self
      have others := inductionHypothesis fun b member => each b (List.mem_cons_of_mem _ member)
      simp [List.mapM_cons, first, others]

/-- Where all items are read, each of them has its value among those read. -/
theorem exists_of_mapM_eq_ok {ε α β : Type} {read : α → Except ε β} {items : List α}
    {values : List β} (reads : items.mapM read = .ok values) {a : α} (member : a ∈ items) :
    ∃ b ∈ values, read a = .ok b := by
  induction items generalizing values with
  | nil => cases member
  | cons first rest inductionHypothesis =>
      rw [List.mapM_cons] at reads
      obtain ⟨value, one, reads⟩ := exceptBind_eq_ok_iff.mp reads
      obtain ⟨others, all, same⟩ := exceptBind_eq_ok_iff.mp reads
      cases same
      rcases List.mem_cons.mp member with rfl | later
      · exact ⟨value, List.mem_cons_self, one⟩
      · obtain ⟨b, among, is⟩ := inductionHypothesis all later
        exact ⟨b, List.mem_cons_of_mem _ among, is⟩

/-- What is read item by item stands side by side with the items. -/
theorem forall₂_of_mapM {α β : Type} {read : α → Option β} {items : List α} {values : List β}
    (reads : items.mapM read = some values) :
    List.Forall₂ (fun a b => read a = some b) items values := by
  induction items generalizing values with
  | nil =>
      cases reads
      exact .nil
  | cons a rest inductionHypothesis =>
      rw [List.mapM_cons] at reads
      simp only [Option.bind_eq_bind, Option.bind_eq_some_iff] at reads
      rcases reads with ⟨value, first, others, othersRead, same⟩
      cases same
      exact .cons first (inductionHypothesis othersRead)

theorem exists_right_of_forall₂ {α β : Type} {r : α → β → Prop} {items : List α} {values : List β}
    (related : List.Forall₂ r items values) {a : α} (member : a ∈ items) :
    ∃ b ∈ values, r a b := by
  induction related with
  | nil => cases member
  | cons first _ inductionHypothesis =>
      rcases List.mem_cons.mp member with rfl | later
      · exact ⟨_, List.mem_cons_self, first⟩
      · rcases inductionHypothesis later with ⟨b, inValues, holds⟩
        exact ⟨b, List.mem_cons_of_mem _ inValues, holds⟩

theorem exists_left_of_forall₂ {α β : Type} {r : α → β → Prop} {items : List α} {values : List β}
    (related : List.Forall₂ r items values) {b : β} (member : b ∈ values) :
    ∃ a ∈ items, r a b :=
  exists_right_of_forall₂ related.flip member

/-- Two lists that stand side by side with a third one between them. -/
theorem forall₂_comp {α β γ : Type} {r : α → β → Prop} {s : β → γ → Prop} {t : α → γ → Prop}
    (comp : ∀ a b c, r a b → s b c → t a c) {items : List α} {middle : List β} {values : List γ}
    (left : List.Forall₂ r items middle) (right : List.Forall₂ s middle values) :
    List.Forall₂ t items values := by
  induction left generalizing values with
  | nil =>
      cases right
      exact .nil
  | cons first _ inductionHypothesis =>
      cases right with
      | cons second others => exact .cons (comp _ _ _ first second) (inductionHypothesis others)

end DocStore
