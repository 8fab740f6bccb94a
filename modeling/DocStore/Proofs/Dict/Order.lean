/-
Module: DocStore.Proofs.Dict.Order
Purpose: the operations on maps keep their entries in key order, and maps in key order with
  the same values are equal.
Main exports:
  Dict.Sorted.ext, Dict.Sorted.merge, Dict.Sorted.ofList_entries, Dict.get?_merge,
  Dict.keys_ofList_perm, Dict.erase_of_absent, Dict.erase_insert,
  Dict.Sorted.insert_erase
-/
import DocStore.Proofs.Dict
import Mathlib.Data.List.Dedup
import Mathlib.Data.String.Basic

namespace DocStore.Dict

variable {α : Type}

/-! ### Setting a value -/

theorem mem_insertEntry {key : String} {value : α} {entries : List (String × α)}
    {e : String × α} (member : e ∈ insertEntry key value entries) :
    e = (key, value) ∨ e ∈ entries := by
  induction entries with
  | nil => exact .inl (List.mem_singleton.mp member)
  | cons first rest inductionHypothesis =>
      rw [insertEntry] at member
      split at member
      · exact List.mem_cons.mp member
      · split at member
        · rcases List.mem_cons.mp member with new | old
          · exact .inl new
          · exact .inr (List.mem_cons_of_mem _ old)
        · rcases List.mem_cons.mp member with old | later
          · exact .inr (old ▸ List.mem_cons_self)
          · exact (inductionHypothesis later).imp id (List.mem_cons_of_mem _)

theorem Sorted.insert {d : Dict α} (sorted : d.Sorted) (key : String) (value : α) :
    (d.insert key value).Sorted := by
  obtain ⟨entries⟩ := d
  unfold Sorted Dict.insert at *
  induction entries with
  | nil => exact List.pairwise_singleton _ _
  | cons first rest inductionHypothesis =>
      obtain ⟨k, v⟩ := first
      dsimp only at sorted inductionHypothesis ⊢
      rw [List.pairwise_cons] at sorted
      rw [insertEntry]
      split
      · next before =>
          refine List.pairwise_cons.mpr ⟨?_, List.pairwise_cons.mpr sorted⟩
          intro e member
          rcases List.mem_cons.mp member with rfl | later
          · exact before
          · exact lt_trans before (sorted.1 e later)
      · next notBefore =>
          split
          · next same =>
              subst same
              exact List.pairwise_cons.mpr sorted
          · next different =>
              refine List.pairwise_cons.mpr ⟨?_, inductionHypothesis sorted.2⟩
              intro e member
              rcases mem_insertEntry member with rfl | later
              · exact lt_of_le_of_ne (not_lt.mp notBefore) (Ne.symm different)
              · exact sorted.1 e later

theorem Sorted.insertAll {d : Dict α} (sorted : d.Sorted) (entries : List (String × α)) :
    (d.insertAll entries).Sorted := by
  induction entries generalizing d with
  | nil => exact sorted
  | cons e rest inductionHypothesis => exact inductionHypothesis (sorted.insert e.1 e.2)

theorem sorted_ofList (entries : List (String × α)) : (ofList entries).Sorted :=
  Sorted.insertAll List.Pairwise.nil entries

theorem Sorted.merge {d : Dict α} (sorted : d.Sorted) (e : Dict α) : (d.merge e).Sorted :=
  sorted.insertAll e.entries

theorem Sorted.erase {d : Dict α} (sorted : d.Sorted) (key : String) : (d.erase key).Sorted :=
  List.Pairwise.filter _ sorted

theorem mem_of_mem_insertAll {d : Dict α} {entries : List (String × α)} {e : String × α}
    (member : e ∈ (d.insertAll entries).entries) : e ∈ d.entries ∨ e ∈ entries := by
  induction entries generalizing d with
  | nil => exact Or.inl member
  | cons first rest inductionHypothesis =>
      rcases inductionHypothesis member with inserted | later
      · rcases mem_insertEntry inserted with rfl | earlier
        · exact Or.inr List.mem_cons_self
        · exact Or.inl earlier
      · exact Or.inr (List.mem_cons_of_mem _ later)

/-! ### Maps with the same values -/

theorem Sorted.nodup_keys {d : Dict α} (sorted : d.Sorted) : (d.entries.map Prod.fst).Nodup :=
  List.pairwise_map.mpr (sorted.imp fun smaller => ne_of_lt smaller)

/-- No entry comes before the first one. -/
theorem lookupEntry_of_lt_head {key : String} {entries : List (String × α)}
    (before : ∀ e ∈ entries, key < e.1) : lookupEntry key entries = none :=
  (lookupEntry_eq_none_iff key entries).mpr fun e member => (ne_of_lt (before e member)).symm

/-- A key that is found does not come before the first one. -/
theorem head_le_of_lookupEntry {key head : String} {first value : α} {rest : List (String × α)}
    (later : ∀ e ∈ rest, head < e.1)
    (found : lookupEntry key ((head, first) :: rest) = some value) : head ≤ key := by
  by_contra outside
  have before : key < head := not_le.mp outside
  have absent : lookupEntry key ((head, first) :: rest) = none := by
    apply lookupEntry_of_lt_head
    exact List.forall_mem_cons.mpr ⟨before, fun e member => before.trans (later e member)⟩
  rw [absent] at found
  cases found

/-- The values determine the entries of a map in key order. -/
theorem Sorted.ext {d e : Dict α} (sorted : d.Sorted) (sorted' : e.Sorted) (same : Same d e) :
    d = e := by
  obtain ⟨entries⟩ := d
  obtain ⟨entries'⟩ := e
  congr 1
  unfold Sorted Same get? at *
  dsimp only at sorted sorted' same
  induction entries generalizing entries' with
  | nil =>
      cases entries' with
      | nil => rfl
      | cons first rest =>
          have found := same first.1
          simp [lookupEntry] at found
  | cons first rest inductionHypothesis =>
      obtain ⟨k, v⟩ := first
      cases entries' with
      | nil =>
          have found := same k
          simp [lookupEntry] at found
      | cons first' rest' =>
          obtain ⟨k', v'⟩ := first'
          rw [List.pairwise_cons] at sorted sorted'
          have keys : k = k' := by
            apply le_antisymm
            · apply head_le_of_lookupEntry sorted.1
              rw [same k']
              exact if_pos rfl
            · apply head_le_of_lookupEntry sorted'.1
              rw [← same k]
              exact if_pos rfl
          subst keys
          have values := same k
          simp only [lookupEntry, if_true, Option.some.injEq] at values
          subst values
          have others : rest = rest' := by
            refine inductionHypothesis sorted.2 rest' sorted'.2 fun key => ?_
            by_cases atHead : key = k
            · subst atHead
              rw [lookupEntry_of_lt_head sorted.1, lookupEntry_of_lt_head sorted'.1]
            · have found := same key
              simpa [lookupEntry, atHead] using found
          rw [others]

/-- Of two maps the values of the second one are kept. -/
theorem get?_merge (d : Dict α) {e : Dict α} (sorted : e.Sorted) (key : String) :
    (d.merge e).get? key = (e.get? key).or (d.get? key) := by
  cases found : e.get? key with
  | none => rw [get?_merge_of_none d found, Option.none_or]
  | some value =>
      rw [Option.some_or]
      exact get?_insertAll_of_mem d sorted.nodup_keys (mem_of_lookupEntry_eq_some found)

/-- A map in key order is the map of its entries. -/
theorem Sorted.ofList_entries {d : Dict α} (sorted : d.Sorted) : ofList d.entries = d := by
  refine (sorted_ofList d.entries).ext sorted fun key => ?_
  have merged := get?_merge empty sorted key
  rwa [get?_empty, Option.or_none] at merged

/-- The keys of a map of entries are the different ones among theirs. -/
theorem keys_ofList_perm (entries : List (String × α)) :
    (ofList entries).keys.Perm (entries.map Prod.fst).dedup := by
  refine (List.perm_ext_iff_of_nodup (sorted_ofList entries).nodup_keys
    (List.nodup_dedup _)).mpr fun key => ?_
  rw [List.mem_dedup]
  constructor
  · intro kept
    obtain ⟨e, member, rfl⟩ := List.mem_map.mp kept
    rcases mem_of_mem_insertAll member with none | given
    · cases none
    · exact List.mem_map_of_mem given
  · intro given
    obtain ⟨e, member, rfl⟩ := List.mem_map.mp given
    cases found : (ofList entries).get? e.1 with
    | none => exact absurd rfl (ne_of_get?_ofList_eq_none found e member)
    | some value => exact List.mem_map.mpr ⟨_, mem_of_lookupEntry_eq_some found, rfl⟩

/-! ### An entry set and taken out again -/

theorem filter_ne_insertEntry {key : String} {value : α} {entries : List (String × α)}
    (absent : ∀ e ∈ entries, e.1 ≠ key) :
    (insertEntry key value entries).filter (fun e => e.1 != key) = entries := by
  have kept : entries.filter (fun e => e.1 != key) = entries :=
    List.filter_eq_self.mpr fun e member => by simpa using absent e member
  induction entries with
  | nil => simp [insertEntry]
  | cons first rest inductionHypothesis =>
      rw [List.forall_mem_cons] at absent
      have keptRest : rest.filter (fun e => e.1 != key) = rest :=
        List.filter_eq_self.mpr fun e member => by simpa using absent.2 e member
      rw [insertEntry]
      split
      · rw [List.filter_cons_of_neg (by simp), kept]
      · rw [if_neg (Ne.symm absent.1), List.filter_cons_of_pos (by simpa using absent.1),
          inductionHypothesis absent.2 keptRest]

theorem filter_eq_insertEntry {key : String} {value : α} {entries : List (String × α)}
    (absent : ∀ e ∈ entries, e.1 ≠ key) :
    (insertEntry key value entries).filter (fun e => e.1 == key) = [(key, value)] := by
  have noneOf : ∀ {entries : List (String × α)}, (∀ e ∈ entries, e.1 ≠ key) →
      entries.filter (fun e => e.1 == key) = [] := fun absent =>
    List.filter_eq_nil_iff.mpr fun e member => by simpa using absent e member
  induction entries with
  | nil => simp [insertEntry]
  | cons first rest inductionHypothesis =>
      have absentRest := absent
      rw [List.forall_mem_cons] at absentRest
      rw [insertEntry]
      split
      · rw [List.filter_cons_of_pos (by simp), noneOf absent]
      · rw [if_neg (Ne.symm absentRest.1), List.filter_cons_of_neg (by simpa using absentRest.1),
          inductionHypothesis absentRest.2]

/-- Without an entry there is nothing to take out. -/
theorem erase_of_absent {d : Dict α} {key : String} (absent : d.get? key = none) :
    d.erase key = d := by
  refine congrArg Dict.mk (List.filter_eq_self.mpr fun e member => ?_)
  simpa using (lookupEntry_eq_none_iff key d.entries).mp absent e member

/-- Taking out an entry that was not there before leads back. -/
theorem erase_insert {d : Dict α} {key : String} (absent : d.get? key = none) (value : α) :
    (d.insert key value).erase key = d :=
  congrArg Dict.mk (filter_ne_insertEntry ((lookupEntry_eq_none_iff key d.entries).mp absent))

/-- Setting a value that was taken out leads back, too. -/
theorem Sorted.insert_erase {d : Dict α} (sorted : d.Sorted) {key : String} {value : α}
    (found : d.get? key = some value) : (d.erase key).insert key value = d := by
  refine ((sorted.erase key).insert key value).ext sorted fun other => ?_
  rw [get?_insert, get?_erase]
  split
  · next same => rw [same, found]
  · rfl

end DocStore.Dict
