/-
Module: DocStore.Proofs.Dict
Purpose: what the operations on maps do to each key, beyond insertion and removal of one
  entry.
Main exports:
  Dict.Same, Dict.get?_modify, Dict.get?_merge_of_none, Dict.get?_ofList_of_mem
-/
import DocStore.Dict

namespace DocStore.Dict

variable {α : Type}

/-- Two maps with the same value under every key. -/
def Same (d e : Dict α) : Prop :=
  ∀ key, d.get? key = e.get? key

theorem contains_eq (d : Dict α) (key : String) : d.contains key = (d.get? key).isSome := rfl

theorem contains_insert (d : Dict α) (key other : String) (value : α) :
    (d.insert key value).contains other = true ↔ other = key ∨ d.contains other = true := by
  rw [contains_eq, get?_insert, contains_eq]
  split
  · next same => simp [same]
  · next unlike => simp [unlike]

/-- Only the value under the key is replaced. -/
theorem get?_modify (d : Dict α) (key other : String) (f : α → α) :
    (d.modify key f).get? other = if other = key then (d.get? key).map f else d.get? other := by
  unfold modify
  cases found : d.get? key with
  | none =>
      by_cases same : other = key
      · subst same
        simp [found]
      · simp [same]
  | some value => simp [get?_insert]

@[simp] theorem get?_modify_self (d : Dict α) (key : String) (f : α → α) :
    (d.modify key f).get? key = (d.get? key).map f := by
  simp [get?_modify]

theorem get?_insertNew_of_ne (d : Dict α) {key other : String} (value : α) (h : other ≠ key) :
    (d.insertNew key value).get? other = d.get? other := by
  unfold insertNew
  split
  · rfl
  · exact get?_insert_of_ne d value h

theorem lookupEntry_eq_none_iff (key : String) (entries : List (String × α)) :
    lookupEntry key entries = none ↔ ∀ e ∈ entries, e.1 ≠ key := by
  induction entries with
  | nil => simp [lookupEntry]
  | cons e rest inductionHypothesis =>
      rcases e with ⟨k, v⟩
      by_cases same : key = k
      · simp [lookupEntry, same]
      · simp [lookupEntry, same, inductionHypothesis, Ne.symm same]

theorem mem_of_lookupEntry_eq_some {key : String} {value : α} {entries : List (String × α)}
    (h : lookupEntry key entries = some value) : (key, value) ∈ entries := by
  induction entries with
  | nil => cases h
  | cons e rest inductionHypothesis =>
      rcases e with ⟨k, v⟩
      by_cases same : key = k
      · subst same
        simp only [lookupEntry, if_true, Option.some.injEq] at h
        exact h ▸ List.mem_cons_self
      · simp only [lookupEntry, same, if_false] at h
        exact List.mem_cons_of_mem _ (inductionHypothesis h)

theorem mem_keys_iff {d : Dict α} {key : String} : key ∈ d.keys ↔ d.contains key = true := by
  rw [contains_eq, Option.isSome_iff_ne_none, get?, Ne, lookupEntry_eq_none_iff]
  simp [keys]

theorem get?_insertAll_of_forall_ne (d : Dict α) {key : String} {entries : List (String × α)}
    (h : ∀ e ∈ entries, e.1 ≠ key) : (d.insertAll entries).get? key = d.get? key := by
  induction entries generalizing d with
  | nil => rfl
  | cons e rest inductionHypothesis =>
      have tail : ∀ x ∈ rest, x.1 ≠ key := fun x member => h x (List.mem_cons_of_mem _ member)
      have head : key ≠ e.1 := fun same => h e List.mem_cons_self same.symm
      calc
        (d.insertAll (e :: rest)).get? key = ((d.insert e.1 e.2).insertAll rest).get? key := rfl
        _ = (d.insert e.1 e.2).get? key := inductionHypothesis _ tail
        _ = d.get? key := get?_insert_of_ne d e.2 head

/-- Under each key there is one of the values that were inserted, or what was there. -/
theorem get?_insertAll_cases (d : Dict α) (entries : List (String × α)) (key : String) :
    (d.insertAll entries).get? key = d.get? key ∨
      ∃ value, (key, value) ∈ entries ∧ (d.insertAll entries).get? key = some value := by
  induction entries generalizing d with
  | nil => exact Or.inl rfl
  | cons first rest inductionHypothesis =>
      change ((d.insert first.1 first.2).insertAll rest).get? key = _ ∨ ∃ value, _ ∧
        ((d.insert first.1 first.2).insertAll rest).get? key = _
      rcases inductionHypothesis (d.insert first.1 first.2) with kept | ⟨value, later, is⟩
      · rw [kept, get?_insert]
        split
        · next own =>
            subst own
            exact Or.inr ⟨first.2, List.mem_cons_self, rfl⟩
        · exact Or.inl rfl
      · exact Or.inr ⟨value, List.mem_cons_of_mem _ later, is⟩

/-- What a list of entries sets under a key does not depend on what it is added to. -/
theorem get?_insertAll (d : Dict α) (entries : List (String × α)) (key : String) :
    (d.insertAll entries).get? key = ((ofList entries).get? key).or (d.get? key) := by
  induction entries generalizing d with
  | nil => rfl
  | cons e rest inductionHypothesis =>
      calc
        (d.insertAll (e :: rest)).get? key
            = ((ofList rest).get? key).or ((d.insert e.1 e.2).get? key) :=
          inductionHypothesis (d.insert e.1 e.2)
        _ = (((ofList rest).get? key).or ((empty.insert e.1 e.2).get? key)).or (d.get? key) := by
          rw [get?_insert, get?_insert, Option.or_assoc]
          split <;> rfl
        _ = ((ofList (e :: rest)).get? key).or (d.get? key) :=
          congrArg (·.or (d.get? key)) (inductionHypothesis (empty.insert e.1 e.2)).symm

/-- What is not found among entries is not listed by them. -/
theorem ne_of_get?_ofList_eq_none {key : String} {entries : List (String × α)}
    (absent : (ofList entries).get? key = none) : ∀ e ∈ entries, e.1 ≠ key := by
  induction entries with
  | nil => exact fun e member => absurd member List.not_mem_nil
  | cons e rest inductionHypothesis =>
      have whole : (ofList (e :: rest)).get? key =
          ((ofList rest).get? key).or ((empty.insert e.1 e.2).get? key) :=
        get?_insertAll (empty.insert e.1 e.2) rest key
      rw [whole, Option.or_eq_none_iff] at absent
      refine List.forall_mem_cons.mpr ⟨?_, inductionHypothesis absent.1⟩
      rintro rfl
      rw [get?_insert_self] at absent
      cases absent.2

theorem insertEntry_insertEntry (key : String) (first second : α) (entries : List (String × α)) :
    insertEntry key second (insertEntry key first entries) = insertEntry key second entries := by
  induction entries with
  | nil => simp [insertEntry]
  | cons e rest inductionHypothesis =>
      obtain ⟨k, v⟩ := e
      by_cases before : key < k
      · simp [insertEntry, before]
      · by_cases same : key = k
        · simp [insertEntry, same]
        · simp [insertEntry, before, same, inductionHypothesis]

/-- Of two values set under one key the second one is kept. -/
theorem insert_insert (d : Dict α) (key : String) (first second : α) :
    (d.insert key first).insert key second = d.insert key second :=
  congrArg Dict.mk (insertEntry_insertEntry key first second d.entries)

/-- Overwriting by a map without a key leaves the value under that key. -/
theorem get?_merge_of_none (d : Dict α) {e : Dict α} {key : String} (h : e.get? key = none) :
    (d.merge e).get? key = d.get? key :=
  get?_insertAll_of_forall_ne d ((lookupEntry_eq_none_iff key e.entries).mp h)

/-- Among entries with distinct keys, each is found under its key. -/
theorem get?_insertAll_of_mem (d : Dict α) {key : String} {value : α}
    {entries : List (String × α)} (distinct : (entries.map Prod.fst).Nodup)
    (member : (key, value) ∈ entries) : (d.insertAll entries).get? key = some value := by
  induction entries generalizing d with
  | nil => cases member
  | cons e rest inductionHypothesis =>
      rw [List.map_cons, List.nodup_cons] at distinct
      change ((d.insert e.1 e.2).insertAll rest).get? key = some value
      rcases List.mem_cons.mp member with same | later
      · subst same
        have absent : ∀ x ∈ rest, x.1 ≠ key := by
          intro x inRest same
          exact distinct.1 (List.mem_map.mpr ⟨x, inRest, same⟩)
        rw [get?_insertAll_of_forall_ne _ absent, get?_insert_self]
      · exact inductionHypothesis _ distinct.2 later

theorem get?_ofList_of_mem {key : String} {value : α} {entries : List (String × α)}
    (distinct : (entries.map Prod.fst).Nodup) (member : (key, value) ∈ entries) :
    (ofList entries).get? key = some value :=
  get?_insertAll_of_mem empty distinct member

end DocStore.Dict
