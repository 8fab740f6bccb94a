/-
Module: DocStore.Dict
Purpose: finite maps with text keys, their entries kept in ascending key order.
Main exports:
  Dict, Dict.get?, Dict.insert, Dict.erase, Dict.merge, Dict.ofList, Dict.Sorted
-/

namespace DocStore

/-- A finite map from text to `α`, as the list of its entries.  The operations
below keep the entries in ascending key order with one entry per key; the
lookup laws do not depend on that order. -/
structure Dict (α : Type) where
  entries : List (String × α) := []
deriving Repr, Inhabited

namespace Dict

variable {α β : Type}

/-- The map without entries. -/
def empty : Dict α := ⟨[]⟩

/-- The value of the first entry under `key`. -/
def lookupEntry (key : String) : List (String × α) → Option α
  | [] => none
  | (k, v) :: rest => if key = k then some v else lookupEntry key rest

/-- The value under `key`, if there is one. -/
def get? (d : Dict α) (key : String) : Option α :=
  lookupEntry key d.entries

/-- Whether there is a value under `key`. -/
def contains (d : Dict α) (key : String) : Bool :=
  (d.get? key).isSome

/-- The keys in ascending order. -/
def keys (d : Dict α) : List String :=
  d.entries.map Prod.fst

/-- The values in the order of their keys. -/
def values (d : Dict α) : List α :=
  d.entries.map Prod.snd

/-- Whether the map has no entry. -/
def isEmpty (d : Dict α) : Bool :=
  d.entries.isEmpty

/-- Put an entry at its place in an ordered list, in the place of an entry with
the same key. -/
def insertEntry (key : String) (value : α) : List (String × α) → List (String × α)
  | [] => [(key, value)]
  | (k, v) :: rest =>
      if key < k then (key, value) :: (k, v) :: rest
      else if key = k then (key, value) :: rest
      else (k, v) :: insertEntry key value rest

/-- Set the value under `key`. -/
def insert (d : Dict α) (key : String) (value : α) : Dict α :=
  ⟨insertEntry key value d.entries⟩

/-- Remove the entry under `key`. -/
def erase (d : Dict α) (key : String) : Dict α :=
  ⟨d.entries.filter (fun e => e.1 != key)⟩

/-- Set the value under `key` unless there is one already. -/
def insertNew (d : Dict α) (key : String) (value : α) : Dict α :=
  if d.contains key then d else d.insert key value

/-- Replace the value under `key` by its image; without such a value nothing
changes. -/
def modify (d : Dict α) (key : String) (f : α → α) : Dict α :=
  match d.get? key with
  | none => d
  | some value => d.insert key (f value)

/-- Add a list of entries, a later entry winning over an earlier one. -/
def insertAll (d : Dict α) (entries : List (String × α)) : Dict α :=
  entries.foldl (fun acc e => acc.insert e.1 e.2) d

/-- The map of a list of entries, a later entry winning over an earlier one. -/
def ofList (entries : List (String × α)) : Dict α :=
  empty.insertAll entries

/-- All entries of `d`, overwritten by those of `e`. -/
def merge (d e : Dict α) : Dict α :=
  d.insertAll e.entries

/-- Keep the entries whose key satisfies `keep`. -/
def filterKeys (d : Dict α) (keep : String → Bool) : Dict α :=
  ⟨d.entries.filter (fun e => keep e.1)⟩

/-- The entries are in strictly ascending key order; so no key occurs twice. -/
def Sorted (d : Dict α) : Prop :=
  d.entries.Pairwise (fun a b => a.1 < b.1)

/-! The lookup laws hold of every entry list, ordered or not. -/

@[simp] theorem get?_empty (key : String) : (empty : Dict α).get? key = none := rfl

theorem lookup_insertEntry_self (key : String) (value : α) (l : List (String × α)) :
    lookupEntry key (insertEntry key value l) = some value := by
  induction l with
  | nil => simp [insertEntry, lookupEntry]
  | cons e rest ih =>
      obtain ⟨k, v⟩ := e
      rw [insertEntry]
      split
      · simp [lookupEntry]
      · split
        · simp [lookupEntry]
        · next hne => simp [lookupEntry, hne, ih]

theorem lookup_insertEntry_of_ne {key other : String} (value : α) (h : other ≠ key)
    (l : List (String × α)) :
    lookupEntry other (insertEntry key value l) = lookupEntry other l := by
  induction l with
  | nil => simp [insertEntry, lookupEntry, h]
  | cons e rest ih =>
      obtain ⟨k, v⟩ := e
      rw [insertEntry]
      split
      · simp [lookupEntry, h]
      · split
        · next heq =>
            subst heq
            simp [lookupEntry, h]
        · simp [lookupEntry, ih]

@[simp] theorem get?_insert_self (d : Dict α) (key : String) (value : α) :
    (d.insert key value).get? key = some value :=
  lookup_insertEntry_self key value d.entries

theorem get?_insert_of_ne (d : Dict α) {key other : String} (value : α) (h : other ≠ key) :
    (d.insert key value).get? other = d.get? other :=
  lookup_insertEntry_of_ne value h d.entries

theorem get?_insert (d : Dict α) (key other : String) (value : α) :
    (d.insert key value).get? other = if other = key then some value else d.get? other := by
  split
  · next h => rw [h, get?_insert_self]
  · next h => exact get?_insert_of_ne d value h

theorem lookup_filter (keep : String → Bool) (key : String) (l : List (String × α)) :
    lookupEntry key (l.filter (fun e => keep e.1)) =
      if keep key then lookupEntry key l else none := by
  induction l with
  | nil => simp [lookupEntry]
  | cons e rest ih =>
      obtain ⟨k, v⟩ := e
      by_cases hk : key = k
      · subst hk
        cases hp : keep key <;> simp [hp, lookupEntry, ih]
      · cases hp : keep k <;> simp [hp, lookupEntry, hk, ih]

theorem get?_filterKeys (d : Dict α) (keep : String → Bool) (key : String) :
    (d.filterKeys keep).get? key = if keep key then d.get? key else none :=
  lookup_filter keep key d.entries

theorem get?_erase (d : Dict α) (key other : String) :
    (d.erase key).get? other = if other = key then none else d.get? other := by
  have h := lookup_filter (fun k => k != key) other d.entries
  unfold erase get?
  rw [h]
  by_cases hk : other = key <;> simp [hk]

@[simp] theorem get?_erase_self (d : Dict α) (key : String) : (d.erase key).get? key = none := by
  simp [get?_erase]

end Dict

end DocStore
