/-
Module: DocStore.Proofs.Migration.FileName
Purpose: the names of files that are read as those of migrations, exactly, and that a name that
  is made for a new migration is one of them.
Main exports:
  Text.WritesNumber, exists_parts_of_parseFileName?, parseFileName?_parts, parseFileName?_exact
-/
import DocStore.Migration.File
import DocStore.Proofs.Text.Cutting
import DocStore.Proofs.Text.Decimal
import Mathlib.Data.Nat.Digits.Defs

namespace DocStore

open Text

/-! ### Numbers -/

namespace Text

/-- The text consists of decimal digits, at least one, and they write the number.  There may be
zeros in front. -/
def WritesNumber (digits : List Char) (n : Nat) : Prop :=
  digits ≠ [] ∧ (∀ c ∈ digits, c.isDigit) ∧ Nat.ofDigits 10 (digits.reverse.map digitValue) = n

/-- The number that is summed up from left to right is that of the positional system. -/
theorem digitsValue_eq_ofDigits (digits : List Char) :
    digitsValue digits = Nat.ofDigits 10 (digits.reverse.map digitValue) := by
  rw [Nat.ofDigits_eq_foldr, List.foldr_map, List.foldr_reverse, digitsValue]
  congr 1
  funext n c
  simp only [Nat.cast_id]
  omega

theorem unsigned?_eq_some_iff_writesNumber {digits : List Char} {n : Nat} :
    unsigned? digits = some n ↔ WritesNumber digits n := by
  rw [unsigned?_eq_some_iff, digitsValue_eq_ofDigits, WritesNumber]

theorem writesNumber_toString (n : Nat) : WritesNumber (toString n).toList n := by
  rw [toList_toString]
  refine ⟨digitsOf_ne_nil n, fun _ => isDigit_of_mem_digitsOf, ?_⟩
  rw [← digitsValue_eq_ofDigits, digitsValue_digitsOf]

/-- Digits stop before an underscore. -/
theorem WritesNumber.underscore_notMem {digits : List Char} {n : Nat}
    (writes : WritesNumber digits n) : '_' ∉ digits := fun member =>
  absurd (writes.2.1 _ member) (by decide)

end Text

/-! ### Names of files -/

/-- What is read has a number, an underscore, a name and the ending. -/
theorem exists_parts_of_parseFileName? {s name : String} {version : Int}
    (is : parseFileName? s = some (version, name)) :
    ∃ (digits : List Char) (n : Nat), WritesNumber digits n ∧ version = n ∧ n < 2 ^ 63 ∧
      name ≠ "" ∧ s = String.ofList digits ++ "_" ++ name ++ ".json" := by
  simp only [parseFileName?, Option.bind_eq_bind, Option.bind_eq_some_iff,
    Option.filter_eq_some_iff] at is
  obtain ⟨stem, ended, ⟨digits, rest⟩, cut, n, ⟨written, fits⟩, named⟩ := is
  split at named
  · cases named
  · next nonempty =>
      cases named
      have whole := eq_append_of_dropTrailing? ended
      rw [(splitOnce?_singleton_eq_some_iff.mp cut).2] at whole
      refine ⟨digits, n, unsigned?_eq_some_iff_writesNumber.mp written, rfl, ?_, ?_, ?_⟩
      · have limit : n ≤ signedLimit := by simpa using fits
        exact Nat.lt_succ_of_le limit
      · simpa [← String.toList_inj] using nonempty
      · rw [← String.toList_inj, whole]
        simp

/-- The number ends at the first underscore, and only the last ending is taken off, so that the
name may contain both. -/
theorem parseFileName?_parts {digits : List Char} {n : Nat} {name : String}
    (writes : WritesNumber digits n) (fits : n < 2 ^ 63) (nonempty : name ≠ "") :
    parseFileName? (String.ofList digits ++ "_" ++ name ++ ".json") = some (↑n, name) := by
  have stem : (String.ofList digits ++ "_" ++ name ++ ".json").toList =
      (digits ++ '_' :: name.toList) ++ ".json".toList := by simp
  have cut : splitOnce? ['_'] (digits ++ '_' :: name.toList) = some (digits, name.toList) :=
    splitOnce?_singleton_eq_some_iff.mpr ⟨writes.underscore_notMem, rfl⟩
  have limit : n ≤ signedLimit := Nat.le_of_lt_succ fits
  have full : name.toList.isEmpty = false := by simpa using nonempty
  unfold parseFileName?
  rw [stem, dropTrailing?_append]
  simp only [Option.bind_eq_bind, Option.bind_some, cut,
    unsigned?_eq_some_iff_writesNumber.mpr writes]
  simp [Option.filter_some, limit, full]

theorem fileName_eq_ok_iff {version : Int} {name text : String} :
    fileName version name = .ok text ↔
      isMigrationName name ∧ text = toString version ++ "_" ++ name ++ ".json" := by
  rw [fileName]
  split
  · next valid => simp [valid, eq_comm]
  · next invalid => simp [invalid]

/-- A text is read as the name of a migration's file exactly if it consists of digits that write
a number below 2 ^ 63, an underscore, a name that is not empty, and the ending; what is read is
that number and that name.  The name of the file of a new migration is read as the version and
the name that it was made of. -/
theorem parseFileName?_exact :
    (∀ (s : String) (version : Int) (name : String),
      parseFileName? s = some (version, name) ↔
        ∃ (digits : List Char) (n : Nat), WritesNumber digits n ∧ version = n ∧ n < 2 ^ 63 ∧
          name ≠ "" ∧ s = String.ofList digits ++ "_" ++ name ++ ".json") ∧
    ∀ (version : Int) (name text : String), 0 ≤ version → version < 2 ^ 63 →
      fileName version name = .ok text → parseFileName? text = some (version, name) := by
  constructor
  · intro s version name
    refine ⟨exists_parts_of_parseFileName?, ?_⟩
    rintro ⟨digits, n, writes, rfl, fits, nonempty, rfl⟩
    exact parseFileName?_parts writes fits nonempty
  · intro version name text natural fits made
    obtain ⟨n, rfl⟩ := Int.eq_ofNat_of_zero_le natural
    obtain ⟨valid, rfl⟩ := fileName_eq_ok_iff.mp made
    have nonempty : name ≠ "" := by
      rintro rfl
      cases valid
    have read := parseFileName?_parts (writesNumber_toString n) (by omega) nonempty
    rwa [String.ofList_toList] at read

/-- The name may look like the beginning or the end of another file name. -/
theorem parseFileName?_exact_of_nestedName :
    parseFileName? "007_8_bond.json.json" = some (7, "8_bond.json") ∧
      parseFileName? "20240101120000_create_users.json" =
        some (20240101120000, "create_users") := by
  have digits : WritesNumber ['0', '0', '7'] 7 := unsigned?_eq_some_iff_writesNumber.mp rfl
  exact ⟨(parseFileName?_exact.1 "007_8_bond.json.json" 7 "8_bond.json").mpr
      ⟨['0', '0', '7'], 7, digits, rfl, by decide, by decide, rfl⟩,
    parseFileName?_exact.2 20240101120000 "create_users" "20240101120000_create_users.json"
      (by decide) (by decide) rfl⟩

end DocStore
