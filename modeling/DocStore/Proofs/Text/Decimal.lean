/-
Module: DocStore.Proofs.Text.Decimal
Purpose: letters and digits by their codes, and the decimal text of a number: its digits, that
  it determines the number, and that reading it as a JSON document gives the number back.
Main exports:
  Text.isLower_iff, Text.isDigit_iff, Text.unsigned?_eq_some_iff, Text.toString_nat_injective,
  Text.signedValue_toString, Text.toString_int_injective, Json.parse?_toString
-/
import DocStore.Json.Parser

namespace DocStore

namespace Text

/-! ### Ranges of characters -/

theorem isUpper_iff {c : Char} : c.isUpper = true ↔ 65 ≤ c.toNat ∧ c.toNat ≤ 90 := by
  change decide (c.val ≥ 'A'.val ∧ c.val ≤ 'Z'.val) = true ↔ _
  simp only [decide_eq_true_eq, ge_iff_le, UInt32.le_iff_toNat_le]
  exact Iff.rfl

theorem isLower_iff {c : Char} : c.isLower = true ↔ 97 ≤ c.toNat ∧ c.toNat ≤ 122 := by
  change (decide (c.val ≥ 'a'.val) && decide (c.val ≤ 'z'.val)) = true ↔ _
  simp only [Bool.and_eq_true, decide_eq_true_eq, ge_iff_le, UInt32.le_iff_toNat_le]
  exact Iff.rfl

theorem isDigit_iff {c : Char} : c.isDigit = true ↔ 48 ≤ c.toNat ∧ c.toNat ≤ 57 := by
  change (decide (c.val ≥ '0'.val) && decide (c.val ≤ '9'.val)) = true ↔ _
  simp only [Bool.and_eq_true, decide_eq_true_eq, ge_iff_le, UInt32.le_iff_toNat_le]
  exact Iff.rfl

/-! ### Digits -/

/-- The decimal digits of a number. -/
def digitsOf (n : Nat) : List Char :=
  Nat.toDigits 10 n

theorem toList_toString (n : Nat) : (toString n).toList = digitsOf n :=
  Nat.toList_repr

theorem digitsOf_ne_nil (n : Nat) : digitsOf n ≠ [] :=
  Nat.toDigits_ne_nil

theorem isDigit_of_mem_digitsOf {n : Nat} {c : Char} (member : c ∈ digitsOf n) : c.isDigit :=
  Nat.isDigit_of_mem_toDigits (by decide) (by decide) member

theorem notMem_digitsOf {c : Char} (other : c.isDigit = false) (n : Nat) : c ∉ digitsOf n := by
  intro member
  have digit := isDigit_of_mem_digitsOf member
  rw [other] at digit
  cases digit

/-- The last character of a decimal text is a digit. -/
theorem exists_append_digitsOf (n : Nat) :
    ∃ front last, digitsOf n = front ++ [last] ∧ last.isDigit :=
  ⟨_, _, (List.dropLast_concat_getLast (digitsOf_ne_nil n)).symm,
    isDigit_of_mem_digitsOf (List.getLast_mem (digitsOf_ne_nil n))⟩

theorem digitsValue_digitsOf (n : Nat) : digitsValue (digitsOf n) = n := by
  calc
    digitsValue (digitsOf n) = Nat.ofDigitChars 10 (digitsOf n) 0 := by
      rw [digitsValue, Nat.ofDigitChars_eq_foldl]
      simp only [digitValue, Nat.mul_comm]
    _ = n := Nat.ofDigitChars_ten_toDigits

theorem unsigned?_eq_some_iff {text : List Char} {n : Nat} :
    unsigned? text = some n ↔ text ≠ [] ∧ (∀ c ∈ text, c.isDigit) ∧ digitsValue text = n := by
  rw [← List.all_eq_true, unsigned?]
  split
  · next refused =>
      refine iff_of_false nofun ?_
      rintro ⟨nonempty, digits, _⟩
      simp [nonempty, digits] at refused
  · next accepted =>
      have parts : text ≠ [] ∧ text.all Char.isDigit := by simpa using accepted
      rw [Option.some.injEq]
      exact ⟨fun value => ⟨parts.1, parts.2, value⟩, fun written => written.2.2⟩

/-- Only zero begins with a zero. -/
theorem head?_digitsOf_ne_zero {n : Nat} (positive : 0 < n) : (digitsOf n).head? ≠ some '0' := by
  induction n using Nat.strongRecOn with
  | ind n inductionHypothesis =>
      unfold digitsOf
      rw [Nat.toDigits_eq_if (by decide)]
      split
      · next small =>
          have digits : ∀ m < 10, 0 < m → Nat.digitChar m ≠ '0' := by decide
          simpa using digits n small positive
      · next large =>
          have shorter := inductionHypothesis (n / 10) (by omega) (by omega)
          unfold digitsOf at shorter
          cases front : Nat.toDigits 10 (n / 10) with
          | nil => exact absurd front Nat.toDigits_ne_nil
          | cons c rest =>
              rw [front] at shorter
              exact shorter

theorem toString_nat_injective {m n : Nat} (same : toString m = toString n) : m = n := by
  have digits : digitsOf m = digitsOf n := by
    rw [← toList_toString, ← toList_toString, same]
  rw [← digitsValue_digitsOf m, digits, digitsValue_digitsOf]

theorem slash_notMem_toString_int (a : Int) : '/' ∉ (toString a).toList := by
  have natural : ∀ n : Nat, '/' ∉ (toString n).toList := by
    intro n
    rw [toList_toString]
    exact notMem_digitsOf (by decide) n
  cases a with
  | ofNat n => exact natural n
  | negSucc n =>
      have whole : toString (Int.negSucc n) = "-" ++ toString (n + 1) := rfl
      rw [whole, String.toList_append, List.mem_append, not_or]
      exact ⟨by decide, natural (n + 1)⟩

/-- The integer that digits write, behind a minus sign or none. -/
def signedValue : List Char → Int
  | '-' :: digits => -digitsValue digits
  | digits => digitsValue digits

theorem signedValue_toString (n : Int) : signedValue (toString n).toList = n := by
  have natural : ∀ n : Nat, signedValue (toString n).toList = n := by
    intro n
    rw [toList_toString]
    unfold signedValue
    split
    · next digits spelled =>
        have minus : '-' ∈ digitsOf n := by rw [spelled]; exact List.mem_cons_self
        exact absurd minus (notMem_digitsOf (by decide) n)
    · rw [digitsValue_digitsOf]
  cases n with
  | ofNat n => exact natural n
  | negSucc n =>
      have whole : toString (Int.negSucc n) = "-" ++ toString (n + 1) := rfl
      rw [whole, String.toList_append, toList_toString]
      change -(digitsValue (digitsOf (n + 1)) : Int) = _
      rw [digitsValue_digitsOf]
      rfl

theorem toString_int_injective {a b : Int} (same : toString a = toString b) : a = b := by
  rw [← signedValue_toString a, same, signedValue_toString]

end Text

namespace Json

namespace Reader

open Text

theorem digits_digitsOf (n : Nat) : digits (digitsOf n) = (digitsOf n, []) := by
  have all : ∀ c ∈ digitsOf n, c.isDigit := fun c => isDigit_of_mem_digitsOf
  have taken : (digitsOf n ++ []).takeWhile Char.isDigit =
      digitsOf n ++ [].takeWhile Char.isDigit :=
    List.takeWhile_append_of_pos all
  have dropped : (digitsOf n ++ []).dropWhile Char.isDigit = [].dropWhile Char.isDigit :=
    List.dropWhile_append_of_pos all
  rw [List.append_nil, List.takeWhile_nil, List.append_nil] at taken
  rw [List.append_nil, List.dropWhile_nil] at dropped
  rw [digits, taken, dropped]

theorem wholePart?_digitsOf (n : Nat) : wholePart? (digitsOf n) = some (digitsOf n, []) := by
  have nonempty := digitsOf_ne_nil n
  unfold wholePart?
  split
  · next c rest zeroed =>
      cases n with
      | zero => cases zeroed
      | succ n =>
          have leading := head?_digitsOf_ne_zero (Nat.succ_pos n)
          rw [zeroed] at leading
          exact absurd rfl leading
  · rw [digits_digitsOf]
    simp [nonempty]

theorem numeral?_digitsOf (n : Nat) :
    numeral? (digitsOf n) = some (⟨false, digitsOf n, [], none⟩, []) := by
  have unsigned : ∀ rest, digitsOf n ≠ '-' :: rest := fun rest same =>
    notMem_digitsOf (by decide) n (same ▸ List.mem_cons_self)
  rw [numeral?]
  · simp only [wholePart?_digitsOf]
    rfl
  · exact unsigned

theorem number?_digitsOf {n : Nat} (fits : n ≤ wordLimit) :
    number? .whole (digitsOf n) = some (.integer n, []) := by
  unfold number?
  rw [numeral?_digitsOf]
  simp [Outline.isSkipped, Numeral.number?, digitsValue_digitsOf, fits]

/-- A value that begins with a digit is a number. -/
theorem value?_of_digit {c : Char} (digit : c.isDigit) (steps : Nat) (outline : Outline)
    (depth : Nat) (rest : List Char) :
    value? (steps + 1) outline depth (c :: rest) =
      (number? outline (c :: rest)).map fun read => (.num read.1, read.2) := by
  have visible : isSpace c = false := by
    cases blank : isSpace c with
    | false => rfl
    | true =>
        simp only [isSpace, Bool.or_eq_true, decide_eq_true_eq] at blank
        rcases blank with ((rfl | rfl) | rfl) | rfl <;> cases digit
  have start : skipSpace (c :: rest) = c :: rest := by simp [skipSpace, visible]
  unfold value?
  rw [start]
  split
  case h_7 => rfl
  all_goals
    next same =>
      cases same
      cases digit

end Reader

open Text Reader

/-- A number as a text of its own is read as that number. -/
theorem parse?_toString {n : Nat} (fits : n ≤ wordLimit) :
    parse? (toString n) = some (.int n) := by
  have number := number?_digitsOf fits
  unfold parse? parseAs?
  simp only [toList_toString]
  cases spelled : digitsOf n with
  | nil => exact absurd spelled (digitsOf_ne_nil n)
  | cons c rest =>
      have digit : c.isDigit := isDigit_of_mem_digitsOf (n := n) (by rw [spelled]; simp)
      rw [spelled] at number
      rw [value?_of_digit digit, number]
      rfl

end Json

end DocStore
