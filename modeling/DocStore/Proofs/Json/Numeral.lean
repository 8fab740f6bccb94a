/-
Module: DocStore.Proofs.Json.Numeral
Purpose: the texts that are read as JSON numbers, and negative integers among them.
Main exports:
  Json.Reader.Numeric, Json.Reader.numeric_of_parse?, Json.parse?_negative
-/
import DocStore.Proofs.Text.Decimal

namespace DocStore.Json

namespace Reader

open Text

/-! ### What numbers are written with -/

/-- The characters of numbers. -/
def isNumberChar (c : Char) : Bool :=
  c.isDigit || c == '-' || c == '+' || c == '.' || c == 'e' || c == 'E'

/-- A text of such characters that begins with a digit or a minus sign. -/
structure Numeric (text : List Char) : Prop where
  chars : ∀ c ∈ text, isNumberChar c = true
  head : ∃ c rest, text = c :: rest ∧ (c = '-' ∨ c.isDigit = true)

theorem isNumberChar_of_isDigit {c : Char} (digit : c.isDigit = true) : isNumberChar c = true := by
  simp [isNumberChar, digit]

theorem digits_spec (text : List Char) :
    text = (digits text).1 ++ (digits text).2 ∧ ∀ c ∈ (digits text).1, c.isDigit = true :=
  ⟨List.takeWhile_append_dropWhile.symm, List.all_eq_true.mp List.all_takeWhile⟩

theorem wholePart?_eq_some {text whole rest : List Char}
    (read : wholePart? text = some (whole, rest)) :
    text = whole ++ rest ∧ whole ≠ [] ∧ ∀ c ∈ whole, c.isDigit = true := by
  unfold wholePart? at read
  split at read
  · split at read
    · cases read
    · cases read
      exact ⟨rfl, by simp, by simp⟩
  · have spec := digits_spec text
    dsimp only at read
    split at read
    · cases read
    · next some_digit =>
        cases read
        exact ⟨spec.1, by simpa using some_digit, spec.2⟩

theorem placesPart?_eq_some {text places rest : List Char}
    (read : placesPart? text = some (places, rest)) :
    ∃ front, text = front ++ rest ∧ ∀ c ∈ front, isNumberChar c = true := by
  unfold placesPart? at read
  split at read
  · next tail =>
      have spec := digits_spec tail
      dsimp only at read
      split at read
      · cases read
      · cases read
        refine ⟨'.' :: (digits tail).1, by rw [List.cons_append, ← spec.1], ?_⟩
        refine List.forall_mem_cons.mpr ⟨by decide, fun c member => ?_⟩
        exact isNumberChar_of_isDigit (spec.2 c member)
  · cases read
    exact ⟨[], rfl, by simp⟩

theorem splitSign_spec (text : List Char) :
    ∃ front, text = front ++ (Double.splitSign text).2 ∧ ∀ c ∈ front, isNumberChar c = true := by
  unfold Double.splitSign
  split
  · exact ⟨['-'], rfl, by simp [isNumberChar]⟩
  · exact ⟨['+'], rfl, by simp [isNumberChar]⟩
  · exact ⟨[], rfl, by simp⟩

theorem exponentPart?_eq_some {text rest : List Char} {exponent : Option Int}
    (read : exponentPart? text = some (exponent, rest)) :
    ∃ front, text = front ++ rest ∧ ∀ c ∈ front, isNumberChar c = true := by
  unfold exponentPart? at read
  split at read
  · cases read
    exact ⟨[], rfl, by simp⟩
  · next c tail =>
      split at read
      · next mark =>
          rcases splitSign_spec tail with ⟨front, signed, plain⟩
          have spec := digits_spec (Double.splitSign tail).2
          dsimp only at read
          split at read
          · cases read
          · cases read
            refine ⟨c :: (front ++ (digits (Double.splitSign tail).2).1), ?_, ?_⟩
            · rw [List.cons_append, List.append_assoc, ← spec.1, ← signed]
            · refine List.forall_mem_cons.mpr ⟨by rcases mark with rfl | rfl <;> decide, ?_⟩
              intro d member
              rcases List.mem_append.mp member with inFront | inDigits
              · exact plain d inFront
              · exact isNumberChar_of_isDigit (spec.2 d inDigits)
      · cases read
        exact ⟨[], rfl, by simp⟩

theorem numeral?_eq_some {text rest : List Char} {n : Numeral}
    (read : numeral? text = some (n, rest)) : ∃ front, text = front ++ rest ∧ Numeric front := by
  unfold numeral? at read
  split at read
  next negative tail given =>
  have unsigned : ∃ c front, tail = c :: (front ++ rest) ∧ c.isDigit = true ∧
      ∀ d ∈ front, isNumberChar d = true := by
    simp only [Option.bind_eq_bind, Option.bind_eq_some_iff] at read
    rcases read with ⟨⟨whole, afterWhole⟩, wholeRead, ⟨places, afterPlaces⟩, placesRead,
      ⟨exponent, afterExponent⟩, exponentRead, same⟩
    cases same
    rcases wholePart?_eq_some wholeRead with ⟨rfl, nonempty, wholeDigits⟩
    rcases placesPart?_eq_some placesRead with ⟨placesText, rfl, placesPlain⟩
    rcases exponentPart?_eq_some exponentRead with ⟨exponentText, rfl, exponentPlain⟩
    cases whole with
    | nil => exact absurd rfl nonempty
    | cons c whole =>
        rw [List.forall_mem_cons] at wholeDigits
        refine ⟨c, whole ++ (placesText ++ exponentText), by simp, wholeDigits.1, ?_⟩
        intro d member
        simp only [List.mem_append] at member
        rcases member with inWhole | inPlaces | inExponent
        · exact isNumberChar_of_isDigit (wholeDigits.2 d inWhole)
        · exact placesPlain d inPlaces
        · exact exponentPlain d inExponent
  rcases unsigned with ⟨c, front, rfl, digit, plain⟩
  split at given
  · cases given
    refine ⟨'-' :: c :: front, rfl, ⟨?_, _, _, rfl, .inl rfl⟩⟩
    exact List.forall_mem_cons.mpr ⟨by decide,
      List.forall_mem_cons.mpr ⟨isNumberChar_of_isDigit digit, plain⟩⟩
  · cases given
    exact ⟨c :: front, rfl, ⟨List.forall_mem_cons.mpr ⟨isNumberChar_of_isDigit digit, plain⟩,
      _, _, rfl, .inr digit⟩⟩

/-- A value that is a number is written as one, after any space. -/
theorem value?_eq_number {steps depth : Nat} {outline : Outline} {text rest : List Char}
    {number : Number} (read : value? steps outline depth text = some (.num number, rest)) :
    ∃ front, skipSpace text = front ++ rest ∧ Numeric front := by
  cases steps with
  | zero => simp [value?] at read
  | succ steps =>
      unfold value? at read
      split at read
      case h_7 =>
        rcases Option.map_eq_some_iff.mp read with ⟨⟨found, after⟩, numbered, same⟩
        cases same
        simp only [number?, Option.bind_eq_bind, Option.bind_eq_some_iff] at numbered
        rcases numbered with ⟨⟨n, afterNumeral⟩, written, valued⟩
        have ended : afterNumeral = after := by
          split at valued
          · cases valued
            rfl
          · rcases Option.bind_eq_some_iff.mp valued with ⟨_, _, kept⟩
            cases kept
            rfl
        rw [ended] at written
        exact numeral?_eq_some written
      case h_1 => cases read
      case h_2 => cases read
      case h_3 => cases read
      case h_4 => simp at read
      case h_5 =>
        split at read
        · cases read
        · split at read <;> simp at read
      case h_6 =>
        split at read
        · cases read
        · split at read <;> simp at read

/-- A document that is a number is written as one, between spaces. -/
theorem numeric_of_parse? {text : String} {number : Number}
    (read : parse? text = some (.num number)) :
    ∃ before front after, text.toList = before ++ (front ++ after) ∧ Numeric front ∧
      (∀ c ∈ before, isSpace c = true) ∧ ∀ c ∈ after, isSpace c = true := by
  unfold parse? parseAs? at read
  rcases Option.bind_eq_some_iff.mp read with ⟨⟨value, after⟩, taken, ended⟩
  have same : value = .num number ∧ (skipSpace after).isEmpty = true := by
    simp only [complete?] at ended
    split at ended
    · next blank => exact ⟨Option.some.inj ended, blank⟩
    · cases ended
  rw [same.1] at taken
  rcases value?_eq_number taken with ⟨front, written, numeric⟩
  refine ⟨text.toList.takeWhile isSpace, front, after, ?_, numeric,
    List.all_eq_true.mp List.all_takeWhile, ?_⟩
  · rw [← written]
    exact List.takeWhile_append_dropWhile.symm
  · have nothing : after.dropWhile isSpace = [] := List.isEmpty_iff.mp same.2
    have whole : after.takeWhile isSpace ++ after.dropWhile isSpace = after :=
      List.takeWhile_append_dropWhile
    rw [nothing, List.append_nil] at whole
    rw [← whole]
    exact List.all_eq_true.mp List.all_takeWhile

/-! ### Negative integers -/

theorem numeral?_negative (n : Nat) :
    numeral? ('-' :: digitsOf n) = some (⟨true, digitsOf n, [], none⟩, []) := by
  rw [numeral?]
  simp only [wholePart?_digitsOf]
  rfl

end Reader

open Text Reader

/-- A negative integer as a text of its own is read as that integer. -/
theorem parse?_negative {n : Nat} (positive : 0 < n) (fits : n ≤ signedLimit + 1) :
    parse? ("-" ++ toString n) = some (.int (-n)) := by
  have number : number? .whole ('-' :: digitsOf n) = some (.integer (-n), []) := by
    unfold number?
    rw [numeral?_negative]
    simp [Outline.isSkipped, Numeral.number?, digitsValue_digitsOf, positive, fits]
  have spelled : ("-" ++ toString n).toList = '-' :: digitsOf n := by
    rw [String.toList_append, toList_toString]
    rfl
  unfold parse? parseAs?
  simp only [spelled]
  have value : value? (('-' :: digitsOf n).length + 1) .whole depthLimit ('-' :: digitsOf n) =
      some (.num (.integer (-n)), []) := by
    unfold value?
    have start : skipSpace ('-' :: digitsOf n) = '-' :: digitsOf n := rfl
    rw [start]
    split
    case h_7 => rw [number]; rfl
    all_goals
      next same => cases same
  rw [value]
  rfl

end DocStore.Json
