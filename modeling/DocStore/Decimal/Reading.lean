/-
Module: DocStore.Decimal.Reading
Purpose: decimal texts read as doubles, in two ways.
Main exports:
  Double.ofDecimalText?, Double.scaled?
-/
import DocStore.Decimal.Shortest
import DocStore.Text.Numeral
import DocStore.Text.Scan

namespace DocStore

namespace Double

/-!
The exact reading rounds once, from the number that the text writes.  An
exponent far outside the range of doubles decides the result by itself, so that
no huge power is computed.
-/

/-- The double nearest to `digits · 10 ^ exponent`. -/
def ofDecimal (negative : Bool) (d : Decimal) : Double :=
  let leading := d.exponent + Decimal.digitCount d.digits
  if d.digits = 0 ∨ leading < -400 then ofMagnitude negative 0
  else if 400 < leading then infinity negative
  else nearest negative (d.digits * Nat.pow 10 d.exponent.toNat) (Nat.pow 10 (-d.exponent).toNat)

/-- An optional sign, and what follows it. -/
def splitSign : List Char → Bool × List Char
  | '-' :: rest => (true, rest)
  | '+' :: rest => (false, rest)
  | text => (false, text)

/-- The number after an exponent mark: an optional sign and at least one digit. -/
def exponentOf? (text : List Char) : Option Int :=
  let (negative, digits) := splitSign text
  if digits.isEmpty || !digits.all Char.isDigit then none
  else
    let value : Int := Text.digitsValue digits
    some (if negative then -value else value)

/-- Digits with an optional point and an optional exponent; there is a digit
before or after the point. -/
def unsignedDecimal? (text : List Char) : Option Decimal :=
  let whole := text.takeWhile Char.isDigit
  let rest := text.dropWhile Char.isDigit
  let (places, rest) := match rest with
    | '.' :: tail => (tail.takeWhile Char.isDigit, tail.dropWhile Char.isDigit)
    | _ => ([], rest)
  if whole.isEmpty && places.isEmpty then none
  else
    let digits := Text.digitsValue (whole ++ places)
    match rest with
    | [] => some ⟨digits, -places.length⟩
    | mark :: tail =>
        if mark = 'e' ∨ mark = 'E' then
          (exponentOf? tail).map fun exponent => ⟨digits, exponent - places.length⟩
        else none

/-- The double nearest to the number that a text writes; the words for infinity
and not-a-number are read in any case. -/
def ofDecimalText? (text : String) : Option Double :=
  let (negative, body) := splitSign text.toList
  let word := body.map Char.toLower
  if word = "inf".toList ∨ word = "infinity".toList then some (infinity negative)
  else if word = "nan".toList then some nan
  else (unsignedDecimal? body).map (ofDecimal negative)

/-!
The scaled reading collects the leading digits in a word of 64 bits, rounds that
to a double, and multiplies or divides by a power of ten in double arithmetic.
It is exact up to fifteen digits and a power of twenty-two.
-/

/-- Append digits to a word as long as it can hold them; the word, and how many
digits were taken. -/
def takeDigits (word : Nat) : List Char → Nat × Nat
  | [] => (word, 0)
  | c :: rest =>
      let next := word * 10 + Text.digitValue c
      if Text.wordLimit < next then (word, 0)
      else
        let (final, taken) := takeDigits next rest
        (final, taken + 1)

/-- Multiply or divide a nonnegative value by a power of ten, in steps of at most
`10 ^ 308`.  There is no result beyond the largest double. -/
def scaleByTen (x : Double) (exponent : Int) : Option Double :=
  if exponent.natAbs ≤ 308 then
    let power := nearest false (Nat.pow 10 exponent.natAbs) 1
    if 0 ≤ exponent then
      let y := x.times power
      if y.isFinite then some y else none
    else some (x.dividedBy power)
  else if x.isZero then some x
  else if 0 ≤ exponent then none
  else
    let step := x.dividedBy (nearest false (Nat.pow 10 308) 1)
    let left := exponent + 308
    if left.natAbs ≤ 308 then some (step.dividedBy (nearest false (Nat.pow 10 left.natAbs) 1))
    else some (ofMagnitude false 0)

/-- The scaled reading of a number with the given digits before and after the
point and the given exponent. -/
def scaled? (negative : Bool) (whole places : List Char) (exponent : Int) : Option Double :=
  let (word, taken) := takeDigits 0 whole
  let dropped := whole.length - taken
  let (word, taken) := takeDigits word places
  let total := exponent + dropped - taken
  (scaleByTen (ofInt word) total).map fun x => if negative then x.negate else x

end Double

end DocStore
