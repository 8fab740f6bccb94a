/-
Module: DocStore.Decimal.Shortest
Purpose: the fewest decimal digits that read back as a given double.
Main exports:
  Decimal, Decimal.shortest, Decimal.positional, Decimal.scientific
-/
import DocStore.Decimal.Double

namespace DocStore

/-- The number `digits · 10 ^ exponent`. -/
structure Decimal where
  digits : Nat
  exponent : Int
deriving DecidableEq, Repr, Inhabited

namespace Decimal

/-- Which of two equally near digit strings is taken. -/
inductive Tie where
  | toEven
  | up
deriving DecidableEq, Repr

/-- The decimal digits of a number. -/
def digitChars (n : Nat) : List Char :=
  Nat.toDigits 10 n

/-- How many decimal digits a number has. -/
def digitCount (n : Nat) : Nat :=
  (digitChars n).length

/-- The exponent `k` with `10 ^ k ≤ num / den < 10 ^ (k + 1)`, for positive
numbers.  Below one, `k` is the negative of the fewest places that lift the
quotient to one. -/
def leadingExponent (num den : Nat) : Int :=
  if den ≤ num then (digitCount (num / den) : Int) - 1
  else
    let lift := (den + num - 1) / num
    0 - (digitCount (lift - 1) : Int)

/-- The positive reals that a double stands for: those nearer to it than to its
neighbours, as numerators over one denominator.  The two ends belong to it when
its significand is even. -/
structure Interval where
  low : Nat
  value : Nat
  high : Nat
  denominator : Nat
  closed : Bool

/-- The interval of a positive finite double.  Below a power of two the
neighbours are half as far apart. -/
def intervalOf (x : Double) : Interval :=
  let m := x.significand
  let power := Nat.pow 2 x.scale
  let lowGap := if x.fractionBits = 0 ∧ 1 < x.exponentBits then 1 else 2
  { low := (4 * m - lowGap) * power
    value := 4 * m * power
    high := (4 * m + 2) * power
    denominator := Nat.pow 2 1076
    closed := m % 2 = 0 }

/-- Whether `n / d` lies in the interval. -/
def Interval.holds (i : Interval) (n d : Nat) : Bool :=
  let a := i.low * d
  let b := n * i.denominator
  let c := i.high * d
  if i.closed then a ≤ b && b ≤ c else a < b && b < c

/-- The point of the grid `10 ^ exponent · ℕ` in the interval that is nearest to
its value, if the interval holds a neighbour of the value on that grid. -/
def onGrid (tie : Tie) (i : Interval) (exponent : Int) : Option Nat :=
  let up := Nat.pow 10 exponent.toNat
  let down := Nat.pow 10 (-exponent).toNat
  let below := i.value * down / (i.denominator * up)
  let above := below + 1
  let rest := i.value * down % (i.denominator * up)
  let belowHit := below != 0 && i.holds (below * up) down
  let aboveHit := i.holds (above * up) down
  if belowHit && aboveHit then
    let twice := 2 * rest
    let step := i.denominator * up
    if twice < step then some below
    else if step < twice then some above
    else
      match tie with
      | .toEven => some (if below % 2 = 0 then below else above)
      | .up => some above
  else if belowHit then some below
  else if aboveHit then some above
  else none

/-- Search the grids from one digit on. -/
def searchGrids (tie : Tie) (i : Interval) : Nat → Int → Decimal
  | 0, exponent => ⟨i.value / i.denominator, exponent⟩
  | more + 1, exponent =>
      match onGrid tie i exponent with
      | some digits => ⟨digits, exponent⟩
      | none => searchGrids tie i more (exponent - 1)

/-- The number with the fewest digits among those that read back as the positive
finite double `x`, and of these the nearest to it.  Seventeen digits always
suffice.  Ten can only be the upper neighbour on the coarsest grid, where it is
written as one. -/
def shortest (tie : Tie) (x : Double) : Decimal :=
  let i := intervalOf x
  let found := searchGrids tie i 17 (leadingExponent i.value i.denominator)
  if found.digits = 10 then ⟨1, found.exponent + 1⟩ else found

/-- Zeros in a row. -/
def zeros (n : Nat) : List Char :=
  List.replicate n '0'

/-- The digits before and after the decimal point; neither list is padded to
hold a digit. -/
def positional (d : Decimal) : List Char × List Char :=
  let digits := digitChars d.digits
  if 0 ≤ d.exponent then (digits ++ zeros d.exponent.toNat, [])
  else
    let places := (-d.exponent).toNat
    if places < digits.length then digits.splitAt (digits.length - places)
    else ([], zeros (places - digits.length) ++ digits)

/-- The first digit, the others, and the power of ten of the first. -/
def scientific (d : Decimal) : List Char × List Char × Int :=
  let digits := digitChars d.digits
  (digits.take 1, digits.drop 1, d.exponent + digits.length - 1)

example : shortest .toEven (Double.nearest false 1 10) = ⟨1, -1⟩ := by decide +kernel
example : shortest .toEven (Double.nearest false (Nat.pow 10 23) 1) = ⟨1, 23⟩ := by decide +kernel
example : shortest .toEven ⟨1⟩ = ⟨5, -324⟩ := by decide +kernel
example : shortest .toEven ⟨0x3e60000000000000⟩ = ⟨29802322387695312, -24⟩ := by decide +kernel
example : shortest .up ⟨0x3e60000000000000⟩ = ⟨29802322387695313, -24⟩ := by decide +kernel

end Decimal

end DocStore
