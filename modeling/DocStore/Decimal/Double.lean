/-
Module: DocStore.Decimal.Double
Purpose: binary floating-point numbers of 64 bits, as exact integers times a power of two.
Main exports:
  Double, Double.units, Double.nearest, Double.ofInt, Double.times, Double.dividedBy
-/

namespace DocStore

/-- A floating-point number of 64 bits: one for the sign, eleven for the
exponent, fifty-two for the fraction. -/
structure Double where
  bits : UInt64
deriving DecidableEq, Repr, Inhabited

namespace Double

/-- Whether the sign bit is set; also of a negative zero. -/
def negative (x : Double) : Bool :=
  Nat.pow 2 63 ≤ x.bits.toNat

/-- The exponent bits. -/
def exponentBits (x : Double) : Nat :=
  x.bits.toNat / Nat.pow 2 52 % Nat.pow 2 11

/-- The fraction bits. -/
def fractionBits (x : Double) : Nat :=
  x.bits.toNat % Nat.pow 2 52

/-- Neither an infinity nor not-a-number. -/
def isFinite (x : Double) : Bool :=
  x.exponentBits != 2047

/-- Not a number. -/
def isNaN (x : Double) : Bool :=
  x.exponentBits == 2047 && x.fractionBits != 0

/-- The integer `m` of a finite value `± m · 2 ^ (scale - 1074)`. -/
def significand (x : Double) : Nat :=
  if x.exponentBits = 0 then x.fractionBits else x.fractionBits + Nat.pow 2 52

/-- The number `scale` of a finite value `± significand · 2 ^ (scale - 1074)`. -/
def scale (x : Double) : Nat :=
  x.exponentBits - 1

/-- A finite value counted in the smallest positive value, `2 ^ -1074`.  The two
zeros have the same count. -/
def units (x : Double) : Int :=
  let magnitude := x.significand * Nat.pow 2 x.scale
  if x.negative then -magnitude else magnitude

/-- Whether a value is one of the two zeros. -/
def isZero (x : Double) : Bool :=
  x.exponentBits == 0 && x.fractionBits == 0

/-- The value with these exponent and fraction bits taken together as one number. -/
def ofMagnitude (negative : Bool) (magnitude : Nat) : Double :=
  ⟨UInt64.ofNat (if negative then Nat.pow 2 63 + magnitude else magnitude)⟩

/-- The magnitude bits of infinity. -/
def infinityBits : Nat := 2047 * Nat.pow 2 52

/-- An infinity. -/
def infinity (negative : Bool) : Double :=
  ofMagnitude negative infinityBits

/-- The not-a-number that a text names. -/
def nan : Double :=
  ⟨0x7ff8000000000000⟩

/-- The quotient rounded to the nearest integer, a half to the even one. -/
def roundQuotient (num den : Nat) : Nat :=
  let q := num / den
  let twice := 2 * (num % den)
  if twice < den then q
  else if den < twice then q + 1
  else if q % 2 = 0 then q else q + 1

/-- The double nearest to `num / den`, a tie to the even significand; an infinity
beyond the largest finite one.  With `e` the exponent for which
`num / den / 2 ^ e` has fifty-three bits, but at least `-1074`, the rounded
quotient carries into the exponent bits by itself. -/
def nearest (negative : Bool) (num den : Nat) : Double :=
  if num = 0 then ofMagnitude negative 0 else
    let guess : Int := (num.log2 : Int) - den.log2 - 52
    let below := if guess ≥ 0 then num < den * Nat.pow 2 (guess.toNat + 52)
      else num * Nat.pow 2 (-guess).toNat < den * Nat.pow 2 52
    let exponent := max (if below then guess - 1 else guess) (-1074)
    let rounded := if exponent ≥ 0 then roundQuotient num (den * Nat.pow 2 exponent.toNat)
      else roundQuotient (num * Nat.pow 2 (-exponent).toNat) den
    let magnitude := (exponent + 1074).toNat * Nat.pow 2 52 + rounded
    if infinityBits ≤ magnitude then infinity negative else ofMagnitude negative magnitude

/-- The double nearest to an integer. -/
def ofInt (i : Int) : Double :=
  nearest (i < 0) i.natAbs 1

/-- The rounded product of two finite values. -/
def times (x y : Double) : Double :=
  nearest (x.negative != y.negative)
    (x.significand * y.significand * Nat.pow 2 (x.scale + y.scale)) (Nat.pow 2 2148)

/-- The rounded quotient of two finite values, the second not zero. -/
def dividedBy (x y : Double) : Double :=
  nearest (x.negative != y.negative)
    (x.significand * Nat.pow 2 x.scale) (y.significand * Nat.pow 2 y.scale)

/-- The value with the other sign. -/
def negate (x : Double) : Double :=
  ofMagnitude (!x.negative) (x.bits.toNat % Nat.pow 2 63)

example : nearest false 1 1 = ⟨0x3ff0000000000000⟩ := by decide
example : nearest false 1 10 = ⟨0x3fb999999999999a⟩ := by decide
example : nearest true (Nat.pow 2 53 + 1) 1 = ⟨0xc340000000000000⟩ := by decide
example : (ofInt 3).dividedBy (ofInt 2) = ⟨0x3ff8000000000000⟩ := by decide +kernel

end Double

end DocStore
