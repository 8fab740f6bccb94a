/-
Module: DocStore.Text.Numeral
Purpose: numbers written in decimal digits, with or without a sign.
Main exports:
  Text.digitsValue, Text.natural?, Text.integer?, Text.wordLimit
-/

namespace DocStore.Text

/-- The value of an ASCII digit. -/
def digitValue (c : Char) : Nat :=
  c.toNat - '0'.toNat

/-- The number that a list of digits writes. -/
def digitsValue (digits : List Char) : Nat :=
  digits.foldl (fun acc c => acc * 10 + digitValue c) 0

/-- The largest number of an unsigned word of 64 bits. -/
def wordLimit : Nat := 18446744073709551615

/-- The largest number of a signed word of 64 bits. -/
def signedLimit : Nat := 9223372036854775807

/-- The number that at least one digit, and nothing else, writes. -/
def unsigned? (text : List Char) : Option Nat :=
  if text.isEmpty || !text.all Char.isDigit then none else some (digitsValue text)

/-- A number that an unsigned word can hold, perhaps with a plus sign. -/
def natural? (text : String) : Option Nat :=
  (match text.toList with
    | '+' :: digits => unsigned? digits
    | digits => unsigned? digits).filter (· ≤ wordLimit)

/-- A number that a signed word can hold, perhaps with a sign. -/
def integer? (text : String) : Option Int :=
  match text.toList with
  | '-' :: digits =>
      ((unsigned? digits).filter (· ≤ signedLimit + 1)).map fun n => -(n : Int)
  | '+' :: digits => ((unsigned? digits).filter (· ≤ signedLimit)).map Int.ofNat
  | digits => ((unsigned? digits).filter (· ≤ signedLimit)).map Int.ofNat

end DocStore.Text
