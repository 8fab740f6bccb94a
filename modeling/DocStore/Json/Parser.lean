/-
Module: DocStore.Json.Parser
Purpose: reading JSON text.  Members keep their order and repetitions.
Main exports:
  Json.parseAs?, Json.parse?, Json.parseDeep?
-/
import DocStore.Json.Basic
import DocStore.Json.Outline
import DocStore.Decimal.Reading

namespace DocStore.Json

namespace Reader

/-!
Every reader takes the text that is left and returns what it read with the text
that follows.  Lists of items and members are read with a bound on the number of
steps; the length of the text is always enough, as each step consumes a
character.  What an outline skips is read by the grammar alone, and the value that
stands for it is left out of the object around it.
-/

/-- The characters that may stand between tokens. -/
def isSpace (c : Char) : Bool :=
  c = ' ' || c = '\n' || c = '\t' || c = '\r'

/-- The text from the next token on. -/
def skipSpace (text : List Char) : List Char :=
  text.dropWhile isSpace

/-! ### Texts -/

/-- The value of a hexadecimal digit. -/
def hexValue? (c : Char) : Option Nat :=
  if c.isDigit then some (c.toNat - '0'.toNat)
  else if 'a' ≤ c ∧ c ≤ 'f' then some (c.toNat - 'a'.toNat + 10)
  else if 'A' ≤ c ∧ c ≤ 'F' then some (c.toNat - 'A'.toNat + 10)
  else none

/-- Four hexadecimal digits. -/
def hexUnit? : List Char → Option (Nat × List Char)
  | a :: b :: c :: d :: rest => do
      let a ← hexValue? a
      let b ← hexValue? b
      let c ← hexValue? c
      let d ← hexValue? d
      some (((a * 16 + b) * 16 + c) * 16 + d, rest)
  | _ => none

/-- The character that stands for half of a pair in a text that is skipped. -/
def loneHalf : Char := '\ufffd'

/-- The character after an escape by code unit: a unit of its own, or a high half
followed by a low half. -/
def unitEscape? (outline : Outline) (text : List Char) : Option (Char × List Char) := do
  let (unit, rest) ← hexUnit? text
  if outline.isSkipped then some (if unit.isValidChar then Char.ofNat unit else loneHalf, rest)
  else if 0xdc00 ≤ unit ∧ unit ≤ 0xdfff then none
  else if 0xd800 ≤ unit ∧ unit ≤ 0xdbff then
    match rest with
    | '\\' :: 'u' :: rest =>
        let (low, rest) ← hexUnit? rest
        if 0xdc00 ≤ low ∧ low ≤ 0xdfff then
          some (Char.ofNat (0x10000 + (unit - 0xd800) * 0x400 + (low - 0xdc00)), rest)
        else none
    | _ => none
  else some (Char.ofNat unit, rest)

/-- The character after a backslash. -/
def escape? (outline : Outline) : List Char → Option (Char × List Char)
  | '"' :: rest => some ('"', rest)
  | '\\' :: rest => some ('\\', rest)
  | '/' :: rest => some ('/', rest)
  | 'b' :: rest => some ('\x08', rest)
  | 'f' :: rest => some ('\x0c', rest)
  | 'n' :: rest => some ('\n', rest)
  | 'r' :: rest => some ('\r', rest)
  | 't' :: rest => some ('\t', rest)
  | 'u' :: rest => unitEscape? outline rest
  | _ => none

/-- The characters up to the closing quote.  Control characters must be escaped. -/
def quotedTail? (outline : Outline) : Nat → List Char → Option (List Char × List Char)
  | 0, _ => none
  | _, [] => none
  | _, '"' :: rest => some ([], rest)
  | steps + 1, '\\' :: rest => do
      let (c, rest) ← escape? outline rest
      let (tail, rest) ← quotedTail? outline steps rest
      some (c :: tail, rest)
  | steps + 1, c :: rest =>
      if c.toNat < 0x20 then none
      else do
        let (tail, rest) ← quotedTail? outline steps rest
        some (c :: tail, rest)

/-- A text after its opening quote. -/
def text? (outline : Outline) (text : List Char) : Option (String × List Char) := do
  let (chars, rest) ← quotedTail? outline (text.length + 1) text
  some (String.ofList chars, rest)

/-! ### Numbers -/

/-- The parts of a number: its sign, the digits before and after the point, and
the exponent if there is one. -/
structure Numeral where
  negative : Bool
  whole : List Char
  places : List Char
  exponent : Option Int
deriving Repr

/-- The digits at the front of a text. -/
def digits (text : List Char) : List Char × List Char :=
  (text.takeWhile Char.isDigit, text.dropWhile Char.isDigit)

/-- The digits before the point.  A zero stands alone. -/
def wholePart? : List Char → Option (List Char × List Char)
  | '0' :: c :: rest => if c.isDigit then none else some (['0'], c :: rest)
  | text =>
      let (whole, rest) := digits text
      if whole.isEmpty then none else some (whole, rest)

/-- A point with at least one digit after it, or nothing. -/
def placesPart? : List Char → Option (List Char × List Char)
  | '.' :: text =>
      let (places, rest) := digits text
      if places.isEmpty then none else some (places, rest)
  | text => some ([], text)

/-- An exponent with at least one digit, or nothing. -/
def exponentPart? : List Char → Option (Option Int × List Char)
  | [] => some (none, [])
  | c :: text =>
      if c = 'e' ∨ c = 'E' then
        let (negative, text) := Double.splitSign text
        let (power, rest) := digits text
        if power.isEmpty then none
        else
          let value : Int := Text.digitsValue power
          some (some (if negative then -value else value), rest)
      else some (none, c :: text)

/-- A number as it is written. -/
def numeral? (text : List Char) : Option (Numeral × List Char) := do
  let (negative, text) := match text with
    | '-' :: rest => (true, rest)
    | rest => (false, rest)
  let (whole, text) ← wholePart? text
  let (places, text) ← placesPart? text
  let (exponent, text) ← exponentPart? text
  some (⟨negative, whole, places, exponent⟩, text)

/-- The largest exponent that is told apart from larger ones. -/
def exponentLimit : Nat := 2147483647

/-- The number that a numeral writes.  Without a point and an exponent it is an
integer if a signed or an unsigned word of 64 bits can hold it; a negative zero is
not an integer.  All else is read by scaling, and there is no number beyond the
largest double. -/
def Numeral.number? (n : Numeral) : Option Number :=
  let value := Text.digitsValue n.whole
  let asReal (exponent : Int) :=
    (Double.scaled? n.negative n.whole n.places exponent).map Number.real
  match n.exponent with
  | some exponent =>
      if exponentLimit < exponent.natAbs then
        if 0 < exponent ∧ Text.digitsValue (n.whole ++ n.places) ≠ 0 then none
        else some (.real (.ofMagnitude n.negative 0))
      else asReal exponent
  | none =>
      if n.places.isEmpty then
        if n.negative then
          if 0 < value ∧ value ≤ Text.signedLimit + 1 then some (.integer (-value)) else asReal 0
        else if value ≤ Text.wordLimit then some (.integer value)
        else asReal 0
      else asReal 0

/-- A number. -/
def number? (outline : Outline) (text : List Char) : Option (Number × List Char) := do
  let (numeral, rest) ← numeral? text
  if outline.isSkipped then some (.integer 0, rest)
  else
    let number ← numeral.number?
    some (number, rest)

/-! ### Values -/

/-- Put a value in front of the items read after it. -/
def consItem (item : Json) (read : List Json × List Char) : List Json × List Char :=
  (item :: read.1, read.2)

/-- Put a member in front of the members read after it. -/
def consMember (key : String) (value : Json) (read : List (String × Json) × List Char) :
    List (String × Json) × List Char :=
  ((key, value) :: read.1, read.2)

/-- A key with the colon after it, from its quote on. -/
def key? (outline : Outline) : List Char → Option (String × List Char)
  | '"' :: text => do
      let (key, rest) ← text? outline text
      match skipSpace rest with
      | ':' :: rest => some (key, rest)
      | _ => none
  | _ => none

/-- How deep values may be nested inside an array or object; nothing when it may
not be there at all. -/
def room? (outline : Outline) (depth : Nat) : Option Nat :=
  if outline.isSkipped then some depth
  else if depth = 0 then none
  else some (depth - 1)

mutual

/-- A value, after any space. -/
def value? : Nat → Outline → Nat → List Char → Option (Json × List Char)
  | 0, _, _, _ => none
  | steps + 1, outline, depth, text =>
      match skipSpace text with
      | 'n' :: 'u' :: 'l' :: 'l' :: rest => some (.null, rest)
      | 't' :: 'r' :: 'u' :: 'e' :: rest => some (.bool true, rest)
      | 'f' :: 'a' :: 'l' :: 's' :: 'e' :: rest => some (.bool false, rest)
      | '"' :: rest => (text? outline rest).map fun read => (.str read.1, read.2)
      | '[' :: rest =>
          match room? outline depth with
          | none => none
          | some depth =>
              match skipSpace rest with
              | ']' :: rest => some (.arr [], rest)
              | rest => (items? steps outline 0 depth rest).map fun read => (.arr read.1, read.2)
      | '\x7b' :: rest =>
          match room? outline depth with
          | none => none
          | some depth =>
              match skipSpace rest with
              | '\x7d' :: rest => some (.obj ⟨[]⟩, rest)
              | rest => (members? steps outline depth rest).map fun read => (.obj ⟨read.1⟩, read.2)
      | rest => (number? outline rest).map fun read => (.num read.1, read.2)

/-- One or more items, from a position on, up to the closing bracket. -/
def items? : Nat → Outline → Nat → Nat → List Char → Option (List Json × List Char)
  | 0, _, _, _, _ => none
  | steps + 1, outline, position, depth, text =>
      match value? steps (outline.ofPosition position) depth text with
      | none => none
      | some (item, rest) =>
          match skipSpace rest with
          | ',' :: rest => (items? steps outline (position + 1) depth rest).map (consItem item)
          | ']' :: rest => some ([item], rest)
          | _ => none

/-- One or more members up to the closing brace. -/
def members? : Nat → Outline → Nat → List Char → Option (List (String × Json) × List Char)
  | 0, _, _, _ => none
  | steps + 1, outline, depth, text =>
      match key? outline (skipSpace text) with
      | none => none
      | some (key, rest) =>
          match value? steps (outline.ofKey key) depth rest with
          | none => none
          | some (value, rest) =>
              let front := if (outline.ofKey key).isSkipped then id else consMember key value
              match skipSpace rest with
              | ',' :: rest => (members? steps outline depth rest).map front
              | '\x7d' :: rest => some (front ([], rest))
              | _ => none

end

/-- A result if nothing but space follows it. -/
def complete? {α : Type} : α × List Char → Option α
  | (result, rest) => if (skipSpace rest).isEmpty then some result else none

end Reader

/-! ### Documents -/

/-- What an outline keeps of a document nested no deeper than `depthLimit`. -/
def parseAs? (outline : Outline) (text : String) : Option Json :=
  let chars := text.toList
  (Reader.value? (chars.length + 1) outline depthLimit chars).bind Reader.complete?

/-- The value of a document nested no deeper than `depthLimit`. -/
def parse? (text : String) : Option Json :=
  parseAs? .whole text

/-- The value of a document nested at will. -/
def parseDeep? (text : String) : Option Json :=
  let chars := text.toList
  (Reader.value? (chars.length + 1) .whole chars.length chars).bind Reader.complete?

end DocStore.Json
