/-
Module: DocStore.Http.Escape
Purpose: texts in the ASCII forms that requests carry them in: percent signs with
  hexadecimal digits, form fields, and base 64.
Main exports:
  Http.percentEncode, Http.percentDecode, Http.formEncode, Http.formDecode, Http.base64
-/
import DocStore.Json.Parser

namespace DocStore.Http

/-! ### Percent signs -/

/-- The digit of a hexadecimal numeral, in upper case. -/
def hexDigit (n : Nat) : Char :=
  if n < 10 then Char.ofNat ('0'.toNat + n) else Char.ofNat ('A'.toNat + (n - 10))

/-- A byte as a percent sign and two digits. -/
def escapeByte (b : UInt8) : List Char :=
  ['%', hexDigit (b.toNat / 16), hexDigit (b.toNat % 16)]

/-- A character by the escapes of its bytes. -/
def escapeChar (c : Char) : List Char :=
  (String.utf8EncodeChar c).flatMap escapeByte

/-- The text with every character escaped that is not plain. -/
def percentEncode (plain : Char → Bool) (text : List Char) : List Char :=
  text.flatMap fun c => if plain c then [c] else escapeChar c

/-- The bytes of a text in which escapes stand for bytes.  A percent sign that
starts no escape stands for itself. -/
def unescape : List Char → List UInt8
  | [] => []
  | '%' :: a :: b :: rest =>
      match Json.Reader.hexValue? a, Json.Reader.hexValue? b with
      | some x, some y => (x * 16 + y).toUInt8 :: unescape rest
      | _, _ => '%'.toUInt8 :: unescape (a :: b :: rest)
  | c :: rest => String.utf8EncodeChar c ++ unescape rest

/-- The text that escapes stand for, if their bytes are those of a text. -/
def percentDecode (text : List Char) : Option (List Char) :=
  (String.fromUTF8? ⟨(unescape text).toArray⟩).map String.toList

/-! ### Form fields -/

/-- Whether a character stands for itself in a form field. -/
def isFormPlain (c : Char) : Bool :=
  c.isAlphanum || c = '*' || c = '-' || c = '.' || c = '_'

/-- A form field; a space becomes a plus sign. -/
def formEncode (text : String) : String :=
  String.ofList (text.toList.flatMap fun c =>
    if c = ' ' then ['+'] else if isFormPlain c then [c] else escapeChar c)

/-- The text of a form field. -/
def formDecode (field : List Char) : Option String :=
  (percentDecode (field.map fun c => if c = '+' then ' ' else c)).map String.ofList

/-! ### Base 64 -/

/-- The digit of six bits. -/
def base64Digit (n : Nat) : Char :=
  if n < 26 then Char.ofNat ('A'.toNat + n)
  else if n < 52 then Char.ofNat ('a'.toNat + (n - 26))
  else if n < 62 then Char.ofNat ('0'.toNat + (n - 52))
  else if n = 62 then '+'
  else '/'

/-- Bytes by three as four digits; equality signs fill up the last group. -/
def base64Digits : List UInt8 → List Char
  | [] => []
  | [a] =>
      let n := a.toNat * 16
      [base64Digit (n / 64), base64Digit (n % 64), '=', '=']
  | [a, b] =>
      let n := (a.toNat * 256 + b.toNat) * 4
      [base64Digit (n / 4096), base64Digit (n / 64 % 64), base64Digit (n % 64), '=']
  | a :: b :: c :: rest =>
      let n := (a.toNat * 256 + b.toNat) * 256 + c.toNat
      base64Digit (n / 262144) :: base64Digit (n / 4096 % 64) :: base64Digit (n / 64 % 64) ::
        base64Digit (n % 64) :: base64Digits rest

/-- The bytes of a text in base 64. -/
def base64 (text : String) : String :=
  String.ofList (base64Digits text.toUTF8.toList)

example : base64 "root:secret" = "cm9vdDpzZWNyZXQ=" := by decide +kernel

end DocStore.Http
