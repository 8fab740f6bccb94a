/-
Module: DocStore.Text.Inspect
Purpose: texts, lists and optional texts as diagnostics show them.
Main exports:
  Text.inspect, Text.inspectList, Text.inspectOption
-/
import DocStore.Text.Scan
import DocStore.Text.Printable

namespace DocStore.Text

/-- A character by its hexadecimal code point. -/
def codePointEscape (c : Char) : List Char :=
  '\\' :: 'u' :: '\x7b' :: Nat.toDigits 16 c.toNat ++ ['\x7d']

/-- A character in a quoted diagnostic text.  A character that would not show by
itself is given by its code point. -/
def inspectChar (c : Char) : List Char :=
  if c = '"' then ['\\', '"']
  else if c = '\\' then ['\\', '\\']
  else if c = '\n' then ['\\', 'n']
  else if c = '\t' then ['\\', 't']
  else if c = '\r' then ['\\', 'r']
  else if c = '\x00' then ['\\', '0']
  else if isPrintable c then [c]
  else codePointEscape c

/-- A text in quotes. -/
def inspect (text : String) : String :=
  String.ofList ('"' :: text.toList.flatMap inspectChar ++ ['"'])

/-- Parts in square brackets. -/
def inspectList (parts : List String) : String :=
  "[" ++ join ", " parts ++ "]"

/-- An optional text. -/
def inspectOption : Option String → String
  | none => "None"
  | some text => "Some(" ++ inspect text ++ ")"

end DocStore.Text
