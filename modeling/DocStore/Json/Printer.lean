/-
Module: DocStore.Json.Printer
Purpose: JSON values as text: compact, indented, and as they appear in diagnostics.
Main exports:
  Number.render, Json.render, Json.renderIndented, Json.inspect
-/
import DocStore.Json.Basic
import DocStore.Decimal.Shortest
import DocStore.Text.Scan
import DocStore.Text.Inspect

namespace DocStore

/-- The text of a finite double.  It has the fewest digits that read back, a tie
going to the even digit; from `1e-5` to below `1e16` they are written out with at
least one digit after the point, elsewhere with a signed power of ten. -/
def Double.render (x : Double) : String :=
  let sign := if x.negative then "-" else ""
  if x.isZero then sign ++ "0.0"
  else
    let d := Decimal.shortest .toEven x
    let (first, others, power) := d.scientific
    if -5 ≤ power ∧ power < 16 then
      let (whole, places) := d.positional
      let whole := if whole.isEmpty then ['0'] else whole
      let places := if places.isEmpty then ['0'] else places
      sign ++ String.ofList (whole ++ '.' :: places)
    else
      let tail := if others.isEmpty then [] else '.' :: others
      let mark := if power < 0 then "e-" else "e+"
      sign ++ String.ofList (first ++ tail) ++ mark ++ toString power.natAbs

/-- The text of a number. -/
def Number.render : Number → String
  | .integer value => toString value
  | .real value => value.render

namespace Json

/-- The four lower-case hexadecimal digits of a control character. -/
def hexDigits (c : Char) : List Char :=
  let digits := Nat.toDigits 16 c.toNat
  List.replicate (4 - digits.length) '0' ++ digits

/-- A character inside a quoted text.  Quotes, backslashes and control characters
are escaped, nothing else. -/
def escapeChar (c : Char) : List Char :=
  if c = '"' then ['\\', '"']
  else if c = '\\' then ['\\', '\\']
  else if c = '\x08' then ['\\', 'b']
  else if c = '\x0c' then ['\\', 'f']
  else if c = '\n' then ['\\', 'n']
  else if c = '\r' then ['\\', 'r']
  else if c = '\t' then ['\\', 't']
  else if c.toNat < 0x20 then '\\' :: 'u' :: hexDigits c
  else [c]

/-- A text in quotes. -/
def quote (text : String) : String :=
  String.ofList ('"' :: text.toList.flatMap escapeChar ++ ['"'])

mutual

/-- A value on one line without spaces. -/
def render : Json → String
  | .null => "null"
  | .bool true => "true"
  | .bool false => "false"
  | .num value => value.render
  | .str value => quote value
  | .arr items => "[" ++ Text.join "," (renderItems items) ++ "]"
  | .obj ⟨members⟩ => "\x7b" ++ Text.join "," (renderMembers members) ++ "\x7d"

/-- The items of an array. -/
def renderItems : List Json → List String
  | [] => []
  | item :: items => item.render :: renderItems items

/-- The members of an object. -/
def renderMembers : List (String × Json) → List String
  | [] => []
  | (key, value) :: members => (quote key ++ ":" ++ value.render) :: renderMembers members

end

/-- A line break and the indentation of a nesting level. -/
def newLine (level : Nat) : String :=
  String.ofList ('\n' :: List.replicate (2 * level) ' ')

/-- Parts between two brackets, each on a line of its own; nothing between the
brackets if there is no part. -/
def block (level : Nat) (opening closing : String) (parts : List String) : String :=
  if parts.isEmpty then opening ++ closing
  else
    opening ++ newLine (level + 1) ++ Text.join ("," ++ newLine (level + 1)) parts ++
      newLine level ++ closing

mutual

/-- A value spread over lines, each level indented by two more spaces. -/
def renderAt (level : Nat) : Json → String
  | .null => "null"
  | .bool true => "true"
  | .bool false => "false"
  | .num value => value.render
  | .str value => quote value
  | .arr items => block level "[" "]" (itemsAt (level + 1) items)
  | .obj ⟨members⟩ => block level "\x7b" "\x7d" (membersAt (level + 1) members)

/-- The items of an array, at their nesting level. -/
def itemsAt (level : Nat) : List Json → List String
  | [] => []
  | item :: items => item.renderAt level :: itemsAt level items

/-- The members of an object, at their nesting level. -/
def membersAt (level : Nat) : List (String × Json) → List String
  | [] => []
  | (key, value) :: members =>
      (quote key ++ ": " ++ value.renderAt level) :: membersAt level members

end

/-- A value spread over lines. -/
def renderIndented (j : Json) : String :=
  j.renderAt 0

mutual

/-- A value as diagnostics show it, each scalar under the name of its kind. -/
def inspect : Json → String
  | .null => "Null"
  | .bool true => "Bool(true)"
  | .bool false => "Bool(false)"
  | .num value => "Number(" ++ value.render ++ ")"
  | .str value => "String(" ++ Text.inspect value ++ ")"
  | .arr items => "Array [" ++ Text.join ", " (inspectItems items) ++ "]"
  | .obj ⟨members⟩ => "Object \x7b" ++ Text.join ", " (inspectMembers members) ++ "\x7d"

/-- The items of an array. -/
def inspectItems : List Json → List String
  | [] => []
  | item :: items => item.inspect :: inspectItems items

/-- The members of an object. -/
def inspectMembers : List (String × Json) → List String
  | [] => []
  | (key, value) :: members =>
      (Text.inspect key ++ ": " ++ value.inspect) :: inspectMembers members

end

end Json

end DocStore
