/-
Module: DocStore.Query.Aql
Purpose: the text of expressions, in a scope that names their sources.
Main exports:
  Scope, GroupVariable, Scope.field, Literal.render, Expr.render
-/
import DocStore.Query.Fault
import DocStore.Decimal.Shortest

namespace DocStore

/-- A double written out without an exponent, and without a point if it is whole;
a tie between two shortest forms goes up. -/
def Double.plain (x : Double) : String :=
  let sign := if x.negative then "-" else ""
  if x.isZero then sign ++ "0"
  else
    let (whole, places) := (Decimal.shortest .up x).positional
    let whole := if whole.isEmpty then ['0'] else whole
    let tail := if places.isEmpty then [] else '.' :: places
    sign ++ String.ofList (whole ++ tail)

/-- The word for a double that is not finite. -/
def Double.notFiniteWord (x : Double) : String :=
  if x.isNaN then "NaN" else if x.negative then "-inf" else "inf"

/-- A variable that stands for a grouped field. -/
structure GroupVariable where
  source : Nat
  field : String
  name : String
deriving DecidableEq, Repr

/-- What the names in an expression stand for: the variable of each source, the
number of parameters, the variables after grouping, and the pseudo variable that
stands for the root row when a mutation returns rows. -/
structure Scope where
  rowVariables : List String
  paramCount : Nat
  grouped : Option (List GroupVariable) := none
  returned : Option String := none
deriving Repr

namespace Scope

/-- The variable of a source. -/
def rowVar (s : Scope) (source : Nat) : Except CompileFault String :=
  match s.rowVariables[source]? with
  | some name => .ok name
  | none => .error (.unknownSource source)

/-- The variable of a source, unless the pseudo variable stands for it. -/
def rowVariable (s : Scope) (source : Nat) : Except CompileFault String :=
  match s.returned, source with
  | some pseudo, 0 => .ok pseudo
  | _, _ => s.rowVar source

/-- A field of a source.  After grouping it is the variable that it was grouped
into. -/
def field (s : Scope) (source : Nat) (name : String) : Except CompileFault String :=
  if name.toList.contains '`' then .error (.fieldName name)
  else
    match s.grouped with
    | some terms =>
        match terms.find? fun v => v.source == source && v.field == name with
        | some v => .ok v.name
        | none => .error (.notGrouped name)
    | none => (s.rowVariable source).map fun v => v ++ ".`" ++ name ++ "`"

/-- A whole row of a source. -/
def row (s : Scope) (source : Nat) : Except CompileFault String :=
  if s.grouped.isSome then .error .rowAfterGroup else s.rowVariable source

/-- A parameter; the text counts from one. -/
def param (s : Scope) (index : Nat) : Except CompileFault String :=
  if s.paramCount ≤ index then .error (.unboundParam index)
  else .ok ("@" ++ toString (index + 1))

end Scope

/-- A character inside a quoted text. -/
def quoteChar (c : Char) : List Char :=
  if c = '\\' then ['\\', '\\'] else if c = '\'' then ['\\', '\''] else [c]

/-- A text in single quotes, with backslashes and quotes escaped. -/
def quoteText (text : String) : String :=
  String.ofList ('\'' :: text.toList.flatMap quoteChar ++ ['\''])

/-- The text of a constant. -/
def Literal.render : Literal → Except CompileFault String
  | null => .ok "NULL"
  | bool true => .ok "TRUE"
  | bool false => .ok "FALSE"
  | int value => .ok (toString value)
  | float value =>
      if value.isFinite then .ok value.plain else .error (.notFinite value.notFiniteWord)
  | text value => .ok (quoteText value)

/-- A text in parentheses. -/
def parens (text : String) : String :=
  "(" ++ text ++ ")"

namespace Expr

/-- The text of an operand; a pair of operands around an operator is put in
parentheses. -/
def asOperand (e : Expr) (text : String) : String :=
  if e.isBinary then parens text else text

mutual

/-- The text of an expression. -/
def render (s : Scope) : Expr → Except CompileFault String
  | field source name => s.field source name
  | row source => s.row source
  | param index => s.param index
  | literal value => value.render
  | list items => do
      let texts ← renderAll s items
      .ok ("[" ++ Text.join ", " texts ++ "]")
  | binary op left right => do
      let l ← left.render s
      let r ← right.render s
      .ok (left.asOperand l ++ " " ++ op.symbol ++ " " ++ right.asOperand r)
  | not operand => do
      let text ← operand.render s
      .ok ("NOT " ++ parens text)
  | member _ (list []) => .ok "FALSE"
  | member item collection => do
      let l ← item.render s
      let r ← collection.render s
      .ok (item.asOperand l ++ " IN " ++ r)
  | isNull operand => do
      let text ← operand.render s
      .ok (operand.asOperand text ++ " == NULL")
  | call function arguments => do
      let texts ← renderAll s arguments
      .ok (function ++ parens (Text.join ", " texts))
  | raw text => .ok text
  | fragment parts => do
      let texts ← renderAll s parts
      .ok (Text.join "" texts)
  | countRows => .error .nestedCount
  | countOf _ => .error .nestedCount

/-- The texts of expressions, up to the first that has none. -/
def renderAll (s : Scope) : List Expr → Except CompileFault (List String)
  | [] => .ok []
  | e :: rest => do
      let text ← e.render s
      let texts ← renderAll s rest
      .ok (text :: texts)

end

end Expr

end DocStore
