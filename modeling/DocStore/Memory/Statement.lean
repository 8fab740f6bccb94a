/-
Module: DocStore.Memory.Statement
Purpose: reading the queries that the store in memory supports out of their text.
Main exports:
  Statement, StatementEffect, StatementEnding, Statement.read?
-/
import DocStore.Text.Scan
import DocStore.Text.Blank
import DocStore.Json.Parser

namespace DocStore

/-!
A supported query goes over the documents of one collection.  Its clauses are
found by their keywords, and each ends where the next keyword stands.  Filters are
equations between a field and a value, joined by conjunction.
-/

/-- What a query does besides reading. -/
inductive StatementEffect where
  | reading
  | removal
  /-- An update, which is not supported. -/
  | update
deriving DecidableEq, Repr

/-- What a query returns for the documents that it finds. -/
inductive StatementEnding where
  /-- How many they are. -/
  | count
  | nothing
  /-- Some of their fields. -/
  | fields (names : List String)
  /-- Something that is not supported. -/
  | unsupported
deriving DecidableEq, Repr

/-- A field to sort by, and whether its values are to descend. -/
structure StatementSort where
  field : String
  descends : Bool
deriving DecidableEq, Repr

/-- A query over the documents of a collection. -/
structure Statement where
  collection : String
  filters : List (String × Json)
  sorts : List StatementSort
  /-- How many documents to skip, and how many to take then. -/
  window : Option (Nat × Nat)
  effect : StatementEffect
  ending : StatementEnding

namespace Statement

/-- The keywords at which a clause ends. -/
def keywords : List (List Char) :=
  [" SORT ".toList, " LIMIT ".toList, " REMOVE ".toList, " UPDATE ".toList, " RETURN ".toList,
    " COLLECT ".toList]

/-- The text up to the first keyword. -/
def upToKeyword (text : List Char) : List Char :=
  match (keywords.filterMap fun keyword => Text.find? keyword text).min? with
  | some position => text.take position
  | none => text

/-- The text of the clause that a keyword introduces. -/
def clause? (keyword : String) (aql : List Char) : Option (List Char) :=
  (Text.splitOnce? keyword.toList aql).map fun cut => upToKeyword cut.2

/-- The name of a field, given as the variable, a point and the name between
backticks. -/
def readField? (row text : List Char) : Option String := do
  let quoted ← Text.dropLeading? (row ++ ['.', '`']) text
  let name ← Text.dropTrailing? ['`'] quoted
  some (String.ofList name)

/-- The text between single quotes, with quotes and backslashes escaped by a
backslash. -/
def readQuoted? (text : List Char) : Option String := do
  let opened ← Text.dropLeading? ['\''] text
  let inner ← Text.dropTrailing? ['\''] opened
  some (String.ofList (Text.replaceAll ['\\', '\\'] ['\\']
    (Text.replaceAll ['\\', '\''] ['\''] inner)))

/-- The constants by their words. -/
def constants : List (String × Json) :=
  [("TRUE", .bool true), ("FALSE", .bool false), ("NULL", .null)]

/-- A constant or a number. -/
def readPlain? (text : List Char) : Option Json :=
  match Dict.lookupEntry (String.ofList text) constants with
  | some value => some value
  | none => (Json.parse? (String.ofList text)).filter Json.isNumber

/-- The value that a text stands for: a bound parameter, a quoted text, a constant
or a number. -/
def readLiteral? (bindVars : Dict Json) (text : List Char) : Option Json :=
  match Text.trim text with
  | '@' :: name => bindVars.get? (String.ofList name)
  | trimmed =>
      match readQuoted? trimmed with
      | some value => some (.str value)
      | none => readPlain? trimmed

/-- An equation between a field and a value, possibly in parentheses. -/
def readFilter? (row : List Char) (bindVars : Dict Json) (text : List Char) :
    Option (String × Json) := do
  let (left, right) ← Text.splitOnce? " == ".toList
    (Text.trimTrailing ')' (Text.trimLeading '(' text))
  let field ← readField? row left
  let value ← readLiteral? bindVars right
  some (field, value)

/-- A field to sort by. -/
def readSort? (row text : List Char) : Option StatementSort :=
  match Text.dropTrailing? " DESC".toList text with
  | some term => (readField? row term).map fun field => ⟨field, true⟩
  | none => (readField? row text).map fun field => ⟨field, false⟩

/-- The parts of a clause between separators, each read the same way; none if
there is no such clause. -/
def readClause? {α : Type} (keyword separator : String) (aql : List Char)
    (read : List Char → Option α) : Option (List α) :=
  match clause? keyword aql with
  | none => some []
  | some text => (Text.splitAll separator.toList text).mapM read

/-- The numbers of a limit: how many to take, or how many to skip and to take. -/
def readWindow? (bindVars : Dict Json) (aql : List Char) : Option (Option (Nat × Nat)) :=
  match clause? " LIMIT " aql with
  | none => some none
  | some text => do
      let counts ← (Text.splitAll ", ".toList text).mapM fun part =>
        (readLiteral? bindVars part).bind Json.natural?
      match counts with
      | [count] => some (some (0, count))
      | [offset, count] => some (some (offset, count))
      | _ => none

/-- The text without the word for distinct rows at its start, however often it
stands there. -/
def dropDistinct (text : List Char) : List Char :=
  match hd : Text.dropLeading? "DISTINCT ".toList text with
  | some rest =>
      have : rest.length < text.length := by
        simp only [Text.eq_append_of_dropLeading? hd, List.length_append]
        exact Nat.lt_add_of_pos_left (by decide)
      dropDistinct rest
  | none => text
termination_by text.length

/-- The fields that a query returns, each of the document as it is or as it was. -/
def readProjection? (row text : List Char) : Option (List String) := do
  let opened ← Text.dropLeading? "[ ".toList (dropDistinct text)
  let inner ← Text.dropTrailing? " ]".toList opened
  (Text.splitAll ", ".toList inner).mapM fun part =>
    (readField? row part).or (readField? "OLD".toList part)

/-- What a query returns. -/
def readEnding (row aql : List Char) : StatementEnding :=
  if Text.containsPattern " COLLECT WITH COUNT INTO ".toList aql then .count
  else
    match Text.splitOnce? " RETURN ".toList aql with
    | none => .nothing
    | some (_, text) =>
        match readProjection? row text with
        | some names => .fields names
        | none => .unsupported

/-- What a query does besides reading. -/
def readEffect (row aql : List Char) : StatementEffect :=
  if Text.containsPattern (" REMOVE ".toList ++ row ++ " IN ".toList) aql then .removal
  else if Text.containsPattern " UPDATE ".toList aql then .update
  else .reading

/-- The variable of a query over one collection, and the collection. -/
def readSource? (aql : List Char) : Option (List Char × List Char) := do
  let rest ← Text.dropLeading? "FOR ".toList aql
  let (row, rest) ← Text.splitOnce? " IN `".toList rest
  let (collection, _) ← Text.splitOnce? ['`'] rest
  if Text.occurrences "FOR ".toList aql = 1 then some (row, collection) else none

/-- Read a query.  What it returns may turn out to be unsupported later, when its
effect has taken place. -/
def read? (text : String) (bindVars : Dict Json) : Option Statement := do
  let aql := text.toList
  let (row, collection) ← readSource? aql
  let filters ← readClause? " FILTER " " && " aql (readFilter? row bindVars)
  let sorts ← readClause? " SORT " ", " aql (readSort? row)
  let window ← readWindow? bindVars aql
  some { collection := String.ofList collection, filters, sorts, window
         effect := readEffect row aql, ending := readEnding row aql }

end Statement

end DocStore
