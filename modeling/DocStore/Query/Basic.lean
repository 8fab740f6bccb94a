/-
Module: DocStore.Query.Basic
Purpose: queries over collections and views, as trees.
Main exports:
  Source, Join, Clause, Literal, BinaryOp, Expr, Update, Query
-/
import DocStore.Entity.Basic
import DocStore.Text.Scan

namespace DocStore

/-- What a source is: a collection, or a search view. -/
inductive SourceKind where
  | collection
  | view
deriving DecidableEq, Repr, Inhabited

/-- Where rows come from.  A source bound to an entity type knows its fields. -/
structure Source where
  name : String
  kind : SourceKind := .collection
  entity : Option Entity := none
deriving Repr

/-- How a join treats rows without a partner. -/
inductive JoinKind where
  | inner
  | left
  | right
  | full
  | cross
deriving DecidableEq, Repr, Inhabited

/-- The name of a join kind. -/
def JoinKind.name : JoinKind → String
  | inner => "Inner"
  | left => "Left"
  | right => "Right"
  | full => "Full"
  | cross => "Cross"

/-- A constant in a query.  An integer is one of 64 bits. -/
inductive Literal where
  | null
  | bool (value : Bool)
  | int (value : Int)
  | float (value : Double)
  | text (value : String)
deriving DecidableEq, Repr

/-- The operators between two operands. -/
inductive BinaryOp where
  | eq
  | ne
  | le
  | ge
  | lt
  | gt
  | and
  | or
  | like
  | add
  | sub
  | mul
  | div
deriving DecidableEq, Repr

/-- The sign of an operator. -/
def BinaryOp.symbol : BinaryOp → String
  | eq => "=="
  | ne => "!="
  | le => "<="
  | ge => ">="
  | lt => "<"
  | gt => ">"
  | and => "&&"
  | or => "||"
  | like => "LIKE"
  | add => "+"
  | sub => "-"
  | mul => "*"
  | div => "/"

/-- An expression.  Sources are counted from the root, which is `0`, through the
joins; parameters are counted from `0`. -/
inductive Expr where
  | field (source : Nat) (name : String)
  /-- A whole row of a source. -/
  | row (source : Nat)
  | param (index : Nat)
  | literal (value : Literal)
  | list (items : List Expr)
  | binary (op : BinaryOp) (left right : Expr)
  | not (operand : Expr)
  | member (item collection : Expr)
  | isNull (operand : Expr)
  | call (function : String) (arguments : List Expr)
  /-- Text taken as it is, a part of a fragment. -/
  | raw (text : String)
  /-- The parts one after the other. -/
  | fragment (parts : List Expr)
  /-- The number of rows. -/
  | countRows
  /-- The number of rows, named after what is counted. -/
  | countOf (target : Expr)
deriving Inhabited, Repr

namespace Expr

/-- Whether an expression is two operands around an operator. -/
def isBinary : Expr → Bool
  | binary .. => true
  | _ => false

/-- Whether an expression is a count. -/
def isCount : Expr → Bool
  | countRows => true
  | countOf _ => true
  | _ => false

end Expr

/-- A further source with the condition that ties it to the ones before. -/
structure Join where
  kind : JoinKind
  source : Source
  condition : Expr
deriving Repr

/-- The two places where conditions stand. -/
inductive Segment where
  | search
  | filter
deriving DecidableEq, Repr

/-- How a condition is joined to those before it. -/
inductive Connective where
  | and
  | or
deriving DecidableEq, Repr

/-- The sign of a connective, with its spaces. -/
def Connective.symbol : Connective → String
  | and => " && "
  | or => " || "

/-- A condition on rows. -/
structure Clause where
  segment : Segment
  connective : Connective
  condition : Expr
deriving Repr

/-- Smaller values first, or larger ones. -/
inductive SortOrder where
  | ascending
  | descending
deriving DecidableEq, Repr, Inhabited

/-- A sort criterion. -/
structure SortTerm where
  order : SortOrder
  key : Expr
deriving Repr

/-- Whether equal rows are returned once; by whole rows, or by chosen fields. -/
inductive Distinct where
  | rows (flag : Bool)
  | fields (keys : List Expr)
deriving Repr

/-- What an update does to a field: replace its value, add to it, append an
element to it, or take an element from it. -/
inductive UpdateKind where
  | set
  | inc
  | push
  | pull
deriving DecidableEq, Repr

namespace UpdateKind

/-- The word for a kind of update. -/
def word : UpdateKind → String
  | set => "set"
  | inc => "inc"
  | push => "push"
  | pull => "pull"

/-- The kind of update of a word. -/
def ofWord? (word : String) : Option UpdateKind :=
  [set, inc, push, pull].find? fun kind => kind.word == word

/-- The name of a kind of update. -/
def name : UpdateKind → String
  | set => "Set"
  | inc => "Inc"
  | push => "Push"
  | pull => "Pull"

end UpdateKind

/-- A change of one field of the root source. -/
structure Update where
  kind : UpdateKind
  field : String
  value : Expr
deriving Repr

/-- A query: a root source, joined sources, conditions, groups, order, a window of
rows, what to return, what to change, and the values of the parameters. -/
structure Query where
  root : Source
  joins : List Join := []
  clauses : List Clause := []
  groups : List Expr := []
  sorts : List SortTerm := []
  offset : Option Expr := none
  limit : Option Expr := none
  projection : Option (List Expr) := none
  distinct : Option Distinct := none
  updates : List Update := []
  params : List Json := []

namespace Query

/-- The root source and the joined ones. -/
def sources (q : Query) : List Source :=
  q.root :: q.joins.map Join.source

/-- Give a further parameter a value; the expression refers to it. -/
def bind (q : Query) (value : Json) : Expr × Query :=
  (.param q.params.length, { q with params := q.params ++ [value] })

/-- The parts of a summary: a part for every kind of clause that is there. -/
def summaryParts (q : Query) : List String :=
  let counted (n : Nat) (what : String) : List String :=
    if n = 0 then [] else [", " ++ toString n ++ what]
  (if q.root.kind = .view then [" (view)"] else []) ++
    q.joins.map (fun j =>
      ", " ++ Text.lowerAscii j.kind.name ++ " join `" ++ j.source.name ++ "`") ++
    counted q.clauses.length " where clause(s)" ++
    counted q.groups.length " group term(s)" ++
    counted q.sorts.length " order term(s)" ++
    (if q.offset.isSome then [", offset"] else []) ++
    (if q.limit.isSome then [", limit"] else []) ++
    (match q.projection with
      | none => []
      | some exprs => [", select " ++ toString exprs.length ++ " expr(s)"]) ++
    counted q.updates.length " update(s)"

/-- A short summary for error messages. -/
def describe (q : Query) : String :=
  "from `" ++ q.root.name ++ "`" ++ Text.join "" q.summaryParts

end Query

end DocStore
