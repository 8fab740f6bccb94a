/-
Module: DocStore.Proofs.Query.Meaning
Purpose: what a query over one collection asks for, whatever its operators and functions
  mean.
Main exports:
  Meaning, Expr.value, Query.meets, Query.compareBy, Query.window?, Query.Denotes
-/
import DocStore.Memory.Documents
import DocStore.Proofs.Query.Sorting
import DocStore.Query.Compile

namespace DocStore

/-!
A condition holds of a document if its value counts as true.  What the operators and
functions compute is left open, but for this: an equation is true of equal values, a
conjunction of two true ones, and nothing is a member of an empty list.
-/

/-- What the operators and functions of queries mean. -/
structure Meaning where
  binary : BinaryOp → Json → Json → Json
  negation : Json → Json
  member : Json → Json → Json
  call : String → List Json → Json
  /-- Whether a value counts as true. -/
  truth : Json → Bool
  truth_eq : ∀ a b, truth (binary .eq a b) = (a == b)
  truth_and : ∀ a b, truth (binary .and a b) = (truth a && truth b)
  member_nil : ∀ a, member a (.arr []) = .bool false

/-- A meaning: only the value that is true counts as true, and besides equations,
conjunctions, negations and members of lists everything is null. -/
instance : Inhabited Meaning where
  default :=
    let truth (a : Json) : Bool := a.bool?.getD false
    { binary := fun op a b =>
        match op with
        | .eq => .bool (a == b)
        | .and => .bool (truth a && truth b)
        | _ => .null
      negation := fun a => .bool (!truth a)
      member := fun a collection => .bool ((collection.items?.getD []).any (a == ·))
      call := fun _ _ => .null
      truth
      truth_eq := fun _ _ => rfl
      truth_and := fun _ _ => rfl
      member_nil := fun _ => rfl }

/-- The value of a constant. -/
def Literal.value : Literal → Json
  | null => .null
  | bool value => .bool value
  | int value => .int value
  | float value => .num (.real value)
  | text value => .str value

mutual

/-- The value of an expression for a document of the root source.  Texts taken as they
are and nested counts have none. -/
def Expr.value (m : Meaning) (params : List Json) (d : Document) : Expr → Json
  | .field _ name => d.value name
  | .row _ => .obj d
  | .param index => params.getD index .null
  | .literal value => value.value
  | .list items => .arr (Expr.values m params d items)
  | .binary op left right => m.binary op (left.value m params d) (right.value m params d)
  | .not operand => m.negation (operand.value m params d)
  | .member item collection => m.member (item.value m params d) (collection.value m params d)
  | .isNull operand => m.binary .eq (operand.value m params d) .null
  | .call function arguments => m.call function (Expr.values m params d arguments)
  | .raw _ => .null
  | .fragment _ => .null
  | .countRows => .null
  | .countOf _ => .null

/-- The values of expressions, one after the other. -/
def Expr.values (m : Meaning) (params : List Json) (d : Document) : List Expr → List Json
  | [] => []
  | e :: rest => e.value m params d :: Expr.values m params d rest

end

/-- Whether the condition of a clause holds of a document. -/
def Clause.holds (m : Meaning) (params : List Json) (d : Document) (c : Clause) : Bool :=
  m.truth (c.condition.value m params d)

/-- Join the truth of a clause to that of the ones before it. -/
def Connective.join (connective : Connective) (before here : Bool) : Bool :=
  match connective with
  | .and => before && here
  | .or => before || here

/-- Whether clauses hold together, joined one after the other by their connectives. -/
def Clause.holdTogether (holds : Clause → Bool) : List Clause → Bool
  | [] => true
  | first :: rest => rest.foldl (fun before c => c.connective.join before (holds c)) (holds first)

/-- How a criterion orders two documents. -/
def SortTerm.compareBy (m : Meaning) (params : List Json) (t : SortTerm) (a b : Document) :
    Ordering :=
  let ordering := Json.order (t.key.value m params a) (t.key.value m params b)
  match t.order with
  | .ascending => ordering
  | .descending => ordering.swap

namespace Query

/-- Whether a document meets the conditions of both segments. -/
def meets (m : Meaning) (q : Query) (d : Document) : Bool :=
  Clause.holdTogether (Clause.holds m q.params d) (q.clauses.filter (·.segment == .search)) &&
    Clause.holdTogether (Clause.holds m q.params d) (q.clauses.filter (·.segment == .filter))

/-- The order of two documents by the criteria, the first that tells them apart
deciding. -/
def compareBy (m : Meaning) (q : Query) (a b : Document) : Ordering :=
  q.sorts.foldr (fun t rest => (t.compareBy m q.params a b).then rest) .eq

/-- The number of rows that an expression stands for, which no row has a part in. -/
def count? (m : Meaning) (q : Query) (e : Expr) : Option Nat :=
  (e.value m q.params ⟨[]⟩).natural?

/-- The rows after the offset, as many as the limit allows, if these are numbers. -/
def window? {α : Type} (m : Meaning) (q : Query) (rows : List α) : Option (List α) :=
  match q.offset, q.limit with
  | none, none => some rows
  | none, some limit => (q.count? m limit).map rows.take
  | some offset, some limit => do
      let skipped ← q.count? m offset
      let kept ← q.count? m limit
      some ((rows.drop skipped).take kept)
  | some _, none => none

/-- The row of a document. -/
def rowOf (m : Meaning) (q : Query) (d : Document) : Json :=
  .arr (Expr.values m q.params d (q.projection.getD [.row 0]))

/-- Whether equal rows are to be returned once. -/
def isDistinct (q : Query) : Bool :=
  match q.distinct with
  | some (.rows flag) => flag
  | _ => false

/-- The rows that a query without groups asks for: those of the documents that meet its
conditions, stably sorted by its criteria, within its window; and if equal rows are to be
returned once, every row of these, but no two that are equal. -/
def Denotes (m : Meaning) (q : Query) (documents : List Document) (rows : List Json) : Prop :=
  ∃ sorted shown, StablySorted (q.compareBy m) (documents.filter (q.meets m)) sorted ∧
    q.window? m sorted = some shown ∧
    (q.isDistinct = false → rows = shown.map (q.rowOf m)) ∧
    (q.isDistinct = true → rows.Sublist (shown.map (q.rowOf m)) ∧
      rows.Pairwise (fun a b => (a == b) = false) ∧
      ∀ row ∈ shown.map (q.rowOf m), ∃ other ∈ rows, (row == other) = true)

end Query

end DocStore
