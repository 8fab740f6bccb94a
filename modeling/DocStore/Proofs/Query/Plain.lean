/-
Module: DocStore.Proofs.Query.Plain
Purpose: plain queries over one collection, and what they ask for.
Main exports:
  Query.Plain, Query.holdsOf, Query.compareRows, Query.inWindow, Query.Plain.exists_equations,
  Query.Plain.exists_criteria, Query.Plain.exists_window
-/
import DocStore.Memory.Documents
import DocStore.Proofs.Query.Piece
import DocStore.Query.Compile

namespace DocStore

open Text Statement

/-! ### What a plain query asks for -/

/-- A condition that a field of the root source equals a bound parameter, joined by
conjunction. -/
def Clause.IsPlain (c : Clause) (paramCount : Nat) : Prop :=
  ∃ name i, c = ⟨.filter, .and, .binary .eq (.field 0 name) (.param i)⟩ ∧
    isPlainName name = true ∧ i < paramCount

/-- A field of the root source to sort by. -/
def SortTerm.IsPlain (t : SortTerm) : Prop :=
  ∃ order name, t = ⟨order, .field 0 name⟩ ∧ isPlainName name = true

/-- A number that is not negative, or nothing. -/
def IsPlainCount (count : Option Expr) : Prop :=
  count = none ∨ ∃ n : Nat, n ≤ signedLimit ∧ count = some (.literal (.int n))

/-- A query over one collection whose conditions are equations between fields and
parameters, sorted by fields, with numbers for its window. -/
structure Query.Plain (q : Query) : Prop where
  overCollection : q.root.kind = .collection
  name_plain : isPlainName q.root.name = true
  noJoins : q.joins = []
  noGroups : q.groups = []
  notDistinct : q.distinct = none ∨ q.distinct = some (.rows false)
  clauses_plain : ∀ c ∈ q.clauses, c.IsPlain q.params.length
  sorts_plain : ∀ t ∈ q.sorts, t.IsPlain
  offset_plain : IsPlainCount q.offset
  limit_plain : IsPlainCount q.limit
  offset_limited : q.offset.isSome = true → q.limit.isSome = true

/-- A removal of rows that returns fields of them, or nothing. -/
def Query.Removes (q : Query) (returned : Option (List String)) : Prop :=
  q.projection = returned.map (fun names => names.map (.field 0)) ∧
    ∀ names ∈ returned, names ≠ [] ∧ ∀ name ∈ names, isPlainName name = true

/-- Whether a document has the value that an equation asks for; a missing field
counts as null. -/
def Clause.holdsOf (c : Clause) (params : List Json) (d : Document) : Bool :=
  match c.condition with
  | .binary .eq (.field _ name) (.param i) => d.value name == params.getD i .null
  | _ => false

/-- How a criterion orders two documents. -/
def SortTerm.compareRows (t : SortTerm) (a b : Document) : Ordering :=
  match t.key, t.order with
  | .field _ name, .ascending => Json.order (a.value name) (b.value name)
  | .field _ name, .descending => (Json.order (a.value name) (b.value name)).swap
  | _, _ => .eq

/-- The number that a literal stands for. -/
def Expr.numberOf : Expr → Nat
  | .literal (.int n) => n.toNat
  | _ => 0

namespace Query

/-- Whether a document meets all conditions. -/
def holdsOf (q : Query) (d : Document) : Bool :=
  q.clauses.all fun c => c.holdsOf q.params d

/-- The order of two documents by the criteria, the first that tells them apart
deciding. -/
def compareRows (q : Query) (a b : Document) : Ordering :=
  q.sorts.foldr (fun t rest => (t.compareRows a b).then rest) .eq

/-- The rows after the offset, as many as the limit allows. -/
def inWindow {α : Type} (q : Query) (rows : List α) : List α :=
  let skipped := match q.offset with
    | some offset => rows.drop (offset.numberOf)
    | none => rows
  match q.limit with
  | some limit => skipped.take (limit.numberOf)
  | none => skipped

end Query

/-! ### Conditions, criteria and windows as lists of names and numbers -/

theorem exists_map_of_forall {α β : Type} {f : α → β} {p : α → Prop} {items : List β}
    (each : ∀ b ∈ items, ∃ a, b = f a ∧ p a) :
    ∃ origins : List α, items = origins.map f ∧ ∀ a ∈ origins, p a := by
  induction items with
  | nil => exact ⟨[], rfl, by simp⟩
  | cons b rest inductionHypothesis =>
      rcases each b List.mem_cons_self with ⟨a, rfl, holds⟩
      rcases inductionHypothesis fun other member => each other (List.mem_cons_of_mem _ member) with
        ⟨origins, rfl, all⟩
      refine ⟨a :: origins, rfl, fun other member => ?_⟩
      rcases List.mem_cons.mp member with rfl | inRest
      · exact holds
      · exact all other inRest

/-- The condition that a field has the value of a parameter. -/
def equationClause (e : String × Nat) : Clause :=
  ⟨.filter, .and, .binary .eq (.field 0 e.1) (.param e.2)⟩

/-- The criterion that a statement sorts by. -/
def sortTermOf (s : StatementSort) : SortTerm :=
  ⟨if s.descends then .descending else .ascending, .field 0 s.field⟩

namespace Query.Plain

variable {q : Query}

theorem exists_equations (plain : q.Plain) :
    ∃ equations : List (String × Nat), q.clauses = equations.map equationClause ∧
      ∀ e ∈ equations, isPlainName e.1 = true ∧ e.2 < q.params.length := by
  apply exists_map_of_forall
  intro c member
  rcases plain.clauses_plain c member with ⟨name, i, rfl, named, bound⟩
  exact ⟨(name, i), rfl, named, bound⟩

theorem exists_criteria (plain : q.Plain) :
    ∃ criteria : List StatementSort, q.sorts = criteria.map sortTermOf ∧
      ∀ s ∈ criteria, isPlainName s.field = true := by
  apply exists_map_of_forall
  intro t member
  rcases plain.sorts_plain t member with ⟨order, name, rfl, named⟩
  cases order with
  | ascending => exact ⟨⟨name, false⟩, rfl, named⟩
  | descending => exact ⟨⟨name, true⟩, rfl, named⟩

end Query.Plain

/-- The window that a query writes as numbers: none, a limit, or an offset and a
limit. -/
inductive PlainWindow where
  | whole
  | first (limit : Nat)
  | slice (offset limit : Nat)

namespace PlainWindow

/-- The offset as an expression. -/
def offset : PlainWindow → Option Expr
  | slice offset _ => some (.literal (.int offset))
  | _ => none

/-- The limit as an expression. -/
def limit : PlainWindow → Option Expr
  | whole => none
  | first limit => some (.literal (.int limit))
  | slice _ limit => some (.literal (.int limit))

/-- The numbers in the order in which they are written. -/
def numbers : PlainWindow → List Nat
  | whole => []
  | first limit => [limit]
  | slice offset limit => [offset, limit]

/-- The window as the store keeps it. -/
def toPair : PlainWindow → Option (Nat × Nat)
  | whole => none
  | first limit => some (0, limit)
  | slice offset limit => some (offset, limit)

end PlainWindow

theorem Query.Plain.exists_window {q : Query} (plain : q.Plain) :
    ∃ w : PlainWindow, q.offset = w.offset ∧ q.limit = w.limit ∧
      ∀ n ∈ w.numbers, n ≤ signedLimit := by
  rcases plain.offset_plain with noOffset | ⟨m, skipFits, offset⟩ <;>
    rcases plain.limit_plain with noLimit | ⟨n, takeFits, limit⟩
  · exact ⟨.whole, noOffset, noLimit, by simp [PlainWindow.numbers]⟩
  · exact ⟨.first n, noOffset, limit, by simpa [PlainWindow.numbers] using takeFits⟩
  · have limited := plain.offset_limited (by rw [offset]; rfl)
    rw [noLimit] at limited
    cases limited
  · exact ⟨.slice m n, offset, limit, by simpa [PlainWindow.numbers] using ⟨skipFits, takeFits⟩⟩

theorem Query.inWindow_eq {α : Type} {q : Query} {w : PlainWindow} (offset : q.offset = w.offset)
    (limit : q.limit = w.limit) (rows : List α) : q.inWindow rows = windowed w.toPair rows := by
  unfold Query.inWindow
  rw [offset, limit]
  cases w <;> simp [PlainWindow.offset, PlainWindow.limit, PlainWindow.toPair, windowed,
    Expr.numberOf]

theorem Query.holdsOf_eq {q : Query} {equations : List (String × Nat)}
    (clauses : q.clauses = equations.map equationClause) (d : Document) :
    q.holdsOf d = d.satisfies (equations.map fun e => (e.1, q.params.getD e.2 .null)) := by
  simp only [Query.holdsOf, clauses, Document.satisfies, List.all_map]
  rfl

theorem Query.compareRows_eq {q : Query} {criteria : List StatementSort}
    (sorts : q.sorts = criteria.map sortTermOf) (a b : Document) :
    q.compareRows a b = compareDocuments criteria a b := by
  unfold Query.compareRows
  rw [sorts, List.foldr_map]
  clear sorts
  induction criteria with
  | nil => rfl
  | cons s rest inductionHypothesis =>
      rcases s with ⟨field, descends⟩
      rw [List.foldr_cons, inductionHypothesis, compareDocuments]
      cases descends <;> rfl

end DocStore
