/-
Module: DocStore.Proofs.Query.UniqueReading
Purpose: no two expressions of fields, rows, parameters, constants, lists, operators, negations and
  calls have the same text.
Main exports:
  Expr.Basic, Expr.itself, Query.eq_of_same_text
-/
import DocStore.Proofs.Query.Interpretation

namespace DocStore

open Aql Text

namespace Expr

mutual

/-- Expressions without memberships, missing values, counts, doubles and texts taken as they are.
Functions have plain names. -/
inductive Basic : Expr → Prop where
  | field (source : Nat) (name : String) : Basic (.field source name)
  | row (source : Nat) : Basic (.row source)
  | param (index : Nat) : Basic (.param index)
  | literal {value : Literal} (noDouble : ∀ x, value ≠ .float x) : Basic (.literal value)
  | list {items : List Expr} (all : AllBasic items) : Basic (.list items)
  | binary (op : BinaryOp) {left right : Expr} (ofLeft : Basic left) (ofRight : Basic right) :
      Basic (.binary op left right)
  | not {operand : Expr} (inner : Basic operand) : Basic (.not operand)
  | call {function : String} (plain : isPlainName function = true) {arguments : List Expr}
      (all : AllBasic arguments) : Basic (.call function arguments)

/-- Rows of such expressions. -/
inductive AllBasic : List Expr → Prop where
  | nil : AllBasic []
  | cons {e : Expr} {rest : List Expr} (first : Basic e) (others : AllBasic rest) :
      AllBasic (e :: rest)

end

/-- A function with a plain name is called by it. -/
theorem inner_of_isPlainName {function : String} (plain : isPlainName function = true) :
    function ≠ "" ∧ ∀ c ∈ function.toList, isInner c = true := by
  rw [isPlainName, Bool.and_eq_true, Bool.not_eq_true'] at plain
  refine ⟨?_, inner_of_word plain.2⟩
  rintro rfl
  exact absurd plain.1 (by decide)

/-- Every infix operand of such an expression is a pair of operands, so it is put in
parentheses. -/
theorem Basic.startsWithNull {e : Expr} (basic : e.Basic) :
    e = .literal .null ∨ e.startsWithNull = false := by
  cases basic with
  | @literal value _ =>
      cases value with
      | null => exact .inl rfl
      | _ => exact .inr rfl
  | _ => exact .inr rfl

mutual

theorem Basic.grouped {e : Expr} (basic : e.Basic) : e.Grouped := by
  cases basic with
  | field source name => exact .leaf rfl
  | row source => exact .leaf rfl
  | param index => exact .leaf rfl
  | literal noDouble => exact .leaf rfl
  | list all => exact .list all.grouped
  | binary op ofLeft ofRight =>
      exact .binary op ofLeft.grouped ofRight.grouped fun _ => ofRight.startsWithNull
  | not inner => exact .not inner.grouped
  | call plain all =>
      exact .call (inner_of_isPlainName plain).1 (inner_of_isPlainName plain).2 all.grouped

theorem AllBasic.grouped {es : List Expr} (basic : AllBasic es) : AllGrouped es := by
  cases basic with
  | nil => exact .nil
  | cons first others => exact .cons first.grouped others.grouped

end

/-- An expression without parts, where a double is replaced by the integer that its digits
write. -/
def withoutDouble : Expr → Expr
  | literal (.float x) => literal (.int (signedValue x.plain.toList))
  | e => e

/-- Every expression means itself, up to doubles. -/
def itself : Interpretation Expr where
  leaf := withoutDouble
  list := .list
  binary := .binary
  not := .not
  member := .member
  call := .call

mutual

theorem Basic.interpret_itself {e : Expr} (basic : e.Basic) : e.interpret itself = e := by
  cases basic with
  | field source name => rfl
  | row source => rfl
  | param index => rfl
  | @literal value noDouble =>
      cases value with
      | float x => exact absurd rfl (noDouble x)
      | _ => rfl
  | list all =>
      rw [interpret, all.interpretAll_itself]
      rfl
  | binary op ofLeft ofRight =>
      rw [interpret, ofLeft.interpret_itself, ofRight.interpret_itself]
      rfl
  | not inner =>
      rw [interpret, inner.interpret_itself]
      rfl
  | call plain all =>
      rw [interpret, all.interpretAll_itself]
      rfl

theorem AllBasic.interpretAll_itself {es : List Expr} (basic : AllBasic es) :
    interpretAll itself es = es := by
  cases basic with
  | nil => rfl
  | cons first others => rw [interpretAll, first.interpret_itself, others.interpretAll_itself]

end

theorem withoutDouble_of_number {s : Scope} {e : Expr} (number : e.leafKind = .number)
    {text : String} (is : e.render s = .ok text) :
    withoutDouble e = literal (.int (signedValue text.toList)) := by
  rcases number_cases number is with ⟨n, rfl, rfl⟩ | ⟨x, rfl, rfl⟩
  · rw [signedValue_toString]
    rfl
  · rfl

/-- Leaves that are written alike are the same, up to doubles. -/
theorem withoutDouble_eq {s : Scope} (readable : s.Readable) {e other : Expr} {text : String}
    (isLeaf : e.isLeaf = true) (isLeaf' : other.isLeaf = true) (is : e.render s = .ok text)
    (is' : other.render s = .ok text) : withoutDouble e = withoutDouble other := by
  rcases leaf_unique readable isLeaf isLeaf' is is' with rfl | ⟨number, number'⟩
  · rfl
  · rw [withoutDouble_of_number number is, withoutDouble_of_number number' is']

end Expr

namespace Query

/-- In a query that is neither grouped nor returns what it changed, at any depth of nesting, two
expressions of the same text are equal. -/
theorem eq_of_same_text {q : Query} {s : Scope} (isScope : q.scope = .ok s) {e other : Expr}
    (basic : e.Basic) (basic' : other.Basic) {text : String} (is : e.render s = .ok text)
    (is' : other.render s = .ok text) : e = other := by
  have readable := scope_readable isScope
  have meant := basic.grouped.interpret_eq_of_render_eq readable Expr.itself
    (fun _ _ _ isLeaf isLeaf' => Expr.withoutDouble_eq readable isLeaf isLeaf') basic'.grouped
    is is'
  rwa [basic.interpret_itself, basic'.interpret_itself] at meant

/-- A query over two collections with a parameter. -/
def pairing : Query where
  root := { name := "users" }
  joins := [⟨.inner, { name := "posts" }, .literal (.bool true)⟩]
  params := [.null]

/-- An expression whose names and texts contain the signs that expressions are put together
with. -/
def interleaved : Expr :=
  .binary .and
    (.not (.binary .like (.field 0 "a, 'b") (.literal (.text "', NOT (\\'"))))
    (.binary .eq (.call "FIRST_OF" [.list [.param 0, .row 1], .literal .null])
      (.binary .sub (.literal (.int (-3))) (.list [])))

theorem basic_interleaved : interleaved.Basic :=
  .binary _
    (.not (.binary _ (.field _ _) (.literal (by simp))))
    (.binary _
      (.call (by decide)
        (.cons (.list (.cons (.param _) (.cons (.row _) .nil))) (.cons (.literal (by simp)) .nil)))
      (.binary _ (.literal (by simp)) (.list .nil)))

/-- The text of `interleaved` is that of no other expression. -/
theorem eq_of_same_text_interleaved :
    ∃ s, pairing.scope = .ok s ∧
      interleaved.render s = .ok ("NOT (u0.`a, 'b` LIKE '\\', NOT (\\\\\\'') && " ++
        "(FIRST_OF([@1, p1], NULL) == (-3 - []))") ∧
      ∀ other : Expr, other.Basic → other.render s = interleaved.render s →
        interleaved = other := by
  have isScope : pairing.scope = .ok { rowVariables := ["u0", "p1"], paramCount := 1 } := rfl
  refine ⟨_, isScope, by rfl, fun other basic same => ?_⟩
  exact eq_of_same_text isScope basic_interleaved basic (by rfl) same

end Query

end DocStore
