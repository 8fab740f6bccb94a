/-
Module: DocStore.Proofs.Query.Grouping
Purpose: expressions with memberships and missing values among their operands have the value that
  their text shows, unless a collection or the right operand of `==` would need parentheses that
  are not written.
Main exports:
  Assignment, Expr.valueIn, Query.Stage, Query.value_eq_of_same_text
-/
import DocStore.Proofs.Query.Interpretation
import DocStore.Proofs.Query.Meaning
import DocStore.Proofs.Query.Scoped

namespace DocStore

open Aql Text

/-! ### Values -/

/-- Values for what expressions are made of.  What operators and functions compute is left open,
but that `==` compares.  A number is the one that its numeral stands for. -/
structure Assignment where
  field : Nat → String → Json
  row : Nat → Json
  param : Nat → Json
  number : String → Json
  operator : BinaryOp → Json → Json → Json
  negation : Json → Json
  call : String → List Json → Json
  number_int : ∀ n : Int, number (toString n) = .int n
  operator_eq : ∀ a b, operator .eq a b = .bool (a == b)

/-- Values where all is null but for numbers, which are the integers of their digits, and for
comparisons. -/
instance : Inhabited Assignment where
  default :=
    { field := fun _ _ => .null
      row := fun _ => .null
      param := fun _ => .null
      number := fun numeral => .int (signedValue numeral.toList)
      operator := fun op a b =>
        match op with
        | .eq => .bool (a == b)
        | _ => .null
      negation := fun _ => .null
      call := fun _ _ => .null
      number_int := fun n => by rw [signedValue_toString]
      operator_eq := fun _ _ => rfl }

/-- Whether a value is an item of a list. -/
def Json.isAmong (item collection : Json) : Bool :=
  (collection.items?.getD []).any (item == ·)

/-- The value of a constant. -/
def Literal.valueIn (m : Assignment) : Literal → Json
  | float x => m.number x.plain
  | value => value.value

namespace Expr

mutual

/-- The value of an expression.  Texts taken as they are and nested counts have none. -/
def valueIn (m : Assignment) : Expr → Json
  | field source name => m.field source name
  | row source => m.row source
  | param index => m.param index
  | literal value => value.valueIn m
  | list items => .arr (valuesIn m items)
  | binary op left right => m.operator op (left.valueIn m) (right.valueIn m)
  | not operand => m.negation (operand.valueIn m)
  | member item collection => .bool ((item.valueIn m).isAmong (collection.valueIn m))
  | isNull operand => .bool (operand.valueIn m == .null)
  | call function arguments => m.call function (valuesIn m arguments)
  | raw _ => .null
  | fragment _ => .null
  | countRows => .null
  | countOf _ => .null

/-- The values of expressions, one after the other. -/
def valuesIn (m : Assignment) : List Expr → List Json
  | [] => []
  | e :: rest => e.valueIn m :: valuesIn m rest

end

end Expr

/-- Values as what expressions mean. -/
def Assignment.interpretation (m : Assignment) : Interpretation Json where
  leaf e := e.valueIn m
  list := .arr
  binary := m.operator
  not := m.negation
  member item collection := .bool (item.isAmong collection)
  call := m.call

namespace Expr

mutual

theorem interpret_interpretation (m : Assignment) (e : Expr) :
    e.interpret m.interpretation = e.valueIn m := by
  cases e with
  | field source name => rfl
  | row source => rfl
  | param index => rfl
  | literal value => rfl
  | list items =>
      rw [interpret, valueIn, interpretAll_interpretation m items]
      rfl
  | binary op left right =>
      rw [interpret, valueIn, interpret_interpretation m left, interpret_interpretation m right]
      rfl
  | not operand =>
      rw [interpret, valueIn, interpret_interpretation m operand]
      rfl
  | member item collection =>
      by_cases empty : collection = .list []
      · subst empty
        rfl
      · rw [interpret_member _ empty, valueIn, interpret_interpretation m item,
          interpret_interpretation m collection]
        rfl
  | isNull operand =>
      rw [interpret, valueIn, interpret_interpretation m operand]
      exact m.operator_eq _ _
  | call function arguments =>
      rw [interpret, valueIn, interpretAll_interpretation m arguments]
      rfl
  | raw text => rfl
  | fragment parts => rfl
  | countRows => rfl
  | countOf target => rfl

theorem interpretAll_interpretation (m : Assignment) (es : List Expr) :
    interpretAll m.interpretation es = valuesIn m es := by
  cases es with
  | nil => rfl
  | cons e rest =>
      rw [interpretAll, valuesIn, interpret_interpretation m e, interpretAll_interpretation m rest]

end

theorem valueIn_of_number (m : Assignment) {s : Scope} {e : Expr} (number : e.leafKind = .number)
    {text : String} (is : e.render s = .ok text) : e.valueIn m = m.number text := by
  rcases number_cases number is with ⟨n, rfl, rfl⟩ | ⟨x, rfl, rfl⟩
  · exact (m.number_int n).symm
  · rfl

/-- Expressions without parts have the value that their text shows. -/
theorem leaf_valueIn_eq (m : Assignment) {s : Scope} (readable : s.Readable) {e other : Expr}
    {text : String} (isLeaf : e.isLeaf = true) (isLeaf' : other.isLeaf = true)
    (is : e.render s = .ok text) (is' : other.render s = .ok text) :
    e.valueIn m = other.valueIn m := by
  rcases leaf_unique readable isLeaf isLeaf' is is' with rfl | ⟨number, number'⟩
  · rfl
  · rw [valueIn_of_number m number is, valueIn_of_number m number' is']

end Expr

namespace Query

/-! ### The scopes of a query -/

/-- The scopes that expressions of a query are written in: that at its start, that after its
groups, and those of the rows that a mutation returns. -/
inductive Stage (q : Query) : Scope → Prop where
  | start {s : Scope} (is : q.scope = .ok s) : Stage q s
  | grouped {s : Scope} (is : q.scope = .ok s) {count : Option String} {made : String × Scope}
      (groups : groupText s count q.groups = .ok made) : Stage q made.2
  | returned {s : Scope} (is : q.scope = .ok s) {pseudo : String}
      (either : pseudo = "OLD" ∨ pseudo = "NEW") : Stage q { s with returned := some pseudo }

/-- The names of a query can be told apart, if those of grouped fields are words. -/
theorem Stage.readable {q : Query} {s : Scope} (stage : q.Stage s)
    (worded : ∀ source name, .field source name ∈ q.groups →
      name.toList.all isWordChar = true) : s.Readable := by
  cases stage with
  | start is => exact scope_readable is
  | @grouped s is count made groups =>
      have before := scope_readable is
      unfold groupText at groups
      split at groups
      · cases groups
        exact before
      · obtain ⟨terms, areTerms, same⟩ := exceptBind_eq_ok_iff.mp groups
        cases same
        obtain ⟨each, fields⟩ := groupTerms_eq_ok areTerms
        refine ⟨⟨before.sources, fun names given v member => ?_, before.returned⟩, before.pseudo⟩
        cases given
        obtain ⟨term, among, rfl⟩ := List.mem_map.mp member
        obtain ⟨row, isRow, named⟩ := (each term among).named
        have asked : .field term.1.source term.1.field ∈ q.groups := by
          rw [fields]
          exact List.mem_map_of_mem among
        exact ⟨row, before.sources isRow, worded _ _ asked, named⟩
  | @returned s is pseudo either =>
      have before := scope_readable is
      refine ⟨⟨before.sources, before.grouped, fun word given => ?_⟩, fun word given => ?_⟩
      · cases given
        rcases either with rfl | rfl <;> decide
      · cases given
        exact either

/-! ### Values and texts -/

/-- Expressions that are written alike anywhere in a query have the same value, as long as their
operands are put in parentheses wherever the reading from the left would take them apart. -/
theorem value_eq_of_same_text {q : Query} (worded : ∀ source name, .field source name ∈ q.groups →
      name.toList.all isWordChar = true) {s : Scope} (stage : q.Stage s) {e other : Expr}
    (grouped : e.Grouped) (grouped' : other.Grouped) {text : String} (is : e.render s = .ok text)
    (is' : other.render s = .ok text) (m : Assignment) : e.valueIn m = other.valueIn m := by
  have readable := stage.readable worded
  have meant := grouped.interpret_eq_of_render_eq readable m.interpretation
    (fun _ _ _ isLeaf isLeaf' => Expr.leaf_valueIn_eq m readable isLeaf isLeaf') grouped' is is'
  rwa [Expr.interpret_interpretation, Expr.interpret_interpretation] at meant

/-- The text of two ways to ask whether it is missing that a membership is missing. -/
theorem value_eq_of_same_text_missing :
    let membership : Expr := .member (.field 0 "a") (.field 0 "b")
    let missing : Expr := .isNull (.isNull membership)
    let compared : Expr := .binary .eq (.isNull membership) (.literal .null)
    ∃ s, Query.scope { root := { name := "users" } } = .ok s ∧
      missing.render s = .ok "u0.`a` IN u0.`b` == NULL == NULL" ∧
      compared.render s = .ok "u0.`a` IN u0.`b` == NULL == NULL" ∧
      ∀ m : Assignment, missing.valueIn m = compared.valueIn m := by
  intro membership missing compared
  have isScope : Query.scope { root := { name := "users" } } =
      .ok { rowVariables := ["u0"], paramCount := 0 } := rfl
  have grouped : membership.Grouped := .member (.leaf rfl) (.leaf rfl) rfl
  refine ⟨_, isScope, by rfl, by rfl, fun m => ?_⟩
  exact value_eq_of_same_text (by simp) (.start isScope) (.isNull (.isNull grouped))
    (.binary .eq (.isNull grouped) (.leaf rfl) fun _ => .inl rfl) (by rfl) (by rfl) m

/-- Two expressions that are written alike and do not have the same value. -/
def Confused (s : Scope) (m : Assignment) (e other : Expr) : Prop :=
  ∃ text, e.render s = .ok text ∧ other.render s = .ok text ∧ e.valueIn m ≠ other.valueIn m

/-- A number, a list with it, a list of true, and true. -/
def sampleValues : Assignment :=
  { (default : Assignment) with
    field := fun _ name =>
      if name = "a" then .int 1
      else if name = "b" then .arr [.int 1]
      else if name = "c" then .arr [.bool true]
      else .bool true }

/-- A query whose third group is named like a membership. -/
def groupedByMembership : Query where
  root := { name := "users" }
  groups := [.field 0 "a", .field 0 "b", .field 0 "a IN u0_b"]

/-- Expressions that are left out: a collection that is a membership or a pair of operands, and a
right operand of `==` that begins with null; further functions and groups whose names are texts of
expressions. -/
theorem exists_confused :
    (∃ s, Query.scope { root := { name := "users" } } = .ok s ∧
      Confused s sampleValues (.member (.member (.field 0 "a") (.field 0 "b")) (.field 0 "c"))
        (.member (.field 0 "a") (.member (.field 0 "b") (.field 0 "c"))) ∧
      Confused s sampleValues (.binary .eq (.member (.field 0 "a") (.field 0 "b")) (.field 0 "d"))
        (.member (.field 0 "a") (.binary .eq (.field 0 "b") (.field 0 "d"))) ∧
      Confused s sampleValues (.member (.isNull (.literal .null)) (.field 0 "c"))
        (.binary .eq (.literal .null) (.member (.literal .null) (.field 0 "c"))) ∧
      Confused s default (.isNull (.member (.call "F" []) (.call "G" [])))
        (.isNull (.call "F() IN G" []))) ∧
    ∃ s, groupedByMembership.Stage s ∧
      Confused s default (.isNull (.member (.field 0 "a") (.field 0 "b")))
        (.isNull (.field 0 "a IN u0_b")) := by
  have differ : ∀ {a b : Bool}, a ≠ b → Json.bool a ≠ Json.bool b := by
    rintro a b other ⟨⟩
    exact other rfl
  constructor
  · refine ⟨{ rowVariables := ["u0"], paramCount := 0 }, rfl, ?_, ?_, ?_, ?_⟩
    · exact ⟨_, rfl, rfl, differ (a := true) (b := false) (by decide)⟩
    · exact ⟨_, rfl, rfl, differ (a := true) (b := false) (by decide)⟩
    · exact ⟨_, rfl, rfl, differ (a := true) (b := false) (by decide)⟩
    · exact ⟨_, rfl, rfl, differ (a := false) (b := true) (by decide)⟩
  · refine ⟨_, .grouped rfl (rfl : groupText _ none _ = _), _, rfl, rfl, ?_⟩
    exact differ (a := false) (b := true) (by decide)

end Query

end DocStore
