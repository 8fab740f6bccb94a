/-
Module: DocStore.Proofs.Query.Shape
Purpose: expressions that differ in names and quoted texts only, and the tokens of what they
  are written as.
Main exports:
  Expr.SameShape, Expr.AllSameShape, Scope.Alike, Expr.SameShape.render_alike
-/
import DocStore.Proofs.Fallible
import DocStore.Proofs.Query.Piece
import DocStore.Proofs.Query.Token

namespace DocStore

open List (Forall₂)
open Aql

/-! ### Expressions of the same shape -/

mutual

/-- The same tree up to the names of fields and the contents of texts.  Functions have
plain names, and no text is taken as it is. -/
inductive Expr.SameShape : Expr → Expr → Prop where
  | field (source : Nat) (name name' : String) :
      Expr.SameShape (.field source name) (.field source name')
  | row (source : Nat) : Expr.SameShape (.row source) (.row source)
  | param (index : Nat) : Expr.SameShape (.param index) (.param index)
  | literal (value : Literal) : Expr.SameShape (.literal value) (.literal value)
  | text (value value' : String) :
      Expr.SameShape (.literal (.text value)) (.literal (.text value'))
  | list {items items' : List Expr} (same : Expr.AllSameShape items items') :
      Expr.SameShape (.list items) (.list items')
  | binary (op : BinaryOp) {left left' right right' : Expr}
      (sameLeft : Expr.SameShape left left') (sameRight : Expr.SameShape right right') :
      Expr.SameShape (.binary op left right) (.binary op left' right')
  | not {operand operand' : Expr} (same : Expr.SameShape operand operand') :
      Expr.SameShape (.not operand) (.not operand')
  | member {item item' collection collection' : Expr} (sameItem : Expr.SameShape item item')
      (sameCollection : Expr.SameShape collection collection') :
      Expr.SameShape (.member item collection) (.member item' collection')
  | isNull {operand operand' : Expr} (same : Expr.SameShape operand operand') :
      Expr.SameShape (.isNull operand) (.isNull operand')
  | call (function : String) (plain : function.toList.all isWordChar = true)
      {arguments arguments' : List Expr} (same : Expr.AllSameShape arguments arguments') :
      Expr.SameShape (.call function arguments) (.call function arguments')
  | countRows : Expr.SameShape .countRows .countRows
  | countOf {target target' : Expr} (same : Expr.SameShape target target') :
      Expr.SameShape (.countOf target) (.countOf target')

/-- Rows of expressions of the same shape. -/
inductive Expr.AllSameShape : List Expr → List Expr → Prop where
  | nil : Expr.AllSameShape [] []
  | cons {e e' : Expr} {rest rest' : List Expr} (same : Expr.SameShape e e')
      (others : Expr.AllSameShape rest rest') : Expr.AllSameShape (e :: rest) (e' :: rest')

end

/-! ### Scopes -/

/-- The variables of a scope are words for its sources and their fields. -/
structure Scope.Worded (s : Scope) : Prop where
  sources : ∀ {i : Nat} {word : String}, s.rowVar i = .ok word → IsSourceVariable i word
  grouped : ∀ terms ∈ s.grouped, ∀ v ∈ terms, IsFieldVariable v.source v.field v.name
  returned : ∀ pseudo ∈ s.returned, isUnquoted pseudo.toList = true

/-- Two scopes at the same place of two queries of the same shape. -/
structure Scope.Alike (s s' : Scope) : Prop where
  worded : s.Worded
  worded' : s'.Worded
  grouped : s.grouped.isSome = s'.grouped.isSome
  returned : s.returned = s'.returned

/-- A field is a quoted name behind the variable of its source, or the variable that it
was grouped into. -/
theorem Scope.field_cases {s : Scope} {source : Nat} {name text : String}
    (is : s.field source name = .ok text) : '`' ∉ name.toList ∧
      ((s.grouped = none ∧ ∃ row, s.rowVariable source = .ok row ∧
          text = row ++ ("." ++ ("`" ++ name ++ "`"))) ∨
        ∃ terms v, s.grouped = some terms ∧ v ∈ terms ∧ v.source = source ∧ text = v.name) := by
  unfold field at is
  split at is
  · cases is
  · next plain =>
      refine ⟨by simpa using plain, ?_⟩
      cases grouped : s.grouped with
      | none =>
          rw [grouped] at is
          obtain ⟨row, found, rfl⟩ := exceptMap_eq_ok_iff.mp is
          refine .inl ⟨rfl, row, found, ?_⟩
          apply String.toList_injective
          simp
      | some terms =>
          rw [grouped] at is
          dsimp only at is
          split at is
          · next v found =>
              cases is
              have chosen := List.find?_some found
              simp only [Bool.and_eq_true, beq_iff_eq] at chosen
              exact .inr ⟨terms, v, rfl, List.mem_of_find?_eq_some found, chosen.1, rfl⟩
          · cases is

namespace Scope.Alike

variable {s s' : Scope} {source : Nat} {name name' text text' : String}

theorem rowVariable_alike (scopes : s.Alike s') (is : s.rowVariable source = .ok text)
    (is' : s'.rowVariable source = .ok text') : Aql.Alike text text' := by
  have ofSource : ∀ {text text' : String}, s.rowVar source = .ok text →
      s'.rowVar source = .ok text' → Aql.Alike text text' := fun found found' =>
    .sourceVariables (scopes.worded.sources found) (scopes.worded'.sources found')
  cases pseudo : s.returned with
  | none =>
      have pseudo' := scopes.returned.symm.trans pseudo
      simp only [rowVariable, pseudo] at is
      simp only [rowVariable, pseudo'] at is'
      exact ofSource is is'
  | some word =>
      have pseudo' := scopes.returned.symm.trans pseudo
      cases source with
      | zero =>
          simp only [rowVariable, pseudo] at is
          simp only [rowVariable, pseudo'] at is'
          cases is
          cases is'
          exact .same (scopes.worded.returned _ pseudo)
      | succ source =>
          rw [rowVariable] at is is'
          · exact ofSource is is'
          · simp
          · simp

theorem row_alike (scopes : s.Alike s') (is : s.row source = .ok text)
    (is' : s'.row source = .ok text') : Aql.Alike text text' := by
  unfold row at is is'
  split at is
  · cases is
  · split at is'
    · cases is'
    · exact scopes.rowVariable_alike is is'

theorem noBacktick_of_field (is : s.field source name = .ok text) : '`' ∉ name.toList :=
  (field_cases is).1

theorem field_alike (scopes : s.Alike s') (is : s.field source name = .ok text)
    (is' : s'.field source name' = .ok text') : Aql.Alike text text' := by
  obtain ⟨named, here⟩ := field_cases is
  obtain ⟨named', there⟩ := field_cases is'
  have together := scopes.grouped
  rcases here with ⟨ungrouped, row, found, rfl⟩ | ⟨terms, v, grouped, member, own, rfl⟩
  · rcases there with ⟨_, row', found', rfl⟩ | ⟨_, _, grouped', _⟩
    · exact (scopes.rowVariable_alike found found').append
        ((Following.same (by decide) (by decide)).append (.names named named'))
    · simp [ungrouped, grouped'] at together
  · rcases there with ⟨ungrouped', _⟩ | ⟨terms', v', grouped', member', own', rfl⟩
    · simp [grouped, ungrouped'] at together
    · have word := scopes.worded.grouped terms grouped v member
      have word' := scopes.worded'.grouped terms' grouped' v' member'
      rw [own] at word
      rw [own'] at word'
      exact .fieldVariables word word'

end Scope.Alike

/-! ### Constants -/

theorem isUnquoted_append {a b : List Char} :
    isUnquoted (a ++ b) = (isUnquoted a && isUnquoted b) :=
  List.all_append

theorem isUnquoted_toString_nat (n : Nat) : isUnquoted (toString n).toList = true :=
  isUnquoted_of_word (all_isWordChar_toString n)

/-- The text of a number: a digit, then digits and points, behind a minus sign or none. -/
inductive NumberText : List Char → Prop where
  | unsigned {c : Char} {rest : List Char} (digit : c.isDigit = true)
      (others : ∀ d ∈ rest, d.isDigit = true ∨ d = '.') : NumberText (c :: rest)
  | negative {c : Char} {rest : List Char} (digit : c.isDigit = true)
      (others : ∀ d ∈ rest, d.isDigit = true ∨ d = '.') : NumberText ('-' :: c :: rest)

theorem isUnquoted_of_digit_or_point {text : List Char}
    (each : ∀ d ∈ text, d.isDigit = true ∨ d = '.') : isUnquoted text = true := by
  rw [isUnquoted, List.all_eq_true]
  intro d member
  rcases each d member with digit | rfl
  · rw [isQuote_of_isWordChar (isWordChar_of_isDigit digit)]
    rfl
  · decide

theorem NumberText.unquoted {text : List Char} (number : NumberText text) :
    isUnquoted text = true := by
  cases number with
  | unsigned digit others =>
      exact isUnquoted_of_digit_or_point (List.forall_mem_cons.mpr ⟨.inl digit, others⟩)
  | negative digit others =>
      have body := isUnquoted_of_digit_or_point (List.forall_mem_cons.mpr ⟨.inl digit, others⟩)
      rw [isUnquoted, List.all_cons, ← isUnquoted, body]
      decide

theorem numberText_toString (n : Int) : NumberText (toString n).toList := by
  have natural : ∀ n : Nat, ∃ c rest, (toString n).toList = c :: rest ∧ c.isDigit = true ∧
      ∀ d ∈ rest, d.isDigit = true ∨ d = '.' := by
    intro n
    have digits : ∀ d ∈ Text.digitsOf n, d.isDigit = true :=
      fun d => Text.isDigit_of_mem_digitsOf
    rw [Text.toList_toString]
    cases spelled : Text.digitsOf n with
    | nil => exact absurd spelled (Text.digitsOf_ne_nil n)
    | cons c rest =>
        rw [spelled, List.forall_mem_cons] at digits
        exact ⟨c, rest, rfl, digits.1, fun d member => .inl (digits.2 d member)⟩
  cases n with
  | ofNat n =>
      obtain ⟨c, rest, spelled, digit, others⟩ := natural n
      have whole : (toString (Int.ofNat n)).toList = (toString n).toList := rfl
      rw [whole, spelled]
      exact .unsigned digit others
  | negSucc n =>
      obtain ⟨c, rest, spelled, digit, others⟩ := natural (n + 1)
      have whole : toString (Int.negSucc n) = "-" ++ toString (n + 1) := rfl
      rw [whole, String.toList_append, spelled]
      exact .negative digit others

theorem Decimal.positional_digits (d : Decimal) :
    (∀ c ∈ d.positional.1, c.isDigit) ∧ ∀ c ∈ d.positional.2, c.isDigit := by
  have ofDigits : ∀ c ∈ digitChars d.digits, c.isDigit := fun c =>
    Text.isDigit_of_mem_digitsOf (n := d.digits)
  have ofZeros : ∀ n, ∀ c ∈ zeros n, c.isDigit := by
    intro n c member
    rw [List.eq_of_mem_replicate member]
    rfl
  unfold positional
  dsimp only
  split
  · refine ⟨fun c member => ?_, by simp⟩
    rcases List.mem_append.mp member with digit | zero
    · exact ofDigits c digit
    · exact ofZeros _ c zero
  · split
    · rw [List.splitAt_eq]
      exact ⟨fun c member => ofDigits c (List.mem_of_mem_take member),
        fun c member => ofDigits c (List.mem_of_mem_drop member)⟩
    · refine ⟨by simp, fun c member => ?_⟩
      rcases List.mem_append.mp member with zero | digit
      · exact ofZeros _ c zero
      · exact ofDigits c digit

theorem numberText_plain (x : Double) : NumberText x.plain.toList := by
  have signed : ∀ {c : Char} {rest : List Char}, c.isDigit = true →
      (∀ d ∈ rest, d.isDigit = true ∨ d = '.') →
      NumberText ((if x.negative then "-" else "").toList ++ c :: rest) := by
    intro c rest digit others
    split
    · exact .negative digit others
    · exact .unsigned digit others
  have digits := (Decimal.shortest .up x).positional_digits
  have places : ∀ d ∈ (if (Decimal.shortest .up x).positional.2.isEmpty then []
      else '.' :: (Decimal.shortest .up x).positional.2), d.isDigit = true ∨ d = '.' := by
    split
    · simp
    · exact List.forall_mem_cons.mpr ⟨.inr rfl, fun d member => .inl (digits.2 d member)⟩
  unfold Double.plain
  dsimp only
  by_cases zero : x.isZero = true
  · rw [if_pos zero, String.toList_append]
    exact signed (by decide) (by simp)
  · rw [if_neg zero, String.toList_append, String.toList_ofList]
    cases whole : (Decimal.shortest .up x).positional.1 with
    | nil => exact signed (by decide) places
    | cons c front =>
        have inWhole : ∀ d ∈ c :: front, d.isDigit = true := by
          rw [← whole]
          exact digits.1
        rw [List.forall_mem_cons] at inWhole
        refine signed inWhole.1 (fun d member => ?_)
        rcases List.mem_append.mp member with inFront | inPlaces
        · exact .inl (inWhole.2 d inFront)
        · exact places d inPlaces

/-- A constant is written alike to itself, and a text to any other. -/
theorem Literal.render_unquoted {value : Literal} {text : String} (is : value.render = .ok text)
    (noText : ∀ content, value ≠ .text content) : isUnquoted text.toList = true := by
  cases value with
  | null =>
      cases is
      decide
  | bool b =>
      cases b <;>
      · cases is
        decide
  | int n =>
      cases is
      exact (numberText_toString n).unquoted
  | float x =>
      rw [render] at is
      split at is
      · cases is
        exact (numberText_plain x).unquoted
      · cases is
  | text content => exact absurd rfl (noText content)

theorem Literal.render_alike {value : Literal} {text text' : String}
    (is : value.render = .ok text) (is' : value.render = .ok text') : Aql.Alike text text' := by
  rw [is] at is'
  cases is'
  cases value with
  | text content =>
      cases is
      exact .texts content content
  | null => exact .same (render_unquoted is (by simp))
  | bool b => exact .same (render_unquoted is (by simp))
  | int n => exact .same (render_unquoted is (by simp))
  | float x => exact .same (render_unquoted is (by simp))

/-! ### Expressions -/

/-- Texts that are alike stay so in parentheses. -/
theorem Aql.Alike.parens {a b : String} (alike : Alike a b) :
    Following (parens a) (parens b) := by
  rw [DocStore.parens, DocStore.parens, String.append_assoc, String.append_assoc]
  exact (alike.append (.same (by decide) (by decide))).following (by decide) (by decide)
    (by decide)

namespace Expr

theorem SameShape.isBinary_eq {e e' : Expr} (same : e.SameShape e') :
    e.isBinary = e'.isBinary := by
  cases same <;> rfl

theorem SameShape.isCount_eq {e e' : Expr} (same : e.SameShape e') : e.isCount = e'.isCount := by
  cases same <;> rfl

theorem SameShape.asOperand_alike {e e' : Expr} (same : e.SameShape e') {a b : String}
    (alike : Aql.Alike a b) : Aql.Alike (e.asOperand a) (e'.asOperand b) := by
  unfold asOperand
  rw [same.isBinary_eq]
  split
  · exact alike.parens.alike
  · exact alike

theorem AllSameShape.append {a a' b b' : List Expr} (first : AllSameShape a a')
    (second : AllSameShape b b') : AllSameShape (a ++ b) (a' ++ b') := by
  induction a generalizing a' with
  | nil =>
      cases first
      exact second
  | cons e a inductionHypothesis =>
      cases first with
      | cons same others => exact .cons same (inductionHypothesis others)

theorem AllSameShape.countP_eq {es es' : List Expr} (same : AllSameShape es es') :
    es.countP isCount = es'.countP isCount := by
  induction es generalizing es' with
  | nil =>
      cases same
      rfl
  | cons e es inductionHypothesis =>
      cases same with
      | cons first others =>
          rw [List.countP_cons, List.countP_cons, inductionHypothesis others, first.isCount_eq]

theorem SameShape.emptyList_iff {e e' : Expr} (same : e.SameShape e') :
    e = .list [] ↔ e' = .list [] := by
  cases same with
  | list items => cases items <;> simp
  | _ => simp

theorem render_member {s : Scope} {item collection : Expr} (filled : collection ≠ .list []) :
    (member item collection).render s = (do
      let l ← item.render s
      let r ← collection.render s
      .ok (item.asOperand l ++ " IN " ++ r)) := by
  rw [render]
  rintro rfl
  exact filled rfl

theorem operator_alike (op : BinaryOp) {a b a' b' : String} (left : Aql.Alike a b)
    (right : Aql.Alike a' b') :
    Aql.Alike (a ++ " " ++ op.symbol ++ " " ++ a') (b ++ " " ++ op.symbol ++ " " ++ b') := by
  have spaced : ∀ a a' : String, a ++ " " ++ op.symbol ++ " " ++ a' =
      a ++ ((" " ++ op.symbol ++ " ") ++ a') := by
    intro a a'
    simp only [String.append_assoc]
  rw [spaced, spaced]
  refine left.append (right.following ?_ ?_ ?_) <;> cases op <;> decide

mutual

/-- Expressions of the same shape are written alike. -/
theorem SameShape.render_alike {s s' : Scope} (scopes : s.Alike s') {e e' : Expr}
    (same : e.SameShape e') {text text' : String} (is : e.render s = .ok text)
    (is' : e'.render s' = .ok text') : Aql.Alike text text' := by
  cases same with
  | field source name name' => exact scopes.field_alike is is'
  | row source => exact scopes.row_alike is is'
  | param index =>
      rw [render, Scope.param] at is is'
      split at is
      · cases is
      · split at is'
        · cases is'
        · cases is
          cases is'
          apply Aql.Alike.same
          rw [String.toList_append, isUnquoted_append, isUnquoted_toString_nat]
          decide
  | literal value => exact value.render_alike is is'
  | text value value' =>
      cases is
      cases is'
      exact .texts value value'
  | list sameItems =>
      obtain ⟨texts, items, rest⟩ := exceptBind_eq_ok_iff.mp is
      obtain ⟨texts', items', rest'⟩ := exceptBind_eq_ok_iff.mp is'
      cases rest
      cases rest'
      have joined := Aql.Alike.join (sameItems.renderAll_alike scopes items items')
      rw [String.append_assoc, String.append_assoc]
      exact (joined.append (.same (by decide) (by decide))).behind (by decide) (by decide)
  | binary op sameLeft sameRight =>
      obtain ⟨left, isLeft, rest⟩ := exceptBind_eq_ok_iff.mp is
      obtain ⟨right, isRight, rest⟩ := exceptBind_eq_ok_iff.mp rest
      obtain ⟨left', isLeft', rest'⟩ := exceptBind_eq_ok_iff.mp is'
      obtain ⟨right', isRight', rest'⟩ := exceptBind_eq_ok_iff.mp rest'
      cases rest
      cases rest'
      exact operator_alike op
        (sameLeft.asOperand_alike (sameLeft.render_alike scopes isLeft isLeft'))
        (sameRight.asOperand_alike (sameRight.render_alike scopes isRight isRight'))
  | not sameOperand =>
      obtain ⟨operand, isOperand, rest⟩ := exceptBind_eq_ok_iff.mp is
      obtain ⟨operand', isOperand', rest'⟩ := exceptBind_eq_ok_iff.mp is'
      cases rest
      cases rest'
      exact (sameOperand.render_alike scopes isOperand isOperand').parens.alike.behind
        (by decide) (by decide)
  | @member item item' collection collection' sameItem sameCollection =>
      by_cases empty : collection = .list []
      · obtain rfl := empty
        obtain rfl := sameCollection.emptyList_iff.mp rfl
        cases is
        cases is'
        exact .same (by decide)
      · have filled' := mt sameCollection.emptyList_iff.mpr empty
        rw [render_member empty] at is
        rw [render_member filled'] at is'
        obtain ⟨left, isLeft, rest⟩ := exceptBind_eq_ok_iff.mp is
        obtain ⟨right, isRight, rest⟩ := exceptBind_eq_ok_iff.mp rest
        obtain ⟨left', isLeft', rest'⟩ := exceptBind_eq_ok_iff.mp is'
        obtain ⟨right', isRight', rest'⟩ := exceptBind_eq_ok_iff.mp rest'
        cases rest
        cases rest'
        rw [String.append_assoc, String.append_assoc]
        exact (sameItem.asOperand_alike (sameItem.render_alike scopes isLeft isLeft')).append
          ((sameCollection.render_alike scopes isRight isRight').following (by decide)
            (by decide) (by decide))
  | isNull sameOperand =>
      obtain ⟨operand, isOperand, rest⟩ := exceptBind_eq_ok_iff.mp is
      obtain ⟨operand', isOperand', rest'⟩ := exceptBind_eq_ok_iff.mp is'
      cases rest
      cases rest'
      have operands := sameOperand.asOperand_alike
        (sameOperand.render_alike scopes isOperand isOperand')
      exact operands.append (.same (by decide) (by decide))
  | call function plain sameArguments =>
      obtain ⟨texts, items, rest⟩ := exceptBind_eq_ok_iff.mp is
      obtain ⟨texts', items', rest'⟩ := exceptBind_eq_ok_iff.mp is'
      cases rest
      cases rest'
      have joined := Aql.Alike.join (sameArguments.renderAll_alike scopes items items')
      exact (Aql.Alike.same (isUnquoted_of_word plain)).append joined.parens
  | countRows => cases is
  | countOf _ => cases is

/-- Rows of expressions of the same shape are written alike pairwise. -/
theorem AllSameShape.renderAll_alike {s s' : Scope} (scopes : s.Alike s') {es es' : List Expr}
    (same : AllSameShape es es') {texts texts' : List String}
    (are : renderAll s es = .ok texts) (are' : renderAll s' es' = .ok texts') :
    Forall₂ Aql.Alike texts texts' := by
  cases same with
  | nil =>
      cases are
      cases are'
      exact .nil
  | cons sameFirst sameOthers =>
      obtain ⟨text, isFirst, rest⟩ := exceptBind_eq_ok_iff.mp are
      obtain ⟨others, areOthers, rest⟩ := exceptBind_eq_ok_iff.mp rest
      obtain ⟨text', isFirst', rest'⟩ := exceptBind_eq_ok_iff.mp are'
      obtain ⟨others', areOthers', rest'⟩ := exceptBind_eq_ok_iff.mp rest'
      cases rest
      cases rest'
      exact .cons (sameFirst.render_alike scopes isFirst isFirst')
        (sameOthers.renderAll_alike scopes areOthers areOthers')

end

end Expr

end DocStore
