/-
Module: DocStore.Proofs.Query.Leaves
Purpose: the texts of fields, rows, parameters and constants: each of them is a leaf of a line,
  and but for numbers no two of them share a text.
Main exports:
  Expr.isLeaf, Scope.Readable, Expr.exists_leaf, Expr.leaf_unique
-/
import DocStore.Proofs.Query.Line
import DocStore.Proofs.Query.Orderly

namespace DocStore

open Aql Text

/-- Whether an expression has no parts and is not taken as it is. -/
def Expr.isLeaf : Expr → Bool
  | field .. => true
  | row _ => true
  | param _ => true
  | literal _ => true
  | _ => false

/-- A scope whose names can be told apart from all that is not a name: variables for its sources
and their fields, and a pseudo variable if rows are returned. -/
structure Scope.Readable (s : Scope) : Prop extends Scope.Worded s where
  pseudo : ∀ word ∈ s.returned, word = "OLD" ∨ word = "NEW"

namespace Aql

/-! ### Words -/

theorem isInner_of_isWordChar {c : Char} (ofWord : isWordChar c = true) : isInner c = true := by
  have signs : [' ', '(', ')', '[', ']', ',', '`', '\''].any isWordChar = false := by decide
  rw [isInner, Bool.not_eq_true', ← Bool.not_eq_true, List.contains_iff_mem]
  exact fun sign => List.any_eq_false.mp signs c sign ofWord

theorem inner_of_word {word : List Char} (all : word.all isWordChar = true) :
    ∀ c ∈ word, isInner c = true :=
  fun c member => isInner_of_isWordChar (List.all_eq_true.mp all c member)

/-- A name that rows or fields are written as: a variable, or a pseudo variable. -/
def IsName (word : String) : Prop :=
  IsVariable word ∨ word = "OLD" ∨ word = "NEW"

namespace IsName

variable {word : String} (named : IsName word)
include named

theorem all_isWordChar : word.toList.all isWordChar = true := by
  rcases named with isVariable | rfl | rfl
  · obtain ⟨c, letters, spelled, lower, all⟩ := isVariable.spelled
    rw [spelled, List.all_cons, isWordChar_of_isLower lower, all]
    rfl
  · decide
  · decide

/-- No name begins with a digit. -/
theorem head : ∃ c letters, word.toList = c :: letters ∧ c.isDigit = false := by
  rcases named with isVariable | rfl | rfl
  · obtain ⟨c, letters, spelled, lower, all⟩ := isVariable.spelled
    refine ⟨c, letters, spelled, Bool.eq_false_iff.mpr fun digit => ?_⟩
    rw [isLower_iff] at lower
    rw [isDigit_iff] at digit
    omega
  · exact ⟨'O', _, rfl, by decide⟩
  · exact ⟨'N', _, rfl, by decide⟩

/-- No name is a constant or the word of a negation. -/
theorem ne_reserved {reserved : List Char}
    (listed : reserved ∈ [negator, "NULL".toList, "TRUE".toList, "FALSE".toList]) :
    word.toList ≠ reserved := by
  rintro rfl
  rcases named with isVariable | rfl | rfl
  · obtain ⟨c, letters, spelled, lower, all⟩ := isVariable.spelled
    have capitals : [negator, "NULL".toList, "TRUE".toList, "FALSE".toList].all
        (fun text => text.head?.all fun c => !c.isLower) = true := by decide
    have capital := List.all_eq_true.mp capitals _ listed
    rw [spelled, List.head?_cons, Option.all_some, lower] at capital
    cases capital
  · revert listed
    decide
  · revert listed
    decide

theorem exists_leaf : ∃ leaf : Leaf, leaf.text = word.toList := by
  refine ⟨.word word.toList ?_ (inner_of_word named.all_isWordChar)
    (named.ne_reserved (by simp)), rfl⟩
  obtain ⟨c, letters, spelled, _⟩ := named.head
  simp [spelled]

end IsName

theorem exists_word {c : Char} {rest : List Char} (inner : ∀ d ∈ c :: rest, isInner d = true)
    (other : c ≠ 'N') : ∃ leaf : Leaf, leaf.text = c :: rest :=
  ⟨.word (c :: rest) (by simp) inner fun same => other (List.cons.inj same).1, rfl⟩

theorem exists_number {text : List Char} (number : NumberText text) :
    ∃ leaf : Leaf, leaf.text = text := by
  have digits : ∀ {c : Char} {rest : List Char}, c.isDigit = true →
      (∀ d ∈ rest, d.isDigit = true ∨ d = '.') → ∀ d ∈ c :: rest, isInner d = true := by
    intro c rest digit others
    refine List.forall_mem_cons.mpr
      ⟨isInner_of_isWordChar (isWordChar_of_isDigit digit), fun d member => ?_⟩
    rcases others d member with digit | rfl
    · exact isInner_of_isWordChar (isWordChar_of_isDigit digit)
    · decide
  cases number with
  | unsigned digit others =>
      refine exists_word (digits digit others) ?_
      rintro rfl
      cases digit
  | negative digit others =>
      exact exists_word (List.forall_mem_cons.mpr ⟨by decide, digits digit others⟩) (by decide)

/-! ### Telling leaves apart by their texts -/

/-- The kinds of expressions without parts. -/
inductive LeafKind where
  | field
  | row
  | param
  | number
  | constant
  | text
deriving DecidableEq, Repr

/-- The kind of expression that the text of a leaf is for. -/
def leafKindOf (grouped : Bool) (text : List Char) : LeafKind :=
  if text.head? = some '\'' then .text
  else if text.head? = some '@' then .param
  else if '`' ∈ text then .field
  else if text.head?.any (fun c => c.isDigit || c == '-') then .number
  else if text ∈ ["NULL".toList, "TRUE".toList, "FALSE".toList] then .constant
  else if grouped then .field
  else .row

/-- A text that starts with a name is that of a row or of a field. -/
theorem IsName.leafKindOf_append {word : String} (named : IsName word) (grouped : Bool)
    (behind : List Char) : leafKindOf grouped (word.toList ++ behind) =
      if '`' ∈ behind then .field
      else if word.toList ++ behind ∈ ["NULL".toList, "TRUE".toList, "FALSE".toList] then .constant
      else if grouped then .field else .row := by
  obtain ⟨c, letters, spelled, noDigit⟩ := named.head
  have all := named.all_isWordChar
  have apart : ∀ sign : Char, isWordChar sign = false → c ≠ sign ∧ sign ∉ word.toList := by
    intro sign other
    have absent : sign ∉ word.toList := by
      intro member
      rw [List.all_eq_true.mp all sign member] at other
      cases other
    refine ⟨?_, absent⟩
    rintro rfl
    exact absent (by rw [spelled]; exact List.mem_cons_self)
  have head : (word.toList ++ behind).head? = some c := by rw [spelled]; rfl
  have noText : some c ≠ some '\'' := mt Option.some.inj (apart '\'' (by decide)).1
  have noParam : some c ≠ some '@' := mt Option.some.inj (apart '@' (by decide)).1
  have inBehind : '`' ∈ word.toList ++ behind ↔ '`' ∈ behind := by
    simp [apart '`' (by decide)]
  have noNumber : ((some c).any fun c => c.isDigit || c == '-') = false := by
    simp [noDigit, apart '-' (by decide)]
  simp only [leafKindOf, head, if_neg noText, if_neg noParam, inBehind, noNumber, Bool.false_eq_true,
    if_false]

theorem IsName.leafKindOf {word : String} (named : IsName word) (grouped : Bool) :
    leafKindOf grouped word.toList = if grouped then .field else .row := by
  have whole := named.leafKindOf_append grouped []
  rw [List.append_nil] at whole
  rw [whole, if_neg (by simp), if_neg]
  simp only [List.mem_cons, List.not_mem_nil, or_false, not_or]
  exact ⟨named.ne_reserved (by simp), named.ne_reserved (by simp), named.ne_reserved (by simp)⟩

theorem leafKindOf_number {text : List Char} (number : NumberText text) (grouped : Bool) :
    leafKindOf grouped text = .number := by
  have noBacktick : ∀ {digits : List Char}, (∀ d ∈ digits, d.isDigit = true ∨ d = '.') →
      '`' ∉ digits := by
    intro digits each member
    rcases each _ member with digit | same
    · revert digit
      decide
    · revert same
      decide
  have other : ∀ {c : Char} (sign : Char), c.isDigit = true → sign.isDigit = false → c ≠ sign := by
    rintro c sign digit noDigit rfl
    rw [digit] at noDigit
    cases noDigit
  cases number with
  | unsigned digit others =>
      simp [leafKindOf, digit, noBacktick others, other '\'' digit (by decide),
        other '@' digit (by decide), (other '`' digit (by decide)).symm]
  | negative digit others =>
      simp [leafKindOf, noBacktick others, (other '`' digit (by decide)).symm]

end Aql

/-! ### Names of a scope -/

/-- The kind of an expression without parts. -/
def Expr.leafKind : Expr → LeafKind
  | field .. => .field
  | row _ => .row
  | param _ => .param
  | literal (.int _) => .number
  | literal (.float _) => .number
  | literal (.text _) => .text
  | _ => .constant

/-- A grouped field is the variable that it was grouped into. -/
theorem Scope.field_grouped {s : Scope} {terms : List GroupVariable}
    (grouped : s.grouped = some terms) {source : Nat} {name text : String}
    (is : s.field source name = .ok text) :
    ∃ v ∈ terms, v.source = source ∧ v.field = name ∧ text = v.name := by
  unfold field at is
  split at is
  · cases is
  · rw [grouped] at is
    dsimp only at is
    split at is
    · next v found =>
        cases is
        have chosen := List.find?_some found
        simp only [Bool.and_eq_true, beq_iff_eq] at chosen
        exact ⟨v, List.mem_of_find?_eq_some found, chosen.1, chosen.2, rfl⟩
    · cases is

/-- Any other field is a quoted name behind the variable of its source. -/
theorem Scope.field_ungrouped {s : Scope} (ungrouped : s.grouped = none) {source : Nat}
    {name text : String} (is : s.field source name = .ok text) : '`' ∉ name.toList ∧
      ∃ row, s.rowVariable source = .ok row ∧
        text.toList = row.toList ++ '.' :: '`' :: (name.toList ++ ['`']) := by
  obtain ⟨closed, ⟨_, row, found, rfl⟩ | ⟨_, _, grouped, _⟩⟩ := field_cases is
  · exact ⟨closed, row, found, by simp⟩
  · rw [ungrouped] at grouped
    cases grouped

namespace Scope.Readable

variable {s : Scope} (readable : s.Readable)
include readable

theorem rowVariable_cases {source : Nat} {word : String} (is : s.rowVariable source = .ok word) :
    IsSourceVariable source word ∨ (source = 0 ∧ (word = "OLD" ∨ word = "NEW")) := by
  cases pseudo : s.returned with
  | none =>
      simp only [rowVariable, pseudo] at is
      exact .inl (readable.sources is)
  | some other =>
      cases source with
      | zero =>
          simp only [rowVariable, pseudo] at is
          cases is
          exact .inr ⟨rfl, readable.pseudo _ pseudo⟩
      | succ source =>
          rw [rowVariable] at is
          · exact .inl (readable.sources is)
          · simp

theorem rowVariable_named {source : Nat} {word : String} (is : s.rowVariable source = .ok word) :
    IsName word := by
  rcases readable.rowVariable_cases is with named | ⟨_, pseudo⟩
  · exact .inl named.isVariable
  · exact .inr pseudo

/-- No two sources have the same variable. -/
theorem rowVariable_unique {source other : Nat} {word : String}
    (is : s.rowVariable source = .ok word) (is' : s.rowVariable other = .ok word) :
    source = other := by
  have noSource : ∀ {i : Nat}, word = "OLD" ∨ word = "NEW" → ¬ IsSourceVariable i word := by
    rintro i pseudo ⟨letter, lower, spelled⟩
    rcases pseudo with rfl | rfl <;>
    · rw [← (List.cons.inj spelled).1] at lower
      cases lower
  rcases readable.rowVariable_cases is with named | ⟨rfl, pseudo⟩
  · rcases readable.rowVariable_cases is' with named' | ⟨rfl, pseudo'⟩
    · exact named.position_eq named'
    · exact absurd named (noSource pseudo')
  · rcases readable.rowVariable_cases is' with named' | ⟨rfl, _⟩
    · exact absurd named' (noSource pseudo)
    · rfl

theorem field_variable {terms : List GroupVariable} (grouped : s.grouped = some terms)
    {source : Nat} {name text : String} (is : s.field source name = .ok text) :
    IsFieldVariable source name text := by
  obtain ⟨v, member, rfl, rfl, rfl⟩ := field_grouped grouped is
  exact readable.grouped terms grouped v member

/-- No two fields are written alike. -/
theorem field_unique {source other : Nat} {name word text : String}
    (is : s.field source name = .ok text) (is' : s.field other word = .ok text) :
    source = other ∧ name = word := by
  cases grouped : s.grouped with
  | some terms =>
      exact (readable.field_variable grouped is).unique (readable.field_variable grouped is')
  | none =>
      have apart : ∀ {i : Nat} {row : String}, s.rowVariable i = .ok row → '.' ∉ row.toList := by
        intro i row is member
        have all := (readable.rowVariable_named is).all_isWordChar
        exact absurd (List.all_eq_true.mp all _ member) (by decide)
      obtain ⟨_, row, found, spelled⟩ := field_ungrouped grouped is
      obtain ⟨_, row', found', spelled'⟩ := field_ungrouped grouped is'
      obtain ⟨rows, behind⟩ :=
        append_cons_inj (apart found) (apart found') (spelled.symm.trans spelled')
      obtain rfl := String.toList_injective rows
      have names := List.append_cancel_right (List.cons.inj behind).2
      exact ⟨readable.rowVariable_unique found found', String.toList_injective names⟩

theorem exists_leaf_field {source : Nat} {name text : String}
    (is : s.field source name = .ok text) : ∃ leaf : Leaf, leaf.text = text.toList := by
  cases grouped : s.grouped with
  | some terms => exact IsName.exists_leaf (.inl (readable.field_variable grouped is).isVariable)
  | none =>
      obtain ⟨closed, row, found, spelled⟩ := field_ungrouped grouped is
      have inner := inner_of_word (readable.rowVariable_named found).all_isWordChar
      refine ⟨.name (row.toList ++ ['.']) name.toList ?_ closed, by simp [Leaf.text, spelled]⟩
      exact List.forall_mem_append.mpr ⟨inner, List.forall_mem_singleton.mpr (by decide)⟩

theorem leafKind_field {source : Nat} {name text : String} (is : s.field source name = .ok text) :
    leafKindOf s.grouped.isSome text.toList = .field := by
  cases grouped : s.grouped with
  | some terms => exact IsName.leafKindOf (.inl (readable.field_variable grouped is).isVariable) _
  | none =>
      obtain ⟨_, row, found, spelled⟩ := field_ungrouped grouped is
      rw [spelled, (readable.rowVariable_named found).leafKindOf_append, if_pos (by simp)]

end Scope.Readable

theorem Scope.rowVariable_of_row {s : Scope} {source : Nat} {text : String}
    (is : s.row source = .ok text) : s.grouped = none ∧ s.rowVariable source = .ok text := by
  unfold row at is
  split at is
  · cases is
  · next ungrouped => exact ⟨by simpa using ungrouped, is⟩

theorem Scope.eq_of_param {s : Scope} {index : Nat} {text : String}
    (is : s.param index = .ok text) : text.toList = '@' :: digitsOf (index + 1) := by
  unfold param at is
  split at is
  · cases is
  · cases is
    rw [String.toList_append, toList_toString]
    rfl

/-- A number is written as its numeral. -/
theorem Expr.number_cases {s : Scope} {e : Expr} (number : e.leafKind = .number) {text : String}
    (is : e.render s = .ok text) :
    (∃ n : Int, e = .literal (.int n) ∧ text = toString n) ∨
      ∃ x : Double, e = .literal (.float x) ∧ text = x.plain := by
  cases e with
  | literal value =>
      cases value with
      | int n =>
          cases is
          exact .inl ⟨n, rfl, rfl⟩
      | float x =>
          change Literal.render _ = _ at is
          rw [Literal.render] at is
          split at is
          · cases is
            exact .inr ⟨x, rfl, rfl⟩
          · cases is
      | _ => cases number
  | _ => cases number

theorem Expr.numberText_of_render {s : Scope} {e : Expr} (number : e.leafKind = .number)
    {text : String} (is : e.render s = .ok text) : NumberText text.toList := by
  rcases number_cases number is with ⟨n, _, rfl⟩ | ⟨x, _, rfl⟩
  · exact numberText_toString n
  · exact numberText_plain x

theorem Literal.render_unique {value other : Literal} {text : String}
    (kinds : (Expr.literal value).leafKind = (Expr.literal other).leafKind)
    (is : value.render = .ok text) (is' : other.render = .ok text) :
    value = other ∨ ((Expr.literal value).leafKind = .number ∧
      (Expr.literal other).leafKind = .number) := by
  cases value with
  | int n => exact .inr ⟨rfl, kinds.symm⟩
  | float x => exact .inr ⟨rfl, kinds.symm⟩
  | text content =>
      cases other with
      | text content' =>
          cases is
          have same : quoteText content' = quoteText content := Except.ok.inj is'
          have texts : (quoteText content').toList ++ [] = (quoteText content).toList ++ [] := by
            rw [same]
          have contents := Statement.quoteText_unique texts
          exact .inl (by rw [contents.1])
      | _ => cases kinds
  | null =>
      cases other with
      | null => exact .inl rfl
      | bool b =>
          cases is
          cases b <;> exact absurd (Except.ok.inj is') (by decide)
      | _ => cases kinds
  | bool a =>
      cases other with
      | null =>
          cases is'
          cases a <;> exact absurd (Except.ok.inj is) (by decide)
      | bool b =>
          cases a <;> cases b
          · exact .inl rfl
          · cases is
            exact absurd (Except.ok.inj is') (by decide)
          · cases is
            exact absurd (Except.ok.inj is') (by decide)
          · exact .inl rfl
      | _ => cases kinds

namespace Expr

section

variable {s : Scope} (readable : s.Readable) {e : Expr} (isLeaf : e.isLeaf = true) {text : String}
  (is : e.render s = .ok text)
include readable isLeaf is

/-- An expression without parts is written as a leaf. -/
theorem exists_leaf : ∃ leaf : Leaf, leaf.text = text.toList := by
  cases e with
  | field source name => exact readable.exists_leaf_field is
  | row source =>
      exact (readable.rowVariable_named (Scope.rowVariable_of_row is).2).exists_leaf
  | param index =>
      rw [Scope.eq_of_param is]
      refine exists_word (List.forall_mem_cons.mpr ⟨by decide, fun c digit => ?_⟩) (by decide)
      exact isInner_of_isWordChar (isWordChar_of_isDigit (isDigit_of_mem_digitsOf digit))
  | literal value =>
      cases value with
      | null =>
          cases is
          exact ⟨.word _ (by decide) (List.all_eq_true.mp (by decide)) (by decide), rfl⟩
      | bool b =>
          cases b <;>
          · cases is
            exact ⟨.word _ (by decide) (List.all_eq_true.mp (by decide)) (by decide), rfl⟩
      | int n => exact exists_number (numberText_of_render rfl is)
      | float x => exact exists_number (numberText_of_render rfl is)
      | text content =>
          cases is
          exact ⟨.quoted content, rfl⟩
  | _ => cases isLeaf

theorem leafKindOf_render : leafKindOf s.grouped.isSome text.toList = e.leafKind := by
  cases e with
  | field source name => exact readable.leafKind_field is
  | row source =>
      obtain ⟨ungrouped, named⟩ := Scope.rowVariable_of_row is
      rw [ungrouped, (readable.rowVariable_named named).leafKindOf]
      rfl
  | param index =>
      rw [Scope.eq_of_param is]
      rfl
  | literal value =>
      cases value with
      | null =>
          cases is
          rfl
      | bool b =>
          cases b <;>
          · cases is
            rfl
      | int n => exact leafKindOf_number (numberText_of_render rfl is) _
      | float x => exact leafKindOf_number (numberText_of_render rfl is) _
      | text content =>
          cases is
          rw [Statement.toList_quoteText]
          rfl
  | _ => cases isLeaf

end

/-- Expressions without parts that are written alike are equal, but for numbers: a double can
be written as an integer is. -/
theorem leaf_unique {s : Scope} (readable : s.Readable) {e other : Expr} (isLeaf : e.isLeaf = true)
    (isLeaf' : other.isLeaf = true) {text : String} (is : e.render s = .ok text)
    (is' : other.render s = .ok text) :
    e = other ∨ (e.leafKind = .number ∧ other.leafKind = .number) := by
  have kinds : e.leafKind = other.leafKind := by
    rw [← leafKindOf_render readable isLeaf is, leafKindOf_render readable isLeaf' is']
  cases e with
  | field source name =>
      cases other with
      | field source' name' =>
          obtain ⟨rfl, rfl⟩ := readable.field_unique is is'
          exact .inl rfl
      | literal value => cases value <;> cases kinds
      | _ => cases kinds
  | row source =>
      cases other with
      | row source' =>
          obtain rfl := readable.rowVariable_unique (Scope.rowVariable_of_row is).2
            (Scope.rowVariable_of_row is').2
          exact .inl rfl
      | literal value => cases value <;> cases kinds
      | _ => cases kinds
  | param index =>
      cases other with
      | param index' =>
          have texts := (Scope.eq_of_param is).symm.trans (Scope.eq_of_param is')
          have digits := congrArg digitsValue (List.cons.inj texts).2
          rw [digitsValue_digitsOf, digitsValue_digitsOf] at digits
          obtain rfl := Nat.succ.inj digits
          exact .inl rfl
      | literal value => cases value <;> cases kinds
      | _ => cases kinds
  | literal value =>
      cases other with
      | literal value' =>
          rcases Literal.render_unique kinds is is' with rfl | numbers
          · exact .inl rfl
          · exact .inr numbers
      | field source' name' => cases value <;> cases kinds
      | row source' => cases value <;> cases kinds
      | param index' => cases value <;> cases kinds
      | _ => cases isLeaf'
  | _ => cases isLeaf

end Expr

/-- The names of a query can be told apart at its start. -/
theorem Query.scope_readable {q : Query} {s : Scope} (is : q.scope = .ok s) : s.Readable where
  toWorded := scope_worded is
  pseudo := by
    obtain ⟨_, rfl⟩ := scope_eq_ok_iff.mp is
    simp

end DocStore
