/-
Module: DocStore.Proofs.Query.Within
Purpose: expressions that name certain sources only, and the variables that they are written
  with.
Main exports:
  Aql.IsFunctionName, Expr.Within, Scope.Shows, Expr.Within.mentions
-/
import DocStore.Proofs.Query.Mentions

namespace DocStore

namespace Aql

/-! ### Functions -/

/-- A word for a function or for a space of functions: it does not start with a digit, starts
no clause and stands for no changed document. -/
structure IsFunctionPart (word : String) : Prop where
  spelled : ∃ c letters, word.toList = c :: letters ∧ isWordChar c = true ∧
    c.isDigit = false ∧ letters.all isWordChar = true
  noClause : clauseKind? word.toList = none
  noPseudo : isPseudo word.toList = false

/-- The name of a function behind the spaces that it is in. -/
def IsFunctionName (function : String) : Prop :=
  ∃ parts, parts ≠ [] ∧ (∀ part ∈ parts, IsFunctionPart part) ∧ function = Text.join "::" parts

theorem IsFunctionPart.isFunctionName {word : String} (part : IsFunctionPart word) :
    IsFunctionName word :=
  ⟨[word], by simp, by simpa using part, by simp [Text.join]⟩

theorem IsFunctionPart.scan {word : String} (part : IsFunctionPart word) :
    Aql.scan .rest word.toList = ([], .word word.toList) := by
  rcases part.spelled with ⟨c, letters, spelled, ofWord, noDigit, all⟩
  rw [spelled, scan_rest_identifier ofWord noDigit all]

/-- A function before its arguments mentions no variable. -/
theorem IsFunctionPart.roles {word : String} (part : IsFunctionPart word) {after : List Token}
    (called : startsCall after = true) :
    Aql.roles .free (.word word.toList :: after) = Aql.roles .free after := by
  have silent : role .free word.toList after = [] := by
    simp [role, part.noPseudo, called]
  -- No word stands behind it, so that it does not matter whether it is `INTO`.
  have sign : ∃ c rest, after = .sign c :: rest := by
    cases after with
    | nil => cases called
    | cons t rest => cases t <;> simp_all [startsCall]
  rcases sign with ⟨c, rest, rfl⟩
  rw [Aql.roles, silent]
  rfl

/-- The name of a function mentions no variable before its arguments. -/
structure Calls (function : String) : Prop where
  closed : (endState function).isClosed = true
  plain : ∀ t ∈ tokens function, t.clauseKind? = none
  silent : ∀ after, startsCall after = true →
    roles .free (tokens function ++ after) = roles .free after

theorem IsFunctionPart.calls {word : String} (part : IsFunctionPart word) : Calls word := by
  have read := tokens_of_scan_word part.scan
  constructor
  · rw [endState, part.scan]
    rfl
  · rw [read]
    simpa [Token.clauseKind?] using part.noClause
  · intro after called
    rw [read]
    exact part.roles called

theorem IsFunctionPart.calls_behind {word rest : String} (part : IsFunctionPart word)
    (calls : Calls rest) : Calls (word ++ ("::" ++ rest)) := by
  have closed := part.calls.closed
  have led : endState "::" = .rest := by decide
  have fresh : startsFresh ("::" ++ rest).toList = true := by
    rw [String.toList_append]
    rfl
  have read : tokens (word ++ ("::" ++ rest)) =
      .word word.toList :: .sign ':' :: .sign ':' :: tokens rest := by
    rw [tokens_append_of_fresh closed fresh, tokens_append_of_rest led,
      tokens_of_scan_word part.scan]
    rfl
  constructor
  · refine isClosed_append_of_fresh closed fresh ?_
    rw [endState_append_of_rest led]
    exact calls.closed
  · rw [read]
    simpa [Token.clauseKind?, part.noClause] using calls.plain
  · intro after called
    rw [read, List.cons_append, part.roles rfl]
    exact calls.silent after called

theorem IsFunctionName.calls {function : String} (named : IsFunctionName function) :
    Calls function := by
  rcases named with ⟨parts, filled, each, rfl⟩
  induction parts with
  | nil => exact absurd rfl filled
  | cons part parts inductionHypothesis =>
      rw [List.forall_mem_cons] at each
      cases parts with
      | nil =>
          rw [Text.join]
          exact each.1.calls
      | cons next parts =>
          rw [join_cons_cons]
          exact each.1.calls_behind (inductionHypothesis (by simp) each.2)

/-- A function with its arguments mentions what they mention. -/
theorem IsFunctionName.mentions {function : String} (named : IsFunctionName function)
    {introduced visible pseudo : List (List Char)} {text : String}
    (arguments : Mentions introduced visible pseudo text) :
    Mentions introduced visible pseudo (function ++ parens text) := by
  have calls := named.calls
  have fresh : startsFresh (parens text).toList = true := by
    rw [parens, String.append_assoc, String.toList_append]
    rfl
  have read := tokens_append_of_fresh calls.closed fresh
  have opens : ∀ after, startsCall (tokens (parens text) ++ after) = true := by
    intro after
    rw [parens, String.append_assoc, tokens_append_of_rest (by decide)]
    rfl
  constructor
  · exact isClosed_append_of_fresh calls.closed fresh arguments.parens.closed
  · rw [read]
    exact List.forall_mem_append.mpr ⟨calls.plain, arguments.parens.plain⟩
  · intro after closing
    obtain ⟨found, isFound, reads⟩ := arguments.parens.found after closing
    refine ⟨found, isFound, ?_⟩
    rw [read, List.append_assoc, calls.silent _ (opens after), reads]

end Aql

open Aql

/-! ### Expressions -/

mutual

/-- An expression that names certain sources only.  Its functions have names, and no text
is taken as it is.  Whatever is looked for in the empty list is not written. -/
inductive Expr.Within (reach : Nat → Prop) : Expr → Prop where
  | field {source : Nat} (inReach : reach source) (name : String) :
      Expr.Within reach (.field source name)
  | row {source : Nat} (inReach : reach source) : Expr.Within reach (.row source)
  | param (index : Nat) : Expr.Within reach (.param index)
  | literal (value : Literal) : Expr.Within reach (.literal value)
  | list {items : List Expr} (within : Expr.AllWithin reach items) :
      Expr.Within reach (.list items)
  | binary (op : BinaryOp) {left right : Expr} (withinLeft : Expr.Within reach left)
      (withinRight : Expr.Within reach right) : Expr.Within reach (.binary op left right)
  | not {operand : Expr} (within : Expr.Within reach operand) : Expr.Within reach (.not operand)
  | nowhere (item : Expr) : Expr.Within reach (.member item (.list []))
  | member {item collection : Expr} (withinItem : Expr.Within reach item)
      (withinCollection : Expr.Within reach collection) :
      Expr.Within reach (.member item collection)
  | isNull {operand : Expr} (within : Expr.Within reach operand) :
      Expr.Within reach (.isNull operand)
  | call {function : String} (named : IsFunctionName function) {arguments : List Expr}
      (within : Expr.AllWithin reach arguments) : Expr.Within reach (.call function arguments)
  | countRows : Expr.Within reach .countRows
  | countOf {target : Expr} (within : Expr.Within reach target) :
      Expr.Within reach (.countOf target)

/-- Expressions that name certain sources only, one after the other. -/
inductive Expr.AllWithin (reach : Nat → Prop) : List Expr → Prop where
  | nil : Expr.AllWithin reach []
  | cons {e : Expr} {rest : List Expr} (within : Expr.Within reach e)
      (others : Expr.AllWithin reach rest) : Expr.AllWithin reach (e :: rest)

end

theorem Expr.allWithin_iff {reach : Nat → Prop} {es : List Expr} :
    Expr.AllWithin reach es ↔ ∀ e ∈ es, e.Within reach := by
  induction es with
  | nil => exact ⟨fun _ => by simp, fun _ => .nil⟩
  | cons e es inductionHypothesis =>
      rw [List.forall_mem_cons, ← inductionHypothesis]
      constructor
      · rintro (_ | ⟨within, others⟩)
        exact ⟨within, others⟩
      · rintro ⟨within, others⟩
        exact .cons within others

/-- What the names in a scope are written with can be mentioned: the rows of certain sources
before grouping, and the group variables after it. -/
structure Scope.Shows (s : Scope) (reach : Nat → Prop) (visible pseudo : List (List Char)) :
    Prop where
  rows : s.grouped = none → ∀ {source : Nat} {word : String}, reach source →
    s.rowVariable source = .ok word → Mentionable visible pseudo word
  groups : ∀ terms ∈ s.grouped, ∀ v ∈ terms, Mentionable visible pseudo v.name

section

variable {s : Scope} {reach : Nat → Prop} {visible pseudo : List (List Char)}

/-- What is shown of more sources is shown of fewer. -/
theorem Scope.Shows.narrow (shows : s.Shows reach visible pseudo) {fewer : Nat → Prop}
    (narrower : ∀ source, fewer source → reach source) : s.Shows fewer visible pseudo where
  rows := fun ungrouped _ _ inReach found => shows.rows ungrouped (narrower _ inReach) found
  groups := shows.groups

theorem Scope.Shows.field (shows : s.Shows reach visible pseudo) {source : Nat} {name text : String}
    (inReach : reach source) (is : s.field source name = .ok text) :
    Mentions [] visible pseudo text := by
  obtain ⟨noBacktick, ⟨ungrouped, row, found, rfl⟩ | ⟨terms, v, grouped, member, _, rfl⟩⟩ :=
    field_cases is
  · exact (shows.rows ungrouped inReach found).field noBacktick
  · exact (shows.groups terms grouped v member).mentions

theorem Scope.Shows.row (shows : s.Shows reach visible pseudo) {source : Nat} {text : String}
    (inReach : reach source) (is : s.row source = .ok text) :
    Mentions [] visible pseudo text := by
  unfold Scope.row at is
  split at is
  · cases is
  · next ungrouped =>
      have noGroups : s.grouped = none := by simpa using ungrouped
      exact (shows.rows noGroups inReach is).mentions

namespace Expr

theorem mentions_asOperand (e : Expr) {text : String} (piece : Mentions [] visible pseudo text) :
    Mentions [] visible pseudo (e.asOperand text) := by
  unfold asOperand
  split
  · exact piece.parens
  · exact piece

mutual

/-- An expression mentions the variables of the sources that it names. -/
theorem Within.mentions (shows : s.Shows reach visible pseudo) {e : Expr} (within : e.Within reach)
    {text : String} (is : e.render s = .ok text) : Mentions [] visible pseudo text := by
  cases within with
  | field inReach name => exact shows.field inReach is
  | row inReach => exact shows.row inReach is
  | param index =>
      rw [render, Scope.param] at is
      split at is
      · cases is
      · cases is
        exact .param (index + 1)
  | literal value => exact .literal is
  | list within =>
      obtain ⟨texts, are, rest⟩ := exceptBind_eq_ok_iff.mp is
      cases rest
      rw [String.append_assoc]
      exact ((Mentions.joinUsing (within.mentionsAll shows are)).ended (by decide)).behind
        (by decide)
  | @binary op left right withinLeft withinRight =>
      obtain ⟨l, isLeft, rest⟩ := exceptBind_eq_ok_iff.mp is
      obtain ⟨r, isRight, rest⟩ := exceptBind_eq_ok_iff.mp rest
      cases rest
      have link : isLink (" " ++ op.symbol ++ " ") = true := by
        cases op <;> decide
      have whole := (left.mentions_asOperand (withinLeft.mentions shows isLeft)).linked link
        (right.mentions_asOperand (withinRight.mentions shows isRight))
      simpa only [String.append_assoc, List.append_nil] using whole
  | not within =>
      obtain ⟨operand, isOperand, rest⟩ := exceptBind_eq_ok_iff.mp is
      cases rest
      exact (within.mentions shows isOperand).parens.behind (by decide)
  | nowhere item =>
      rw [render] at is
      cases is
      exact .quiet (by decide) (by decide)
  | @member item collection withinItem withinCollection =>
      by_cases empty : collection = .list []
      · subst empty
        rw [render] at is
        cases is
        exact .quiet (by decide) (by decide)
      · rw [render_member empty] at is
        obtain ⟨left, isLeft, rest⟩ := exceptBind_eq_ok_iff.mp is
        obtain ⟨right, isRight, rest⟩ := exceptBind_eq_ok_iff.mp rest
        cases rest
        rw [String.append_assoc]
        exact (item.mentions_asOperand (withinItem.mentions shows isLeft)).linked (by decide)
          (withinCollection.mentions shows isRight)
  | @isNull operand within =>
      obtain ⟨text, isOperand, rest⟩ := exceptBind_eq_ok_iff.mp is
      cases rest
      exact (operand.mentions_asOperand (within.mentions shows isOperand)).ended (by decide)
  | call named within =>
      obtain ⟨texts, are, rest⟩ := exceptBind_eq_ok_iff.mp is
      cases rest
      exact named.mentions (Mentions.joinUsing (within.mentionsAll shows are))
  | countRows => cases is
  | countOf _ => cases is

/-- Each of some expressions mentions the variables of the sources that they name. -/
theorem AllWithin.mentionsAll (shows : s.Shows reach visible pseudo) {es : List Expr}
    (within : AllWithin reach es) {texts : List String} (are : renderAll s es = .ok texts) :
    ∀ text ∈ texts, Mentions [] visible pseudo text := by
  cases within with
  | nil =>
      cases are
      simp
  | cons first others =>
      obtain ⟨text, isText, rest⟩ := exceptBind_eq_ok_iff.mp are
      obtain ⟨more, areMore, rest⟩ := exceptBind_eq_ok_iff.mp rest
      cases rest
      exact List.forall_mem_cons.mpr
        ⟨first.mentions shows isText, others.mentionsAll shows areMore⟩

end

end Expr

end

end DocStore
