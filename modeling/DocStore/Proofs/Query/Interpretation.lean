/-
Module: DocStore.Proofs.Query.Interpretation
Purpose: what expressions mean part by part, and that their texts, read from left to right, mean
  the same wherever the text shows which operands belong together.
Main exports:
  Interpretation, Expr.interpret, Aql.Line.interpret, Expr.Grouped,
  Expr.Grouped.interpret_eq_of_render_eq
-/
import DocStore.Proofs.Query.Leaves

namespace DocStore

open Aql Text

/-- What expressions mean, put together from what their parts mean. -/
structure Interpretation (α : Type) where
  leaf : Expr → α
  list : List α → α
  binary : BinaryOp → α → α → α
  not : α → α
  member : α → α → α
  call : String → List α → α

namespace Expr

/-! ### Expressions -/

section

variable {α : Type} (i : Interpretation α)

mutual

/-- What an expression means.  To be missing is to be equal to null, and nothing is a member of
an empty list. -/
def interpret : Expr → α
  | field source name => i.leaf (field source name)
  | row source => i.leaf (row source)
  | param index => i.leaf (param index)
  | literal value => i.leaf (literal value)
  | list items => i.list (interpretAll items)
  | binary op left right => i.binary op left.interpret right.interpret
  | not operand => i.not operand.interpret
  | member _ (list []) => i.leaf (literal (.bool false))
  | member item collection => i.member item.interpret collection.interpret
  | isNull operand => i.binary .eq operand.interpret (i.leaf (literal .null))
  | call function arguments => i.call function (interpretAll arguments)
  | raw text => i.leaf (raw text)
  | fragment parts => i.leaf (fragment parts)
  | countRows => i.leaf countRows
  | countOf target => i.leaf (countOf target)

/-- What expressions mean, one after the other. -/
def interpretAll : List Expr → List α
  | [] => []
  | e :: rest => e.interpret :: interpretAll rest

end

theorem interpret_leaf {e : Expr} (isLeaf : e.isLeaf = true) : e.interpret i = i.leaf e := by
  cases e with
  | field source name => rfl
  | row source => rfl
  | param index => rfl
  | literal value => rfl
  | _ => cases isLeaf

theorem interpret_member {item collection : Expr} (filled : collection ≠ .list []) :
    (member item collection).interpret i =
      i.member (item.interpret i) (collection.interpret i) := by
  rw [interpret]
  rintro rfl
  exact filled rfl

end

/-- Whether an expression is written as operands with a sign between them. -/
def isInfix : Expr → Bool
  | binary .. => true
  | member _ (list []) => false
  | member .. => true
  | isNull _ => true
  | _ => false

/-- Whether the first operand of what an expression is written as is null. -/
def startsWithNull : Expr → Bool
  | literal .null => true
  | member _ (list []) => false
  | member item _ => item.startsWithNull
  | isNull operand => operand.startsWithNull
  | _ => false

theorem isInfix_member {item collection : Expr} (filled : collection ≠ .list []) :
    (member item collection).isInfix = true := by
  rw [isInfix]
  rintro rfl
  exact filled rfl

theorem startsWithNull_member {item collection : Expr} (filled : collection ≠ .list []) :
    (member item collection).startsWithNull = item.startsWithNull := by
  rw [startsWithNull]
  rintro rfl
  exact filled rfl

end Expr

namespace Aql

/-! ### Lines -/

/-- Whether a term is the word for null. -/
def Term.isNull : Term → Bool
  | .leaf own => own.text == "NULL".toList
  | _ => false

/-- Whether what is before a sign and the term behind it belong together when a further sign
follows. -/
def Sign.binds : Sign → Term → Bool
  | .among, _ => true
  | .operator .eq, term => term.isNull
  | .operator _, _ => false

/-- The first term of a line. -/
def Line.first : Line → Term
  | .single term => term
  | .chain term _ _ => term

theorem Line.first_append (line : Line) (sign : Sign) (rest : Line) :
    (line.append sign rest).first = line.first := by
  cases line <;> rfl

section

variable {α : Type} (i : Interpretation α) (leafOf : Leaf → α)

/-- What two operands with a sign between them mean. -/
def Sign.join : Sign → α → α → α
  | .operator op => i.binary op
  | .among => i.member

mutual

/-- What a term means. -/
def Term.interpret : Term → α
  | .leaf leaf => leafOf leaf
  | .list items => i.list (Line.interpretAll items)
  | .call function _ _ arguments => i.call (String.ofList function) (Line.interpretAll arguments)
  | .not operand => i.not operand.interpret
  | .group inner => inner.interpret

/-- What a line means. -/
def Line.interpret : Line → α
  | .single term => term.interpret
  | .chain first sign rest => Line.after sign first.interpret rest

/-- What a line means behind an operand and a sign. -/
def Line.after (sign : Sign) (before : α) : Line → α
  | .single term => sign.join i before term.interpret
  | .chain first next rest =>
      if sign.binds first then Line.after next (sign.join i before first.interpret) rest
      else sign.join i before (Line.after next first.interpret rest)

/-- What lines mean, one after the other. -/
def Line.interpretAll : List Line → List α
  | [] => []
  | line :: rest => line.interpret :: Line.interpretAll rest

end

theorem Line.interpretAll_eq (lines : List Line) :
    Line.interpretAll i leafOf lines = lines.map (Line.interpret i leafOf) := by
  induction lines with
  | nil => rfl
  | cons line rest inductionHypothesis => rw [interpretAll, inductionHypothesis, List.map_cons]

/-- A line behind a sign that does not bind its first term is the right operand. -/
theorem Line.after_eq {sign : Sign} {line : Line}
    (apart : sign.binds line.first = false ∨ ∃ term, line = .single term) (before : α) :
    Line.after i leafOf sign before line = sign.join i before (line.interpret i leafOf) := by
  cases line with
  | single term => rfl
  | chain first next rest =>
      rcases apart with loose | ⟨term, alone⟩
      · have unbound : sign.binds first = false := loose
        rw [after, unbound]
        rfl
      · cases alone

end

end Aql

/-! ### Expressions whose texts show what belongs together

Only a pair of operands around an operator is put in parentheses.  The other two kinds of infix
expressions, those of membership and of missing values, are written into the text around them.
That text is read from the left: the operands before `IN` or `== NULL` are one operand of the sign
that follows.  What is meant otherwise has two meanings in one text: an infix collection, and a
right operand of `==` that is infix itself and begins with null.
-/

mutual

/-- Expressions without texts taken as they are, whose operands are put in parentheses wherever
the reading from the left would take them apart. -/
inductive Expr.Grouped : Expr → Prop where
  | leaf {e : Expr} (isLeaf : e.isLeaf = true) : Expr.Grouped e
  | list {items : List Expr} (all : Expr.AllGrouped items) : Expr.Grouped (.list items)
  | binary (op : BinaryOp) {left right : Expr} (ofLeft : Expr.Grouped left)
      (ofRight : Expr.Grouped right)
      (apart : op = .eq → right = .literal .null ∨ right.startsWithNull = false) :
      Expr.Grouped (.binary op left right)
  | not {operand : Expr} (inner : Expr.Grouped operand) : Expr.Grouped (.not operand)
  | memberOfNone (item : Expr) : Expr.Grouped (.member item (.list []))
  | member {item collection : Expr} (ofItem : Expr.Grouped item)
      (ofCollection : Expr.Grouped collection) (alone : collection.isInfix = false) :
      Expr.Grouped (.member item collection)
  | isNull {operand : Expr} (inner : Expr.Grouped operand) : Expr.Grouped (.isNull operand)
  | call {function : String} (filled : function ≠ "")
      (inner : ∀ c ∈ function.toList, isInner c = true) {arguments : List Expr}
      (all : Expr.AllGrouped arguments) : Expr.Grouped (.call function arguments)
  /-- A count inside of an expression has no text. -/
  | count {e : Expr} (isCount : e.isCount = true) : Expr.Grouped e

/-- Rows of such expressions. -/
inductive Expr.AllGrouped : List Expr → Prop where
  | nil : Expr.AllGrouped []
  | cons {e : Expr} {rest : List Expr} (first : Expr.Grouped e) (others : Expr.AllGrouped rest) :
      Expr.AllGrouped (e :: rest)

end

section

variable {α : Type} (s : Scope) (i : Interpretation α) (leafOf : Leaf → α)

/-- A line that an expression is written as, and that means the same. -/
structure Expr.WrittenAs (e : Expr) (text : String) (line : Line) : Prop where
  spelled : line.text = text.toList
  means : line.interpret i leafOf = e.interpret i

/-- A line that an expression is written as where it is the first of several operands. -/
structure Expr.Opens (e : Expr) (text : String) (line : Line) : Prop
    extends Expr.WrittenAs i leafOf e text line where
  alone : e.isInfix = false → ∃ term, line = .single term
  opens : ∀ sign rest, (line.append sign rest).interpret i leafOf =
    rest.after i leafOf sign (e.interpret i)
  starts : line.first.isNull = e.startsWithNull

/-- What leaves mean is what the expressions mean that are written as them. -/
def LeavesMean : Prop :=
  ∀ e : Expr, e.isLeaf = true → ∀ leaf : Leaf, e.render s = .ok (String.ofList leaf.text) →
    leafOf leaf = i.leaf e

end

section

variable {α : Type} {s : Scope} {i : Interpretation α} {leafOf : Leaf → α}

/-- If leaves of the same text mean the same, their texts have a meaning. -/
theorem exists_leavesMean (same : ∀ e other text, e.isLeaf = true → other.isLeaf = true →
    e.render s = .ok text → other.render s = .ok text → i.leaf e = i.leaf other) :
    ∃ leafOf : Leaf → α, LeavesMean s i leafOf := by
  classical
  have chosen : ∀ leaf : Leaf, ∃ a : α, ∀ e : Expr, e.isLeaf = true →
      e.render s = .ok (String.ofList leaf.text) → a = i.leaf e := by
    intro leaf
    by_cases written : ∃ e : Expr, e.isLeaf = true ∧ e.render s = .ok (String.ofList leaf.text)
    · obtain ⟨e, isLeaf, is⟩ := written
      exact ⟨i.leaf e, fun other isLeaf' is' => same e other _ isLeaf isLeaf' is is'⟩
    · exact ⟨i.leaf .countRows, fun e isLeaf is => absurd ⟨e, isLeaf, is⟩ written⟩
  choose leafOf means using chosen
  exact ⟨leafOf, fun e isLeaf leaf is => means leaf e isLeaf is⟩

namespace Expr

theorem Opens.single {e : Expr} {text : String} (term : Term) (spelled : term.text = text.toList)
    (means : term.interpret i leafOf = e.interpret i) (starts : term.isNull = e.startsWithNull) :
    e.Opens i leafOf text (.single term) where
  spelled := spelled
  means := means
  alone := fun _ => ⟨term, rfl⟩
  opens := by
    intro sign rest
    rw [Line.append, Line.interpret, means]
  starts := starts

/-- A line in parentheses is an operand. -/
theorem WrittenAs.grouped {e : Expr} {text : String} {line : Line}
    (written : e.WrittenAs i leafOf text line) (binary : e.isBinary = true) :
    e.Opens i leafOf (parens text) (.single (.group line)) := by
  refine .single _ ?_ written.means ?_
  · simp [Term.text, written.spelled, parens]
  · cases e with
    | binary => rfl
    | _ => cases binary

/-- Behind an operand, a sign and a term that it binds, what is read so far is one operand. -/
theorem Opens.bind {operand : Expr} {text text' : String} {line : Line}
    (before : operand.Opens i leafOf text line) (whole : Expr) (sign : Sign) (term : Term)
    (binds : sign.binds term = true)
    (spelled : line.text ++ (sign.text ++ term.text) = text'.toList)
    (means : sign.join i (operand.interpret i) (term.interpret i leafOf) = whole.interpret i)
    (isInfix : whole.isInfix = true) (starts : whole.startsWithNull = operand.startsWithNull) :
    whole.Opens i leafOf text' (line.append sign (.single term)) where
  spelled := by rw [Line.append_text, Line.text, spelled]
  means := by rw [before.opens, Line.after, means]
  alone := by
    intro noInfix
    rw [isInfix] at noInfix
    cases noInfix
  opens := by
    intro next rest
    rw [Line.append_append, before.opens, Line.after, binds, if_pos rfl, means]
  starts := by rw [Line.first_append, before.starts, starts]

/-- An expression that is no pair of operands stands as an operand as it is written. -/
theorem exists_operand {e : Expr} {text : String}
    (written : ∃ line, e.WrittenAs i leafOf text line ∧
      (e.isBinary = false → e.Opens i leafOf text line)) :
    ∃ line, e.Opens i leafOf (e.asOperand text) line := by
  obtain ⟨line, written, opens⟩ := written
  cases binary : e.isBinary with
  | true => exact ⟨_, by simpa [asOperand, binary] using written.grouped binary⟩
  | false => exact ⟨line, by simpa [asOperand, binary] using opens binary⟩

theorem Opens.exists_line {e : Expr} {text : String} {line : Line}
    (opens : e.Opens i leafOf text line) :
    ∃ line, e.WrittenAs i leafOf text line ∧ (e.isBinary = false → e.Opens i leafOf text line) :=
  ⟨line, opens.toWrittenAs, fun _ => opens⟩

theorem startsWithNull_leaf (readable : s.Readable) {e : Expr} (isLeaf : e.isLeaf = true)
    {text : String} (is : e.render s = .ok text) :
    (text.toList == "NULL".toList) = e.startsWithNull := by
  by_cases null : e = .literal .null
  · subst null
    cases is
    rfl
  · have other : e.startsWithNull = false := by
      cases e with
      | literal value =>
          cases value with
          | null => exact absurd rfl null
          | _ => rfl
      | member => cases isLeaf
      | isNull => cases isLeaf
      | _ => rfl
    rw [other, beq_eq_false_iff_ne]
    intro spelled
    obtain rfl := String.toList_injective spelled
    rcases leaf_unique readable isLeaf rfl is (rfl : (literal .null).render s = .ok "NULL") with
      same | ⟨_, number⟩
    · exact null same
    · cases number

theorem enclosed_of_texts {lines : List Line} {texts : List String}
    (spelled : lines.map Line.text = texts.map String.toList) :
    Line.enclosed lines = (join ", " texts).toList := by
  rw [Line.enclosed_eq, spelled, toList_join]

/-- The leaf of a constant. -/
theorem exists_constant (leaves : LeavesMean s i leafOf) (value : Literal)
    (constant : value = .null ∨ value = .bool false) :
    ∃ leaf : Leaf, value.render = .ok (String.ofList leaf.text) ∧
      leafOf leaf = i.leaf (.literal value) := by
  have named : ∃ leaf : Leaf, value.render = .ok (String.ofList leaf.text) := by
    rcases constant with rfl | rfl
    · exact ⟨.word "NULL".toList (by decide) (List.all_eq_true.mp (by decide)) (by decide), rfl⟩
    · exact ⟨.word "FALSE".toList (by decide) (List.all_eq_true.mp (by decide)) (by decide), rfl⟩
  obtain ⟨leaf, spelled⟩ := named
  exact ⟨leaf, spelled, leaves (.literal value) rfl leaf spelled⟩

theorem exists_opens_memberOfNone (leaves : LeavesMean s i leafOf) (item : Expr) :
    ∃ line, (member item (.list [])).Opens i leafOf "FALSE" line := by
  obtain ⟨leaf, spelled, means⟩ := exists_constant leaves (.bool false) (.inr rfl)
  have text : leaf.text = "FALSE".toList := by
    rw [Except.ok.inj spelled, String.toList_ofList]
  exact ⟨_, .single (.leaf leaf) text means (by rw [Term.isNull, text]; rfl)⟩

mutual

/-- What such an expression is written as, read from the left, means what the expression does. -/
theorem Grouped.exists_line (readable : s.Readable) (leaves : LeavesMean s i leafOf) {e : Expr}
    (grouped : e.Grouped) {text : String} (is : e.render s = .ok text) :
    ∃ line, e.WrittenAs i leafOf text line ∧ (e.isBinary = false → e.Opens i leafOf text line) := by
  cases grouped with
  | leaf isLeaf =>
      obtain ⟨leaf, spelled⟩ := exists_leaf readable isLeaf is
      have means := leaves e isLeaf leaf (by rw [spelled, String.ofList_toList, is])
      refine (Opens.single (.leaf leaf) spelled ?_ ?_).exists_line
      · rw [Term.interpret, means, interpret_leaf i isLeaf]
      · rw [Term.isNull, spelled, startsWithNull_leaf readable isLeaf is]
  | list all =>
      obtain ⟨texts, items, same⟩ := exceptBind_eq_ok_iff.mp is
      cases same
      obtain ⟨lines, spelled, means⟩ := all.exists_lines readable leaves items
      refine (Opens.single (.list lines) ?_ ?_ rfl).exists_line
      · simp [Term.text, enclosed_of_texts spelled]
      · rw [Term.interpret, means, interpret]
  | @binary op left right ofLeft ofRight apart =>
      obtain ⟨leftText, isLeft, rest⟩ := exceptBind_eq_ok_iff.mp is
      obtain ⟨rightText, isRight, same⟩ := exceptBind_eq_ok_iff.mp rest
      cases same
      obtain ⟨leftLine, before⟩ := exists_operand (ofLeft.exists_line readable leaves isLeft)
      obtain ⟨rightLine, behind⟩ := exists_operand (ofRight.exists_line readable leaves isRight)
      have loose : (Sign.operator op).binds rightLine.first = false ∨
          ∃ term, rightLine = .single term := by
        by_cases equation : op = .eq
        · subst equation
          rcases apart rfl with rfl | other
          · exact .inr (behind.alone rfl)
          · exact .inl (behind.starts.trans other)
        · refine .inl ?_
          cases op <;> first | rfl | exact absurd rfl equation
      refine ⟨leftLine.append (.operator op) rightLine, ⟨?_, ?_⟩, fun noPair => by cases noPair⟩
      · rw [Line.append_text, before.spelled, behind.spelled]
        simp [Sign.text, Sign.symbol]
      · rw [before.opens, Line.after_eq i leafOf loose, behind.means]
        rfl
  | not inner =>
      obtain ⟨operand, isOperand, same⟩ := exceptBind_eq_ok_iff.mp is
      cases same
      obtain ⟨line, written, _⟩ := inner.exists_line readable leaves isOperand
      refine (Opens.single (.not line) ?_ ?_ rfl).exists_line
      · simp [Term.text, written.spelled, parens, negator]
      · rw [Term.interpret, written.means, interpret]
  | memberOfNone item =>
      cases is
      obtain ⟨line, opens⟩ := exists_opens_memberOfNone leaves item
      exact opens.exists_line
  | @member item collection ofItem ofCollection alone =>
      by_cases empty : collection = .list []
      · subst empty
        cases is
        obtain ⟨line, opens⟩ := exists_opens_memberOfNone leaves item
        exact opens.exists_line
      · rw [render_member empty] at is
        obtain ⟨itemText, isItem, rest⟩ := exceptBind_eq_ok_iff.mp is
        obtain ⟨text, isCollection, same⟩ := exceptBind_eq_ok_iff.mp rest
        cases same
        obtain ⟨line, before⟩ := exists_operand (ofItem.exists_line readable leaves isItem)
        obtain ⟨behind, ⟨spelled, means⟩, opens⟩ :=
          ofCollection.exists_line readable leaves isCollection
        have noPair : collection.isBinary = false := by
          cases collection with
          | binary => cases alone
          | _ => rfl
        obtain ⟨term, rfl⟩ := (opens noPair).alone alone
        refine (before.bind (.member item collection) .among term rfl ?_ ?_
          (isInfix_member empty) (startsWithNull_member empty)).exists_line
        · rw [before.spelled, show term.text = text.toList from spelled]
          simp [Sign.text, Sign.symbol]
        · rw [interpret_member i empty, ← means]
          rfl
  | @isNull operand inner =>
      obtain ⟨text, isOperand, same⟩ := exceptBind_eq_ok_iff.mp is
      cases same
      obtain ⟨line, before⟩ := exists_operand (inner.exists_line readable leaves isOperand)
      obtain ⟨leaf, constant, means⟩ := exists_constant leaves .null (.inl rfl)
      have spelled : leaf.text = "NULL".toList := by
        rw [Except.ok.inj constant, String.toList_ofList]
      refine (before.bind (.isNull operand) (.operator .eq) (.leaf leaf) ?_ ?_ ?_ rfl
        rfl).exists_line
      · rw [Sign.binds, Term.isNull, spelled]
        rfl
      · rw [before.spelled, Term.text, spelled]
        simp [Sign.text, Sign.symbol, BinaryOp.symbol]
      · rw [Term.interpret, means]
        rfl
  | @call function filled inner arguments all =>
      obtain ⟨texts, areArguments, same⟩ := exceptBind_eq_ok_iff.mp is
      cases same
      obtain ⟨lines, spelled, means⟩ := all.exists_lines readable leaves areArguments
      have named : function.toList ≠ [] := fun empty => filled (String.toList_injective empty)
      refine (Opens.single (.call function.toList named inner lines) ?_ ?_ rfl).exists_line
      · simp [Term.text, enclosed_of_texts spelled, parens]
      · rw [Term.interpret, means, interpret, String.ofList_toList]
  | count isCount =>
      cases e with
      | countRows => cases is
      | countOf target => cases is
      | _ => cases isCount

/-- What rows of such expressions are written as. -/
theorem AllGrouped.exists_lines (readable : s.Readable) (leaves : LeavesMean s i leafOf)
    {es : List Expr} (grouped : AllGrouped es) {texts : List String}
    (are : renderAll s es = .ok texts) :
    ∃ lines : List Line, lines.map Line.text = texts.map String.toList ∧
      Line.interpretAll i leafOf lines = interpretAll i es := by
  cases grouped with
  | nil =>
      cases are
      exact ⟨[], rfl, rfl⟩
  | cons first others =>
      obtain ⟨text, isFirst, rest⟩ := exceptBind_eq_ok_iff.mp are
      obtain ⟨more, areOthers, same⟩ := exceptBind_eq_ok_iff.mp rest
      cases same
      obtain ⟨line, written, _⟩ := first.exists_line readable leaves isFirst
      obtain ⟨lines, spelled, means⟩ := others.exists_lines readable leaves areOthers
      refine ⟨line :: lines, ?_, ?_⟩
      · rw [List.map_cons, List.map_cons, written.spelled, spelled]
      · rw [Line.interpretAll, interpretAll, written.means, means]

end

/-- Such expressions that are written alike mean the same, if their leaves do so. -/
theorem Grouped.interpret_eq_of_render_eq (readable : s.Readable) (i : Interpretation α)
    (same : ∀ e other text, e.isLeaf = true → other.isLeaf = true → e.render s = .ok text →
      other.render s = .ok text → i.leaf e = i.leaf other)
    {e other : Expr} (grouped : e.Grouped) (grouped' : other.Grouped) {text : String}
    (is : e.render s = .ok text) (is' : other.render s = .ok text) :
    e.interpret i = other.interpret i := by
  obtain ⟨leafOf, leaves⟩ := exists_leavesMean same
  obtain ⟨line, written, _⟩ := grouped.exists_line readable leaves is
  obtain ⟨line', written', _⟩ := grouped'.exists_line readable leaves is'
  have lines : line = line' := Line.text_injective (written.spelled.trans written'.spelled.symm)
  rw [← written.means, lines, written'.means]

end Expr

end

end DocStore
