/-
Module: DocStore.Proofs.Query.Conjunct
Purpose: conditions that the store in memory reads as equations, all of which are to hold:
  they hold together just when the conditions do.
Main exports:
  Statement.Reads, OperandText.readUpTo, Statement.standsFor_foldClauses,
  Document.satisfies_eq_holdTogether
-/
import DocStore.Proofs.Query.Operand

namespace DocStore

open Text Statement

namespace Statement

/-!
The text of the conditions is cut at every conjunction, and each piece is read as an
equation, whatever parentheses are around it.  Read from left to right, a place in the
text is one where an equation is still to come, or one where the last has ended.
-/

/-- A place in a row of equations. -/
inductive Place where
  | opening
  | closing
deriving DecidableEq, Repr

/-- What is read as equations from a place on. -/
inductive Reads (row : List Char) (bindVars : Dict Json) :
    Place → List Char → List (String × Json) → Prop where
  | opened {text : List Char} {equations : List (String × Json)}
      (reads : Reads row bindVars .opening text equations) :
      Reads row bindVars .opening ('(' :: text) equations
  | equation {name : String} {value : Json} {right text : List Char}
      {equations : List (String × Json)} (noBacktick : '`' ∉ name.toList)
      (spelled : Spelled bindVars (trim right) value)
      (reads : Reads row bindVars .closing text equations) :
      Reads row bindVars .opening (fieldText row name ++ (" == ".toList ++ (right ++ text)))
        ((name, value) :: equations)
  | closed {text : List Char} {equations : List (String × Json)}
      (reads : Reads row bindVars .closing text equations) :
      Reads row bindVars .closing (')' :: text) equations
  | next {text : List Char} {equations : List (String × Json)}
      (reads : Reads row bindVars .opening text equations) :
      Reads row bindVars .closing (" && ".toList ++ text) equations
  | done : Reads row bindVars .closing [] []

/-! ### Pieces that are read -/

theorem eq_fieldText_of_readField? {row text : List Char} {name : String}
    (read : readField? row text = some name) : text = fieldText row name := by
  rw [readField?] at read
  simp only [Option.bind_eq_bind, Option.bind_eq_some_iff] at read
  rcases read with ⟨quoted, opened, inner, closed, same⟩
  cases same
  have front := eq_append_of_dropLeading? opened
  have back := eq_append_of_dropTrailing? closed
  rw [front, back]
  simp [fieldText]

theorem Reads.trimLeading {row : List Char} {bindVars : Dict Json} {piece text : List Char}
    {equations : List (String × Json)}
    (reads : Reads row bindVars .opening (Text.trimLeading '(' piece ++ text) equations) :
    Reads row bindVars .opening (piece ++ text) equations := by
  induction piece with
  | nil => exact reads
  | cons c piece inductionHypothesis =>
      by_cases parenthesis : c = '('
      · subst parenthesis
        exact .opened (inductionHypothesis (by simpa [Text.trimLeading] using reads))
      · simpa [Text.trimLeading, parenthesis] using reads

theorem exists_trimTrailing (c : Char) (text : List Char) :
    ∃ n, text = Text.trimTrailing c text ++ List.replicate n c := by
  refine ⟨(text.reverse.takeWhile (· == c)).length, ?_⟩
  have all : ∀ d ∈ text.reverse.takeWhile (· == c), d = c := fun d member => by
    simpa using List.all_eq_true.mp List.all_takeWhile d member
  have same := List.eq_replicate_of_mem all
  rw [Text.trimTrailing, ← List.reverse_replicate, ← same, ← List.reverse_append,
    List.takeWhile_append_dropWhile, List.reverse_reverse]

theorem Reads.replicate {row : List Char} {bindVars : Dict Json} {text : List Char}
    {equations : List (String × Json)} (reads : Reads row bindVars .closing text equations)
    (n : Nat) : Reads row bindVars .closing (List.replicate n ')' ++ text) equations := by
  induction n with
  | zero => exact reads
  | succ n inductionHypothesis => exact .closed inductionHypothesis

section

variable {q : Query} {piece text : List Char} {equations : List (String × Json)}

/-- A piece that is read, with one name on its left and one value on its right. -/
theorem Reads.of_readFilter? {equation : String × Json}
    (read : readFilter? q.rowChars q.bound piece = some equation)
    (oneName : ∀ sides ∈ sides? piece, ∀ name ∈ readField? q.rowChars sides.1, '`' ∉ name.toList)
    (oneText : ∀ sides ∈ sides? piece, (readQuoted? (trim sides.2)).isSome →
      Quoted (trim sides.2))
    (reads : Reads q.rowChars q.bound .closing text equations) :
    Reads q.rowChars q.bound .opening (piece ++ text) (equation :: equations) := by
  rw [readFilter?] at read
  simp only [Option.bind_eq_bind, Option.bind_eq_some_iff] at read
  rcases read with ⟨⟨left, right⟩, cut, name, field, value, literal, same⟩
  cases same
  simp only at field literal
  have noBacktick := oneName _ cut name field
  have spelled := spelled_of_readLiteral? literal (oneText _ cut)
  rcases exists_trimTrailing ')' (Text.trimLeading '(' piece) with ⟨n, whole⟩
  have core := eq_append_of_splitOnce? cut
  rw [eq_fieldText_of_readField? field] at core
  have inner := Reads.equation noBacktick spelled (reads.replicate n)
  apply Reads.trimLeading
  rw [whole, core]
  simpa using inner

/-- Pieces that are read one by one are read in a row. -/
theorem Reads.of_pieces {pieces : List (List Char)} (nonempty : pieces ≠ [])
    (read : pieces.mapM (readFilter? q.rowChars q.bound) = some equations)
    (oneName : ∀ piece ∈ pieces, ∀ sides ∈ sides? piece, ∀ name ∈ readField? q.rowChars sides.1,
      '`' ∉ name.toList)
    (oneText : ∀ piece ∈ pieces, ∀ sides ∈ sides? piece,
      (readQuoted? (trim sides.2)).isSome → Quoted (trim sides.2)) :
    Reads q.rowChars q.bound .opening (" && ".toList.intercalate pieces) equations := by
  induction pieces generalizing equations with
  | nil => exact absurd rfl nonempty
  | cons piece pieces inductionHypothesis =>
      rw [List.mapM_cons] at read
      simp only [Option.bind_eq_bind, Option.bind_eq_some_iff] at read
      rcases read with ⟨first, firstRead, others, othersRead, same⟩
      cases same
      rw [List.forall_mem_cons] at oneName oneText
      have own := fun {text : List Char} (reads : Reads q.rowChars q.bound .closing text others) =>
        Reads.of_readFilter? firstRead oneName.1 oneText.1 reads
      cases pieces with
      | nil =>
          cases othersRead
          have whole := own .done
          simpa using whole
      | cons second pieces =>
          rw [List.intercalate_cons_cons, List.append_assoc]
          exact own (.next (inductionHypothesis (by simp) othersRead oneName.2 oneText.2))

end

/-! ### What stands at a place -/

section

variable {row : List Char} {bindVars : Dict Json} {text : List Char}
  {equations : List (String × Json)}

theorem Reads.of_closed (reads : Reads row bindVars .closing (')' :: text) equations) :
    Reads row bindVars .closing text equations := by
  generalize whole : ')' :: text = given at reads
  cases reads with
  | closed reads =>
      cases whole
      exact reads
  | next reads => cases whole
  | done => cases whole

theorem Reads.of_next (reads : Reads row bindVars .closing (" && ".toList ++ text) equations) :
    Reads row bindVars .opening text equations := by
  generalize whole : " && ".toList ++ text = given at reads
  cases reads with
  | closed reads => cases whole
  | next reads =>
      cases whole
      exact reads
  | done => cases whole

theorem Reads.endsValue (reads : Reads row bindVars .closing text equations) : EndsValue text := by
  cases reads with
  | closed reads => exact .inr (.inl ⟨_, rfl⟩)
  | next reads => exact .inr (.inr (.inl ⟨_, rfl⟩))
  | done => exact .inl rfl

/-- No space at the end of an equation but that of a conjunction. -/
theorem Reads.not_of_space {c : Char}
    (reads : Reads row bindVars .closing (' ' :: c :: text) equations) (other : c ≠ '&') :
    False := by
  generalize whole : ' ' :: c :: text = given at reads
  cases reads with
  | closed reads => cases whole
  | next reads =>
      cases whole
      exact other rfl
  | done => cases whole

theorem Reads.of_opened (isRow : RowVariable row)
    (reads : Reads row bindVars .opening ('(' :: text) equations) :
    Reads row bindVars .opening text equations := by
  generalize whole : '(' :: text = given at reads
  cases reads with
  | opened reads =>
      cases whole
      exact reads
  | equation noBacktick spelled reads =>
      rcases isRow with ⟨letter, lower, rfl⟩
      cases whole
      cases lower

/-- An equation begins with the variable of the rows. -/
theorem Reads.not_of_cons (isRow : RowVariable row) {c : Char}
    (reads : Reads row bindVars .opening (c :: text) equations) (noParenthesis : c ≠ '(')
    (notLower : c.isLower = false) : False := by
  generalize whole : c :: text = given at reads
  cases reads with
  | opened reads =>
      cases whole
      exact noParenthesis rfl
  | equation noBacktick spelled reads =>
      rcases isRow with ⟨letter, lower, rfl⟩
      cases whole
      rw [notLower] at lower
      cases lower

/-- A word at the start of an equation is the variable of the rows with the point. -/
theorem Reads.eq_of_word (isRow : RowVariable row) {word rest : List Char}
    (solid : ∀ c ∈ word, isSolid c = true) (apart : ∀ c ∈ rest.head?, isSolid c = false)
    (nonempty : word ≠ []) (reads : Reads row bindVars .opening (word ++ rest) equations) :
    word = row ++ ['.'] := by
  generalize whole : word ++ rest = given at reads
  cases reads with
  | opened reads =>
      cases word with
      | nil => exact absurd rfl nonempty
      | cons c word =>
          have own := solid c List.mem_cons_self
          cases whole
          cases own
  | equation noBacktick spelled reads => exact eq_of_solid_fieldText isRow solid apart whole

/-- A field at the start of an equation is its left side. -/
theorem Reads.of_field (isRow : RowVariable row) {name : String} (noBacktick : '`' ∉ name.toList)
    (reads : Reads row bindVars .opening (fieldText row name ++ text) equations) :
    ∃ value right rest others, text = " == ".toList ++ (right ++ rest) ∧
      equations = (name, value) :: others ∧ Spelled bindVars (trim right) value ∧
      Reads row bindVars .closing rest others := by
  generalize whole : fieldText row name ++ text = given at reads
  cases reads with
  | opened reads =>
      rcases isRow with ⟨letter, lower, rfl⟩
      cases whole
      cases lower
  | equation noBacktick' spelled reads =>
      rcases fieldText_unique noBacktick noBacktick' whole with ⟨rfl, rfl⟩
      exact ⟨_, _, _, _, rfl, rfl, spelled, reads⟩

end

/-! ### Expressions that are read -/

/-- Up to the rest, the text is read as equations that hold together just when something is
true of a document. -/
def ReadWhole (q : Query) (truth : Meaning → Document → Bool) (rest : List Char)
    (equations : List (String × Json)) : Prop :=
  ∃ own others, equations = own ++ others ∧
    (∀ (m : Meaning) (d : Document), d.satisfies own = truth m d) ∧
    Reads q.rowChars q.bound .closing rest others

/-- An expression at the start of an equation: it is the left side, or it is read as
equations itself. -/
inductive ReadUpTo (q : Query) : Expr → List Char → List (String × Json) → Prop where
  | field (source : Nat) {name : String} {value : Json} {right rest : List Char}
      {equations : List (String × Json)} (spelled : Spelled q.bound (trim right) value)
      (reads : Reads q.rowChars q.bound .closing rest equations) :
      ReadUpTo q (.field source name) (" == ".toList ++ (right ++ rest))
        ((name, value) :: equations)
  | whole {e : Expr} {rest : List Char} {equations : List (String × Json)}
      (whole : ReadWhole q (fun m d => m.truth (e.value m q.params d)) rest equations) :
      ReadUpTo q e rest equations

theorem Document.satisfies_append (d : Document) (first second : List (String × Json)) :
    d.satisfies (first ++ second) = (d.satisfies first && d.satisfies second) := by
  simp [Document.satisfies]

section

variable {q : Query} {e : Expr} {rest : List Char} {equations : List (String × Json)}

theorem ReadWhole.of_closed {truth : Meaning → Document → Bool}
    (read : ReadWhole q truth (')' :: rest) equations) : ReadWhole q truth rest equations := by
  rcases read with ⟨own, others, split, means, reads⟩
  exact ⟨own, others, split, means, reads.of_closed⟩

/-- A parenthesis behind an expression ends it. -/
theorem ReadUpTo.of_closed (read : ReadUpTo q e (')' :: rest) equations) :
    ReadWhole q (fun m d => m.truth (e.value m q.params d)) rest equations := by
  generalize whole : ')' :: rest = given at read
  cases read with
  | field source spelled reads => cases whole
  | whole read =>
      subst whole
      exact read.of_closed

/-- Between an expression and a conjunction, nothing is left over. -/
theorem ReadUpTo.of_and (read : ReadUpTo q e (" && ".toList ++ rest) equations) :
    ∃ own others, equations = own ++ others ∧
      (∀ (m : Meaning) (d : Document), d.satisfies own = m.truth (e.value m q.params d)) ∧
      Reads q.rowChars q.bound .opening rest others := by
  generalize whole : " && ".toList ++ rest = given at read
  cases read with
  | field source spelled reads => cases whole
  | whole read =>
      subst whole
      rcases read with ⟨own, others, split, means, reads⟩
      exact ⟨own, others, split, means, reads.of_next⟩

/-- No other operator is read. -/
theorem ReadUpTo.not_of_space {c d : Char} (read : ReadUpTo q e (' ' :: c :: d :: rest) equations)
    (noAnd : c ≠ '&') (noEq : c ≠ '=' ∨ d ≠ '=') : False := by
  generalize whole : ' ' :: c :: d :: rest = given at read
  cases read with
  | field source spelled reads =>
      cases whole
      exact noEq.elim (absurd rfl) (absurd rfl)
  | whole read =>
      subst whole
      rcases read with ⟨_, _, _, _, reads⟩
      exact reads.not_of_space noAnd

/-- An equation whose left side is a field. -/
theorem ReadUpTo.equation {other : Expr} {text : List Char} (operand : OperandText q other text)
    (breaks : Breaks rest) (read : ReadUpTo q e (" == ".toList ++ (text ++ rest)) equations) :
    ReadWhole q (fun m d => m.truth (m.binary .eq (e.value m q.params d)
      (other.value m q.params d))) rest equations := by
  generalize whole : " == ".toList ++ (text ++ rest) = given at read
  cases read with
  | field source spelled reads =>
      rcases operand.eq_value (List.append_cancel_left whole) breaks reads.endsValue spelled with
        ⟨rfl, means⟩
      refine ⟨[_], _, rfl, fun m d => ?_, reads⟩
      simp only [means m d, m.truth_eq]
      simp [Document.satisfies, Expr.value]
  | whole read =>
      subst whole
      rcases read with ⟨_, _, _, _, reads⟩
      exact (reads.not_of_space (by decide)).elim

end

end Statement

/-- An operand at the start of an equation is a field, an equation, or a conjunction of
these. -/
theorem OperandText.readUpTo {q : Query} {e : Expr} {text : List Char}
    (operand : OperandText q e text) {rest : List Char} {equations : List (String × Json)}
    (breaks : Breaks rest) (reads : Reads q.rowChars q.bound .opening (text ++ rest) equations) :
    ReadUpTo q e rest equations := by
  have isRow := q.rowVariable_rowChars
  induction operand generalizing rest equations with
  | field source noBacktick =>
      rcases reads.of_field isRow noBacktick with
        ⟨value, right, more, others, rfl, rfl, written, reads⟩
      exact .field source written reads
  | row source =>
      have nonempty : q.rowChars ≠ [] := by
        rcases isRow with ⟨letter, lower, row⟩
        simp [row]
      have same := reads.eq_of_word isRow isRow.solid breaks.not_solid nonempty
      simp at same
  | value spelled _ =>
      rcases spelled.head with ⟨c, tail, rfl, notLower, sign⟩
      refine (reads.not_of_cons isRow (fun same => ?_) notLower).elim
      subst same
      revert sign
      decide
  | list items text => exact (reads.not_of_cons isRow (by decide) (by decide)).elim
  | applied solid nonempty noPoint opens =>
      rw [List.append_assoc] at reads
      have same := reads.eq_of_word isRow solid
        (by rcases opens with ⟨_, rfl⟩ | ⟨_, rfl⟩ <;> simp <;> decide) nonempty
      rw [same] at noPoint
      simp at noPoint
  | @binary op l r left right _ second firstRead secondRead =>
      have shape : '(' :: (left ++ (' ' :: (op.symbol.toList ++ (' ' :: (right ++ [')'])))))
          ++ rest = '(' :: (left ++ (' ' :: (op.symbol.toList ++
            (' ' :: (right ++ ')' :: rest))))) := by
        simp
      rw [shape] at reads
      have between : Breaks (' ' :: (op.symbol.toList ++ (' ' :: (right ++ ')' :: rest)))) := by
        cases op <;> exact .inr (.inr ⟨_, _, rfl, by decide, by decide⟩)
      have first := firstRead between (reads.of_opened isRow)
      cases op with
      | eq => exact .whole (first.equation second (.closing rest)).of_closed
      | and =>
          rcases first.of_and with ⟨own, others, rfl, means, reads⟩
          rcases (secondRead (.closing rest) reads).of_closed with
            ⟨second, others, rfl, means', reads⟩
          refine .whole ⟨own ++ second, others, by rw [List.append_assoc], fun m d => ?_, reads⟩
          rw [Document.satisfies_append d, means, means', ← m.truth_and]
          rfl
      | _ => exact (first.not_of_space (by decide) (by decide)).elim
  | isNull _ inductionHypothesis =>
      rw [List.append_assoc] at reads
      have first := inductionHypothesis (.inr (.inr ⟨_, _, rfl, by decide, by decide⟩)) reads
      have listed : ("NULL", Json.null) ∈ constants := by simp [constants]
      have null : OperandText q (.literal .null) "NULL".toList :=
        .value (.constant listed) fun _ _ => rfl
      exact .whole (first.equation null breaks)
  | member _ collection among inductionHypothesis =>
      rw [List.append_assoc] at reads
      have first := inductionHypothesis (.inr (.inr ⟨_, _, rfl, by decide, by decide⟩)) reads
      exact (first.not_of_space (by decide) (by decide)).elim

/-! ### Conditions in a row -/

namespace Statement

/-- Wherever a text is read, it is read as equations that hold together just when something
is true of a document. -/
def StandsFor (q : Query) (text : String) (truth : Meaning → Document → Bool) : Prop :=
  ∀ (rest : List Char) (equations : List (String × Json)), Breaks rest →
    Reads q.rowChars q.bound .opening (text.toList ++ rest) equations →
    ReadWhole q truth rest equations

theorem StandsFor.parens {q : Query} {text : String} {truth : Meaning → Document → Bool}
    (stands : StandsFor q text truth) : StandsFor q (parens text) truth := by
  intro rest equations _ reads
  have shape : (DocStore.parens text).toList ++ rest = '(' :: (text.toList ++ ')' :: rest) := by
    simp [DocStore.parens]
  rw [shape] at reads
  exact (stands _ _ (.closing rest) (reads.of_opened q.rowVariable_rowChars)).of_closed

/-- A legible condition in parentheses stands for itself. -/
theorem standsFor_parens {q : Query} {e : Expr} (legible : e.Legible) {text : String}
    (rendered : e.render q.plainScope = .ok text) :
    StandsFor q (DocStore.parens text) fun m d => m.truth (e.value m q.params d) := by
  intro rest equations breaks reads
  by_cases binary : e.isBinary
  · have written : DocStore.parens text = e.asOperand text := by
      simp [Expr.asOperand, binary]
    rw [written] at reads
    cases (legible.operandText rendered).readUpTo breaks reads with
    | field source spelled reads => cases binary
    | whole read => exact read
  · have shape : (DocStore.parens text).toList ++ rest =
        '(' :: ((e.asOperand text).toList ++ ')' :: rest) := by
      simp [DocStore.parens, Expr.asOperand, binary]
    rw [shape] at reads
    exact ((legible.operandText rendered).readUpTo (.closing rest)
      (reads.of_opened q.rowVariable_rowChars)).of_closed

theorem standsFor_condition {q : Query} {c : Clause} (legible : c.condition.Legible) {text : String}
    (rendered : c.condition.render q.plainScope = .ok text) :
    StandsFor q (DocStore.parens text) fun m d => c.holds m q.params d :=
  standsFor_parens legible rendered

/-- Conditions joined one after the other stand for what their connectives make of them: they
are read only if these are conjunctions. -/
theorem standsFor_foldClauses {q : Query} {clauses : List Clause}
    (legible : ∀ c ∈ clauses, c.condition.Legible) {connective : Connective} {before text : String}
    {truth : Meaning → Document → Bool} (stands : StandsFor q before truth)
    (is : Query.foldClauses q.plainScope connective before clauses = .ok text) :
    StandsFor q text fun m d => clauses.foldl
      (fun truth c => c.connective.join truth (c.holds m q.params d)) (truth m d) := by
  induction clauses generalizing connective before truth with
  | nil =>
      cases is
      exact stands
  | cons c clauses inductionHypothesis =>
      rw [List.forall_mem_cons] at legible
      rw [Query.foldClauses] at is
      rcases exceptBind_eq_ok_iff.mp is with ⟨condition, rendered, folded⟩
      have front : StandsFor q
          (if c.connective = connective then before else DocStore.parens before) truth := by
        split
        · exact stands
        · exact stands.parens
      refine inductionHypothesis legible.2 ?_ folded
      intro rest equations breaks reads
      rw [String.toList_append, String.toList_append, List.append_assoc, List.append_assoc] at reads
      have between : Breaks (c.connective.symbol.toList ++
          ((DocStore.parens condition).toList ++ rest)) := by
        cases c.connective <;> exact .inr (.inr ⟨_, _, rfl, by decide, by decide⟩)
      rcases front _ _ between reads with ⟨own, others, rfl, means, reads⟩
      cases connected : c.connective with
      | and =>
          rw [connected] at reads
          rcases standsFor_condition legible.1 rendered _ _ breaks reads.of_next with
            ⟨second, others, rfl, means', reads⟩
          refine ⟨own ++ second, others, by rw [List.append_assoc], fun m d => ?_, reads⟩
          simp only [Document.satisfies_append, means m d, means' m d, connected, Connective.join]
      | or =>
          rw [connected] at reads
          exact (reads.not_of_space (by decide)).elim

end Statement

/-- The equations that the store reads in the conditions of a query hold together just when
the conditions do. -/
theorem Document.satisfies_eq_holdTogether {q : Query} {clauses : List Clause}
    {body : Option (List Char)} {equations : List (String × Json)}
    (filter : FilterText q.plainScope clauses body)
    (legible : ∀ c ∈ clauses, c.condition.Legible)
    (read : SelectionText.readParts? " && " body (readFilter? q.rowChars q.bound) = some equations)
    (oneName : ∀ text ∈ body, ∀ piece ∈ splitAll " && ".toList text, ∀ sides ∈ sides? piece,
      ∀ name ∈ readField? q.rowChars sides.1, '`' ∉ name.toList)
    (oneText : ∀ text ∈ body, ∀ piece ∈ splitAll " && ".toList text, ∀ sides ∈ sides? piece,
      (readQuoted? (trim sides.2)).isSome → Quoted (trim sides.2))
    (m : Meaning) (d : Document) :
    d.satisfies equations = Clause.holdTogether (Clause.holds m q.params d) clauses := by
  cases filter with
  | none =>
      cases read
      rfl
  | @some first rest condition text rendered folded =>
      rw [List.forall_mem_cons] at legible
      have separator : " && ".toList ≠ [] := by decide
      have whole := intercalate_splitAll separator text.toList
      have reads : Reads q.rowChars q.bound .opening (text.toList ++ []) equations := by
        rw [List.append_nil, ← whole]
        exact .of_pieces (splitAll_ne_nil separator _) read (oneName _ rfl) (oneText _ rfl)
      have stands := standsFor_foldClauses legible.2 (standsFor_condition legible.1 rendered) folded
      rcases stands _ _ (.inl rfl) reads with ⟨own, others, rfl, means, ended⟩
      cases ended
      rw [List.append_nil, means m d]
      rfl

end DocStore
