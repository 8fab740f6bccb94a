/-
Module: DocStore.Proofs.Query.Operand
Purpose: how legible operands are written, and what the store in memory makes of them where
  it reads a value or a field.
Main exports:
  OperandText, Expr.Legible.operandText, OperandText.eq_value, OperandText.eq_field
-/
import DocStore.Proofs.Query.Literal

namespace DocStore

open Text Statement

namespace Statement

/-! ### Words and fields -/

theorem RowVariable.solid {row : List Char} (isRow : RowVariable row) :
    ∀ c ∈ row, isSolid c = true := by
  rcases isRow with ⟨letter, lower, rfl⟩
  simp [isSolid_eq, lower]

theorem solid_of_isPlainName {name : String} (plain : isPlainName name = true) :
    ∀ c ∈ name.toList, isSolid c = true := by
  intro c member
  by_contra other
  refine notMem_of_isPlainName plain (c := c) ?_ member
  simp only [isSolid, Bool.or_eq_true, not_or, Bool.not_eq_true] at other
  simp [other]

/-- No field begins with anything but a small letter. -/
theorem RowVariable.not_fieldText {row : List Char} (isRow : RowVariable row) {c : Char}
    {text : List Char} {name : String} {more : List Char} (notLower : c.isLower = false)
    (same : c :: text = fieldText row name ++ more) : False := by
  rcases isRow with ⟨letter, lower, rfl⟩
  cases same
  rw [notLower] at lower
  cases lower

/-- A word that stands where a field does is the variable of the rows with the point. -/
theorem eq_of_solid_fieldText {row : List Char} (isRow : RowVariable row) {word rest : List Char}
    {name : String} {more : List Char} (solid : ∀ c ∈ word, isSolid c = true)
    (apart : ∀ c ∈ rest.head?, isSolid c = false)
    (same : word ++ rest = fieldText row name ++ more) : word = row ++ ['.'] := by
  have solid' : ∀ c ∈ row ++ ['.'], isSolid c = true := fun c member => by
    rcases List.mem_append.mp member with inRow | point
    · exact isRow.solid c inRow
    · rw [List.mem_singleton.mp point]
      decide
  have spelled : fieldText row name ++ more = (row ++ ['.']) ++ ('`' :: (name.toList ++ ['`'] ++
      more)) := by
    simp [fieldText]
  exact (run_unique solid apart solid' (by simp; decide) (same.trans spelled)).1

/-- Two fields at the start of a text are one. -/
theorem fieldText_unique {row : List Char} {name other : String} {rest more : List Char}
    (noBacktick : '`' ∉ name.toList) (noBacktick' : '`' ∉ other.toList)
    (same : fieldText row name ++ rest = fieldText row other ++ more) :
    name = other ∧ rest = more := by
  simp only [fieldText, List.append_assoc, List.append_cancel_left_eq, List.cons_append,
    List.cons.injEq, true_and, List.nil_append] at same
  rcases append_cons_inj noBacktick noBacktick' same with ⟨names, tails⟩
  exact ⟨String.toList_inj.mp names, tails⟩

end Statement

/-! ### Operands as they are written -/

/-- How an operand is written, as far as it matters to the store. -/
inductive OperandText (q : Query) : Expr → List Char → Prop where
  | field (source : Nat) {name : String} (noBacktick : '`' ∉ name.toList) :
      OperandText q (.field source name) (fieldText q.rowChars name)
  | row (source : Nat) : OperandText q (.row source) q.rowChars
  /-- A constant, a parameter or a member of nothing. -/
  | value {e : Expr} {text : List Char} {value : Json} (spelled : Spelled q.bound text value)
      (means : ∀ (m : Meaning) (d : Document), e.value m q.params d = value) : OperandText q e text
  | list (items : List Expr) (text : List Char) : OperandText q (.list items) ('[' :: text)
  /-- A word with parentheses behind it. -/
  | applied {e : Expr} {word rest : List Char} (solid : ∀ c ∈ word, isSolid c = true)
      (nonempty : word ≠ []) (noPoint : '.' ∉ word)
      (opens : (∃ text, rest = '(' :: text) ∨ ∃ text, rest = ' ' :: '(' :: text) :
      OperandText q e (word ++ rest)
  | binary (op : BinaryOp) {l r : Expr} {left right : List Char} (first : OperandText q l left)
      (second : OperandText q r right) :
      OperandText q (.binary op l r)
        ('(' :: (left ++ (' ' :: (op.symbol.toList ++ (' ' :: (right ++ [')']))))))
  | isNull {e : Expr} {text : List Char} (operand : OperandText q e text) :
      OperandText q (.isNull e) (text ++ " == NULL".toList)
  | member {item : Expr} {text : List Char} (operand : OperandText q item text)
      (collection : Expr) (among : List Char) :
      OperandText q (.member item collection) (text ++ (" IN ".toList ++ among))

theorem Expr.asOperand_of_not_isBinary {e : Expr} (single : e.isBinary = false) (text : String) :
    e.asOperand text = text := by
  simp [asOperand, single]

/-- A legible operand is written in one of these ways. -/
theorem Expr.Legible.operandText {q : Query} {e : Expr} (legible : e.Legible) {text : String}
    (is : e.render q.plainScope = .ok text) : OperandText q e (e.asOperand text).toList := by
  cases legible with
  | field source unmarked =>
      rcases Query.field_plainScope is with ⟨noBacktick, spelled⟩
      rw [asOperand_of_not_isBinary rfl, spelled]
      exact .field source noBacktick
  | row source =>
      rw [asOperand_of_not_isBinary rfl, Query.row_plainScope is]
      exact .row source
  | param index =>
      rw [render, Scope.param] at is
      split at is
      · cases is
      · next bound =>
          cases is
          have written : ("@" ++ toString (index + 1)).toList = paramText index := by
            rw [String.toList_append, toList_toString]
            rfl
          have own : q.bound.get? (toString (index + 1)) = some (q.params.getD index .null) :=
            Query.bindVars_get? (Nat.lt_of_not_le bound)
          have spelled : Spelled q.bound (paramText index) (q.params.getD index .null) :=
            .word (word_paramText index) (by rw [readLiteral?_paramText, own])
          rw [asOperand_of_not_isBinary rfl, written]
          exact .value spelled fun _ _ => rfl
  | literal legible =>
      rw [asOperand_of_not_isBinary rfl]
      exact .value (legible.spelled is q.bound) fun _ _ => rfl
  | list legible =>
      rw [render] at is
      rcases exceptBind_eq_ok_iff.mp is with ⟨texts, _, written⟩
      cases written
      rw [asOperand_of_not_isBinary rfl, String.toList_append, String.toList_append]
      exact .list _ _
  | binary op legibleLeft legibleRight =>
      rw [render] at is
      rcases exceptBind_eq_ok_iff.mp is with ⟨left, leftRendered, is⟩
      rcases exceptBind_eq_ok_iff.mp is with ⟨right, rightRendered, written⟩
      cases written
      have shape := OperandText.binary op (legibleLeft.operandText leftRendered)
        (legibleRight.operandText rightRendered)
      simpa [asOperand, isBinary, parens] using shape
  | not legible =>
      rw [render] at is
      rcases exceptBind_eq_ok_iff.mp is with ⟨operand, _, written⟩
      cases written
      have shape : ("NOT " ++ parens operand).toList =
          "NOT".toList ++ (' ' :: '(' :: (operand.toList ++ [')'])) := by
        simp [parens]
      rw [asOperand_of_not_isBinary rfl, shape]
      exact .applied (List.all_eq_true.mp (by decide)) (by decide) (by decide) (.inr ⟨_, rfl⟩)
  | @member item collection legibleItem legibleCollection =>
      rw [asOperand_of_not_isBinary rfl]
      by_cases filled : collection = .list []
      · subst filled
        cases is
        have listed : ("FALSE", Json.bool false) ∈ constants := by simp [constants]
        exact .value (.constant listed) fun m d => m.member_nil _
      · rw [render_member filled] at is
        rcases exceptBind_eq_ok_iff.mp is with ⟨left, leftRendered, is⟩
        rcases exceptBind_eq_ok_iff.mp is with ⟨among, _, written⟩
        cases written
        have shape := OperandText.member (legibleItem.operandText leftRendered) collection
          among.toList
        simpa using shape
  | isNull legible =>
      rw [render] at is
      rcases exceptBind_eq_ok_iff.mp is with ⟨operand, rendered, written⟩
      cases written
      rw [asOperand_of_not_isBinary rfl, String.toList_append]
      exact .isNull (legible.operandText rendered)
  | @call function plain _ legible =>
      rw [render] at is
      rcases exceptBind_eq_ok_iff.mp is with ⟨texts, _, written⟩
      cases written
      have nonempty : function.toList ≠ [] := by
        rw [isPlainName, Bool.and_eq_true] at plain
        simpa using plain.1
      have shape : (function ++ parens (join ", " texts)).toList =
          function.toList ++ ('(' :: ((join ", " texts).toList ++ [')'])) := by
        simp [parens]
      rw [asOperand_of_not_isBinary rfl, shape]
      exact .applied (solid_of_isPlainName plain) nonempty
        (notMem_of_isPlainName plain (by decide)) (.inl ⟨_, rfl⟩)

namespace OperandText

variable {q : Query} {e : Expr} {text : List Char}

/-- An operand at whose place a value is read is that value, and ends with it. -/
theorem eq_value (operand : OperandText q e text) {rest right more : List Char} {value : Json}
    (same : text ++ rest = right ++ more) (breaks : Breaks rest) (ends : EndsValue more)
    (spelled : Spelled q.bound (trim right) value) :
    more = rest ∧ ∀ (m : Meaning) (d : Document), e.value m q.params d = value := by
  induction operand generalizing rest with
  | field source noBacktick =>
      rcases q.rowVariable_rowChars with ⟨letter, lower, row⟩
      rw [fieldText, row] at same
      exact (spelled.not_of_cons (.inl lower) same).elim
  | row source =>
      rcases q.rowVariable_rowChars with ⟨letter, lower, row⟩
      rw [row] at same
      exact (spelled.not_of_cons (.inl lower) same).elim
  | value written means =>
      rcases spelled.unique written breaks ends same with ⟨tails, rfl⟩
      exact ⟨tails, means⟩
  | list items text => exact (spelled.not_of_cons (.inr (.inl rfl)) same).elim
  | @applied e word after solid nonempty noPoint opens =>
      cases word with
      | nil => exact absurd rfl nonempty
      | cons c word =>
          rw [List.append_assoc] at same
          by_cases lower : c.isLower
          · exact (spelled.not_of_cons (.inl lower) same).elim
          · have isWord : Word (c :: word) := ⟨solid, c, word, rfl, Bool.eq_false_iff.mpr lower⟩
            rcases opens with ⟨inner, rfl⟩ | ⟨inner, rfl⟩
            · rcases spelled.of_word isWord (.inr (.inl ⟨_, _, rfl, by decide⟩)) ends same with
                ⟨rfl, _⟩
              rcases ends with same | ⟨_, same⟩ | ⟨_, same⟩ | ⟨_, same⟩ <;> cases same
            · rcases spelled.of_word isWord (.inr (.inr ⟨_, _, rfl, by decide, by decide⟩)) ends
                same with ⟨rfl, _⟩
              rcases ends with same | ⟨_, same⟩ | ⟨_, same⟩ | ⟨_, same⟩ <;> cases same
  | binary op first second => exact (spelled.not_of_cons (.inr (.inr rfl)) same).elim
  | isNull operand inductionHypothesis =>
      rw [List.append_assoc] at same
      rcases inductionHypothesis same (.inr (.inr ⟨_, _, rfl, by decide, by decide⟩)) with
        ⟨rfl, _⟩
      rcases ends with same | ⟨_, same⟩ | ⟨_, same⟩ | ⟨_, same⟩ <;> cases same
  | member operand collection among inductionHypothesis =>
      rw [List.append_assoc] at same
      rcases inductionHypothesis same (.inr (.inr ⟨_, _, rfl, by decide, by decide⟩)) with
        ⟨rfl, _⟩
      rcases ends with same | ⟨_, same⟩ | ⟨_, same⟩ | ⟨_, same⟩ <;> cases same

/-- What stands behind a field that is only a part of an operand. -/
def GoesOn (rest : List Char) : Prop :=
  ∃ c more, rest = ' ' :: c :: more ∧ c ∈ ['I', '=']

/-- An operand at whose start a field stands is that field, or the field is a part of it. -/
theorem eq_field (operand : OperandText q e text) {name : String} {rest more : List Char}
    (noBacktick : '`' ∉ name.toList) (breaks : Breaks rest)
    (same : text ++ rest = fieldText q.rowChars name ++ more) :
    ((∃ source, e = .field source name) ∧ rest = more) ∨ GoesOn more := by
  have isRow := q.rowVariable_rowChars
  induction operand generalizing rest with
  | field source noBacktick' =>
      rcases fieldText_unique noBacktick' noBacktick same with ⟨rfl, tails⟩
      exact .inl ⟨⟨source, rfl⟩, tails⟩
  | row source =>
      have whole := eq_of_solid_fieldText isRow isRow.solid breaks.not_solid same
      simp at whole
  | value written _ =>
      rcases written.head with ⟨c, tail, rfl, notLower, _⟩
      exact (isRow.not_fieldText notLower same).elim
  | list items text => exact (isRow.not_fieldText (by decide) same).elim
  | applied solid nonempty noPoint opens =>
      rw [List.append_assoc] at same
      have whole := eq_of_solid_fieldText isRow solid
        (by rcases opens with ⟨_, rfl⟩ | ⟨_, rfl⟩ <;> simp <;> decide) same
      rw [whole] at noPoint
      simp at noPoint
  | binary op first second => exact (isRow.not_fieldText (by decide) same).elim
  | isNull operand inductionHypothesis =>
      rw [List.append_assoc] at same
      rcases inductionHypothesis (.inr (.inr ⟨_, _, rfl, by decide, by decide⟩)) same with
        ⟨_, tails⟩ | goesOn
      · exact .inr ⟨'=', _, tails.symm, by decide⟩
      · exact .inr goesOn
  | member operand collection among inductionHypothesis =>
      rw [List.append_assoc] at same
      rcases inductionHypothesis (.inr (.inr ⟨_, _, rfl, by decide, by decide⟩)) same with
        ⟨_, tails⟩ | goesOn
      · exact .inr ⟨'I', _, tails.symm, by decide⟩
      · exact .inr goesOn

end OperandText

end DocStore
