/-
Module: DocStore.Proofs.Query.Shown
Purpose: the criteria, the window and the row that the store in memory reads in a query:
  they are those that the query has.
Main exports:
  Query.compareBy_eq, Query.window?_eq, Query.names_of_readProjection?
-/
import DocStore.Proofs.Fallible
import DocStore.Proofs.Query.Conjunct

namespace DocStore

open Text Statement

/-! ### Criteria -/

/-- A criterion as it is written. -/
def SortTerm.written (t : SortTerm) (key : String) : String :=
  if t.order = .descending then key ++ " DESC" else key

/-- A criterion that the store reads, and the one of the query at its place. -/
structure SortTerm.ReadAs (t : SortTerm) (s : StatementSort) : Prop where
  field : ∃ source, t.key = .field source s.field
  order : t.order = .descending ↔ s.descends = true

theorem SortTerm.ReadAs.compareBy_eq {t : SortTerm} {s : StatementSort} (readAs : t.ReadAs s)
    (m : Meaning) (params : List Json) (a b : Document) :
    t.compareBy m params a b = s.compare a b := by
  rcases readAs.field with ⟨source, key⟩
  have order := readAs.order
  unfold compareBy StatementSort.compare
  cases direction : t.order <;> simp [key, Expr.value, direction] at order ⊢ <;> simp [order]

namespace Statement

/-- What stands behind a criterion or its field. -/
theorem apart_of_followsPiece {rest : List Char} (follows : FollowsPiece ", ".toList rest) :
    Breaks rest ∧ EndsValue rest ∧ ∀ c more, rest ≠ ' ' :: c :: more := by
  rcases follows with rfl | ⟨more, rfl⟩
  · exact ⟨.inl rfl, .inl rfl, nofun⟩
  · exact ⟨.inr (.inl ⟨_, _, rfl, by decide⟩), .inr (.inr (.inr ⟨_, rfl⟩)), nofun⟩

/-- What is behind the field of a criterion: the word for a descending order, or nothing. -/
def orderText (descends : Bool) : List Char :=
  if descends then " DESC".toList else []

theorem sortText_eq (row : List Char) (s : StatementSort) :
    sortText row s = fieldText row s.field ++ orderText s.descends := by
  unfold sortText orderText
  split <;> simp

theorem orderText_not_operator {descends : Bool} {rest : List Char}
    (follows : FollowsPiece ", ".toList rest) {c : Char} {more : List Char} (other : c ≠ 'D') :
    orderText descends ++ rest ≠ ' ' :: c :: more := by
  intro same
  unfold orderText at same
  split at same
  · cases same
    exact other rfl
  · exact (apart_of_followsPiece follows).2.2 _ _ same

theorem orderText_unique {descends descends' : Bool} {rest more : List Char}
    (follows : FollowsPiece ", ".toList rest) (follows' : FollowsPiece ", ".toList more)
    (same : orderText descends ++ rest = orderText descends' ++ more) :
    descends = descends' ∧ rest = more := by
  have apart := (apart_of_followsPiece follows).2.2
  have apart' := (apart_of_followsPiece follows').2.2
  cases descends <;> cases descends'
  · exact ⟨rfl, same⟩
  · exact absurd same (apart _ _)
  · exact absurd same.symm (apart' _ _)
  · exact ⟨rfl, List.append_cancel_left same⟩

/-- A pair of operands begins with the left one, and its operator is none of the signs behind a
criterion or count. -/
theorem exists_left_of_isBinary {q : Query} {e : Expr} (legible : e.Legible)
    (binary : e.isBinary = true) {text : String} (rendered : e.render q.plainScope = .ok text)
    (rest : List Char) : ∃ l left c tail, OperandText q l left ∧
      text.toList ++ rest = left ++ (' ' :: c :: tail) ∧ isBlank c = false ∧ c ∉ [')', ','] ∧
      c ≠ 'D' := by
  cases legible with
  | @binary op l r legibleLeft _ =>
      rw [Expr.render] at rendered
      rcases exceptBind_eq_ok_iff.mp rendered with ⟨left, leftRendered, rendered⟩
      rcases exceptBind_eq_ok_iff.mp rendered with ⟨right, _, written⟩
      cases written
      have begins : ∃ c sign, op.symbol.toList = c :: sign ∧ isBlank c = false ∧
          c ∉ [')', ','] ∧ c ≠ 'D' := by
        cases op <;> exact ⟨_, _, rfl, by decide, by decide, by decide⟩
      rcases begins with ⟨c, sign, symbol, visible, noSign, other⟩
      refine ⟨l, (l.asOperand left).toList, c,
        sign ++ (' ' :: ((r.asOperand right).toList ++ rest)),
        legibleLeft.operandText leftRendered, ?_, visible, noSign, other⟩
      simp [symbol]
  | _ => cases binary

/-- A criterion that is read at the place of another is that criterion. -/
theorem readAs_of_sortText {q : Query} {t : SortTerm} (legible : t.key.Legible) {key : String}
    (rendered : t.key.render q.plainScope = .ok key) {s : StatementSort}
    (noBacktick : '`' ∉ s.field.toList) {rest more : List Char}
    (follows : FollowsPiece ", ".toList rest) (follows' : FollowsPiece ", ".toList more)
    (same : (t.written key).toList ++ rest = sortText q.rowChars s ++ more) :
    t.ReadAs s ∧ rest = more := by
  have written : (t.written key).toList = key.toList ++ orderText (t.order = .descending) := by
    unfold SortTerm.written orderText
    split <;> simp_all
  rw [written, sortText_eq, List.append_assoc, List.append_assoc] at same
  have goesOn : ¬ OperandText.GoesOn (orderText s.descends ++ more) := by
    rintro ⟨c, tail, whole, sign⟩
    refine orderText_not_operator follows' ?_ whole
    rintro rfl
    simp at sign
  by_cases binary : t.key.isBinary
  · rcases exists_left_of_isBinary legible binary rendered
      (orderText (t.order = .descending) ++ rest) with
      ⟨l, left, c, tail, operand, begins, visible, noSign, other⟩
    rw [begins] at same
    rcases operand.eq_field noBacktick (.inr (.inr ⟨c, tail, rfl, visible, noSign⟩)) same with
      ⟨_, tails⟩ | later
    · exact absurd tails.symm (orderText_not_operator follows' other)
    · exact absurd later goesOn
  · have operand := legible.operandText rendered
    have single : t.key.asOperand key = key := by simp [Expr.asOperand, binary]
    rw [single] at operand
    have breaks : Breaks (orderText (t.order = .descending) ++ rest) := by
      unfold orderText
      split
      · exact .inr (.inr ⟨_, _, rfl, by decide, by decide⟩)
      · exact (apart_of_followsPiece follows).1
    rcases operand.eq_field noBacktick breaks same with ⟨field, tails⟩ | later
    · rcases orderText_unique follows follows' tails with ⟨direction, ended⟩
      exact ⟨⟨field, by rw [← direction, decide_eq_true_iff]⟩, ended⟩
    · exact absurd later goesOn

theorem eq_sortText_of_readSort? {row text : List Char} {s : StatementSort}
    (read : readSort? row text = some s) : text = sortText row s := by
  unfold readSort? at read
  split at read
  · next term dropped =>
      rcases Option.map_eq_some_iff.mp read with ⟨field, found, rfl⟩
      rw [eq_append_of_dropTrailing? dropped, eq_fieldText_of_readField? found]
      rfl
  · rcases Option.map_eq_some_iff.mp read with ⟨field, found, rfl⟩
    rw [eq_fieldText_of_readField? found]
    rfl

theorem forall₂_of_sortTexts {s : Scope} {sorts : List SortTerm} {texts : List String}
    (rendered : Query.sortTexts s sorts = .ok texts) :
    List.Forall₂ (fun t text => ∃ key, t.key.render s = .ok key ∧ text = t.written key) sorts
      texts := by
  induction sorts generalizing texts with
  | nil =>
      cases rendered
      exact .nil
  | cons t sorts inductionHypothesis =>
      rw [Query.sortTexts] at rendered
      rcases exceptBind_eq_ok_iff.mp rendered with ⟨key, keyRendered, rendered⟩
      rcases exceptBind_eq_ok_iff.mp rendered with ⟨others, othersRendered, same⟩
      cases same
      exact .cons ⟨key, keyRendered, rfl⟩ (inductionHypothesis othersRendered)

/-- Parts that are read one by one, where each ends where the text at its place does, are
those texts. -/
theorem forall₂_of_readParts? {α : Type} {texts : List String} {read : List Char → Option α}
    {values : List α} {p : List Char → Prop}
    (reads : SelectionText.readParts? ", " (joinedBy ", " texts) read = some values)
    (each : ∀ body ∈ joinedBy ", " texts, ∀ piece ∈ splitAll ", ".toList body, p piece)
    (ends : ∀ text ∈ texts, ∀ piece value, p piece → read piece = some value →
      ∀ rest more, FollowsPiece ", ".toList rest → FollowsPiece ", ".toList more →
        text.toList ++ rest = piece ++ more → rest = more) :
    List.Forall₂ (fun text value => p text.toList ∧ read text.toList = some value) texts
      values := by
  by_cases empty : texts = []
  · subst empty
    cases reads
    exact .nil
  · have body : joinedBy ", " texts = some (", ".toList.intercalate (texts.map String.toList)) := by
      simp [joinedBy, empty]
    rw [body] at reads each
    have side := (List.forall₂_and_left _ _).mpr ⟨each _ rfl, forall₂_of_mapM reads⟩
    have pieces : splitAll ", ".toList (", ".toList.intercalate (texts.map String.toList)) =
        texts.map String.toList := by
      refine eq_of_intercalate_eq (by decide) (splitAll_ne_nil (by decide) _)
        (by simpa using empty) ?_ (intercalate_splitAll (by decide) _)
      intro piece inPieces other inTexts rest more follows follows' same
      rcases exists_right_of_forall₂ side inPieces with ⟨value, _, isAllowed, found⟩
      rcases List.mem_map.mp inTexts with ⟨text, member, rfl⟩
      have ended := ends text member piece value isAllowed found _ _ follows' follows same.symm
      rw [ended] at same
      exact List.append_cancel_right same
    rw [pieces] at side
    exact List.forall₂_map_left_iff.mp side

/-- The criteria that are read in a text are those that it was written from. -/
theorem readAs_of_sortTexts {q : Query} {sorts : List SortTerm}
    (legible : ∀ t ∈ sorts, t.key.Legible) {texts : List String}
    (rendered : Query.sortTexts q.plainScope sorts = .ok texts) {read : List StatementSort}
    (reads : SelectionText.readParts? ", " (joinedBy ", " texts) (readSort? q.rowChars) = some read)
    (oneName : ∀ body ∈ joinedBy ", " texts, ∀ piece ∈ splitAll ", ".toList body,
      ∀ s ∈ readSort? q.rowChars piece, '`' ∉ s.field.toList) :
    List.Forall₂ SortTerm.ReadAs sorts read := by
  have written := (List.forall₂_and_left _ _).mpr ⟨legible, forall₂_of_sortTexts rendered⟩
  have side := forall₂_of_readParts? reads oneName fun text member piece s name sort rest more
      follows follows' same => by
    rcases exists_left_of_forall₂ written member with ⟨t, _, own, key, keyRendered, rfl⟩
    rw [eq_sortText_of_readSort? sort] at same
    exact (readAs_of_sortText own keyRendered (name s sort) follows follows' same).2
  refine forall₂_comp ?_ written side
  rintro t text s ⟨own, key, keyRendered, rfl⟩ ⟨name, sort⟩
  have same := congrArg (· ++ []) (eq_sortText_of_readSort? sort)
  exact (readAs_of_sortText own keyRendered (name s sort) (.inl rfl) (.inl rfl) same).1

end Statement

/-- A query orders documents as the criteria do that the store reads in it. -/
theorem Query.compareBy_eq {q : Query} {read : List StatementSort}
    (side : List.Forall₂ SortTerm.ReadAs q.sorts read) (m : Meaning) :
    q.compareBy m = compareDocuments read := by
  funext a b
  unfold compareBy
  generalize q.sorts = sorts at side
  induction side with
  | nil => rfl
  | cons readAs _ inductionHypothesis =>
      rw [List.foldr_cons, inductionHypothesis, readAs.compareBy_eq]
      rfl

/-! ### The window -/

namespace Statement

theorem forall₂_of_renderAll {s : Scope} {es : List Expr} {texts : List String}
    (rendered : Expr.renderAll s es = .ok texts) :
    List.Forall₂ (fun e text => e.render s = .ok text) es texts := by
  induction es generalizing texts with
  | nil =>
      cases rendered
      exact .nil
  | cons e es inductionHypothesis =>
      rw [Expr.renderAll] at rendered
      rcases exceptBind_eq_ok_iff.mp rendered with ⟨text, own, rendered⟩
      rcases exceptBind_eq_ok_iff.mp rendered with ⟨others, othersRendered, same⟩
      cases same
      exact .cons own (inductionHypothesis othersRendered)

/-- A count that is read at the place of an expression is what the expression stands for. -/
theorem count_of_readLiteral? {q : Query} {e : Expr} (legible : e.Legible) {text : String}
    (rendered : e.render q.plainScope = .ok text) {piece : List Char} {count : Nat}
    (read : (readLiteral? q.bound piece).bind Json.natural? = some count) {rest more : List Char}
    (follows : FollowsPiece ", ".toList rest) (follows' : FollowsPiece ", ".toList more)
    (same : text.toList ++ rest = piece ++ more) :
    rest = more ∧ ∀ m : Meaning, q.count? m e = some count := by
  rcases Option.bind_eq_some_iff.mp read with ⟨value, literal, natural⟩
  have spelled : Spelled q.bound (trim piece) value := by
    rcases quoted_or_word literal with ⟨content, _, rfl⟩ | word
    · cases natural
    · exact .word word (by rw [readLiteral?_trim _ word, literal])
  rcases apart_of_followsPiece follows with ⟨breaks, _, _⟩
  rcases apart_of_followsPiece follows' with ⟨_, ends, noSpace⟩
  by_cases binary : e.isBinary
  · rcases exists_left_of_isBinary legible binary rendered rest with
      ⟨l, left, c, tail, operand, begins, visible, noSign, _⟩
    rw [begins] at same
    rcases operand.eq_value same (.inr (.inr ⟨c, tail, rfl, visible, noSign⟩)) ends spelled with
      ⟨tails, _⟩
    exact absurd tails (noSpace c tail)
  · have operand := legible.operandText rendered
    have single : e.asOperand text = text := by simp [Expr.asOperand, binary]
    rw [single] at operand
    rcases operand.eq_value same breaks ends spelled with ⟨ended, means⟩
    refine ⟨ended.symm, fun m => ?_⟩
    rw [Query.count?, means m, natural]

end Statement

/-- The counts that the store reads are those that the expressions stand for. -/
theorem Query.forall₂_count {q : Query} {exprs : List Expr} (legible : ∀ e ∈ exprs, e.Legible)
    {texts : List String} (rendered : Expr.renderAll q.plainScope exprs = .ok texts)
    {counts : List Nat}
    (reads : SelectionText.readParts? ", " (joinedBy ", " texts)
      (fun part => (readLiteral? q.bound part).bind Json.natural?) = some counts) (m : Meaning) :
    List.Forall₂ (fun e count => q.count? m e = some count) exprs counts := by
  have written := (List.forall₂_and_left _ _).mpr ⟨legible, forall₂_of_renderAll rendered⟩
  have side := forall₂_of_readParts? (p := fun _ => True) reads (fun _ _ _ _ => trivial)
    fun text member piece count _ read rest more follows follows' same => by
      rcases exists_left_of_forall₂ written member with ⟨e, _, own, ownRendered⟩
      exact (count_of_readLiteral? own ownRendered read follows follows' same).1
  refine forall₂_comp ?_ written side
  intro e text count own read
  exact (count_of_readLiteral? own.1 own.2 read.2 (.inl rfl) (.inl rfl) rfl).2 m

/-- Counts bound the rows of a query as the store does by them. -/
theorem Query.window?_of_counts {q : Query} {m : Meaning}
    (limited : q.offset.isSome = true → q.limit.isSome = true) {counts : List Nat}
    (counted : List.Forall₂ (fun e count => q.count? m e = some count)
      (q.offset.toList ++ q.limit.toList) counts) {window : Option (Nat × Nat)}
    (windowed : (counts = [] ∧ window = none) ∨
      (∃ count, counts = [count] ∧ window = some (0, count)) ∨
      ∃ offset count, counts = [offset, count] ∧ window = some (offset, count))
    {α : Type} (rows : List α) : q.window? m rows = some (DocStore.windowed window rows) := by
  unfold window?
  cases offset : q.offset with
  | none =>
      cases limit : q.limit with
      | none =>
          rw [offset, limit] at counted
          cases counted
          rcases windowed with ⟨_, rfl⟩ | ⟨_, same, _⟩ | ⟨_, _, same, _⟩
          · rfl
          · cases same
          · cases same
      | some kept =>
          rw [offset, limit] at counted
          rcases List.forall₂_cons_left_iff.mp counted with ⟨count, _, found, others, rfl⟩
          cases others
          rcases windowed with ⟨same, _⟩ | ⟨_, same, rfl⟩ | ⟨_, _, same, _⟩ <;> cases same
          simp [found, DocStore.windowed]
  | some skipped =>
      cases limit : q.limit with
      | none =>
          rw [offset, limit] at limited
          cases limited rfl
      | some kept =>
          rw [offset, limit] at counted
          rcases List.forall₂_cons_left_iff.mp counted with ⟨count, _, found, others, rfl⟩
          rcases List.forall₂_cons_left_iff.mp others with ⟨count', _, found', others, rfl⟩
          cases others
          rcases windowed with ⟨same, _⟩ | ⟨_, same, _⟩ | ⟨_, _, same, rfl⟩ <;> cases same
          simp [found, found', DocStore.windowed]

/-- The window of a query is the one that the store reads in it. -/
theorem Query.window?_eq {q : Query} (legible : ∀ e ∈ q.offset.toList ++ q.limit.toList, e.Legible)
    (limited : q.offset.isSome = true → q.limit.isSome = true) {texts : List String}
    (rendered : Expr.renderAll q.plainScope (q.offset.toList ++ q.limit.toList) = .ok texts)
    {counts : List Nat}
    (reads : SelectionText.readParts? ", " (joinedBy ", " texts)
      (fun part => (readLiteral? q.bound part).bind Json.natural?) = some counts)
    {window : Option (Nat × Nat)}
    (windowed : (joinedBy ", " texts = none ∧ window = none) ∨
      (∃ count, counts = [count] ∧ window = some (0, count)) ∨
      ∃ offset count, counts = [offset, count] ∧ window = some (offset, count))
    (m : Meaning) {α : Type} (rows : List α) :
    q.window? m rows = some (DocStore.windowed window rows) := by
  refine window?_of_counts limited (forall₂_count legible rendered reads m) ?_ rows
  rcases windowed with ⟨nothing, unbounded⟩ | counted
  · rw [nothing] at reads
    cases reads
    exact .inl ⟨rfl, unbounded⟩
  · exact .inr counted

/-! ### The row -/

namespace Statement

theorem dropDistinct_bracket (text : List Char) : dropDistinct ('[' :: text) = '[' :: text := by
  rw [dropDistinct]
  split
  · next rest found =>
      have start : dropLeading? "DISTINCT ".toList ('[' :: text) = none :=
        dropLeading?_cons_of_ne _ _ (by decide)
      rw [start] at found
      cases found
  · rfl

/-- A part of a row as the store reads it: a field of the document as it is, or as it was. -/
def readShown? (row part : List Char) : Option String :=
  (readField? row part).or (readField? "OLD".toList part)

theorem readProjection?_brackets (row inner : List Char) :
    readProjection? row ("[ ".toList ++ (inner ++ " ]".toList)) =
      (splitAll ", ".toList inner).mapM (readShown? row) := by
  have undistinct : dropDistinct ("[ ".toList ++ (inner ++ " ]".toList)) =
      "[ ".toList ++ (inner ++ " ]".toList) := dropDistinct_bracket _
  rw [readProjection?, undistinct, dropLeading?_append]
  simp only [Option.bind_eq_bind, Option.bind_some, dropTrailing?_append]
  rfl

theorem exists_fieldText_of_readShown? {row part : List Char} {name : String}
    (read : readShown? row part = some name) :
    part = fieldText row name ∨ part = fieldText "OLD".toList name := by
  rcases Option.or_eq_some_iff.mp read with now | ⟨_, before⟩
  · exact .inl (eq_fieldText_of_readField? now)
  · exact .inr (eq_fieldText_of_readField? before)

/-- A row without backticks has no fields that the store reads. -/
theorem readProjection?_eq_none {row inner : List Char} (noBacktick : '`' ∉ inner) :
    readProjection? row ("[ ".toList ++ (inner ++ " ]".toList)) = none := by
  rw [readProjection?_brackets]
  have nonempty : ", ".toList ≠ [] := by decide
  have whole := intercalate_splitAll nonempty inner
  cases pieces : splitAll ", ".toList inner with
  | nil => exact absurd pieces (splitAll_ne_nil nonempty inner)
  | cons piece rest =>
      rw [pieces] at whole
      rcases intercalate_cons_eq ", ".toList piece rest with ⟨tail, split, _⟩
      rw [whole] at split
      cases first : readShown? row piece with
      | none => simp [List.mapM_cons, first]
      | some name =>
          refine absurd ?_ noBacktick
          rw [split]
          rcases exists_fieldText_of_readShown? first with rfl | rfl <;> simp [fieldText]

theorem not_clear_of_occurrence (pattern before after : List Char) (nonempty : pattern ≠ []) :
    ¬ Clear pattern (before ++ (pattern ++ after)) [] := by
  intro clear
  have later := ((clear_append _ _ _ _).mp clear).2
  have found := dropLeading?_append pattern after
  cases pattern with
  | nil => exact nonempty rfl
  | cons p pattern =>
      have missing := later.1
      rw [List.append_nil] at missing
      cases missing.symm.trans found

/-- A field that is read at the place of another ends where that one does. -/
theorem rest_eq_of_fieldText {row : List Char} {name other : String} {rest more : List Char}
    (noBacktick : '`' ∉ name.toList) (clear : Clear ", ".toList (fieldText row other) [])
    (follows : FollowsPiece ", ".toList rest)
    (same : fieldText row name ++ rest = fieldText row other ++ more) :
    name = other ∧ rest = more := by
  by_cases inOther : '`' ∈ other.toList
  · rcases List.eq_append_cons_of_mem inOther with ⟨front, back, split, absent⟩
    simp only [fieldText, List.append_assoc, List.append_cancel_left_eq, List.cons_append,
      List.cons.injEq, true_and, List.nil_append, split] at same
    rcases append_cons_inj noBacktick absent same with ⟨_, tails⟩
    rcases follows with rfl | ⟨tail, rfl⟩
    · cases back <;> cases tails
    · have comma : ∃ behind, back = ", ".toList ++ behind := by
        have letters : ", ".toList ++ tail = ',' :: ' ' :: tail := rfl
        rw [letters] at tails
        rcases back with - | ⟨c, - | ⟨d, behind⟩⟩
        · cases tails
        · cases tails
        · simp only [List.cons_append, List.cons.injEq] at tails
          rcases tails with ⟨rfl, rfl, _⟩
          exact ⟨behind, rfl⟩
      rcases comma with ⟨behind, rfl⟩
      have spelled : fieldText row other = (row ++ ('.' :: '`' :: (front ++ ['`']))) ++
          (", ".toList ++ (behind ++ ['`'])) := by
        simp [fieldText, split]
      rw [spelled] at clear
      exact absurd clear (not_clear_of_occurrence _ _ _ (by decide))
  · exact fieldText_unique noBacktick inOther same

/-- The names that are read in a row are those of the fields that it consists of. -/
theorem names_of_readProjection? {q : Query} {exprs : List Expr}
    (fields : ∀ e ∈ exprs, ∃ source name, e = .field source name) {texts : List String}
    (rendered : Expr.renderAll q.plainScope exprs = .ok texts) {names : List String}
    (read : readProjection? q.rowChars ("[ ".toList ++
      (", ".toList.intercalate (texts.map String.toList) ++ " ]".toList)) = some names) :
    List.Forall₂ (fun e name => ∃ source, e = .field source name) exprs names := by
  rw [readProjection?_brackets] at read
  have written := (List.forall₂_and_left _ _).mpr ⟨fields, forall₂_of_renderAll rendered⟩
  have each : ∀ (e : Expr) (text : String), (∃ source name, e = .field source name) ∧
      e.render q.plainScope = .ok text → ∃ source name, e = .field source name ∧
        '`' ∉ name.toList ∧ text.toList = fieldText q.rowChars name := by
    rintro e text ⟨⟨source, name, rfl⟩, own⟩
    exact ⟨source, name, rfl, Query.field_plainScope own⟩
  have ends : ∀ (e : Expr) (text : String), ((∃ source name, e = .field source name) ∧
      e.render q.plainScope = .ok text) → ∀ piece name, Clear ", ".toList piece [] →
      readShown? q.rowChars piece = some name → ∀ rest more, FollowsPiece ", ".toList rest →
        text.toList ++ rest = piece ++ more → (∃ source, e = .field source name) ∧ rest = more := by
    intro e text own piece name clear found rest more follows same
    rcases each e text own with ⟨source, own, rfl, noBacktick, spelled⟩
    have isRow := q.rowVariable_rowChars
    generalize q.rowChars = row at spelled found isRow
    rw [spelled] at same
    rcases exists_fieldText_of_readShown? found with rfl | rfl
    · rcases rest_eq_of_fieldText noBacktick clear follows same with ⟨rfl, tails⟩
      exact ⟨⟨source, rfl⟩, tails⟩
    · exact (isRow.not_fieldText (by decide) same.symm).elim
  have reads : SelectionText.readParts? ", " (joinedBy ", " texts) (readShown? q.rowChars) =
      some names := by
    unfold joinedBy
    split
    · next empty =>
        have nothing : readShown? q.rowChars [] = none := by
          rcases q.rowVariable_rowChars with ⟨letter, _, row⟩
          rw [row]
          rfl
        have one : splitAll ", ".toList [] = [[]] := rfl
        rw [List.isEmpty_iff.mp empty, List.map_nil, List.intercalate_nil, one] at read
        simp [List.mapM_cons, nothing] at read
    · exact read
  have side := forall₂_of_readParts? (p := fun piece => Clear ", ".toList piece []) reads
    (fun body _ piece member => clear_of_mem_splitAll (by decide) member)
    fun text member piece name clear found rest more follows _ same => by
      rcases exists_left_of_forall₂ written member with ⟨e, _, own⟩
      exact (ends e text own piece name clear found rest more follows same).2
  refine forall₂_comp ?_ written side
  intro e text name own found
  exact (ends e text own _ name found.1 found.2 [] [] (.inl rfl) rfl).1

end Statement

/-- The row of a document holds the fields that the store reads in the row of the query. -/
theorem Query.rowOf_eq {q : Query} {exprs : List Expr} {names : List String}
    (requested : q.projection = some exprs)
    (side : List.Forall₂ (fun e name => ∃ source, e = .field source name) exprs names)
    (m : Meaning) (d : Document) : q.rowOf m d = .arr (names.map d.value) := by
  rw [rowOf, requested, Option.getD_some]
  congr 1
  clear requested
  induction side with
  | nil => rfl
  | cons field _ inductionHypothesis =>
      rcases field with ⟨source, rfl⟩
      rw [Expr.values, List.map_cons, inductionHypothesis]
      rfl

end DocStore
