/-
Module: DocStore.Proofs.Query.Piece
Purpose: the pieces that clauses of plain queries consist of, and what the store in memory
  reads in each.
Main exports:
  Text.isPlainName, Statement.RowVariable, Statement.fieldText, Statement.readFilter?_filterText,
  Statement.readSort?_sortText, Statement.readLiteral?_digitsOf
-/
import DocStore.Proofs.Dict
import DocStore.Proofs.Query.Layout
import DocStore.Proofs.Text.Decimal
import DocStore.Query.Compile

namespace DocStore

open Text

namespace Text

/-- Whether a name is a nonempty row of ASCII letters, digits and underscores. -/
def isPlainName (name : String) : Bool :=
  !name.isEmpty && name.toList.all fun c => c.isAlphanum || c == '_'

theorem notMem_of_isPlainName {name : String} (plain : isPlainName name = true) {c : Char}
    (other : (c.isAlphanum || c == '_') = false) : c ∉ name.toList := by
  intro member
  rw [isPlainName, Bool.and_eq_true] at plain
  have allowed := List.all_eq_true.mp plain.2 c member
  rw [other] at allowed
  cases allowed

theorem dropTrailing?_of_last_ne (pattern text : List Char) {c p : Char} (different : p ≠ c) :
    dropTrailing? (pattern ++ [p]) (text ++ [c]) = none := by
  rw [dropTrailing?, List.reverse_append, List.reverse_append]
  simp [dropLeading?, different]

theorem trimTrailing_append_of_ne {c last : Char} (different : last ≠ c) (text : List Char) :
    trimTrailing c (text ++ [last]) = text ++ [last] := by
  simp [trimTrailing, different]

theorem not_isBlank_of_isDigit {c : Char} (digit : c.isDigit) : isBlank c = false := by
  rw [isDigit_iff] at digit
  simp only [isBlank, blankRanges, List.any_cons, List.any_nil, Bool.or_false,
    Bool.or_eq_false_iff, Bool.and_eq_false_iff, decide_eq_false_iff_not]
  omega

theorem trim_of_visible {text : List Char} (visible : ∀ c ∈ text, isBlank c = false) :
    trim text = text := by
  have kept : ∀ {l : List Char}, (∀ c ∈ l, isBlank c = false) → l.dropWhile isBlank = l := by
    intro l shown
    cases l with
    | nil => rfl
    | cons c l => simp [shown c List.mem_cons_self]
  rw [trim, kept visible, kept (fun c member => visible c (List.mem_reverse.mp member)),
    List.reverse_reverse]

end Text

namespace Statement

/-- The variable of the rows of a query over one collection. -/
def RowVariable (row : List Char) : Prop :=
  ∃ letter : Char, letter.isLower ∧ row = [letter, '0']

theorem RowVariable.notMem {row : List Char} (isRow : RowVariable row) {c : Char}
    (notLower : c.isLower = false) (notZero : c ≠ '0') : c ∉ row := by
  rcases isRow with ⟨letter, lower, rfl⟩
  intro member
  rcases List.mem_cons.mp member with rfl | rest
  · rw [notLower] at lower
    cases lower
  · exact notZero (List.mem_singleton.mp rest)

theorem RowVariable.space_notMem {row : List Char} (isRow : RowVariable row) : ' ' ∉ row :=
  isRow.notMem (by decide) (by decide)

/-- The variable of the rows stands in front of the collection. -/
theorem RowVariable.splitOnce?_source {row : List Char} (isRow : RowVariable row)
    (rest : List Char) :
    splitOnce? " IN `".toList (row ++ (" IN `".toList ++ rest)) = some (row, rest) :=
  splitOnce?_of_clear (by decide) _ (clear_of_head_notMem _ _ isRow.space_notMem)

/-- A field of the rows under a variable. -/
def fieldText (row : List Char) (name : String) : List Char :=
  row ++ ('.' :: '`' :: (name.toList ++ ['`']))

theorem space_notMem_fieldText {row : List Char} {name : String} (rowPlain : ' ' ∉ row)
    (plain : isPlainName name = true) : ' ' ∉ fieldText row name := by
  have absent : ' ' ∉ name.toList := notMem_of_isPlainName plain (by decide)
  simp [fieldText, rowPlain, absent]

theorem fieldText_eq_append (row : List Char) (name : String) :
    fieldText row name = (row ++ ('.' :: '`' :: name.toList)) ++ ['`'] := by
  simp [fieldText]

theorem silent_fieldText {row : List Char} {name : String} (rowPlain : ' ' ∉ row)
    (plain : isPlainName name = true) : Silent (fieldText row name) := by
  have word := space_notMem_fieldText rowPlain plain
  rw [fieldText_eq_append] at word ⊢
  exact silent_word _ word (by decide)

theorem quiet_fieldText {row : List Char} {name : String} {c : Char} {rest : List Char}
    (rowPlain : ' ' ∉ row) (plain : isPlainName name = true) (begins : row = c :: rest)
    (other : c ∉ initials) : Quiet (fieldText row name) := by
  refine ⟨silent_fieldText rowPlain plain, c, rest ++ ('.' :: '`' :: (name.toList ++ ['`'])),
    ?_, other⟩
  rw [fieldText, begins, List.cons_append]

theorem comma_notMem_fieldText {row : List Char} {name : String} (rowPlain : ',' ∉ row)
    (plain : isPlainName name = true) : ',' ∉ fieldText row name := by
  have absent : ',' ∉ name.toList := notMem_of_isPlainName plain (by decide)
  simp [fieldText, rowPlain, absent]

theorem readField?_fieldText (row : List Char) (name : String) :
    readField? row (fieldText row name) = some name := by
  have front : fieldText row name = (row ++ ['.', '`']) ++ (name.toList ++ ['`']) := by
    simp [fieldText]
  rw [readField?, front, dropLeading?_append]
  simp [dropTrailing?_append]

/-! ### Numbers -/

theorem readPlain?_digitsOf {n : Nat} (fits : n ≤ wordLimit) :
    readPlain? (digitsOf n) = some (.int n) := by
  have written : String.ofList (digitsOf n) = toString n := by
    rw [← toList_toString, String.ofList_toList]
  have noConstant : Dict.lookupEntry (String.ofList (digitsOf n)) constants = none := by
    refine (Dict.lookupEntry_eq_none_iff _ _).mpr fun e member same => ?_
    have letters : ∀ e ∈ constants, ∃ c ∈ e.1.toList, c.isDigit = false := by
      intro e member
      simp only [constants, List.mem_cons, List.not_mem_nil, or_false] at member
      rcases member with rfl | rfl | rfl <;> exact ⟨_, List.mem_cons_self, by decide⟩
    rcases letters e member with ⟨c, inWord, notDigit⟩
    rw [same, String.toList_ofList] at inWord
    exact notMem_digitsOf notDigit n inWord
  rw [readPlain?, noConstant, written, Json.parse?_toString fits]
  rfl

theorem readLiteral?_digitsOf (bindVars : Dict Json) {n : Nat} (fits : n ≤ wordLimit) :
    readLiteral? bindVars (digitsOf n) = some (.int n) := by
  have trimmed : trim (digitsOf n) = digitsOf n :=
    trim_of_visible fun c member => not_isBlank_of_isDigit (isDigit_of_mem_digitsOf member)
  have notParameter : ∀ name, digitsOf n ≠ '@' :: name := fun name same =>
    notMem_digitsOf (by decide) n (same ▸ List.mem_cons_self)
  have notQuoted : readQuoted? (digitsOf n) = none := by
    cases spelled : digitsOf n with
    | nil => rfl
    | cons c rest =>
        have different : '\'' ≠ c := fun same =>
          notMem_digitsOf (c := '\'') (by decide) n (by rw [spelled, same]; simp)
        rw [readQuoted?, dropLeading?_cons_of_ne _ _ different]
        rfl
  unfold readLiteral?
  rw [trimmed]
  split
  · next name same => exact absurd same (notParameter name)
  · rw [notQuoted]
    exact readPlain?_digitsOf fits

theorem quiet_digitsOf (n : Nat) : Quiet (digitsOf n) := by
  have plain : ' ' ∉ digitsOf n := notMem_digitsOf (by decide) n
  constructor
  · rcases exists_append_digitsOf n with ⟨front, last, spelled, digit⟩
    rw [spelled] at plain ⊢
    refine silent_word _ plain fun member => ?_
    have letters : ("FOR".toList.all fun c => !c.isDigit) = true := by decide
    have other := List.all_eq_true.mp letters last member
    rw [digit] at other
    cases other
  · cases spelled : digitsOf n with
    | nil => exact absurd spelled (digitsOf_ne_nil n)
    | cons c rest =>
        refine ⟨c, rest, rfl, fun member => ?_⟩
        have letters : (initials.all fun c => !c.isDigit) = true := by decide
        have other : c.isDigit = false := by
          simpa using List.all_eq_true.mp letters c member
        exact notMem_digitsOf other n (by rw [spelled]; simp)

/-! ### Filters -/

/-- The text of a parameter. -/
def paramText (i : Nat) : List Char :=
  '@' :: digitsOf (i + 1)

theorem readLiteral?_paramText (bindVars : Dict Json) (i : Nat) :
    readLiteral? bindVars (paramText i) = bindVars.get? (toString (i + 1)) := by
  have trimmed : trim (paramText i) = paramText i := by
    refine trim_of_visible fun c member => ?_
    rcases List.mem_cons.mp member with rfl | digit
    · decide
    · exact not_isBlank_of_isDigit (isDigit_of_mem_digitsOf digit)
  unfold readLiteral?
  rw [trimmed, paramText]
  simp only [← toList_toString, String.ofList_toList]

/-- The text of an equation between a field and a parameter. -/
def filterText (row : List Char) (name : String) (i : Nat) : List Char :=
  '(' :: (fieldText row name ++ (" == ".toList ++ (paramText i ++ [')'])))

/-- A parenthesis around an equation is ignored, and its sides are read apart. -/
theorem readFilter?_filterText {row : List Char} {name : String} (isRow : RowVariable row)
    (plain : isPlainName name = true) (bindVars : Dict Json) (i : Nat) :
    readFilter? row bindVars (filterText row name i) =
      (bindVars.get? (toString (i + 1))).map fun value => (name, value) := by
  have rowPlain := isRow.space_notMem
  have opened : trimLeading '(' (filterText row name i) =
      fieldText row name ++ (" == ".toList ++ (paramText i ++ [')'])) := by
    rcases isRow with ⟨letter, lower, rfl⟩
    have different : letter ≠ '(' := fun same => by subst same; cases lower
    simp [filterText, trimLeading, fieldText, different]
  have closed : trimTrailing ')' (fieldText row name ++ (" == ".toList ++ (paramText i ++ [')']))) =
      fieldText row name ++ (" == ".toList ++ paramText i) := by
    rcases exists_append_digitsOf (i + 1) with ⟨front, last, spelled, digit⟩
    have different : last ≠ ')' := fun same => by subst same; cases digit
    have trimmed := trimTrailing_append_of_ne different
      (fieldText row name ++ (" == ".toList ++ ('@' :: front)))
    simpa [trimTrailing, paramText, spelled] using trimmed
  have cut : splitOnce? " == ".toList (fieldText row name ++ (" == ".toList ++ paramText i)) =
      some (fieldText row name, paramText i) :=
    splitOnce?_of_clear (by decide) _
      (clear_of_head_notMem _ _ (space_notMem_fieldText rowPlain plain))
  rw [readFilter?, opened, closed, cut]
  simp only [Option.bind_eq_bind, Option.bind_some, readField?_fieldText, readLiteral?_paramText]
  cases bindVars.get? (toString (i + 1)) <;> rfl

theorem quiet_filterText {row : List Char} {name : String} (isRow : RowVariable row)
    (plain : isPlainName name = true) (i : Nat) : Quiet (filterText row name i) := by
  refine ⟨?_, '(', _, rfl, by decide⟩
  have rowPlain := isRow.space_notMem
  have field : Silent ('(' :: fieldText row name) := by
    have word : ' ' ∉ '(' :: fieldText row name := by
      rw [List.mem_cons, not_or]
      exact ⟨by decide, space_notMem_fieldText rowPlain plain⟩
    rw [fieldText_eq_append, ← List.cons_append] at word ⊢
    exact silent_word _ word (by decide)
  have param : Silent (' ' :: (paramText i ++ [')'])) := by
    have word : ' ' ∉ paramText i ++ [')'] := by
      have digits : ' ' ∉ digitsOf (i + 1) := notMem_digitsOf (by decide) _
      simp [paramText, digits]
    exact silent_space_cons (silent_word _ word (by decide)) (by decide)
  have parts : filterText row name i =
      ('(' :: fieldText row name) ++ (" ==".toList ++ (' ' :: (paramText i ++ [')']))) := by
    simp [filterText]
  rw [parts]
  exact silent_append field (silent_append (silent_of_rulesOut (by decide)) param)

theorem ampersand_notMem_filterText {row : List Char} {name : String} (isRow : RowVariable row)
    (plain : isPlainName name = true) (i : Nat) : '&' ∉ filterText row name i := by
  have inRow : '&' ∉ row := isRow.notMem (by decide) (by decide)
  have inName : '&' ∉ name.toList := notMem_of_isPlainName plain (by decide)
  have inDigits : '&' ∉ digitsOf (i + 1) := notMem_digitsOf (by decide) _
  simp [filterText, fieldText, paramText, inRow, inName, inDigits]

/-! ### Sort criteria -/

/-- The text of a sort criterion. -/
def sortText (row : List Char) (s : StatementSort) : List Char :=
  if s.descends then fieldText row s.field ++ " DESC".toList else fieldText row s.field

theorem readSort?_sortText (row : List Char) (s : StatementSort) :
    readSort? row (sortText row s) = some s := by
  rcases s with ⟨field, descends⟩
  cases descends with
  | true =>
      rw [readSort?, sortText, if_pos rfl, dropTrailing?_append]
      simp [readField?_fieldText]
  | false =>
      have ascending : dropTrailing? " DESC".toList (fieldText row field) = none := by
        rw [fieldText_eq_append]
        exact dropTrailing?_of_last_ne " DES".toList _ (by decide)
      rw [readSort?, sortText, if_neg Bool.false_ne_true, ascending]
      simp [readField?_fieldText]

theorem RowVariable.exists_cons {row : List Char} (isRow : RowVariable row) :
    ∃ c rest, row = c :: rest ∧ c ∉ initials := by
  rcases isRow with ⟨letter, lower, rfl⟩
  refine ⟨letter, ['0'], rfl, fun member => ?_⟩
  have capital : (initials.all fun c => !c.isLower) = true := by decide
  have other := List.all_eq_true.mp capital letter member
  rw [lower] at other
  cases other

theorem quiet_sortText {row : List Char} {s : StatementSort} (isRow : RowVariable row)
    (plain : isPlainName s.field = true) : Quiet (sortText row s) := by
  rcases isRow.exists_cons with ⟨c, rest, begins, other⟩
  rcases quiet_fieldText isRow.space_notMem plain begins other with
    ⟨silent, first, text, opening, quiet⟩
  unfold sortText
  split
  · refine ⟨silent_append silent (silent_of_rulesOut (by decide)), first, text ++ " DESC".toList,
      ?_, quiet⟩
    rw [opening, List.cons_append]
  · exact ⟨silent, first, text, opening, quiet⟩

theorem comma_notMem_sortText {row : List Char} {s : StatementSort} (isRow : RowVariable row)
    (plain : isPlainName s.field = true) : ',' ∉ sortText row s := by
  have field := comma_notMem_fieldText (isRow.notMem (by decide) (by decide)) plain
  unfold sortText
  split
  · simp [field]
  · exact field

end Statement

/-! ### The variable of the rows -/

theorem isLower_toLower {c : Char} (letter : c.isAlpha) : c.toLower.isLower := by
  change (c.isUpper || c.isLower) = true at letter
  rw [Bool.or_eq_true, Text.isUpper_iff, Text.isLower_iff] at letter
  rw [Text.isLower_iff]
  unfold Char.toLower
  split
  · next upper =>
      have gap : ('a'.val - 'A'.val).toNat = 32 := by decide
      have bounds : 'A'.val.toNat = 65 ∧ 'Z'.val.toNat = 90 := by decide
      simp only [ge_iff_le, UInt32.le_iff_toNat_le] at upper
      simp only [Char.toNat, UInt32.toNat_add]
      omega
  · next notUpper =>
      simp only [ge_iff_le, UInt32.le_iff_toNat_le] at notUpper
      rcases letter with upper | lower
      · exact absurd upper notUpper
      · exact lower

theorem rowVariable_variableOf (name : String) :
    Statement.RowVariable (Query.variableOf name 0).toList := by
  have zero : (toString 0).toList = ['0'] := by decide
  have letters : ∀ letter : Char, letter.isLower →
      Statement.RowVariable (String.singleton letter ++ toString 0).toList := by
    intro letter lower
    refine ⟨letter, lower, ?_⟩
    rw [String.toList_append, zero, String.toList_singleton, List.singleton_append]
  unfold Query.variableOf
  apply letters
  split
  · split
    · next letter => exact isLower_toLower letter
    · decide
  · decide

end DocStore
