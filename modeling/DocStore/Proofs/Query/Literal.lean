/-
Module: DocStore.Proofs.Query.Literal
Purpose: the values that the store in memory reads in a query, how they are spelled, and
  where they end.
Main exports:
  Statement.Word, Statement.Spelled, Statement.Spelled.unique, Literal.Legible.spelled
-/
import DocStore.Proofs.Query.Rendered

namespace DocStore

open Text Statement

namespace Text

/-! ### Blanks -/

/-- A text that begins with a visible character ends in the blanks that trimming drops. -/
theorem exists_blanks {c : Char} (visible : isBlank c = false) (text : List Char) :
    ∃ blanks, c :: text = trim (c :: text) ++ blanks ∧ ∀ d ∈ blanks, isBlank d = true := by
  have kept : (c :: text).dropWhile isBlank = c :: text := by simp [visible]
  refine ⟨((c :: text).reverse.takeWhile isBlank).reverse, ?_, ?_⟩
  · rw [trim, kept, ← List.reverse_append, List.takeWhile_append_dropWhile, List.reverse_reverse]
  · intro d member
    exact List.all_eq_true.mp List.all_takeWhile d (List.mem_reverse.mp member)

/-- The characters of numbers, parameters, constants and names without quotes. -/
def isSolid (c : Char) : Bool :=
  c.isAlphanum || c == '_' || c == '@' || c == '+' || c == '-' || c == '.'

theorem isSolid_eq (c : Char) : isSolid c = (c.isUpper || c.isLower || c.isDigit || c == '_' ||
    c == '@' || c == '+' || c == '-' || c == '.') := rfl

theorem not_isBlank_of_isSolid {c : Char} (solid : isSolid c = true) : isBlank c = false := by
  have outside : 33 ≤ c.toNat ∧ c.toNat ≤ 126 := by
    simp only [isSolid_eq, Bool.or_eq_true, beq_iff_eq] at solid
    rcases solid with ((((((upper | lower) | digit) | rfl) | rfl) | rfl) | rfl) | rfl
    · rw [isUpper_iff] at upper
      omega
    · rw [isLower_iff] at lower
      omega
    · rw [isDigit_iff] at digit
      omega
    all_goals decide
  simp only [isBlank, blankRanges, List.any_cons, List.any_nil, Bool.or_false,
    Bool.or_eq_false_iff, Bool.and_eq_false_iff, decide_eq_false_iff_not]
  omega

theorem isSolid_of_isDigit {c : Char} (digit : c.isDigit = true) : isSolid c = true := by
  simp [isSolid_eq, digit]

theorem isSolid_of_isLower {c : Char} (lower : c.isLower = true) : isSolid c = true := by
  simp [isSolid_eq, lower]

theorem isSolid_of_isNumberChar {c : Char} (number : Json.Reader.isNumberChar c = true) :
    isSolid c = true := by
  simp only [Json.Reader.isNumberChar, Bool.or_eq_true, beq_iff_eq] at number
  rcases number with ((((digit | rfl) | rfl) | rfl) | rfl) | rfl
  · exact isSolid_of_isDigit digit
  all_goals decide

end Text

namespace Statement

/-! ### Words -/

/-- A text without quotes that is read as a value: a parameter, a constant or a number. -/
structure Word (text : List Char) : Prop where
  solid : ∀ c ∈ text, isSolid c = true
  head : ∃ c rest, text = c :: rest ∧ c.isLower = false

theorem word_of_mem_constants {entry : String × Json} (listed : entry ∈ constants) :
    Word entry.1.toList := by
  simp only [constants, List.mem_cons, List.not_mem_nil, or_false] at listed
  rcases listed with rfl | rfl | rfl <;>
    exact ⟨List.all_eq_true.mp (by decide), _, _, rfl, by decide⟩

theorem word_of_numeric {text : List Char} (numeric : Json.Reader.Numeric text) : Word text := by
  rcases numeric with ⟨chars, c, rest, spelled, head⟩
  refine ⟨fun d member => isSolid_of_isNumberChar (chars d member), c, rest, spelled, ?_⟩
  rcases head with rfl | digit
  · decide
  · rw [isDigit_iff] at digit
    refine Bool.eq_false_iff.mpr fun lower => ?_
    rw [isLower_iff] at lower
    omega

theorem isSpace_eq_blank {c : Char} (space : Json.Reader.isSpace c = true) : isBlank c = true := by
  simp only [Json.Reader.isSpace, Bool.or_eq_true, decide_eq_true_eq] at space
  rcases space with ((rfl | rfl) | rfl) | rfl <;> decide

theorem not_blank_of_head_trim (text : List Char) : ∀ c ∈ (trim text).head?, isBlank c = false := by
  have prefixed : trim text <+: text.dropWhile isBlank := by
    rw [trim, ← List.reverse_suffix, List.reverse_reverse]
    exact List.dropWhile_suffix _
  intro c first
  rcases prefixed with ⟨tail, whole⟩
  have visible := List.head?_dropWhile_not isBlank text
  cases written : trim text with
  | nil =>
      rw [written] at first
      cases first
  | cons d rest =>
      rw [written] at first whole
      rw [← whole] at visible
      cases first
      exact visible

theorem not_blank_of_getLast_trim (text : List Char) :
    ∀ c ∈ (trim text).getLast?, isBlank c = false := by
  intro c last
  rw [trim, List.getLast?_reverse] at last
  have visible := List.head?_dropWhile_not isBlank (text.dropWhile isBlank).reverse
  rw [last] at visible
  exact visible

/-- A trimmed text that is read as a number consists of that number. -/
theorem numeric_of_readPlain? {text : List Char} {number : Number}
    (first : ∀ c ∈ text.head?, isBlank c = false) (last : ∀ c ∈ text.getLast?, isBlank c = false)
    (read : Json.parse? (String.ofList text) = some (.num number)) : Json.Reader.Numeric text := by
  rcases Json.Reader.numeric_of_parse? read with
    ⟨before, front, after, spelled, numeric, spaces, spaces'⟩
  rw [String.toList_ofList] at spelled
  have nothing : before = [] := by
    cases before with
    | nil => rfl
    | cons c before =>
        have visible := first c (by rw [spelled]; rfl)
        rw [isSpace_eq_blank (spaces c List.mem_cons_self)] at visible
        cases visible
  have nothing' : after = [] := by
    rcases List.eq_nil_or_concat after with empty | ⟨others, c, rfl⟩
    · exact empty
    · have visible := last c (by rw [spelled]; simp)
      rw [isSpace_eq_blank (spaces' c (by simp))] at visible
      cases visible
  rw [spelled, nothing, nothing']
  simpa using numeric

end Statement

/-- The parameters of a query by the numbers that its text calls them by. -/
def Query.bound (q : Query) : Dict Json :=
  CompiledQuery.bindVars ⟨"", q.params, []⟩

theorem Query.exists_param_of_bound {q : Query} {name : String} {value : Json}
    (bound : q.bound.get? name = some value) :
    ∃ i, name = toString (i + 1) ∧ i < q.params.length := by
  by_contra unnumbered
  have missing : q.bound.get? name = none := by
    refine Dict.get?_insertAll_of_forall_ne _ fun entry member same => ?_
    rcases List.mem_map.mp member with ⟨⟨own, i⟩, inParams, rfl⟩
    have position := List.snd_lt_of_mem_zipIdx inParams
    exact unnumbered ⟨i, same.symm, position⟩
  rw [missing] at bound
  cases bound

namespace Statement

/-- A value that is read is a text in quotes, or it is written as a word. -/
theorem quoted_or_word {q : Query} {text : List Char} {value : Json}
    (read : readLiteral? q.bound text = some value) :
    (∃ content, readQuoted? (trim text) = some content ∧ value = .str content) ∨
      Word (trim text) := by
  unfold readLiteral? at read
  split at read
  · next name spelled =>
      rcases Query.exists_param_of_bound read with ⟨i, numbered, _⟩
      have digits : name = digitsOf (i + 1) := by
        rw [← toList_toString, ← numbered, String.toList_ofList]
      refine .inr ⟨?_, '@', name, spelled, by decide⟩
      rw [spelled, digits]
      exact List.forall_mem_cons.mpr ⟨by decide,
        fun c member => isSolid_of_isDigit (isDigit_of_mem_digitsOf member)⟩
  · split at read
    · next content quoted =>
        cases read
        exact .inl ⟨content, quoted, rfl⟩
    · right
      unfold readPlain? at read
      split at read
      · next constant found =>
          have word := word_of_mem_constants (Dict.mem_of_lookupEntry_eq_some found)
          rw [String.toList_ofList] at word
          exact word
      · rcases Option.filter_eq_some_iff.mp read with ⟨parsed, isNumber⟩
        cases value with
        | num number =>
            exact word_of_numeric (numeric_of_readPlain? (not_blank_of_head_trim text)
              (not_blank_of_getLast_trim text) parsed)
        | _ => cases isNumber

/-! ### Where values end -/

/-- What comes behind a value: nothing, a closing parenthesis or a separator. -/
def EndsValue (rest : List Char) : Prop :=
  rest = [] ∨ (∃ more, rest = ')' :: more) ∨ (∃ more, rest = " && ".toList ++ more) ∨
    ∃ more, rest = ", ".toList ++ more

/-- What comes behind an expression: nothing, a sign, or a sign or word after a space. -/
def Breaks (rest : List Char) : Prop :=
  rest = [] ∨ (∃ c more, rest = c :: more ∧ c ∈ ['(', ')', ',']) ∨
    ∃ c more, rest = ' ' :: c :: more ∧ isBlank c = false ∧ c ∉ [')', ',']

theorem Breaks.closing (rest : List Char) : Breaks (')' :: rest) :=
  .inr (.inl ⟨_, _, rfl, by decide⟩)

theorem EndsValue.head {rest : List Char} (ends : EndsValue rest) :
    ∀ c ∈ rest.head?, c ∈ [')', ' ', ','] := by
  intro c first
  rcases ends with rfl | ⟨more, rfl⟩ | ⟨more, rfl⟩ | ⟨more, rfl⟩ <;> cases first <;> decide

theorem Breaks.not_solid {rest : List Char} (breaks : Breaks rest) :
    ∀ c ∈ rest.head?, isSolid c = false := by
  have signs : ['(', ')', ','].any isSolid = false := by decide
  intro c first
  rcases breaks with rfl | ⟨d, more, rfl, sign⟩ | ⟨d, more, rfl, _⟩ <;> cases first
  · exact Bool.eq_false_iff.mpr (List.any_eq_false.mp signs c sign)
  · decide

/-- No blanks stand between an expression and the end of a value. -/
theorem Breaks.eq_of_blanks {rest blanks more : List Char} (breaks : Breaks rest)
    (blank : ∀ c ∈ blanks, isBlank c = true) (ends : EndsValue more)
    (same : rest = blanks ++ more) : blanks = [] := by
  cases blanks with
  | nil => rfl
  | cons b blanks =>
      have own := blank b List.mem_cons_self
      subst same
      rcases breaks with nothing | ⟨c, tail, first, sign⟩ | ⟨c, tail, first, visible, noSign⟩
      · cases nothing
      · have signs : ['(', ')', ','].any isBlank = false := by decide
        cases first
        exact absurd own (List.any_eq_false.mp signs _ sign)
      · rw [List.cons_append, List.cons.injEq] at first
        cases blanks with
        | nil =>
            have begins : more = c :: tail := first.2
            have listed := ends.head c (by rw [begins]; rfl)
            simp only [List.mem_cons, List.not_mem_nil, or_false] at listed noSign
            rcases listed with rfl | rfl | rfl
            · exact absurd (.inl rfl) noSign
            · cases visible
            · exact absurd (.inr rfl) noSign
        | cons d blanks =>
            have second := blank d (by simp)
            rw [(List.cons.inj first.2).1, visible] at second
            cases second

/-! ### Values as they are spelled -/

/-- A text that is read as a value: a text in quotes, or a word. -/
inductive Spelled (bindVars : Dict Json) : List Char → Json → Prop where
  | quoted (content : String) : Spelled bindVars (quoteText content).toList (.str content)
  | word {text : List Char} {value : Json} (word : Word text)
      (read : readLiteral? bindVars text = some value) : Spelled bindVars text value

theorem Word.trim_eq {text : List Char} (word : Word text) : trim text = text :=
  trim_of_visible fun c member => not_isBlank_of_isSolid (word.solid c member)

theorem readLiteral?_trim (bindVars : Dict Json) {text : List Char} (word : Word (trim text)) :
    readLiteral? bindVars (trim text) = readLiteral? bindVars text := by
  simp only [readLiteral?, word.trim_eq]

theorem Spelled.constant {bindVars : Dict Json} {entry : String × Json}
    (listed : entry ∈ constants) : Spelled bindVars entry.1.toList entry.2 := by
  refine .word (word_of_mem_constants listed) ?_
  simp only [constants, List.mem_cons, List.not_mem_nil, or_false] at listed
  rcases listed with rfl | rfl | rfl <;> rfl

/-- A value that is read is spelled as one, if what begins and ends with a quote is a
text in quotes. -/
theorem spelled_of_readLiteral? {q : Query} {text : List Char} {value : Json}
    (read : readLiteral? q.bound text = some value)
    (whole : (readQuoted? (trim text)).isSome → Quoted (trim text)) :
    Spelled q.bound (trim text) value := by
  rcases quoted_or_word read with ⟨content, quoted, rfl⟩ | word
  · rw [(whole (by rw [quoted]; rfl)).eq_quoteText quoted]
    exact .quoted content
  · exact .word word (by rw [readLiteral?_trim _ word, read])

theorem Spelled.head {bindVars : Dict Json} {text : List Char} {value : Json}
    (spelled : Spelled bindVars text value) :
    ∃ c rest, text = c :: rest ∧ c.isLower = false ∧ (c = '\'' ∨ isSolid c = true) := by
  cases spelled with
  | quoted content => exact ⟨'\'', _, toList_quoteText content, by decide, .inl rfl⟩
  | word word _ =>
      rcases word.head with ⟨c, rest, rfl, other⟩
      exact ⟨c, rest, rfl, other, .inr (word.solid c List.mem_cons_self)⟩

section

variable {bindVars : Dict Json} {value : Json} {right more : List Char}

/-- Where a visible text stands, blanks are only behind the value that is read. -/
theorem Spelled.exists_blanks (spelled : Spelled bindVars (trim right) value) {c : Char}
    {text : List Char} (visible : isBlank c = false) (same : c :: text = right ++ more) :
    (∃ rest, trim right = c :: rest) ∧
      ∃ blanks, right = trim right ++ blanks ∧ ∀ d ∈ blanks, isBlank d = true := by
  rcases spelled.head with ⟨d, tail, begins, _⟩
  cases right with
  | nil => cases begins
  | cons first others =>
      rw [List.cons_append, List.cons.injEq] at same
      rcases same with ⟨rfl, _⟩
      rcases Text.exists_blanks visible others with ⟨blanks, whole, blank⟩
      refine ⟨⟨tail, ?_⟩, blanks, whole, blank⟩
      rw [begins, List.cons_append, List.cons.injEq] at whole
      rw [begins, whole.1]

/-- No value begins with a small letter, a bracket or a parenthesis. -/
theorem Spelled.not_of_cons (spelled : Spelled bindVars (trim right) value) {c : Char}
    {text : List Char} (other : c.isLower = true ∨ c = '[' ∨ c = '(')
    (same : c :: text = right ++ more) : False := by
  have visible : isBlank c = false := by
    rcases other with lower | rfl | rfl
    · exact not_isBlank_of_isSolid (isSolid_of_isLower lower)
    · decide
    · decide
  rcases spelled.exists_blanks visible same with ⟨⟨tail, begins⟩, _⟩
  rcases spelled.head with ⟨d, rest, begins', notLower, sign⟩
  cases begins.symm.trans begins'
  rcases other with lower | rfl | rfl
  · rw [notLower] at lower
    cases lower
  · revert sign
    decide
  · revert sign
    decide

/-- A word is read up to its end. -/
theorem Spelled.of_word (spelled : Spelled bindVars (trim right) value) {word rest : List Char}
    (isWord : Word word) (breaks : Breaks rest) (ends : EndsValue more)
    (same : word ++ rest = right ++ more) :
    more = rest ∧ readLiteral? bindVars word = some value := by
  rcases isWord.head with ⟨c, tail, rfl, notLower⟩
  have solid := isWord.solid c List.mem_cons_self
  rcases spelled.exists_blanks (not_isBlank_of_isSolid solid) same with
    ⟨⟨others, begins⟩, blanks, whole, blank⟩
  rw [whole, List.append_assoc] at same
  generalize trim right = own at spelled same begins
  cases spelled with
  | quoted content =>
      rw [toList_quoteText] at begins
      cases begins
      cases solid
  | word word read =>
      have apart : ∀ d ∈ (blanks ++ more).head?, isSolid d = false := by
        intro d first
        cases blanks with
        | nil =>
            have signs : [')', ' ', ','].any isSolid = false := by decide
            exact Bool.eq_false_iff.mpr (List.any_eq_false.mp signs d (ends.head d first))
        | cons b blanks =>
            cases first
            refine Bool.eq_false_iff.mpr fun solid => ?_
            have visible := not_isBlank_of_isSolid solid
            rw [blank d List.mem_cons_self] at visible
            cases visible
      rcases run_unique isWord.solid breaks.not_solid word.solid apart same with ⟨equal, tails⟩
      rw [breaks.eq_of_blanks blank ends tails, List.nil_append] at tails
      rw [equal]
      exact ⟨tails.symm, read⟩

/-- A text in quotes is read up to its end. -/
theorem Spelled.of_quoted (spelled : Spelled bindVars (trim right) value) {content : String}
    {rest : List Char} (breaks : Breaks rest) (ends : EndsValue more)
    (same : (quoteText content).toList ++ rest = right ++ more) :
    more = rest ∧ value = .str content := by
  have opened : '\'' :: (content.toList.flatMap quoteChar ++ ['\''] ++ rest) = right ++ more := by
    rw [← same, toList_quoteText]
    rfl
  rcases spelled.exists_blanks (by decide) opened with ⟨⟨tail, begins⟩, blanks, whole, blank⟩
  rw [whole, List.append_assoc] at same
  generalize trim right = own at spelled same begins
  cases spelled with
  | quoted other =>
      rcases quoteText_unique same with ⟨rfl, tails⟩
      rw [breaks.eq_of_blanks blank ends tails, List.nil_append] at tails
      exact ⟨tails.symm, rfl⟩
  | word word read =>
      have solid := word.solid '\'' (by rw [begins]; exact List.mem_cons_self)
      cases solid

/-- A value at the place of another is that value. -/
theorem Spelled.unique (spelled : Spelled bindVars (trim right) value) {own rest : List Char}
    {other : Json} (written : Spelled bindVars own other) (breaks : Breaks rest)
    (ends : EndsValue more) (same : own ++ rest = right ++ more) : more = rest ∧ other = value := by
  cases written with
  | quoted content =>
      rcases spelled.of_quoted breaks ends same with ⟨tails, rfl⟩
      exact ⟨tails, rfl⟩
  | word word read =>
      rcases spelled.of_word word breaks ends same with ⟨tails, read'⟩
      exact ⟨tails, Option.some.inj (read.symm.trans read')⟩

end

/-! ### Values of constants and parameters -/

theorem readLiteral?_of_numeric (bindVars : Dict Json) {text : List Char} {number : Number}
    (numeric : Json.Reader.Numeric text)
    (parsed : Json.parse? (String.ofList text) = some (.num number)) :
    readLiteral? bindVars text = some (.num number) := by
  rcases numeric.head with ⟨c, rest, rfl, head⟩
  have first : c ≠ '@' ∧ c ≠ '\'' ∧ c.isUpper = false := by
    rcases head with rfl | digit
    · decide
    · refine ⟨fun same => ?_, fun same => ?_, Bool.eq_false_iff.mpr fun upper => ?_⟩
      · subst same
        cases digit
      · subst same
        cases digit
      · rw [isUpper_iff] at upper
        rw [isDigit_iff] at digit
        omega
  have unquoted : readQuoted? (c :: rest) = none := by
    rw [readQuoted?, dropLeading?_cons_of_ne _ _ (Ne.symm first.2.1)]
    rfl
  have noConstant : Dict.lookupEntry (String.ofList (c :: rest)) constants = none := by
    have words : ∀ entry ∈ constants, ∃ letter tail, entry.1.toList = letter :: tail ∧
        letter.isUpper = true := by
      intro entry member
      simp only [constants, List.mem_cons, List.not_mem_nil, or_false] at member
      rcases member with rfl | rfl | rfl <;> exact ⟨_, _, rfl, by decide⟩
    refine (Dict.lookupEntry_eq_none_iff _ _).mpr fun entry member same => ?_
    rcases words entry member with ⟨letter, tail, spelled, upper⟩
    rw [same, String.toList_ofList] at spelled
    cases spelled
    rw [first.2.2] at upper
    cases upper
  unfold readLiteral?
  rw [(word_of_numeric numeric).trim_eq]
  split
  · next name same => exact absurd (List.cons.inj same).1 first.1
  · rw [unquoted, readPlain?, noConstant]
    simp only [parsed, Option.filter, Json.isNumber, if_true]

theorem word_paramText (i : Nat) : Word (paramText i) := by
  refine ⟨List.forall_mem_cons.mpr ⟨by decide, fun c member => ?_⟩, '@', _, rfl, by decide⟩
  exact isSolid_of_isDigit (isDigit_of_mem_digitsOf member)

end Statement

/-- A legible constant is spelled as its value. -/
theorem Literal.Legible.spelled {value : Literal} (legible : value.Legible) {text : String}
    (is : value.render = .ok text) (bindVars : Dict Json) :
    Spelled bindVars text.toList value.value := by
  cases value with
  | null =>
      cases is
      have listed : ("NULL", Json.null) ∈ constants := by simp [constants]
      exact .constant listed
  | bool value =>
      cases value <;> cases is
      · have listed : ("FALSE", Json.bool false) ∈ constants := by simp [constants]
        exact .constant listed
      · have listed : ("TRUE", Json.bool true) ∈ constants := by simp [constants]
        exact .constant listed
  | int value =>
      cases is
      have numeric := Literal.numeric_of_numberText (numberText_toString value)
      refine .word (word_of_numeric numeric) (readLiteral?_of_numeric bindVars numeric ?_)
      rw [String.ofList_toList]
      cases value with
      | ofNat n =>
          have fits : n ≤ wordLimit := by
            have bound : signedLimit ≤ wordLimit := by decide
            have upper : (n : Int) ≤ signedLimit := legible.2
            omega
          exact Json.parse?_toString fits
      | negSucc n =>
          have fits : n + 1 ≤ signedLimit + 1 := by
            have lower : -((signedLimit + 1 : Nat) : Int) ≤ Int.negSucc n := legible.1
            omega
          exact Json.parse?_negative n.succ_pos fits
  | float value =>
      rw [render] at is
      split at is
      · cases is
        have numeric := Literal.numeric_of_numberText (numberText_plain value)
        refine .word (word_of_numeric numeric) (readLiteral?_of_numeric bindVars numeric ?_)
        rw [String.ofList_toList]
        exact legible
      · cases is
  | text value =>
      cases is
      exact .quoted value

end DocStore
