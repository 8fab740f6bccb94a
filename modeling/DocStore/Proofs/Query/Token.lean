/-
Module: DocStore.Proofs.Query.Token
Purpose: query texts as tokens, and pairs of texts whose tokens differ in names and quoted
  texts only.
Main exports:
  Aql.Token, Aql.tokens, Aql.Token.Alike, Aql.Alike, Aql.Following
-/
import DocStore.Proofs.Text.Decimal
import DocStore.Query.Compile
import Mathlib.Data.List.Forall2

namespace DocStore.Aql

open List (Forall₂)

/-! ### Tokens -/

/-- What a query text consists of: names between backticks, quoted texts, words, numbers
and single signs.  The end of the text can cut off a name or a quoted text. -/
inductive Token where
  | name (content : List Char)
  | text (content : List Char)
  | word (letters : List Char)
  | number (digits : List Char)
  | sign (c : Char)
  | unclosed (content : List Char)
deriving DecidableEq, Repr

/-- The characters of words. -/
def isWordChar (c : Char) : Bool :=
  c.isAlphanum || c == '_'

/-- The characters that a name or a quoted text starts with. -/
def isQuote (c : Char) : Bool :=
  c == '`' || c == '\'' || c == '"'

/-- The characters that tokens can stand apart by. -/
def isSpace (c : Char) : Bool :=
  c == ' ' || c == '\t' || c == '\n' || c == '\r'

/-- Where the reading of a text stands: between tokens, or inside of one. -/
inductive State where
  | rest
  | word (read : List Char)
  | number (read : List Char)
  | name (read : List Char)
  | text (quote : Char) (escaped : Bool) (read : List Char)
deriving DecidableEq, Repr

namespace State

/-- The first character of a token. -/
def start (c : Char) : List Token × State :=
  if c = '`' then ([], name [])
  else if isQuote c then ([], text c false [])
  else if c.isDigit then ([], number [c])
  else if isWordChar c then ([], word [c])
  else if isSpace c then ([], rest)
  else ([.sign c], rest)

/-- Read a character: the tokens that it completes, and where the reading stands after
it.  A backslash in a quoted text keeps the next character from ending it. -/
def step : State → Char → List Token × State
  | rest, c => start c
  | word read, c =>
      if isWordChar c then ([], word (read ++ [c]))
      else (.word read :: (start c).1, (start c).2)
  | number read, c =>
      if c.isDigit || c == '.' then ([], number (read ++ [c]))
      else (.number read :: (start c).1, (start c).2)
  | name read, c => if c = '`' then ([.name read], rest) else ([], name (read ++ [c]))
  | text quote true read, c => ([], text quote false (read ++ [c]))
  | text quote false read, c =>
      if c = '\\' then ([], text quote true (read ++ [c]))
      else if c = quote then ([.text read], rest)
      else ([], text quote false (read ++ [c]))

/-- The token that the end of the text completes or cuts off. -/
def finish : State → List Token
  | rest => []
  | word read => [.word read]
  | number read => [.number read]
  | name read => [.unclosed read]
  | text _ _ read => [.unclosed read]

end State

/-- Read a text from a state on: the completed tokens, and where the reading stands. -/
def scan : State → List Char → List Token × State
  | s, [] => ([], s)
  | s, c :: text => ((s.step c).1 ++ (scan (s.step c).2 text).1, (scan (s.step c).2 text).2)

/-- The tokens of a text. -/
def tokens (text : String) : List Token :=
  (scan .rest text.toList).1 ++ (scan .rest text.toList).2.finish

theorem scan_append (s : State) (a b : List Char) :
    scan s (a ++ b) =
      ((scan s a).1 ++ (scan (scan s a).2 b).1, (scan (scan s a).2 b).2) := by
  induction a generalizing s with
  | nil => rfl
  | cons c a inductionHypothesis => simp [scan, inductionHypothesis]

/-- A text in quotes is one token, whatever it contains. -/
example : tokens "u0.`a b` == 'it\\'s'" =
    [.word "u0".toList, .sign '.', .name "a b".toList, .sign '=', .sign '=',
      .text "it\\'s".toList] := by
  decide

/-! ### Tokens that differ in names only -/

/-- Words that are equal, or variables of the same source: a letter and the position of
the source, alone or with the name of a field behind an underscore. -/
inductive SameWord : List Char → List Char → Prop where
  | same (letters : List Char) : SameWord letters letters
  | source {a b : Char} (lower : a.isLower) (lower' : b.isLower) (position : Nat) :
      SameWord (a :: (toString position).toList) (b :: (toString position).toList)
  | field {a b : Char} (lower : a.isLower) (lower' : b.isLower) (position : Nat)
      (name name' : List Char) :
      SameWord (a :: (toString position).toList ++ '_' :: name)
        (b :: (toString position).toList ++ '_' :: name')

/-- Tokens that are equal, or two names, two quoted texts or two variables of the same
source.  None of them is cut off. -/
inductive Token.Alike : Token → Token → Prop where
  | name (content content' : List Char) : Token.Alike (.name content) (.name content')
  | text (content content' : List Char) : Token.Alike (.text content) (.text content')
  | word {letters letters' : List Char} (same : SameWord letters letters') :
      Token.Alike (.word letters) (.word letters')
  | number (digits : List Char) : Token.Alike (.number digits) (.number digits)
  | sign (c : Char) : Token.Alike (.sign c) (.sign c)

/-- States between tokens, or inside of words that are alike or of equal numbers. -/
inductive State.Alike : State → State → Prop where
  | rest : State.Alike .rest .rest
  | word {read read' : List Char} (same : SameWord read read') :
      State.Alike (.word read) (.word read')
  | number (read : List Char) : State.Alike (.number read) (.number read)

/-- Two readings with tokens that are alike pairwise, and alike where they stand. -/
def ReadAlike (s s' : State) (a b : List Char) : Prop :=
  Forall₂ Token.Alike (scan s a).1 (scan s' b).1 ∧ (scan s a).2.Alike (scan s' b).2

/-- Two texts whose tokens are alike. -/
def Alike (a b : String) : Prop :=
  ReadAlike .rest .rest a.toList b.toList

/-- Two texts whose tokens are alike after any two texts whose tokens are alike: they do
not go on with a word. -/
def Following (a b : String) : Prop :=
  ∀ ⦃s s' : State⦄, s.Alike s' → ReadAlike s s' a.toList b.toList

theorem State.Alike.finish {s s' : State} (alike : s.Alike s') :
    Forall₂ Token.Alike s.finish s'.finish := by
  cases alike with
  | rest => exact .nil
  | word same => exact .cons (.word same) .nil
  | number read => exact .cons (.number read) .nil

theorem Alike.tokens {a b : String} (alike : Alike a b) :
    Forall₂ Token.Alike (tokens a) (tokens b) :=
  List.rel_append alike.1 alike.2.finish

theorem ReadAlike.append {s s' : State} {a b c d : List Char} (first : ReadAlike s s' a b)
    (second : ReadAlike (scan s a).2 (scan s' b).2 c d) : ReadAlike s s' (a ++ c) (b ++ d) := by
  rw [ReadAlike, scan_append, scan_append]
  exact ⟨List.rel_append first.1 second.1, second.2⟩

theorem Alike.append {a b c d : String} (first : Alike a b) (second : Following c d) :
    Alike (a ++ c) (b ++ d) := by
  rw [Alike, String.toList_append, String.toList_append]
  exact ReadAlike.append first (second first.2)

theorem Following.append {a b c d : String} (first : Following a b) (second : Following c d) :
    Following (a ++ c) (b ++ d) := by
  intro s s' alike
  rw [String.toList_append, String.toList_append]
  exact (first alike).append (second (first alike).2)

theorem Following.alike {a b : String} (following : Following a b) : Alike a b :=
  following .rest

theorem Following.empty : Following "" "" :=
  fun _ _ alike => ⟨.nil, alike⟩

/-! ### Equal texts without quotes -/

/-- Whether no name or quoted text starts in a text. -/
def isUnquoted (text : List Char) : Bool :=
  text.all fun c => !isQuote c

/-- Whether a text does not go on with a word. -/
def startsApart (text : List Char) : Bool :=
  text.head?.all fun c => !isWordChar c

/-- Whether what follows a text begins with a token of its own. -/
def endsApart (text : List Char) : Bool :=
  text.getLast?.any fun c => !isWordChar c && c != '.'

namespace State

theorem start_alike {c : Char} (unquoted : isQuote c = false) :
    Forall₂ Token.Alike (start c).1 (start c).1 ∧ (start c).2.Alike (start c).2 := by
  have noBacktick : c ≠ '`' := by
    rintro rfl
    cases unquoted
  unfold start
  rw [if_neg noBacktick, if_neg (by simp [unquoted])]
  split
  · exact ⟨.nil, .number _⟩
  · split
    · exact ⟨.nil, .word (.same _)⟩
    · split
      · exact ⟨.nil, .rest⟩
      · exact ⟨.cons (.sign c) .nil, .rest⟩

/-- Any character but a quote is read alike from equal states. -/
theorem Alike.step_same {s : State} (alike : s.Alike s) {c : Char}
    (unquoted : isQuote c = false) :
    Forall₂ Token.Alike (s.step c).1 (s.step c).1 ∧ (s.step c).2.Alike (s.step c).2 := by
  have started := start_alike unquoted
  cases alike with
  | rest => exact started
  | word same =>
      simp only [step]
      split
      · exact ⟨.nil, .word (.same _)⟩
      · exact ⟨.cons (.word same) started.1, started.2⟩
  | number read =>
      simp only [step]
      split
      · exact ⟨.nil, .number _⟩
      · exact ⟨.cons (.number read) started.1, started.2⟩

/-- A character that no word contains is read alike from states that are alike. -/
theorem Alike.step_apart {s s' : State} (alike : s.Alike s') {c : Char}
    (unquoted : isQuote c = false) (apart : isWordChar c = false) :
    Forall₂ Token.Alike (s.step c).1 (s'.step c).1 ∧ (s.step c).2.Alike (s.step c).2 ∧
      (s.step c).2 = (s'.step c).2 := by
  have started := start_alike unquoted
  cases alike with
  | rest => exact ⟨started.1, started.2, rfl⟩
  | word same =>
      simp only [step, apart]
      exact ⟨.cons (.word same) started.1, started.2, rfl⟩
  | number read =>
      have stepped := (Alike.number read).step_same unquoted
      exact ⟨stepped.1, stepped.2, rfl⟩

/-- No token goes on after a character that neither words nor numbers contain. -/
theorem Alike.step_eq_rest {s : State} (alike : s.Alike s) {c : Char}
    (unquoted : isQuote c = false) (apart : isWordChar c = false) (noPoint : c ≠ '.') :
    (s.step c).2 = .rest := by
  have noDigit : c.isDigit = false := by
    simp only [isWordChar, Char.isAlphanum, Bool.or_eq_false_iff] at apart
    exact apart.1.2
  have noBacktick : c ≠ '`' := by
    rintro rfl
    cases unquoted
  have started : (start c).2 = .rest := by
    unfold start
    rw [if_neg noBacktick, if_neg (by simp [unquoted]), if_neg (by simp [noDigit]),
      if_neg (by simp [apart])]
    split <;> rfl
  cases alike <;> simp [step, apart, noDigit, noPoint, started]

end State

theorem isQuote_eq_false_of_mem {text : List Char} (unquoted : isUnquoted text = true) {c : Char}
    (member : c ∈ text) : isQuote c = false := by
  have allowed := List.all_eq_true.mp unquoted c member
  rwa [Bool.not_eq_true'] at allowed

theorem ReadAlike.same {s : State} (alike : s.Alike s) {text : List Char}
    (unquoted : isUnquoted text = true) : ReadAlike s s text text := by
  induction text generalizing s with
  | nil => exact ⟨.nil, alike⟩
  | cons c text inductionHypothesis =>
      have step := alike.step_same (isQuote_eq_false_of_mem unquoted List.mem_cons_self)
      have others : isUnquoted text = true := by
        rw [isUnquoted, List.all_cons, Bool.and_eq_true] at unquoted
        exact unquoted.2
      have remaining := inductionHypothesis step.2 others
      exact ⟨List.rel_append step.1 remaining.1, remaining.2⟩

/-- After a text that sets what follows apart, the reading stands between tokens. -/
theorem scan_eq_rest {s : State} (alike : s.Alike s) {text : List Char}
    (unquoted : isUnquoted text = true) (ends : endsApart text = true) :
    (scan s text).2 = .rest := by
  rcases List.eq_nil_or_concat text with rfl | ⟨front, last, rfl⟩
  · cases ends
  · rw [List.concat_eq_append] at unquoted ends ⊢
    have quoteless : isQuote last = false := isQuote_eq_false_of_mem unquoted (by simp)
    have frontUnquoted : isUnquoted front = true := by
      rw [isUnquoted, List.all_append, Bool.and_eq_true] at unquoted
      exact unquoted.1
    simp only [endsApart, List.getLast?_append, List.getLast?_singleton, Option.some_or,
      Option.any_some, Bool.and_eq_true, Bool.not_eq_true', bne_iff_ne, ne_eq] at ends
    have before := (ReadAlike.same alike frontUnquoted).2
    rw [scan_append]
    exact before.step_eq_rest quoteless ends.1 ends.2

theorem Alike.same {text : String} (unquoted : isUnquoted text.toList = true) :
    Alike text text :=
  ReadAlike.same .rest unquoted

theorem Following.same {text : String} (unquoted : isUnquoted text.toList = true)
    (starts : startsApart text.toList = true) : Following text text := by
  intro s s' alike
  cases spelled : text.toList with
  | nil => exact ⟨.nil, alike⟩
  | cons c rest =>
      rw [spelled] at unquoted starts
      have apart : isWordChar c = false := by simpa [startsApart] using starts
      obtain ⟨read, stands, equal⟩ :=
        alike.step_apart (isQuote_eq_false_of_mem unquoted List.mem_cons_self) apart
      have others : isUnquoted rest = true := by
        rw [isUnquoted, List.all_cons, Bool.and_eq_true] at unquoted
        exact unquoted.2
      have remaining := ReadAlike.same stands others
      rw [ReadAlike, scan, scan, ← equal]
      exact ⟨List.rel_append read remaining.1, remaining.2⟩

/-- Texts that are alike stay so behind an equal text that sets them apart. -/
theorem Alike.behind {lead a b : String} (alike : Alike a b)
    (unquoted : isUnquoted lead.toList = true) (ends : endsApart lead.toList = true) :
    Alike (lead ++ a) (lead ++ b) := by
  have led := ReadAlike.same .rest unquoted
  rw [Alike, String.toList_append, String.toList_append]
  refine led.append ?_
  rw [scan_eq_rest .rest unquoted ends]
  exact alike

/-- Texts behind an equal text that sets them apart from both sides can follow others. -/
theorem Alike.following {lead a b : String} (alike : Alike a b)
    (unquoted : isUnquoted lead.toList = true) (starts : startsApart lead.toList = true)
    (ends : endsApart lead.toList = true) : Following (lead ++ a) (lead ++ b) := by
  intro s s' states
  have led := Following.same unquoted starts states
  have left : s.Alike s := by
    cases states with
    | rest => exact .rest
    | word _ => exact .word (.same _)
    | number read => exact .number read
  have right : s'.Alike s' := by
    cases states with
    | rest => exact .rest
    | word _ => exact .word (.same _)
    | number read => exact .number read
  rw [String.toList_append, String.toList_append]
  refine led.append ?_
  rw [scan_eq_rest left unquoted ends, scan_eq_rest right unquoted ends]
  exact alike

/-! ### Names, quoted texts and variables -/

theorem scan_name {read content : List Char} (noBacktick : '`' ∉ content) :
    scan (.name read) (content ++ ['`']) = ([.name (read ++ content)], .rest) := by
  induction content generalizing read with
  | nil => simp [scan, State.step]
  | cons c content inductionHypothesis =>
      rw [List.mem_cons, not_or] at noBacktick
      have other : c ≠ '`' := fun same => noBacktick.1 same.symm
      rw [List.cons_append, scan]
      simp only [State.step, if_neg other]
      rw [inductionHypothesis noBacktick.2]
      simp

theorem State.Alike.step_backtick {s s' : State} (alike : s.Alike s') :
    s.step '`' = (s.finish, .name []) ∧ s'.step '`' = (s'.finish, .name []) := by
  cases alike <;> exact ⟨rfl, rfl⟩

/-- A name between backticks is one token, and the reading stands behind it. -/
theorem scan_backticks {s : State} (opened : s.step '`' = (s.finish, .name [])) {content : String}
    (noBacktick : '`' ∉ content.toList) :
    scan s ("`" ++ content ++ "`").toList = (s.finish ++ [.name content.toList], .rest) := by
  have spelled : ("`" ++ content ++ "`").toList = '`' :: (content.toList ++ ['`']) := by simp
  rw [spelled, scan, opened, scan_name noBacktick]
  rfl

/-- Names between backticks are alike if they contain no backtick. -/
theorem Following.names {name name' : String} (noBacktick : '`' ∉ name.toList)
    (noBacktick' : '`' ∉ name'.toList) :
    Following ("`" ++ name ++ "`") ("`" ++ name' ++ "`") := by
  intro s s' alike
  rw [ReadAlike, scan_backticks alike.step_backtick.1 noBacktick,
    scan_backticks alike.step_backtick.2 noBacktick']
  exact ⟨List.rel_append alike.finish (.cons (.name _ _) .nil), .rest⟩

theorem scan_quoted (read content : List Char) :
    scan (.text '\'' false read) (content.flatMap quoteChar ++ ['\'']) =
      ([.text (read ++ content.flatMap quoteChar)], .rest) := by
  induction content generalizing read with
  | nil => simp [scan, State.step]
  | cons c content inductionHypothesis =>
      rw [List.flatMap_cons, List.append_assoc, scan_append]
      have through : scan (.text '\'' false read) (quoteChar c) =
          ([], .text '\'' false (read ++ quoteChar c)) := by
        unfold quoteChar
        split
        · simp [scan, State.step]
        · split
          · simp [scan, State.step]
          · next noBackslash noQuote => simp [scan, State.step, noBackslash, noQuote]
      rw [through, inductionHypothesis]
      simp

/-- A quoted text is one token, whatever it contains. -/
theorem scan_quoteText (content : String) : scan .rest (quoteText content).toList =
    ([.text (content.toList.flatMap quoteChar)], .rest) := by
  have inside := scan_quoted [] content.toList
  rw [quoteText, String.toList_ofList, List.cons_append, scan]
  simp [State.step, State.start, isQuote, inside]

/-- Quoted texts are alike, whatever they contain. -/
theorem Alike.texts (text text' : String) : Alike (quoteText text) (quoteText text') := by
  rw [Alike, ReadAlike, scan_quoteText, scan_quoteText]
  exact ⟨.cons (.text _ _) .nil, .rest⟩

theorem scan_word {read letters : List Char} (all : letters.all isWordChar = true) :
    scan (.word read) letters = ([], .word (read ++ letters)) := by
  induction letters generalizing read with
  | nil => simp [scan]
  | cons c letters inductionHypothesis =>
      rw [List.all_cons, Bool.and_eq_true] at all
      rw [scan]
      simp only [State.step, if_pos all.1]
      rw [inductionHypothesis all.2]
      simp

theorem isWordChar_of_isLower {c : Char} (lower : c.isLower) : isWordChar c = true := by
  change (c.isUpper || c.isLower || c.isDigit || c == '_') = true
  simp [lower]

theorem isWordChar_of_isDigit {c : Char} (digit : c.isDigit) : isWordChar c = true := by
  simp [isWordChar, Char.isAlphanum, digit]

theorem isQuote_of_isWordChar {c : Char} (ofWord : isWordChar c = true) : isQuote c = false := by
  cases quote : isQuote c with
  | false => rfl
  | true =>
      simp only [isQuote, Bool.or_eq_true, beq_iff_eq] at quote
      rcases quote with (rfl | rfl) | rfl <;> cases ofWord

theorem all_isWordChar_toString (n : Nat) : (toString n).toList.all isWordChar = true := by
  rw [List.all_eq_true]
  intro c member
  rw [Text.toList_toString] at member
  exact isWordChar_of_isDigit (Text.isDigit_of_mem_digitsOf member)

theorem isUnquoted_of_word {letters : List Char} (all : letters.all isWordChar = true) :
    isUnquoted letters = true := by
  rw [isUnquoted, List.all_eq_true]
  intro c member
  rw [isQuote_of_isWordChar (List.all_eq_true.mp all c member)]
  rfl

/-- A word that does not start with a digit is read as one word. -/
theorem scan_rest_identifier {c : Char} (ofWord : isWordChar c = true)
    (noDigit : c.isDigit = false) {letters : List Char} (all : letters.all isWordChar = true) :
    scan .rest (c :: letters) = ([], .word (c :: letters)) := by
  have noBacktick : c ≠ '`' := by
    rintro rfl
    cases ofWord
  have started : State.start c = ([], .word [c]) := by
    unfold State.start
    rw [if_neg noBacktick, if_neg (by simp [isQuote_of_isWordChar ofWord]),
      if_neg (by simp [noDigit]), if_pos ofWord]
  rw [scan, State.step, started, scan_word all]
  rfl

/-- A word that starts with a lower-case letter is read as one word. -/
theorem scan_rest_word {c : Char} (lower : c.isLower) {letters : List Char}
    (all : letters.all isWordChar = true) :
    scan .rest (c :: letters) = ([], .word (c :: letters)) := by
  apply scan_rest_identifier (isWordChar_of_isLower lower) _ all
  rw [Text.isLower_iff] at lower
  rw [Bool.eq_false_iff, Ne, Text.isDigit_iff]
  omega

/-- A word for the source at a position. -/
def IsSourceVariable (position : Nat) (word : String) : Prop :=
  ∃ letter : Char, letter.isLower ∧ word.toList = letter :: (toString position).toList

/-- A word for a field of the source at a position. -/
def IsFieldVariable (position : Nat) (field word : String) : Prop :=
  ∃ row, IsSourceVariable position row ∧ field.toList.all isWordChar = true ∧
    word = row ++ "_" ++ field

theorem Alike.sourceVariables {position : Nat} {word word' : String}
    (named : IsSourceVariable position word) (named' : IsSourceVariable position word') :
    Alike word word' := by
  rcases named with ⟨letter, lower, spelled⟩
  rcases named' with ⟨letter', lower', spelled'⟩
  have digits := all_isWordChar_toString position
  rw [Alike, ReadAlike, spelled, spelled', scan_rest_word lower digits,
    scan_rest_word lower' digits]
  exact ⟨.nil, .word (.source lower lower' position)⟩

theorem Alike.fieldVariables {position : Nat} {field field' word word' : String}
    (named : IsFieldVariable position field word)
    (named' : IsFieldVariable position field' word') : Alike word word' := by
  have read : ∀ {field word : String}, IsFieldVariable position field word →
      ∃ letter : Char, letter.isLower ∧ scan .rest word.toList =
        ([], .word (letter :: (toString position).toList ++ '_' :: field.toList)) := by
    rintro field word ⟨row, ⟨letter, lower, spelled⟩, plain, rfl⟩
    have letters : ((toString position).toList ++ '_' :: field.toList).all isWordChar = true := by
      rw [List.all_append, List.all_cons, all_isWordChar_toString, plain]
      decide
    have whole : (row ++ "_" ++ field).toList =
        letter :: ((toString position).toList ++ '_' :: field.toList) := by
      simp [spelled]
    exact ⟨letter, lower, by rw [whole, scan_rest_word lower letters, List.cons_append]⟩
  rcases read named with ⟨letter, lower, scanned⟩
  rcases read named' with ⟨letter', lower', scanned'⟩
  rw [Alike, ReadAlike, scanned, scanned']
  exact ⟨.nil, .word (.field lower lower' position _ _)⟩

/-! ### Rows of texts -/

theorem join_cons_cons (separator a b : String) (texts : List String) :
    Text.join separator (a :: b :: texts) =
      a ++ (separator ++ Text.join separator (b :: texts)) := by
  rw [Text.join, String.append_assoc]
  simp

/-- Texts that are alike pairwise are so with commas between neighbours. -/
theorem Alike.join {texts texts' : List String} (alike : Forall₂ Alike texts texts') :
    Alike (Text.join ", " texts) (Text.join ", " texts') := by
  induction alike with
  | nil => exact Following.empty.alike
  | cons first others inductionHypothesis =>
      cases others with
      | nil => exact first
      | cons second rest =>
          rw [join_cons_cons, join_cons_cons]
          exact first.append (inductionHypothesis.following (by decide) (by decide) (by decide))

end DocStore.Aql
