/-
Module: DocStore.Proofs.Query.Quoted
Purpose: texts in quotes: where they end, and that the store in memory reads in them what was
  put in quotes.
Main exports:
  Statement.Quoted, Statement.quoteText_unique, Statement.readQuoted?_quoteText,
  Statement.readLeadingQuoted?, Statement.quoteText_read_back
-/
import DocStore.Proofs.Query.Piece
import DocStore.Proofs.Text.Cutting

namespace DocStore

open Text

namespace Statement

theorem quoteChar_cases (c : Char) :
    quoteChar c = ['\\', c] ∨ (quoteChar c = [c] ∧ c ≠ '\\' ∧ c ≠ '\'') := by
  unfold quoteChar
  split
  · next same => exact .inl (by rw [same])
  · next noBackslash =>
      split
      · next same => exact .inl (by rw [same])
      · next noQuote => exact .inr ⟨rfl, noBackslash, noQuote⟩

/-! ### Reading character by character -/

/-- Read on from inside of quotes: the content up to the closing quote, and what stands behind
it.  A backslash is left out, and the character behind it is taken as it is. -/
def readEscaped? : List Char → Option (List Char × List Char)
  | [] => none
  | '\'' :: rest => some ([], rest)
  | ['\\'] => none
  | '\\' :: c :: rest => (readEscaped? rest).map fun read => (c :: read.1, read.2)
  | c :: rest => (readEscaped? rest).map fun read => (c :: read.1, read.2)

/-- Read the text in quotes that a text begins with: its content, and what stands behind it. -/
def readLeadingQuoted? : List Char → Option (String × List Char)
  | '\'' :: text => (readEscaped? text).map fun read => (String.ofList read.1, read.2)
  | _ => none

/-- No character that is escaped closes the quotes, and the quote behind them all does. -/
theorem readEscaped?_quoteChars (content rest : List Char) :
    readEscaped? (content.flatMap quoteChar ++ '\'' :: rest) = some (content, rest) := by
  induction content with
  | nil => rfl
  | cons c content inductionHypothesis =>
      rw [List.flatMap_cons, List.append_assoc]
      rcases quoteChar_cases c with escaped | ⟨plain, noBackslash, noQuote⟩
      · rw [escaped]
        simp [readEscaped?, inductionHypothesis]
      · rw [plain]
        simp [readEscaped?, noBackslash, inductionHypothesis]

/-! ### The end of a text in quotes -/

theorem toList_quoteText (text : String) :
    (quoteText text).toList = '\'' :: (text.toList.flatMap quoteChar ++ ['\'']) := by
  rw [quoteText, String.toList_ofList]
  rfl

/-- A text in quotes ends where its closing quote stands, whatever comes then. -/
theorem readLeadingQuoted?_quoteText (text : String) (rest : List Char) :
    readLeadingQuoted? ((quoteText text).toList ++ rest) = some (text, rest) := by
  have opened : (quoteText text).toList ++ rest =
      '\'' :: (text.toList.flatMap quoteChar ++ '\'' :: rest) := by
    rw [toList_quoteText, List.cons_append, List.append_assoc, List.singleton_append]
  rw [opened, readLeadingQuoted?, readEscaped?_quoteChars, Option.map_some, String.ofList_toList]

/-- Runs of backslashes before a quote are told apart. -/
example : readLeadingQuoted? "'a\\\\' == '\\''".toList =
    some ("a\\", " == '\\''".toList) := by
  decide

theorem quoteText_unique {text other : String} {rest more : List Char}
    (same : (quoteText text).toList ++ rest = (quoteText other).toList ++ more) :
    text = other ∧ rest = more := by
  have read := congrArg readLeadingQuoted? same
  rw [readLeadingQuoted?_quoteText, readLeadingQuoted?_quoteText] at read
  simpa using read

end Statement

namespace Text

theorem replaceAll_of_dropLeading?_eq_none {pattern : List Char} (nonempty : pattern ≠ [])
    (replacement : List Char) {c : Char} {text : List Char}
    (missing : dropLeading? pattern (c :: text) = none) :
    replaceAll pattern replacement (c :: text) = c :: replaceAll pattern replacement text := by
  have step : splitAll pattern (c :: text) = consFirst c (splitAll pattern text) := by
    rw [splitAll, splitFrom, missing]
    rfl
  rw [replaceAll, step, replaceAll]
  cases pieces : splitAll pattern text with
  | nil => exact absurd pieces (splitAll_ne_nil nonempty text)
  | cons piece rest =>
      cases rest with
      | nil => simp [consFirst]
      | cons second rest => simp [consFirst, List.intercalate_cons_cons]

theorem replaceAll_self_append {pattern : List Char} (nonempty : pattern ≠ [])
    (replacement text : List Char) :
    replaceAll pattern replacement (pattern ++ text) =
      replacement ++ replaceAll pattern replacement text := by
  have step : splitAll pattern (pattern ++ text) = [] :: splitAll pattern text :=
    splitFrom_self_append nonempty text
  rw [replaceAll, step, replaceAll]
  cases pieces : splitAll pattern text with
  | nil => exact absurd pieces (splitAll_ne_nil nonempty text)
  | cons piece rest => simp [List.intercalate_cons_cons]

theorem replaceAll_nil (pattern replacement : List Char) :
    replaceAll pattern replacement [] = [] := by
  simp [replaceAll, splitAll, splitFrom]

/-- No blanks are cut off between two visible characters. -/
theorem trim_of_ends {c d : Char} (first : isBlank c = false) (last : isBlank d = false)
    (text : List Char) : trim (c :: (text ++ [d])) = c :: (text ++ [d]) := by
  have opens : (c :: (text ++ [d])).dropWhile isBlank = c :: (text ++ [d]) := by simp [first]
  have closes : (c :: (text ++ [d])).reverse.dropWhile isBlank = (c :: (text ++ [d])).reverse := by
    simp [last]
  rw [trim, opens, closes, List.reverse_reverse]

end Text

namespace Statement

/-- The escape of a backslash alone. -/
def escapeBackslash (c : Char) : List Char :=
  if c = '\\' then ['\\', '\\'] else [c]

/-- No escaped text begins with a quote. -/
theorem ne_quote_of_head?_escaped {text : List Char} {c : Char}
    (first : (text.flatMap quoteChar).head? = some c) : c ≠ '\'' := by
  cases text with
  | nil => cases first
  | cons d text =>
      rw [List.flatMap_cons] at first
      rcases quoteChar_cases d with written | ⟨written, _, noQuote⟩ <;>
        rw [written] at first <;> cases first
      · decide
      · exact noQuote

/-- Taking the escapes of quotes away leaves those of backslashes. -/
theorem replaceAll_quotes (text : List Char) :
    replaceAll ['\\', '\''] ['\''] (text.flatMap quoteChar) = text.flatMap escapeBackslash := by
  induction text with
  | nil => exact replaceAll_nil _ _
  | cons c text inductionHypothesis =>
      rw [List.flatMap_cons, List.flatMap_cons]
      by_cases backslash : c = '\\'
      · subst backslash
        have second : dropLeading? ['\\', '\''] ('\\' :: text.flatMap quoteChar) = none := by
          cases written : text.flatMap quoteChar with
          | nil => rfl
          | cons d tail =>
              have other := ne_quote_of_head?_escaped (by rw [written]; rfl)
              simp [dropLeading?, Ne.symm other]
        have first : dropLeading? ['\\', '\''] ('\\' :: '\\' :: text.flatMap quoteChar) =
            none := by
          simp [dropLeading?]
        have spelled : quoteChar '\\' ++ text.flatMap quoteChar =
            '\\' :: '\\' :: text.flatMap quoteChar := rfl
        rw [spelled, replaceAll_of_dropLeading?_eq_none (by simp) _ first,
          replaceAll_of_dropLeading?_eq_none (by simp) _ second, inductionHypothesis]
        rfl
      · by_cases quote : c = '\''
        · subst quote
          have spelled : quoteChar '\'' ++ text.flatMap quoteChar =
              ['\\', '\''] ++ text.flatMap quoteChar := rfl
          rw [spelled, replaceAll_self_append (by simp), inductionHypothesis]
          rfl
        · have spelled : quoteChar c ++ text.flatMap quoteChar = c :: text.flatMap quoteChar := by
            simp [quoteChar, backslash, quote]
          rw [spelled, replaceAll_of_dropLeading?_eq_none (by simp) _
            (dropLeading?_cons_of_ne _ _ (Ne.symm backslash)), inductionHypothesis]
          simp [escapeBackslash, backslash]

theorem replaceAll_backslashes (text : List Char) :
    replaceAll ['\\', '\\'] ['\\'] (text.flatMap escapeBackslash) = text := by
  induction text with
  | nil => exact replaceAll_nil _ _
  | cons c text inductionHypothesis =>
      rw [List.flatMap_cons]
      by_cases backslash : c = '\\'
      · subst backslash
        have spelled : escapeBackslash '\\' ++ text.flatMap escapeBackslash =
            ['\\', '\\'] ++ text.flatMap escapeBackslash := rfl
        rw [spelled, replaceAll_self_append (by simp), inductionHypothesis]
        rfl
      · have spelled : escapeBackslash c ++ text.flatMap escapeBackslash =
            c :: text.flatMap escapeBackslash := by
          simp [escapeBackslash, backslash]
        rw [spelled, replaceAll_of_dropLeading?_eq_none (by simp) _
          (dropLeading?_cons_of_ne _ _ (Ne.symm backslash)), inductionHypothesis]

/-- A text that is written in quotes is read back. -/
theorem readQuoted?_quoteText (text : String) :
    readQuoted? (quoteText text).toList = some text := by
  have opened : dropLeading? ['\''] (quoteText text).toList =
      some (text.toList.flatMap quoteChar ++ ['\'']) := by
    rw [toList_quoteText]
    rfl
  rw [readQuoted?, opened]
  simp only [Option.bind_eq_bind, Option.bind_some, dropTrailing?_append, replaceAll_quotes,
    replaceAll_backslashes, String.ofList_toList]

/-- A text that is written in quotes is the value that is read, whatever is bound. -/
theorem readLiteral?_quoteText (bindVars : Dict Json) (text : String) :
    readLiteral? bindVars (quoteText text).toList = some (.str text) := by
  have trimmed : trim (quoteText text).toList = (quoteText text).toList := by
    rw [toList_quoteText]
    exact trim_of_ends (by decide) (by decide) _
  unfold readLiteral?
  rw [trimmed]
  split
  · next name parameter =>
      rw [toList_quoteText] at parameter
      cases parameter
  · rw [readQuoted?_quoteText]

/-- A text that was put in quotes is read back: by the store, whatever is bound, and character by
character up to its closing quote, whatever stands behind that. -/
theorem quoteText_read_back (text : String) :
    (∀ bindVars, readLiteral? bindVars (quoteText text).toList = some (.str text)) ∧
      ∀ rest, readLeadingQuoted? ((quoteText text).toList ++ rest) = some (text, rest) :=
  ⟨fun bindVars => readLiteral?_quoteText bindVars text, readLeadingQuoted?_quoteText text⟩

/-! ### Texts in quotes -/

/-- A text in quotes. -/
def Quoted (text : List Char) : Prop :=
  ∃ content : String, text = (quoteText content).toList

/-- A text in quotes is that of the content that is read in it. -/
theorem Quoted.eq_quoteText {text : List Char} (quoted : Quoted text) {content : String}
    (read : readQuoted? text = some content) : text = (quoteText content).toList := by
  rcases quoted with ⟨own, rfl⟩
  rw [readQuoted?_quoteText] at read
  cases read
  rfl

instance (text : List Char) : Decidable (Quoted text) :=
  decidable_of_iff (∃ content ∈ readQuoted? text, text = (quoteText content).toList)
    ⟨fun ⟨content, _, same⟩ => ⟨content, same⟩,
      fun ⟨content, same⟩ => ⟨content, same ▸ readQuoted?_quoteText content, same⟩⟩

end Statement

end DocStore
