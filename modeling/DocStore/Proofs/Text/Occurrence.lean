/-
Module: DocStore.Proofs.Text.Occurrence
Purpose: where a pattern occurs in a text that is put together from known parts, and how
  cutting at the pattern gives the parts back.
Main exports:
  Text.Clear, Text.splitOnce?_of_clear, Text.splitAll_intercalate, Text.keyword
-/
import DocStore.Text.Scan

namespace DocStore.Text

/-- No occurrence of the pattern starts inside the first text when the second one
follows it. -/
def Clear (pattern : List Char) : List Char → List Char → Prop
  | [], _ => True
  | c :: text, rest =>
      dropLeading? pattern (c :: (text ++ rest)) = none ∧ Clear pattern text rest

theorem clear_append (pattern text more rest : List Char) :
    Clear pattern (text ++ more) rest ↔
      Clear pattern text (more ++ rest) ∧ Clear pattern more rest := by
  induction text with
  | nil => simp [Clear]
  | cons c text inductionHypothesis =>
      simp only [List.cons_append, Clear, inductionHypothesis, List.append_assoc, and_assoc]

theorem dropLeading?_cons_of_ne {p c : Char} (pattern text : List Char) (h : p ≠ c) :
    dropLeading? (p :: pattern) (c :: text) = none := by
  simp [dropLeading?, h]

/-- A text without the first character of a pattern is clear of it. -/
theorem clear_of_head_notMem {p : Char} {text : List Char} (pattern rest : List Char)
    (absent : p ∉ text) : Clear (p :: pattern) text rest := by
  induction text with
  | nil => trivial
  | cons c text inductionHypothesis =>
      rw [List.mem_cons, not_or] at absent
      exact ⟨dropLeading?_cons_of_ne _ _ absent.1, inductionHypothesis absent.2⟩

/-- A text without the second character of a pattern is clear of it, unless the
rest begins with that character. -/
theorem clear_of_second_notMem {p q : Char} {text : List Char} (pattern rest : List Char)
    (absent : q ∉ text) (following : rest.head? ≠ some q) :
    Clear (p :: q :: pattern) text rest := by
  induction text with
  | nil => trivial
  | cons c text inductionHypothesis =>
      rw [List.mem_cons, not_or] at absent
      refine ⟨?_, inductionHypothesis absent.2⟩
      have second : (text ++ rest).head? ≠ some q := by
        cases text with
        | nil => exact following
        | cons d text =>
            intro same
            simp only [List.cons_append, List.head?_cons, Option.some.injEq] at same
            exact absent.2 (same ▸ List.mem_cons_self)
      by_cases first : p = c
      · cases remaining : text ++ rest with
        | nil => simp [dropLeading?]
        | cons d tail =>
            rw [remaining, List.head?_cons, ne_eq, Option.some.injEq] at second
            simp [dropLeading?, Ne.symm second]
      · exact dropLeading?_cons_of_ne _ _ first

/-! ### Cutting once -/

theorem splitOnce?_append_of_clear {pattern text rest : List Char}
    (clear : Clear pattern text rest) :
    splitOnce? pattern (text ++ rest) =
      (splitOnce? pattern rest).map fun cut => (text ++ cut.1, cut.2) := by
  induction text with
  | nil => simp
  | cons c text inductionHypothesis =>
      rw [List.cons_append, splitOnce?, clear.1, inductionHypothesis clear.2]
      cases splitOnce? pattern rest <;> rfl

theorem splitOnce?_self_append {pattern : List Char} (nonempty : pattern ≠ [])
    (rest : List Char) : splitOnce? pattern (pattern ++ rest) = some ([], rest) := by
  cases pattern with
  | nil => exact absurd rfl nonempty
  | cons p pattern =>
      rw [List.cons_append, splitOnce?, ← List.cons_append, dropLeading?_append]

/-- The text is cut at an occurrence that no other one precedes. -/
theorem splitOnce?_of_clear {pattern before : List Char} (nonempty : pattern ≠ [])
    (after : List Char) (clear : Clear pattern before (pattern ++ after)) :
    splitOnce? pattern (before ++ (pattern ++ after)) = some (before, after) := by
  rw [splitOnce?_append_of_clear clear, splitOnce?_self_append nonempty]
  simp

theorem splitOnce?_eq_none_of_clear {pattern text : List Char} (clear : Clear pattern text []) :
    splitOnce? pattern text = none := by
  have cut := splitOnce?_append_of_clear clear
  rw [List.append_nil] at cut
  rw [cut]
  rfl

theorem clear_of_splitOnce?_eq_none {pattern text : List Char}
    (h : splitOnce? pattern text = none) : Clear pattern text [] := by
  induction text with
  | nil => trivial
  | cons c text inductionHypothesis =>
      rw [splitOnce?] at h
      cases dropped : dropLeading? pattern (c :: text) with
      | some after =>
          rw [dropped] at h
          cases h
      | none =>
          rw [dropped] at h
          refine ⟨by rw [List.append_nil]; exact dropped, inductionHypothesis ?_⟩
          simpa using h

theorem dropLeading?_append_eq_none {pattern text : List Char} (more : List Char)
    (h : dropLeading? pattern text = none) : dropLeading? (pattern ++ more) text = none := by
  induction pattern generalizing text with
  | nil => cases h
  | cons p pattern inductionHypothesis =>
      cases text with
      | nil => rfl
      | cons c text =>
          by_cases same : p = c
          · subst same
            simp only [List.cons_append, dropLeading?, if_true] at h ⊢
            exact inductionHypothesis h
          · exact dropLeading?_cons_of_ne _ _ same

/-- What is clear of a pattern is clear of every longer one. -/
theorem Clear.extend {pattern text rest : List Char} (clear : Clear pattern text rest)
    (more : List Char) : Clear (pattern ++ more) text rest := by
  induction text with
  | nil => trivial
  | cons c text inductionHypothesis =>
      exact ⟨dropLeading?_append_eq_none more clear.1, inductionHypothesis clear.2⟩

theorem find?_append_of_clear {pattern text rest : List Char} (clear : Clear pattern text rest) :
    find? pattern (text ++ rest) = (find? pattern rest).map (text.length + ·) := by
  unfold find?
  rw [splitOnce?_append_of_clear clear]
  cases splitOnce? pattern rest <;> simp

theorem find?_self_append {pattern : List Char} (nonempty : pattern ≠ []) (rest : List Char) :
    find? pattern (pattern ++ rest) = some 0 := by
  unfold find?
  rw [splitOnce?_self_append nonempty]
  rfl

theorem containsPattern_append (before pattern after : List Char) (nonempty : pattern ≠ []) :
    containsPattern pattern (before ++ (pattern ++ after)) = true := by
  unfold containsPattern
  cases cut : splitOnce? pattern (before ++ (pattern ++ after)) with
  | some cut => rfl
  | none =>
      have clear := (clear_append _ _ _ _).mp (clear_of_splitOnce?_eq_none cut)
      cases pattern with
      | nil => exact absurd rfl nonempty
      | cons p pattern =>
          have missing := clear.2.1
          have present := dropLeading?_append (p :: pattern) after
          rw [List.append_nil] at missing
          exact absurd (missing.symm.trans present) (by simp)

/-- A pattern is found exactly where it is a part of the text. -/
theorem containsPattern_iff_isInfix {pattern text : List Char} (nonempty : pattern ≠ []) :
    containsPattern pattern text = true ↔ pattern <:+: text := by
  constructor
  · intro contained
    obtain ⟨cut, isCut⟩ := Option.isSome_iff_exists.mp contained
    exact ⟨cut.1, cut.2, (eq_append_of_splitOnce? isCut).symm⟩
  · rintro ⟨before, after, rfl⟩
    rw [List.append_assoc]
    exact containsPattern_append before pattern after nonempty

theorem containsPattern_eq_false_of_clear {pattern text : List Char}
    (clear : Clear pattern text []) : containsPattern pattern text = false := by
  unfold containsPattern
  rw [splitOnce?_eq_none_of_clear clear]
  rfl

/-! ### Cutting everywhere -/

/-- Put a text in front of the first piece. -/
def prependFirst (text : List Char) (pieces : List (List Char)) : List (List Char) :=
  text.foldr consFirst pieces

theorem prependFirst_cons (text piece : List Char) (pieces : List (List Char)) :
    prependFirst text (piece :: pieces) = (text ++ piece) :: pieces := by
  induction text with
  | nil => rfl
  | cons c text inductionHypothesis =>
      change consFirst c (prependFirst text (piece :: pieces)) = _
      rw [inductionHypothesis]
      rfl

theorem splitFrom_eq_drop (pattern : List Char) (skip : Nat) (text : List Char) :
    splitFrom pattern skip text = splitFrom pattern 0 (text.drop skip) := by
  induction skip generalizing text with
  | zero => rfl
  | succ skip inductionHypothesis =>
      cases text with
      | nil => rfl
      | cons c text =>
          rw [splitFrom, List.drop_succ_cons]
          exact inductionHypothesis text

theorem splitFrom_append_of_clear {pattern text rest : List Char}
    (clear : Clear pattern text rest) :
    splitFrom pattern 0 (text ++ rest) = prependFirst text (splitFrom pattern 0 rest) := by
  induction text with
  | nil => rfl
  | cons c text inductionHypothesis =>
      rw [List.cons_append, splitFrom, clear.1, inductionHypothesis clear.2]
      rfl

theorem splitFrom_self_append {pattern : List Char} (nonempty : pattern ≠ [])
    (rest : List Char) :
    splitFrom pattern 0 (pattern ++ rest) = [] :: splitFrom pattern 0 rest := by
  cases pattern with
  | nil => exact absurd rfl nonempty
  | cons p pattern =>
      have found : (dropLeading? (p :: pattern) (p :: (pattern ++ rest))).isSome = true := by
        rw [← List.cons_append, dropLeading?_append]
        rfl
      rw [List.cons_append, splitFrom, if_pos found, splitFrom_eq_drop]
      simp

theorem splitAll_of_clear {pattern text : List Char} (clear : Clear pattern text []) :
    splitAll pattern text = [text] := by
  have cut := splitFrom_append_of_clear clear
  rw [List.append_nil] at cut
  rw [splitAll, cut, splitFrom, prependFirst_cons, List.append_nil]

theorem splitAll_append {pattern piece : List Char} (nonempty : pattern ≠ [])
    (rest : List Char) (clear : Clear pattern piece (pattern ++ rest)) :
    splitAll pattern (piece ++ (pattern ++ rest)) = piece :: splitAll pattern rest := by
  rw [splitAll, splitFrom_append_of_clear clear, splitFrom_self_append nonempty,
    prependFirst_cons, List.append_nil, splitAll]

/-- A piece in which the pattern starts nowhere, whether the piece is the last one
or the pattern follows it. -/
def Separable (pattern piece : List Char) : Prop :=
  Clear pattern piece [] ∧ ∀ rest, Clear pattern piece (pattern ++ rest)

theorem separable_of_head_notMem {p : Char} {piece : List Char} (pattern : List Char)
    (absent : p ∉ piece) : Separable (p :: pattern) piece :=
  ⟨clear_of_head_notMem _ _ absent, fun _ => clear_of_head_notMem _ _ absent⟩

theorem separable_of_second_notMem {p q : Char} {piece : List Char} (pattern : List Char)
    (different : p ≠ q) (absent : q ∉ piece) : Separable (p :: q :: pattern) piece :=
  ⟨clear_of_second_notMem _ _ absent (by simp),
    fun _ => clear_of_second_notMem _ _ absent (by simp [different])⟩

/-- Pieces joined by a pattern are what cutting at the pattern gives back. -/
theorem splitAll_intercalate {pattern : List Char} (nonempty : pattern ≠ [])
    {pieces : List (List Char)} (some_piece : pieces ≠ [])
    (separable : ∀ piece ∈ pieces, Separable pattern piece) :
    splitAll pattern (pattern.intercalate pieces) = pieces := by
  induction pieces with
  | nil => exact absurd rfl some_piece
  | cons piece rest inductionHypothesis =>
      have first := separable piece List.mem_cons_self
      cases rest with
      | nil =>
          rw [List.intercalate_singleton]
          exact splitAll_of_clear first.1
      | cons second rest =>
          rw [List.intercalate_cons_cons, List.append_assoc,
            splitAll_append nonempty _ (first.2 _)]
          rw [inductionHypothesis (by simp)
            fun other member => separable other (List.mem_cons_of_mem _ member)]

theorem toList_join (separator : String) (texts : List String) :
    (join separator texts).toList = separator.toList.intercalate (texts.map String.toList) := by
  induction texts with
  | nil => rfl
  | cons text rest inductionHypothesis =>
      cases rest with
      | nil => simp [join]
      | cons second rest =>
          rw [join, String.toList_append, String.toList_append, inductionHypothesis]
          · simp [List.intercalate_cons_cons]
          · simp

/-! ### Words -/

/-- A word between spaces, as it is searched for. -/
def keyword (word : List Char) : List Char :=
  ' ' :: (word ++ [' '])

theorem keyword_ne_nil (word : List Char) : keyword word ≠ [] := by simp [keyword]

/-- A word is followed by a space only where it ends. -/
theorem dropLeading?_word {given word : List Char} (given_plain : ' ' ∉ given)
    (word_plain : ' ' ∉ word) (different : word ≠ given) {rest : List Char}
    (boundary : rest = [] ∨ ∃ more, rest = ' ' :: more) :
    dropLeading? (given ++ [' ']) (word ++ rest) = none := by
  induction given generalizing word with
  | nil =>
      cases word with
      | nil => exact absurd rfl different
      | cons c word =>
          rw [List.mem_cons, not_or] at word_plain
          exact dropLeading?_cons_of_ne _ _ word_plain.1
  | cons g given inductionHypothesis =>
      rw [List.mem_cons, not_or] at given_plain
      cases word with
      | nil =>
          rcases boundary with rfl | ⟨more, rfl⟩
          · rfl
          · exact dropLeading?_cons_of_ne _ _ (Ne.symm given_plain.1)
      | cons c word =>
          rw [List.mem_cons, not_or] at word_plain
          by_cases same : g = c
          · subst same
            have shorter : word ≠ given := fun equal => different (by rw [equal])
            simp only [List.cons_append, dropLeading?, if_true]
            exact inductionHypothesis given_plain.2 word_plain.2 shorter
          · exact dropLeading?_cons_of_ne _ _ same

end DocStore.Text
