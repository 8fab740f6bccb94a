/-
Module: DocStore.Proofs.Text.Cutting
Purpose: the pieces that a text is cut into, and when two rows of pieces make up the same
  text.
Main exports:
  Text.splitOnce?_singleton_eq_some_iff, Text.intercalate_splitAll, Text.clear_of_mem_splitAll,
  Text.eq_of_intercalate_eq
-/
import DocStore.Proofs.Text.Occurrence

namespace DocStore.Text

theorem clear_of_splitOnce? {pattern text before after : List Char}
    (cut : splitOnce? pattern text = some (before, after)) :
    Clear pattern before (pattern ++ after) := by
  induction text generalizing before with
  | nil => cases cut
  | cons c text inductionHypothesis =>
      have whole := eq_append_of_splitOnce? cut
      rw [splitOnce?] at cut
      cases dropped : dropLeading? pattern (c :: text) with
      | some rest =>
          rw [dropped] at cut
          cases cut
          trivial
      | none =>
          rw [dropped] at cut
          rcases Option.map_eq_some_iff.mp cut with ⟨⟨front, rest⟩, inner, same⟩
          cases same
          rw [whole] at dropped
          refine ⟨?_, inductionHypothesis inner⟩
          simpa using dropped

theorem notMem_of_clear_singleton {c : Char} {text rest : List Char}
    (clear : Clear [c] text rest) : c ∉ text := by
  induction text with
  | nil => exact List.not_mem_nil
  | cons d text inductionHypothesis =>
      have different : c ≠ d := by
        rintro rfl
        cases (dropLeading?_append [c] (text ++ rest)).symm.trans clear.1
      exact List.not_mem_cons_of_ne_of_not_mem different (inductionHypothesis clear.2)

/-- A text is cut at a character where that character stands first. -/
theorem splitOnce?_singleton_eq_some_iff {c : Char} {text before after : List Char} :
    splitOnce? [c] text = some (before, after) ↔ c ∉ before ∧ text = before ++ c :: after := by
  constructor
  · intro cut
    have whole := eq_append_of_splitOnce? cut
    rw [List.append_assoc] at whole
    exact ⟨notMem_of_clear_singleton (clear_of_splitOnce? cut), whole⟩
  · rintro ⟨absent, rfl⟩
    exact splitOnce?_of_clear (List.cons_ne_nil c []) after (clear_of_head_notMem [] _ absent)

theorem dropLeading?_append_of_eq_some {pattern text after : List Char}
    (dropped : dropLeading? pattern text = some after) (rest : List Char) :
    dropLeading? pattern (text ++ rest) = some (after ++ rest) := by
  rw [eq_append_of_dropLeading? dropped, List.append_assoc, dropLeading?_append]

/-- What is clear of a pattern in front of a text is clear of it on its own. -/
theorem Clear.alone {pattern text rest : List Char} (clear : Clear pattern text rest) :
    Clear pattern text [] := by
  induction text with
  | nil => trivial
  | cons c text inductionHypothesis =>
      refine ⟨?_, inductionHypothesis clear.2⟩
      cases dropped : dropLeading? pattern (c :: (text ++ [])) with
      | none => rfl
      | some after =>
          rw [List.append_nil] at dropped
          have longer := dropLeading?_append_of_eq_some dropped rest
          rw [List.cons_append, clear.1] at longer
          cases longer

/-- Cutting a text stops at once, or at the first occurrence of the pattern. -/
theorem splitAll_cases {pattern : List Char} (nonempty : pattern ≠ []) (text : List Char) :
    (Clear pattern text [] ∧ splitAll pattern text = [text]) ∨
      ∃ before after, text = before ++ (pattern ++ after) ∧ Clear pattern before [] ∧
        splitAll pattern text = before :: splitAll pattern after := by
  cases cut : splitOnce? pattern text with
  | none =>
      have clear := clear_of_splitOnce?_eq_none cut
      exact .inl ⟨clear, splitAll_of_clear clear⟩
  | some parts =>
      have whole := eq_append_of_splitOnce? cut
      have clear := clear_of_splitOnce? cut
      rw [List.append_assoc] at whole
      refine .inr ⟨parts.1, parts.2, whole, clear.alone, ?_⟩
      rw [whole, splitAll_append nonempty _ clear]

theorem splitAll_ne_nil {pattern : List Char} (nonempty : pattern ≠ []) (text : List Char) :
    splitAll pattern text ≠ [] := by
  rcases splitAll_cases nonempty text with ⟨_, cut⟩ | ⟨before, after, _, _, cut⟩ <;> simp [cut]

/-- Nothing is lost by cutting, and no piece contains the pattern. -/
theorem splitAll_spec {pattern : List Char} (nonempty : pattern ≠ []) (text : List Char) :
    pattern.intercalate (splitAll pattern text) = text ∧
      ∀ piece ∈ splitAll pattern text, Clear pattern piece [] := by
  induction size : text.length using Nat.strongRecOn generalizing text with
  | ind n inductionHypothesis =>
      rcases splitAll_cases nonempty text with ⟨clear, cut⟩ | ⟨before, after, whole, clear, cut⟩
      · rw [cut, List.intercalate_singleton]
        refine ⟨rfl, fun piece member => ?_⟩
        rw [List.mem_singleton.mp member]
        exact clear
      · have shorter : after.length < n := by
          have positive := List.length_pos_iff.mpr nonempty
          rw [← size, whole]
          simp only [List.length_append]
          omega
        rcases inductionHypothesis _ shorter after rfl with ⟨joined, clears⟩
        rw [cut]
        constructor
        · cases pieces : splitAll pattern after with
          | nil => exact absurd pieces (splitAll_ne_nil nonempty after)
          | cons piece rest =>
              rw [List.intercalate_cons_cons, ← pieces, joined, whole, List.append_assoc]
        · exact List.forall_mem_cons.mpr ⟨clear, clears⟩

theorem intercalate_splitAll {pattern : List Char} (nonempty : pattern ≠ []) (text : List Char) :
    pattern.intercalate (splitAll pattern text) = text :=
  (splitAll_spec nonempty text).1

theorem clear_of_mem_splitAll {pattern text piece : List Char} (nonempty : pattern ≠ [])
    (member : piece ∈ splitAll pattern text) : Clear pattern piece [] :=
  (splitAll_spec nonempty text).2 piece member

/-! ### Runs of characters of one kind -/

section

variable {kind : Char → Bool} {run rest : List Char} (own : ∀ c ∈ run, kind c = true)
  (apart : ∀ c ∈ rest.head?, kind c = false)
include own apart

theorem takeWhile_run : (run ++ rest).takeWhile kind = run := by
  rw [List.takeWhile_append_of_pos own]
  cases rest with
  | nil => simp
  | cons c rest => simp [apart c rfl]

theorem dropWhile_run : (run ++ rest).dropWhile kind = rest := by
  rw [List.dropWhile_append_of_pos own]
  cases rest with
  | nil => rfl
  | cons c rest => simp [apart c rfl]

/-- Two runs of one kind that are followed by nothing of this kind, in the same text, are
equal. -/
theorem run_unique {other more : List Char} (own' : ∀ c ∈ other, kind c = true)
    (apart' : ∀ c ∈ more.head?, kind c = false) (same : run ++ rest = other ++ more) :
    run = other ∧ rest = more := by
  have equal : run = other := by
    rw [← takeWhile_run own apart, same, takeWhile_run own' apart']
  subst equal
  exact ⟨rfl, List.append_cancel_left same⟩

end

/-! ### Rows of pieces that make up the same text -/

/-- What stands in front of the first occurrence of a character, and what behind it. -/
theorem append_cons_inj {c : Char} {front other rest more : List Char} (absent : c ∉ front)
    (absent' : c ∉ other) (same : front ++ c :: rest = other ++ c :: more) :
    front = other ∧ rest = more := by
  induction front generalizing other with
  | nil =>
      cases other with
      | nil => exact ⟨rfl, (List.cons.inj same).2⟩
      | cons d other =>
          rw [List.mem_cons, not_or] at absent'
          exact absurd (List.cons.inj same).1 absent'.1
  | cons b front inductionHypothesis =>
      rw [List.mem_cons, not_or] at absent
      cases other with
      | nil => exact absurd (List.cons.inj same).1.symm absent.1
      | cons d other =>
          rw [List.mem_cons, not_or] at absent'
          rcases List.cons.inj same with ⟨rfl, tails⟩
          rcases inductionHypothesis absent.2 absent'.2 tails with ⟨rfl, rests⟩
          exact ⟨rfl, rests⟩

/-- A text that a character cuts in two places: the places are the same, or something lies
between them. -/
theorem append_cons_cases {c : Char} {front back other more : List Char}
    (same : front ++ c :: back = other ++ c :: more) (shorter : other.length ≤ front.length) :
    (front = other ∧ back = more) ∨
      ∃ middle, front = other ++ c :: middle ∧ more = middle ++ c :: back := by
  rcases List.append_eq_append_iff.mp same with ⟨middle, ends, starts⟩ | ⟨middle, ends, starts⟩
  · obtain rfl : middle = [] := by
      have lengths := congrArg List.length ends
      rw [List.length_append] at lengths
      exact List.length_eq_zero_iff.mp (by omega)
    simp only [List.append_nil, List.nil_append, List.cons.injEq, true_and] at ends starts
    exact .inl ⟨ends.symm, starts⟩
  · cases middle with
    | nil =>
        simp only [List.append_nil, List.nil_append, List.cons.injEq, true_and] at ends starts
        exact .inl ⟨ends, starts.symm⟩
    | cons d middle =>
        rw [List.cons_append, List.cons.injEq] at starts
        obtain ⟨rfl, starts⟩ := starts
        exact .inr ⟨middle, ends, starts⟩

/-- What follows a piece: nothing, or the separator. -/
def FollowsPiece (separator rest : List Char) : Prop :=
  rest = [] ∨ ∃ more, rest = separator ++ more

theorem intercalate_cons_eq (separator piece : List Char) (pieces : List (List Char)) :
    ∃ rest, separator.intercalate (piece :: pieces) = piece ++ rest ∧
      FollowsPiece separator rest ∧ (rest = [] → separator ≠ [] → pieces = []) ∧
      (pieces ≠ [] → rest = separator ++ separator.intercalate pieces) := by
  cases pieces with
  | nil => exact ⟨[], by simp, .inl rfl, fun _ _ => rfl, by simp⟩
  | cons second others =>
      refine ⟨separator ++ separator.intercalate (second :: others), ?_, .inr ⟨_, rfl⟩, ?_, ?_⟩
      · rw [List.intercalate_cons_cons, List.append_assoc]
      · exact fun empty nonempty => absurd (List.append_eq_nil_iff.mp empty).1 nonempty
      · exact fun _ => rfl

/-- Two rows of pieces that make up the same text are equal, if a piece of the one ends
where the piece of the other at its place does. -/
theorem eq_of_intercalate_eq {separator : List Char} (nonempty : separator ≠ [])
    {pieces others : List (List Char)} (some_piece : pieces ≠ []) (some_other : others ≠ [])
    (ends : ∀ piece ∈ pieces, ∀ other ∈ others, ∀ rest more, FollowsPiece separator rest →
      FollowsPiece separator more → piece ++ rest = other ++ more → piece = other)
    (same : separator.intercalate pieces = separator.intercalate others) : pieces = others := by
  induction pieces generalizing others with
  | nil => exact absurd rfl some_piece
  | cons piece pieces inductionHypothesis =>
      cases others with
      | nil => exact absurd rfl some_other
      | cons other others =>
          rcases intercalate_cons_eq separator piece pieces with
            ⟨rest, whole, follows, alone, continued⟩
          rcases intercalate_cons_eq separator other others with
            ⟨more, whole', follows', alone', continued'⟩
          rw [whole, whole'] at same
          have first := ends piece List.mem_cons_self other List.mem_cons_self rest more follows
            follows' same
          subst first
          have tails := List.append_cancel_left same
          by_cases last : pieces = []
          · subst last
            have ended : rest = [] := by simpa using whole
            rw [alone' (tails ▸ ended) nonempty]
          · by_cases last' : others = []
            · subst last'
              have ended : more = [] := by simpa using whole'
              rw [alone (tails.trans ended) nonempty]
            · rw [continued last, continued' last'] at tails
              rw [inductionHypothesis last last'
                (fun p inPieces o inOthers => ends p (List.mem_cons_of_mem _ inPieces) o
                  (List.mem_cons_of_mem _ inOthers))
                (List.append_cancel_left tails)]

end DocStore.Text
