/-
Module: DocStore.Proofs.Query.Layout
Purpose: texts of queries that are laid out clause by clause, and how the store in memory
  cuts them into their clauses again.
Main exports:
  Statement.Silent, Statement.ClauseText, Statement.layout, Statement.clause?_layout
-/
import DocStore.Memory.Statement
import DocStore.Proofs.Text.Occurrence

namespace DocStore

open Text

namespace Text

/-- Whether two texts differ at a place that both of them have. -/
def differ : List Char → List Char → Bool
  | p :: pattern, c :: text => p != c || differ pattern text
  | _, _ => false

/-- Whether a text rules out by itself that the pattern starts in it. -/
def rulesOut (pattern : List Char) : List Char → Bool
  | [] => true
  | c :: text => differ pattern (c :: text) && rulesOut pattern text

theorem dropLeading?_of_differ {pattern text : List Char} (different : differ pattern text = true)
    (rest : List Char) : dropLeading? pattern (text ++ rest) = none := by
  induction pattern generalizing text with
  | nil => cases text <;> cases different
  | cons p pattern inductionHypothesis =>
      cases text with
      | nil => cases different
      | cons c text =>
          by_cases same : p = c
          · subst same
            simp only [differ, bne_self_eq_false, Bool.false_or] at different
            simp only [List.cons_append, dropLeading?, if_true]
            exact inductionHypothesis different
          · exact dropLeading?_cons_of_ne _ _ same

theorem clear_of_rulesOut {pattern text : List Char} (ruledOut : rulesOut pattern text = true)
    (rest : List Char) : Clear pattern text rest := by
  induction text with
  | nil => trivial
  | cons c text inductionHypothesis =>
      rw [rulesOut, Bool.and_eq_true] at ruledOut
      exact ⟨dropLeading?_of_differ ruledOut.1 rest, inductionHypothesis ruledOut.2⟩

theorem not_dropLeading?_of_last {given text : List Char} {last : Char}
    (plain : ' ' ∉ text ++ [last]) (foreign : last ∉ given) (rest : List Char) :
    dropLeading? (given ++ [' ']) (text ++ last :: rest) = none := by
  induction given generalizing text with
  | nil =>
      cases text with
      | nil => exact dropLeading?_cons_of_ne _ _ fun same => plain (same ▸ by simp)
      | cons c text => exact dropLeading?_cons_of_ne _ _ fun same => plain (same ▸ by simp)
  | cons g given inductionHypothesis =>
      rw [List.mem_cons, not_or] at foreign
      cases text with
      | nil => exact dropLeading?_cons_of_ne _ _ (Ne.symm foreign.1)
      | cons c text =>
          by_cases same : g = c
          · subst same
            simp only [List.cons_append, dropLeading?, if_true]
            refine inductionHypothesis ?_ foreign.2
            simp only [List.cons_append, List.mem_cons, not_or] at plain
            exact plain.2
          · exact dropLeading?_cons_of_ne _ _ same

/-- A word that ends in a character foreign to another word is clear of that word
with a space behind it. -/
theorem clear_of_last_notMem {given text : List Char} {last : Char}
    (plain : ' ' ∉ text ++ [last]) (foreign : last ∉ given) (rest : List Char) :
    Clear (given ++ [' ']) (text ++ [last]) rest := by
  induction text with
  | nil =>
      refine ⟨?_, trivial⟩
      exact not_dropLeading?_of_last plain foreign rest
  | cons c text inductionHypothesis =>
      have shorter : ' ' ∉ text ++ [last] := fun member => plain (List.mem_cons_of_mem _ member)
      refine ⟨?_, inductionHypothesis shorter⟩
      have none_here := not_dropLeading?_of_last plain foreign rest
      simpa using none_here

theorem intercalate_cons_eq_append_flatMap (separator piece : List Char)
    (pieces : List (List Char)) :
    separator.intercalate (piece :: pieces) = piece ++ pieces.flatMap (separator ++ ·) := by
  induction pieces generalizing piece with
  | nil => simp
  | cons second rest inductionHypothesis =>
      rw [List.intercalate_cons_cons, inductionHypothesis, List.flatMap_cons]
      simp

end Text

namespace Statement

/-- The words that introduce clauses. -/
def clauseWords : List (List Char) :=
  ["FILTER".toList, "SORT".toList, "LIMIT".toList, "REMOVE".toList, "UPDATE".toList,
    "RETURN".toList, "COLLECT".toList]

/-- What the store searches a query for. -/
def searched : List (List Char) :=
  "FOR ".toList :: clauseWords.map keyword

/-- No searched text starts inside the text, whatever follows it. -/
def Silent (text : List Char) : Prop :=
  ∀ pattern ∈ searched, ∀ rest, Clear pattern text rest

theorem silent_append {text more : List Char} (first : Silent text) (second : Silent more) :
    Silent (text ++ more) := fun pattern member rest =>
  (clear_append pattern text more rest).mpr ⟨first pattern member _, second pattern member rest⟩

theorem silent_of_cons {c : Char} {text : List Char} (silent : Silent (c :: text)) :
    Silent text := fun pattern member rest => (silent pattern member rest).2

theorem silent_of_rulesOut {text : List Char}
    (ruledOut : (searched.all fun pattern => rulesOut pattern text) = true) : Silent text :=
  fun pattern member rest => clear_of_rulesOut (List.all_eq_true.mp ruledOut pattern member) rest

/-- A word that does not end like the word of a loop is silent. -/
theorem silent_word (text : List Char) {last : Char} (plain : ' ' ∉ text ++ [last])
    (foreign : last ∉ "FOR".toList) : Silent (text ++ [last]) := by
  intro pattern member rest
  rcases List.mem_cons.mp member with rfl | clauseMember
  · exact clear_of_last_notMem plain foreign rest
  · rcases List.mem_map.mp clauseMember with ⟨word, _, rfl⟩
    exact clear_of_head_notMem _ _ plain

/-- The first letters of the words that introduce clauses. -/
def initials : List Char := "FSLRUC".toList

theorem head_mem_initials {word : List Char} (member : word ∈ clauseWords) :
    ∃ c letters, word = c :: letters ∧ c ∈ initials := by
  simp only [clauseWords, List.mem_cons, List.not_mem_nil, or_false] at member
  rcases member with rfl | rfl | rfl | rfl | rfl | rfl | rfl <;> exact ⟨_, _, rfl, by decide⟩

/-- A space may stand in front of a silent text that does not begin like a clause. -/
theorem silent_space_cons {c : Char} {text : List Char} (silent : Silent (c :: text))
    (other : c ∉ initials) : Silent (' ' :: c :: text) := by
  intro pattern member rest
  refine ⟨?_, silent pattern member rest⟩
  rcases List.mem_cons.mp member with rfl | clauseMember
  · exact dropLeading?_cons_of_ne _ _ (by decide)
  · rcases List.mem_map.mp clauseMember with ⟨word, inWords, rfl⟩
    rcases head_mem_initials inWords with ⟨first, letters, rfl, initial⟩
    have different : first ≠ c := fun same => other (same ▸ initial)
    rw [keyword, dropLeading?, if_pos rfl]
    exact dropLeading?_cons_of_ne _ _ different

/-- A silent text that does not begin like a clause. -/
structure Quiet (text : List Char) : Prop where
  silent : Silent text
  opening : ∃ c rest, text = c :: rest ∧ c ∉ initials

theorem Quiet.silent_space {text : List Char} (quiet : Quiet text) : Silent (' ' :: text) := by
  rcases quiet with ⟨silent, c, rest, rfl, other⟩
  exact silent_space_cons silent other

theorem silent_flatMap {separator : List Char} {pieces : List (List Char)}
    (separated : ∀ piece ∈ pieces, Silent (separator ++ piece)) :
    Silent (pieces.flatMap (separator ++ ·)) := by
  induction pieces with
  | nil => intro _ _ _; trivial
  | cons piece rest inductionHypothesis =>
      rw [List.flatMap_cons]
      exact silent_append (separated piece List.mem_cons_self) (inductionHypothesis
        fun other member => separated other (List.mem_cons_of_mem _ member))

/-- Pieces joined by a separator are silent if each is, after the separator and
after what stands in front of all. -/
theorem silent_intercalate (front : List Char) {separator : List Char} {pieces : List (List Char)}
    (nonempty : pieces ≠ []) (fronted : ∀ piece ∈ pieces, Silent (front ++ piece))
    (separated : ∀ piece ∈ pieces, Silent (separator ++ piece)) :
    Silent (front ++ separator.intercalate pieces) := by
  cases pieces with
  | nil => exact absurd rfl nonempty
  | cons piece rest =>
      rw [intercalate_cons_eq_append_flatMap, ← List.append_assoc]
      exact silent_append (fronted piece List.mem_cons_self) (silent_flatMap
        fun other member => separated other (List.mem_cons_of_mem _ member))

/-! ### Clauses in a row -/

/-- The text of a clause: the word that introduces it, and what follows the word. -/
structure ClauseText where
  word : List Char
  body : List Char

/-- The text of a clause with the space in front of it. -/
def ClauseText.text (c : ClauseText) : List Char :=
  ' ' :: (c.word ++ ' ' :: c.body)

/-- The clauses in a row. -/
def layout (clauses : List ClauseText) : List Char :=
  clauses.flatMap ClauseText.text

@[simp] theorem layout_nil : layout [] = [] := rfl

@[simp] theorem layout_cons (c : ClauseText) (clauses : List ClauseText) :
    layout (c :: clauses) = c.text ++ layout clauses := rfl

@[simp] theorem layout_append (clauses more : List ClauseText) :
    layout (clauses ++ more) = layout clauses ++ layout more := by
  simp [layout]

/-- A clause that is found by its word only: nothing in its body looks like a
clause. -/
structure ClauseText.Plain (c : ClauseText) : Prop where
  word_mem : c.word ∈ clauseWords
  silent : Silent (' ' :: c.body)

theorem space_notMem_of_mem_clauseWords {word : List Char} (member : word ∈ clauseWords) :
    ' ' ∉ word := by
  have each : ∀ word ∈ clauseWords, ' ' ∉ word := by decide
  exact each word member

theorem keyword_mem_searched {word : List Char} (member : word ∈ clauseWords) :
    keyword word ∈ searched :=
  List.mem_cons_of_mem _ (List.mem_map_of_mem member)

/-- A clause is clear of the words of other clauses. -/
theorem ClauseText.Plain.clear {c : ClauseText} (plain : c.Plain) {word : List Char}
    (member : word ∈ clauseWords) (different : c.word ≠ word) (rest : List Char) :
    Clear (keyword word) c.text rest := by
  have wordPlain := space_notMem_of_mem_clauseWords member
  have ownPlain := space_notMem_of_mem_clauseWords plain.word_mem
  have front : Clear (keyword word) (' ' :: c.word) (' ' :: c.body ++ rest) := by
    refine ⟨?_, clear_of_head_notMem _ _ ownPlain⟩
    rw [keyword, dropLeading?, if_pos rfl]
    exact dropLeading?_word wordPlain ownPlain different (Or.inr ⟨_, rfl⟩)
  have whole := (clear_append (keyword word) (' ' :: c.word) (' ' :: c.body) rest).mpr
    ⟨front, plain.silent _ (keyword_mem_searched member) rest⟩
  exact whole

theorem clear_layout {clauses : List ClauseText} (plain : ∀ c ∈ clauses, c.Plain)
    {word : List Char} (member : word ∈ clauseWords) (absent : word ∉ clauses.map (·.word))
    (rest : List Char) : Clear (keyword word) (layout clauses) rest := by
  induction clauses with
  | nil => trivial
  | cons c clauses inductionHypothesis =>
      rw [List.map_cons, List.mem_cons, not_or] at absent
      rw [layout_cons]
      refine (clear_append _ _ _ _).mpr ⟨?_, ?_⟩
      · exact (plain c List.mem_cons_self).clear member (Ne.symm absent.1) _
      · exact inductionHypothesis (fun other inTail => plain other (List.mem_cons_of_mem _ inTail))
          absent.2

/-- Clauses begin no further loop. -/
theorem clear_loop_layout {clauses : List ClauseText} (plain : ∀ c ∈ clauses, c.Plain)
    (rest : List Char) : Clear "FOR ".toList (layout clauses) rest := by
  induction clauses with
  | nil => trivial
  | cons c clauses inductionHypothesis =>
      have own := plain c List.mem_cons_self
      have wordClear : ∀ word ∈ clauseWords, rulesOut "FOR ".toList (' ' :: word) = true := by
        decide
      have text : c.text = (' ' :: c.word) ++ (' ' :: c.body) := rfl
      rw [layout_cons, text, List.append_assoc]
      refine (clear_append _ _ _ _).mpr
        ⟨clear_of_rulesOut (wordClear c.word own.word_mem) _, (clear_append _ _ _ _).mpr ⟨?_, ?_⟩⟩
      · exact own.silent _ List.mem_cons_self _
      · exact inductionHypothesis fun other member => plain other (List.mem_cons_of_mem _ member)

/-- A query is cut at the first clause of a word. -/
theorem splitOnce?_layout {head : List Char} {before after : List ClauseText}
    {word body : List Char} (headClear : ∀ rest, Clear (keyword word) head rest)
    (plain : ∀ c ∈ before, c.Plain) (member : word ∈ clauseWords)
    (absent : word ∉ before.map (·.word)) :
    splitOnce? (keyword word) (head ++ layout (before ++ ⟨word, body⟩ :: after)) =
      some (head ++ layout before, body ++ layout after) := by
  have clear : Clear (keyword word) (head ++ layout before)
      (keyword word ++ (body ++ layout after)) :=
    (clear_append _ _ _ _).mpr ⟨headClear _, clear_layout plain member absent _⟩
  have cut := splitOnce?_of_clear (keyword_ne_nil word) (body ++ layout after) clear
  rw [← cut]
  simp [ClauseText.text, keyword]

theorem splitOnce?_layout_eq_none {head : List Char} {clauses : List ClauseText}
    {word : List Char} (headClear : ∀ rest, Clear (keyword word) head rest)
    (plain : ∀ c ∈ clauses, c.Plain) (member : word ∈ clauseWords)
    (absent : word ∉ clauses.map (·.word)) :
    splitOnce? (keyword word) (head ++ layout clauses) = none := by
  apply splitOnce?_eq_none_of_clear
  exact (clear_append _ _ _ _).mpr ⟨headClear _, clear_layout plain member absent []⟩

/-! ### Reading a clause -/

theorem keywords_eq : keywords = clauseWords.tail.map keyword := by decide

/-- A clause ends where the next one begins. -/
theorem upToKeyword_layout {body : List Char} {after : List ClauseText} (silent : Silent body)
    (following : ∀ c ∈ after.head?, c.word ∈ clauseWords.tail) :
    upToKeyword (body ++ layout after) = body := by
  have shifted : ∀ pattern ∈ keywords, find? pattern (body ++ layout after) =
      (find? pattern (layout after)).map (body.length + ·) := by
    intro pattern member
    rw [keywords_eq] at member
    rcases List.mem_map.mp member with ⟨word, inTail, rfl⟩
    exact find?_append_of_clear
      (silent _ (keyword_mem_searched (List.mem_of_mem_tail inTail)) _)
  unfold upToKeyword
  cases after with
  | nil =>
      have nowhere : (keywords.filterMap fun pattern => find? pattern (body ++ layout [])) = [] :=
        List.filterMap_eq_nil_iff.mpr fun pattern member => by
          rw [shifted pattern member]
          rfl
      rw [nowhere]
      simp
  | cons c after =>
      have inTail : c.word ∈ clauseWords.tail := following c rfl
      have here : find? (keyword c.word) (layout (c :: after)) = some 0 := by
        have start : layout (c :: after) = keyword c.word ++ (c.body ++ layout after) := by
          simp [ClauseText.text, keyword]
        rw [start, find?_self_append (keyword_ne_nil c.word)]
      have least : (keywords.filterMap fun pattern =>
          find? pattern (body ++ layout (c :: after))).min? = some body.length := by
        refine List.min?_eq_some_iff.mpr ⟨?_, ?_⟩
        · refine List.mem_filterMap.mpr ⟨keyword c.word, ?_, ?_⟩
          · rw [keywords_eq]
            exact List.mem_map_of_mem inTail
          · rw [shifted _ (by rw [keywords_eq]; exact List.mem_map_of_mem inTail), here]
            rfl
        · intro position member
          rcases List.mem_filterMap.mp member with ⟨pattern, inKeywords, found⟩
          rw [shifted pattern inKeywords] at found
          rcases Option.map_eq_some_iff.mp found with ⟨offset, _, rfl⟩
          exact Nat.le_add_right _ _
      rw [least]
      simp

/-- The body of the first clause of a word. -/
def bodyOf (word : List Char) : List ClauseText → Option (List Char)
  | [] => none
  | c :: clauses => if c.word = word then some c.body else bodyOf word clauses

theorem bodyOf_eq_none_iff (word : List Char) (clauses : List ClauseText) :
    bodyOf word clauses = none ↔ word ∉ clauses.map (·.word) := by
  induction clauses with
  | nil => simp [bodyOf]
  | cons c clauses inductionHypothesis =>
      by_cases same : c.word = word
      · simp [bodyOf, same]
      · simp [bodyOf, same, Ne.symm same, inductionHypothesis]

theorem bodyOf_append (word : List Char) (clauses more : List ClauseText) :
    bodyOf word (clauses ++ more) = (bodyOf word clauses).or (bodyOf word more) := by
  induction clauses with
  | nil => rfl
  | cons c clauses inductionHypothesis =>
      rw [List.cons_append, bodyOf, bodyOf]
      split
      · rfl
      · exact inductionHypothesis

/-- Where the first clause of a word stands. -/
theorem exists_append_of_bodyOf {word body : List Char} {clauses : List ClauseText}
    (found : bodyOf word clauses = some body) :
    ∃ before after, clauses = before ++ ⟨word, body⟩ :: after ∧ word ∉ before.map (·.word) := by
  induction clauses with
  | nil => cases found
  | cons c clauses inductionHypothesis =>
      rcases c with ⟨own, ownBody⟩
      by_cases same : own = word
      · subst same
        simp only [bodyOf, if_true, Option.some.injEq] at found
        exact ⟨[], clauses, by rw [found, List.nil_append], by simp⟩
      · simp only [bodyOf, same, if_false] at found
        rcases inductionHypothesis found with ⟨before, after, rfl, absent⟩
        refine ⟨⟨own, ownBody⟩ :: before, after, rfl, ?_⟩
        simp only [List.map_cons, List.mem_cons, not_or]
        exact ⟨Ne.symm same, absent⟩

/-- Clauses that the store can cut apart: each is found by its word, and filters
stand in front of all others. -/
structure Layout (clauses : List ClauseText) : Prop where
  plain : ∀ c ∈ clauses, c.Plain
  filter_first : ∀ c ∈ clauses.tail, c.word ≠ "FILTER".toList

theorem Layout.following {before after : List ClauseText} {c : ClauseText}
    (ordered : Layout (before ++ c :: after)) :
    ∀ other ∈ after.head?, other.word ∈ clauseWords.tail := by
  intro other first
  have inAfter : other ∈ after := List.mem_of_mem_head? first
  have inTail : other ∈ (before ++ c :: after).tail := by
    cases before with
    | nil => exact inAfter
    | cons b before => exact List.mem_append_right _ (List.mem_cons_of_mem _ inAfter)
  have inWords := (ordered.plain other (List.mem_of_mem_tail inTail)).word_mem
  have notFilter := ordered.filter_first other inTail
  rcases List.mem_cons.mp inWords with same | later
  · exact absurd same notFilter
  · exact later

/-- What stands under a keyword in a query is the body of the first clause of that
word. -/
theorem clause?_layout {head : List Char} {clauses : List ClauseText} {word : List Char}
    {keywordText : String} (spelled : keywordText.toList = keyword word)
    (headClear : ∀ rest, Clear (keyword word) head rest) (ordered : Layout clauses)
    (member : word ∈ clauseWords) :
    clause? keywordText (head ++ layout clauses) = bodyOf word clauses := by
  unfold clause?
  rw [spelled]
  cases found : bodyOf word clauses with
  | none =>
      rw [splitOnce?_layout_eq_none headClear ordered.plain member
        ((bodyOf_eq_none_iff word clauses).mp found)]
      rfl
  | some body =>
      rcases exists_append_of_bodyOf found with ⟨before, after, rfl, absent⟩
      have beforePlain : ∀ c ∈ before, c.Plain :=
        fun c inBefore => ordered.plain c (List.mem_append_left _ inBefore)
      have own := ordered.plain ⟨word, body⟩ (by simp)
      rw [splitOnce?_layout headClear beforePlain member absent, Option.map_some,
        upToKeyword_layout (silent_of_cons own.silent) ordered.following]

end Statement

end DocStore
