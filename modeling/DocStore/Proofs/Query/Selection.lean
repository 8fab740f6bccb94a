/-
Module: DocStore.Proofs.Query.Selection
Purpose: the text of a selection from one collection, clause by clause, and which of these
  clauses the store in memory finds in it.
Main exports:
  SelectionText, SelectionText.Still, SelectionText.ReadAs, SelectionText.readAs_of_read?
-/
import DocStore.Proofs.Query.Compiled
import DocStore.Proofs.Query.Legible
import DocStore.Proofs.Query.Reading

namespace DocStore

open Text Statement

/-! ### The scope of a query over one collection -/

/-- The variable of the rows, as characters. -/
def Query.rowChars (q : Query) : List Char :=
  (variableOf q.root.name 0).toList

theorem Query.rowVariable_rowChars (q : Query) : RowVariable q.rowChars :=
  rowVariable_variableOf q.root.name

theorem smooth_of_rowVariable {row : List Char} (isRow : RowVariable row) : Smooth row := by
  rcases isRow.exists_cons with ⟨c, rest, begins, other⟩
  have plain := isRow.space_notMem
  have noLoop : 'F' ∉ row := isRow.notMem (by decide) (by decide)
  rw [begins] at plain noLoop ⊢
  exact smooth_of_cons (silent_of_heads_notMem plain noLoop) other

theorem smooth_fieldText {row : List Char} {name : String} (isRow : RowVariable row)
    (unmarked : Unmarked name.toList) : Smooth (fieldText row name) := by
  have point : Silent ".`".toList := silent_of_rulesOut (by decide)
  have rest := silent_append point (silent_name unmarked)
  have spelled : fieldText row name = row ++ (".`".toList ++ (name.toList ++ ['`'])) := by
    simp [fieldText]
  rw [spelled]
  exact (smooth_of_rowVariable isRow).append rest

/-- A field in the scope of a query over one collection. -/
theorem Query.field_plainScope {q : Query} {source : Nat} {name text : String}
    (is : q.plainScope.field source name = .ok text) :
    '`' ∉ name.toList ∧ text.toList = fieldText q.rowChars name := by
  rcases Scope.field_cases is with ⟨noBacktick, ⟨_, row, found, rfl⟩ | ⟨_, _, grouped, _⟩⟩
  · refine ⟨noBacktick, ?_⟩
    cases source with
    | zero =>
        cases found
        simp [fieldText, rowChars]
    | succ source => cases found
  · cases grouped

theorem Query.row_plainScope {q : Query} {source : Nat} {text : String}
    (is : q.plainScope.row source = .ok text) : text.toList = q.rowChars := by
  cases source with
  | zero =>
      cases is
      rfl
  | succ source => cases is

theorem Query.smooth_plainScope (q : Query) : q.plainScope.Smooth where
  field unmarked is := by
    rw [(Query.field_plainScope is).2]
    exact smooth_fieldText q.rowVariable_rowChars unmarked
  row is := by
    rw [Query.row_plainScope is]
    exact smooth_of_rowVariable q.rowVariable_rowChars

/-- The scope after grouping, if the names of the grouped fields are silent. -/
theorem Query.smooth_grouped (q : Query) {terms : List GroupVariable}
    (silent : ∀ v ∈ terms, ∃ name : List Char, v.name.toList = q.rowChars ++ '_' :: name ∧
      Silent ('_' :: name)) :
    ({ q.plainScope with grouped := some terms } : Scope).Smooth where
  field unmarked is := by
    rcases Scope.field_cases is with ⟨_, ⟨ungrouped, _⟩ | ⟨_, v, grouped, member, _, rfl⟩⟩
    · cases ungrouped
    · cases grouped
      rcases silent v member with ⟨name, spelled, still⟩
      rw [spelled]
      exact (smooth_of_rowVariable q.rowVariable_rowChars).append still
  row is := by cases is

/-! ### The clauses -/

/-- The clause of a word, if there is one. -/
def clauseOf (word : String) (body : Option (List Char)) : List ClauseText :=
  body.toList.map fun text => ⟨word.toList, text⟩

/-- What a selection is written as, clause by clause. -/
structure SelectionText where
  filter : Option (List Char)
  group : Option (List Char)
  sort : Option (List Char)
  window : Option (List Char)
  row : List Char

namespace SelectionText

/-- The clauses in their order. -/
def clauses (t : SelectionText) : List ClauseText :=
  clauseOf "FILTER" t.filter ++ (clauseOf "COLLECT" t.group ++ (clauseOf "SORT" t.sort ++
    (clauseOf "LIMIT" t.window ++ [⟨"RETURN".toList, t.row⟩])))

/-- The clauses in front of the last. -/
def before (t : SelectionText) : List ClauseText :=
  clauseOf "FILTER" t.filter ++ (clauseOf "COLLECT" t.group ++ (clauseOf "SORT" t.sort ++
    clauseOf "LIMIT" t.window))

theorem clauses_eq (t : SelectionText) : t.clauses = t.before ++ [⟨"RETURN".toList, t.row⟩] := by
  simp [clauses, before]

/-- No clause contains anything that a query is searched for. -/
structure Still (t : SelectionText) : Prop where
  filter : ∀ body ∈ t.filter, Silent (' ' :: body)
  group : ∀ body ∈ t.group, Silent (' ' :: body)
  sort : ∀ body ∈ t.sort, Silent (' ' :: body)
  window : ∀ body ∈ t.window, Silent (' ' :: body)
  row : Silent (' ' :: t.row)
  uncounted : ∀ body ∈ t.group, ∃ c rest, body = c :: rest ∧ c ≠ 'W'

theorem mem_clauseOf {word : String} {body : Option (List Char)} {c : ClauseText} :
    c ∈ clauseOf word body ↔ ∃ text ∈ body, c = ⟨word.toList, text⟩ := by
  cases body <;> simp [clauseOf]

theorem bodyOf_clauseOf (word : List Char) (own : String) (body : Option (List Char)) :
    bodyOf word (clauseOf own body) = if own.toList = word then body else none := by
  cases body <;> simp [clauseOf, bodyOf]

theorem Still.layout {t : SelectionText} (still : t.Still) : Layout t.clauses := by
  have words : ∀ word ∈ ["FILTER".toList, "COLLECT".toList, "SORT".toList, "LIMIT".toList,
      "RETURN".toList], word ∈ clauseWords := by decide
  have each : ∀ (word : String) (body : Option (List Char)), word.toList ∈ clauseWords →
      (∀ text ∈ body, Silent (' ' :: text)) → ∀ c ∈ clauseOf word body, c.Plain := by
    intro word body listed silent c member
    rcases mem_clauseOf.mp member with ⟨text, inBody, rfl⟩
    exact ⟨listed, silent text inBody⟩
  constructor
  · intro c member
    simp only [clauses, List.mem_append, List.mem_singleton] at member
    rcases member with filter | group | sort | window | rfl
    · exact each _ _ (words _ (by simp)) still.filter c filter
    · exact each _ _ (words _ (by simp)) still.group c group
    · exact each _ _ (words _ (by simp)) still.sort c sort
    · exact each _ _ (words _ (by simp)) still.window c window
    · exact ⟨words _ (by simp), still.row⟩
  · intro c member
    have later : c ∈ clauseOf "COLLECT" t.group ++ (clauseOf "SORT" t.sort ++
        (clauseOf "LIMIT" t.window ++ [⟨"RETURN".toList, t.row⟩])) := by
      cases found : t.filter with
      | none =>
          simp only [clauses, found] at member
          exact List.mem_of_mem_tail member
      | some body =>
          simp only [clauses, found] at member
          exact member
    simp only [List.mem_append, List.mem_singleton] at later
    rcases later with group | sort | window | rfl
    · rcases mem_clauseOf.mp group with ⟨_, _, rfl⟩
      exact (by decide : "COLLECT".toList ≠ "FILTER".toList)
    · rcases mem_clauseOf.mp sort with ⟨_, _, rfl⟩
      exact (by decide : "SORT".toList ≠ "FILTER".toList)
    · rcases mem_clauseOf.mp window with ⟨_, _, rfl⟩
      exact (by decide : "LIMIT".toList ≠ "FILTER".toList)
    · exact (by decide : "RETURN".toList ≠ "FILTER".toList)

/-- What the parts of a clause are read as; nothing if there is no clause. -/
def readParts? {α : Type} (separator : String) (body : Option (List Char))
    (read : List Char → Option α) : Option (List α) :=
  match body with
  | none => some []
  | some text => (splitAll separator.toList text).mapM read

end SelectionText

namespace Text

theorem dropLeading?_append_append (front pattern text : List Char) :
    dropLeading? (front ++ pattern) (front ++ text) = dropLeading? pattern text := by
  induction front with
  | nil => rfl
  | cons c front inductionHypothesis => simpa [dropLeading?] using inductionHypothesis

end Text

namespace Statement

/-- Clauses are clear of a word with more behind it, if no clause of that word goes on
so. -/
theorem clear_layout_of_bodies {clauses : List ClauseText} (plain : ∀ c ∈ clauses, c.Plain)
    {word : List Char} (member : word ∈ clauseWords) {more : List Char}
    (other : ∀ c ∈ clauses, c.word = word → ∀ rest, dropLeading? more (c.body ++ rest) = none)
    (rest : List Char) : Clear (keyword word ++ more) (Statement.layout clauses) rest := by
  induction clauses with
  | nil => trivial
  | cons c clauses inductionHypothesis =>
      have own := plain c List.mem_cons_self
      have others := inductionHypothesis
        (fun d inTail => plain d (List.mem_cons_of_mem _ inTail))
        (fun d inTail => other d (List.mem_cons_of_mem _ inTail))
      rw [layout_cons]
      refine (clear_append _ _ _ _).mpr ⟨?_, others⟩
      by_cases same : c.word = word
      · subst same
        have missing := other c List.mem_cons_self rfl (Statement.layout clauses ++ rest)
        have noSpace := space_notMem_of_mem_clauseWords member
        have front : Clear (keyword c.word ++ more) (' ' :: c.word)
            (' ' :: c.body ++ (Statement.layout clauses ++ rest)) := by
          refine ⟨?_, clear_of_head_notMem _ _ noSpace⟩
          have spelled : ' ' :: (c.word ++ (' ' :: c.body ++ (Statement.layout clauses ++ rest))) =
              keyword c.word ++ (c.body ++ (Statement.layout clauses ++ rest)) := by
            simp [keyword]
          rw [spelled, dropLeading?_append_append]
          exact missing
        have body := (own.silent _ (keyword_mem_searched member)
          (Statement.layout clauses ++ rest)).extend more
        exact (clear_append _ (' ' :: c.word) (' ' :: c.body) _).mpr ⟨front, body⟩
      · exact (own.clear member same _).extend more

end Statement

/-! ### What the store finds -/

/-- The loop over the rows, as characters. -/
def Query.loopChars (q : Query) : List Char :=
  "FOR".toList ++ ((' ' :: q.rowChars) ++ (" IN `".toList ++ (q.root.name.toList ++ ['`'])))

theorem Query.loopChars_clear {q : Query} (unmarked : Unmarked q.root.name.toList)
    {word : List Char} (member : word ∈ clauseWords) (rest : List Char) :
    Clear (keyword word) q.loopChars rest := by
  have silent : Silent ((' ' :: q.rowChars) ++
      (" IN `".toList ++ (q.root.name.toList ++ ['`']))) :=
    silent_append (smooth_of_rowVariable q.rowVariable_rowChars).silent_space
      (silent_append (silent_of_rulesOut (by decide)) (silent_name unmarked))
  exact (clear_append _ _ _ _).mpr ⟨clear_of_head_notMem _ _ (by decide),
    silent _ (keyword_mem_searched member) rest⟩

namespace SelectionText

variable {t : SelectionText} {q : Query}

theorem bodyOf_clauses (t : SelectionText) :
    bodyOf "FILTER".toList t.clauses = t.filter ∧ bodyOf "SORT".toList t.clauses = t.sort ∧
      bodyOf "LIMIT".toList t.clauses = t.window := by
  have own : ∀ (word : String) (body : Option (List Char)),
      bodyOf word.toList (clauseOf word body) = body := fun word body => by
    rw [bodyOf_clauseOf, if_pos rfl]
  have apart : ∀ {other word : String}, other.toList ≠ word.toList →
      ∀ body : Option (List Char), bodyOf word.toList (clauseOf other body) = none :=
    fun different body => by rw [bodyOf_clauseOf, if_neg different]
  have last : ∀ {word : String}, "RETURN".toList ≠ word.toList →
      bodyOf word.toList [⟨"RETURN".toList, t.row⟩] = none := fun different => if_neg different
  simp only [clauses, bodyOf_append]
  refine ⟨?filter, ?sort, ?window⟩
  case filter =>
    rw [own, apart (by decide : "COLLECT".toList ≠ _), apart (by decide : "SORT".toList ≠ _),
      apart (by decide : "LIMIT".toList ≠ _), last (by decide)]
    simp only [Option.or_none]
  case sort =>
    rw [own, apart (by decide : "FILTER".toList ≠ _), apart (by decide : "COLLECT".toList ≠ _),
      apart (by decide : "LIMIT".toList ≠ _), last (by decide)]
    simp only [Option.or_none, Option.none_or]
  case window =>
    rw [own, apart (by decide : "FILTER".toList ≠ _), apart (by decide : "COLLECT".toList ≠ _),
      apart (by decide : "SORT".toList ≠ _), last (by decide)]
    simp only [Option.or_none, Option.none_or]

theorem clause?_text (still : t.Still) (unmarked : Unmarked q.root.name.toList)
    {word : List Char} (keywordText : String) (spelled : keywordText.toList = keyword word)
    (member : word ∈ clauseWords) :
    clause? keywordText (q.loopChars ++ Statement.layout t.clauses) = bodyOf word t.clauses :=
  clause?_layout spelled (Query.loopChars_clear unmarked member) still.layout member

/-- A clause word that the selection lacks occurs nowhere. -/
theorem text_clear (still : t.Still) (unmarked : Unmarked q.root.name.toList) {word : List Char}
    (member : word ∈ clauseWords) (absent : word ∉ t.clauses.map (·.word)) :
    Clear (keyword word) (q.loopChars ++ Statement.layout t.clauses) [] :=
  (clear_append _ _ _ _).mpr ⟨Query.loopChars_clear unmarked member _,
    clear_layout still.layout.plain member absent []⟩

theorem word_mem (t : SelectionText) {c : ClauseText} (member : c ∈ t.clauses) :
    c.word ∈ ["FILTER".toList, "COLLECT".toList, "SORT".toList, "LIMIT".toList,
      "RETURN".toList] := by
  simp only [clauses, List.mem_append, mem_clauseOf, List.mem_singleton] at member
  rcases member with ⟨_, _, rfl⟩ | ⟨_, _, rfl⟩ | ⟨_, _, rfl⟩ | ⟨_, _, rfl⟩ | rfl <;> simp

theorem word_notMem (t : SelectionText) {word : List Char}
    (other : word ∉ ["FILTER".toList, "COLLECT".toList, "SORT".toList, "LIMIT".toList,
      "RETURN".toList]) : word ∉ t.clauses.map (·.word) := by
  intro member
  rcases List.mem_map.mp member with ⟨c, inClauses, rfl⟩
  exact other (t.word_mem inClauses)

theorem return_notMem_before (t : SelectionText) :
    "RETURN".toList ∉ t.before.map (·.word) := by
  intro member
  rcases List.mem_map.mp member with ⟨c, inBefore, returns⟩
  simp only [before, List.mem_append, mem_clauseOf] at inBefore
  rcases inBefore with ⟨_, _, rfl⟩ | ⟨_, _, rfl⟩ | ⟨_, _, rfl⟩ | ⟨_, _, rfl⟩
  · exact absurd returns (by decide : "FILTER".toList ≠ "RETURN".toList)
  · exact absurd returns (by decide : "COLLECT".toList ≠ "RETURN".toList)
  · exact absurd returns (by decide : "SORT".toList ≠ "RETURN".toList)
  · exact absurd returns (by decide : "LIMIT".toList ≠ "RETURN".toList)

/-- A selection has no effect besides reading. -/
theorem readEffect_text (still : t.Still) (unmarked : Unmarked q.root.name.toList) :
    readEffect q.rowChars (q.loopChars ++ Statement.layout t.clauses) = .reading := by
  have removal := (text_clear still unmarked (by decide)
    (t.word_notMem (by decide : "REMOVE".toList ∉ _))).extend (q.rowChars ++ " IN ".toList)
  have update := text_clear still unmarked (by decide)
    (t.word_notMem (by decide : "UPDATE".toList ∉ _))
  have pattern : keyword "REMOVE".toList ++ (q.rowChars ++ " IN ".toList) =
      " REMOVE ".toList ++ q.rowChars ++ " IN ".toList := by simp [keyword]
  rw [pattern] at removal
  rw [readEffect, containsPattern_eq_false_of_clear removal]
  have update' : containsPattern " UPDATE ".toList
      (q.loopChars ++ Statement.layout t.clauses) = false :=
    containsPattern_eq_false_of_clear update
  rw [update']
  rfl

/-- What is returned if the fields of a row can be read, or cannot. -/
def endingOf : Option (List String) → StatementEnding
  | some names => .fields names
  | none => .unsupported

/-- What a selection returns is read from its last clause. -/
theorem readEnding_text (still : t.Still) (unmarked : Unmarked q.root.name.toList) :
    readEnding q.rowChars (q.loopChars ++ Statement.layout t.clauses) =
      endingOf (readProjection? q.rowChars t.row) := by
  have uncounted : containsPattern " COLLECT WITH COUNT INTO ".toList
      (q.loopChars ++ Statement.layout t.clauses) = false := by
    have bodies : ∀ c ∈ t.clauses, c.word = "COLLECT".toList →
        ∀ rest, dropLeading? "WITH COUNT INTO ".toList (c.body ++ rest) = none := by
      intro c member collects rest
      simp only [clauses, List.mem_append, mem_clauseOf, List.mem_singleton] at member
      rcases member with ⟨_, _, rfl⟩ | ⟨body, inGroup, rfl⟩ | ⟨_, _, rfl⟩ | ⟨_, _, rfl⟩ | rfl
      · exact absurd collects (by decide : "FILTER".toList ≠ "COLLECT".toList)
      · rcases still.uncounted body inGroup with ⟨first, tail, rfl, other⟩
        exact dropLeading?_cons_of_ne _ _ (Ne.symm other)
      · exact absurd collects (by decide : "SORT".toList ≠ "COLLECT".toList)
      · exact absurd collects (by decide : "LIMIT".toList ≠ "COLLECT".toList)
      · exact absurd collects (by decide : "RETURN".toList ≠ "COLLECT".toList)
    have clauses := clear_layout_of_bodies still.layout.plain (by decide) bodies []
    have loop := (Query.loopChars_clear unmarked (by decide : "COLLECT".toList ∈ clauseWords)
      (Statement.layout t.clauses ++ [])).extend "WITH COUNT INTO ".toList
    exact containsPattern_eq_false_of_clear ((clear_append _ _ _ _).mpr ⟨loop, clauses⟩)
  have plain : ∀ c ∈ t.before, c.Plain := fun c member =>
    still.layout.plain c (t.clauses_eq ▸ List.mem_append_left _ member)
  have returned : splitOnce? (keyword "RETURN".toList) (q.loopChars ++
      Statement.layout (t.before ++ ⟨"RETURN".toList, t.row⟩ :: [])) =
        some (q.loopChars ++ Statement.layout t.before, t.row ++ Statement.layout []) :=
    splitOnce?_layout (Query.loopChars_clear unmarked (by decide)) plain (by decide)
      t.return_notMem_before
  have spelled : " RETURN ".toList = keyword "RETURN".toList := by decide
  rw [← t.clauses_eq, layout_nil, List.append_nil, ← spelled] at returned
  rw [readEnding, uncounted, returned]
  cases read : readProjection? q.rowChars t.row <;> simp [read, endingOf]

/-- The loop names the variable of the rows and the collection. -/
theorem readSource?_text {rest row collection : List Char} (noBacktick : '`' ∉ q.root.name.toList)
    (read : readSource? (q.loopChars ++ rest) = some (row, collection)) :
    row = q.rowChars ∧ collection = q.root.name.toList := by
  have opened : q.loopChars ++ rest = "FOR ".toList ++ (q.rowChars ++ (" IN `".toList ++
      (q.root.name.toList ++ (['`'] ++ rest)))) := by
    simp [Query.loopChars]
  have rowCut := q.rowVariable_rowChars.splitOnce?_source
    (q.root.name.toList ++ (['`'] ++ rest))
  have nameCut : splitOnce? ['`'] (q.root.name.toList ++ (['`'] ++ rest)) =
      some (q.root.name.toList, rest) :=
    splitOnce?_of_clear (by decide) _ (clear_of_head_notMem _ _ noBacktick)
  rw [readSource?, opened, dropLeading?_append] at read
  simp only [Option.bind_eq_bind, Option.bind_some, rowCut, nameCut] at read
  split at read
  · obtain ⟨rows, name⟩ := Prod.mk.inj (Option.some.inj read)
    exact ⟨rows.symm, name.symm⟩
  · cases read

/-- What the store reads in a selection that it takes. -/
structure ReadAs (t : SelectionText) (q : Query) (bindVars : Dict Json) (st : Statement) :
    Prop where
  collection : st.collection = q.root.name
  filters : readParts? " && " t.filter (readFilter? q.rowChars bindVars) = some st.filters
  sorts : readParts? ", " t.sort (readSort? q.rowChars) = some st.sorts
  window : ∃ counts, readParts? ", " t.window (fun part =>
      (readLiteral? bindVars part).bind Json.natural?) = some counts ∧
    ((t.window = none ∧ st.window = none) ∨
      (∃ count, counts = [count] ∧ st.window = some (0, count)) ∨
      ∃ offset count, counts = [offset, count] ∧ st.window = some (offset, count))
  effect : st.effect = .reading
  ending : st.ending = endingOf (readProjection? q.rowChars t.row)

theorem readClause?_eq_readParts? {α : Type} (keywordText separator : String)
    (aql : List Char) (read : List Char → Option α) :
    readClause? keywordText separator aql read =
      readParts? separator (clause? keywordText aql) read := by
  unfold readClause? readParts?
  rfl

/-- The clauses that the store finds are those that the selection has. -/
theorem clause?_found (still : t.Still) (unmarked : Unmarked q.root.name.toList) :
    clause? " FILTER " (q.loopChars ++ Statement.layout t.clauses) = t.filter ∧
      clause? " SORT " (q.loopChars ++ Statement.layout t.clauses) = t.sort ∧
      clause? " LIMIT " (q.loopChars ++ Statement.layout t.clauses) = t.window := by
  rcases t.bodyOf_clauses with ⟨filterBody, sortBody, windowBody⟩
  have findFilter := clause?_text still unmarked " FILTER " (rfl : _ = keyword "FILTER".toList)
    (by decide)
  have findSort := clause?_text still unmarked " SORT " (rfl : _ = keyword "SORT".toList)
    (by decide)
  have findWindow := clause?_text still unmarked " LIMIT " (rfl : _ = keyword "LIMIT".toList)
    (by decide)
  rw [filterBody] at findFilter
  rw [sortBody] at findSort
  rw [windowBody] at findWindow
  exact ⟨findFilter, findSort, findWindow⟩

theorem readAs_of_read? (still : t.Still) (unmarked : Unmarked q.root.name.toList)
    (noBacktick : '`' ∉ q.root.name.toList) {text : String} {bindVars : Dict Json}
    {st : Statement} (spelled : text.toList = q.loopChars ++ Statement.layout t.clauses)
    (read : Statement.read? text bindVars = some st) : t.ReadAs q bindVars st := by
  rw [Statement.read?, spelled] at read
  simp only [Option.bind_eq_bind, Option.bind_eq_some_iff] at read
  rcases read with ⟨⟨row, collection⟩, source, filters, filtersRead, sorts, sortsRead, window,
    windowRead, same⟩
  rcases readSource?_text noBacktick source with ⟨rfl, rfl⟩
  cases same
  rcases t.clause?_found still unmarked with ⟨findFilter, findSort, findWindow⟩
  constructor
  · exact String.ofList_toList
  · rw [← filtersRead, readClause?_eq_readParts?, findFilter]
  · rw [← sortsRead, readClause?_eq_readParts?, findSort]
  · rw [readWindow?, findWindow] at windowRead
    cases found : t.window with
    | none =>
        rw [found] at windowRead
        cases windowRead
        exact ⟨[], rfl, .inl ⟨rfl, rfl⟩⟩
    | some body =>
        rw [found] at windowRead
        simp only [Option.bind_eq_bind, Option.bind_eq_some_iff] at windowRead
        rcases windowRead with ⟨counts, countsRead, windowed⟩
        refine ⟨counts, countsRead, .inr ?_⟩
        split at windowed
        · cases windowed
          exact .inl ⟨_, rfl, rfl⟩
        · cases windowed
          exact .inr ⟨_, _, rfl, rfl⟩
        · cases windowed
  · have effect := readEffect_text (t := t) (q := q) still unmarked
    simpa only using effect
  · have ending := readEnding_text (t := t) (q := q) still unmarked
    simpa only using ending

end SelectionText

end DocStore
