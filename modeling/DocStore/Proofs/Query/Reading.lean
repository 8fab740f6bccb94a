/-
Module: DocStore.Proofs.Query.Reading
Purpose: the store in memory reads the text of a plain query as the query.
Main exports:
  PlainParts.Of.read?_text, PlainParts.Of.effect_reading, PlainParts.Of.effect_removal,
  PlainParts.Of.ending_fields, PlainParts.Of.ending_count
-/
import DocStore.Proofs.Fallible
import DocStore.Proofs.Query.Compiled

namespace DocStore

open Text Statement

/-! ### Clauses that can be cut apart -/

theorem optionalClause_plain {word separator : String} {pieces : List (List Char)}
    (member : word.toList ∈ clauseWords) (quiet : ∀ piece ∈ pieces, Quiet piece)
    (separated : ∀ piece ∈ pieces, Silent (separator.toList ++ piece)) :
    ∀ c ∈ optionalClause word separator pieces, c.Plain := by
  intro c inClauses
  unfold optionalClause at inClauses
  split at inClauses
  · cases inClauses
  · next nonempty =>
      rw [List.mem_singleton] at inClauses
      subst inClauses
      have some_piece : pieces ≠ [] := fun none_there => nonempty (by rw [none_there]; rfl)
      exact ⟨member, silent_intercalate [' '] some_piece
        (fun piece inPieces => (quiet piece inPieces).silent_space) separated⟩

theorem silent_comma {piece : List Char} (quiet : Quiet piece) :
    Silent (", ".toList ++ piece) := by
  have comma : Silent [','] := silent_of_rulesOut (by decide)
  have whole := silent_append comma quiet.silent_space
  exact whole

theorem silent_ampersands {piece : List Char} (quiet : Quiet piece) :
    Silent (" && ".toList ++ piece) := by
  have ampersands : Silent " &&".toList := silent_of_rulesOut (by decide)
  have whole := silent_append ampersands quiet.silent_space
  exact whole

theorem word_of_mem_optionalClause {word separator : String} {pieces : List (List Char)}
    {c : ClauseText} (member : c ∈ optionalClause word separator pieces) :
    c.word = word.toList := by
  unfold optionalClause at member
  split at member
  · cases member
  · rw [List.mem_singleton] at member
    rw [member]

theorem mem_of_mem_tail_optionalClause {word separator : String} {pieces : List (List Char)}
    {c : ClauseText} {more : List ClauseText}
    (member : c ∈ (optionalClause word separator pieces ++ more).tail) : c ∈ more := by
  unfold optionalClause at member
  split at member
  · exact List.mem_of_mem_tail member
  · exact member

theorem bodyOf_optionalClause (word : List Char) (own separator : String)
    (pieces : List (List Char)) :
    bodyOf word (optionalClause own separator pieces) =
      if own.toList = word ∧ pieces ≠ [] then some (separator.toList.intercalate pieces)
      else none := by
  unfold optionalClause
  cases pieces with
  | nil => simp [bodyOf]
  | cons piece rest => by_cases same : own.toList = word <;> simp [bodyOf, same]

/-- The words of the clauses that say what happens to the rows. -/
def endingWords : List (List Char) :=
  ["REMOVE".toList, "RETURN".toList, "COLLECT".toList]

/-- Clauses that say what happens to the rows. -/
def Endings (added : List ClauseText) : Prop :=
  ∀ c ∈ added, c.Plain ∧ c.word ∈ endingWords

theorem Endings.bodyOf_eq_none {added : List ClauseText} (endings : Endings added)
    {word : List Char} (other : word ∉ endingWords) : bodyOf word added = none := by
  refine (bodyOf_eq_none_iff word added).mpr fun member => ?_
  rcases List.mem_map.mp member with ⟨c, inAdded, rfl⟩
  exact other (endings c inAdded).2

theorem plain_returnFields {row : List Char} {names : List String} {c : Char} {rest : List Char}
    (rowPlain : ' ' ∉ row) (begins : row = c :: rest) (other : c ∉ initials)
    (nonempty : names ≠ []) (named : ∀ name ∈ names, isPlainName name = true) :
    (returnFields row names).Plain := by
  have quiet : ∀ piece ∈ names.map (fieldText row), Quiet piece := by
    intro piece member
    rcases List.mem_map.mp member with ⟨name, inNames, rfl⟩
    exact quiet_fieldText rowPlain (named name inNames) begins other
  have fields : Silent (" [ ".toList ++ ", ".toList.intercalate (names.map (fieldText row))) := by
    have bracket : Silent " [".toList := silent_of_rulesOut (by decide)
    refine silent_intercalate _ (by simpa using nonempty) (fun piece member => ?_)
      fun piece member => silent_comma (quiet piece member)
    have whole := silent_append bracket (quiet piece member).silent_space
    exact whole
  refine ⟨(by decide : "RETURN".toList ∈ clauseWords), ?_⟩
  have whole := silent_append fields (silent_of_rulesOut (by decide) : Silent " ]".toList)
  simpa [rowBody] using whole

theorem plain_removeRows {row : List Char} {name : String} (isRow : RowVariable row)
    (plain : isPlainName name = true) : (removeRows row name).Plain := by
  refine ⟨(by decide : "REMOVE".toList ∈ clauseWords), ?_⟩
  have rowPlain := isRow.space_notMem
  have namePlain : ' ' ∉ name.toList := notMem_of_isPlainName plain (by decide)
  have rowQuiet : Quiet row := by
    rcases isRow with ⟨letter, lower, rfl⟩
    refine ⟨silent_word [letter] rowPlain (by decide), ?_⟩
    exact RowVariable.exists_cons ⟨letter, lower, rfl⟩
  have source : Silent (' ' :: ('`' :: name.toList ++ ['`'])) :=
    silent_space_cons (silent_word ('`' :: name.toList) (by simp [namePlain]) (by decide))
      (by decide)
  have whole := silent_append rowQuiet.silent_space
    (silent_append (silent_of_rulesOut (by decide) : Silent " IN".toList) source)
  simpa using whole

theorem endings_returnFields {row : List Char} {names : List String} (isRow : RowVariable row)
    (nonempty : names ≠ []) (named : ∀ name ∈ names, isPlainName name = true) :
    Endings [returnFields row names] := by
  intro c member
  rw [List.mem_singleton] at member
  subst member
  rcases isRow.exists_cons with ⟨first, rest, begins, other⟩
  exact ⟨plain_returnFields isRow.space_notMem begins other nonempty named,
    (by decide : "RETURN".toList ∈ endingWords)⟩

theorem endings_returnCount : Endings returnCount := by
  intro c member
  simp only [returnCount, List.mem_cons, List.not_mem_nil, or_false] at member
  rcases member with rfl | rfl
  · exact ⟨⟨by decide, silent_of_rulesOut (by decide)⟩, by decide⟩
  · exact ⟨⟨by decide, silent_of_rulesOut (by decide)⟩, by decide⟩

theorem endings_removal {row : List Char} {name : String} {returned : Option (List String)}
    (isRow : RowVariable row) (plain : isPlainName name = true)
    (named : ∀ names ∈ returned, names ≠ [] ∧ ∀ name ∈ names, isPlainName name = true) :
    Endings (removeRows row name :: returnRemoved returned) := by
  intro c member
  rcases List.mem_cons.mp member with rfl | later
  · exact ⟨plain_removeRows isRow plain, (by decide : "REMOVE".toList ∈ endingWords)⟩
  · cases returned with
    | none => cases later
    | some names =>
        rw [returnRemoved, List.mem_singleton] at later
        subst later
        rcases named names rfl with ⟨nonempty, fieldsPlain⟩
        exact ⟨plain_returnFields (by decide) rfl (by decide) nonempty fieldsPlain,
          (by decide : "RETURN".toList ∈ endingWords)⟩

namespace PlainParts.Of

variable {p : PlainParts} {q : Query} {added : List ClauseText}

theorem isRow (parts : p.Of q) : RowVariable p.row :=
  parts.row_eq ▸ rowVariable_variableOf q.root.name

theorem layout (parts : p.Of q) (endings : Endings added) : Layout (p.clauses ++ added) := by
  have filters : ∀ c ∈ optionalClause "FILTER" " && "
      (p.equations.map fun e => filterText p.row e.1 e.2), c.Plain := by
    have quiet : ∀ piece ∈ p.equations.map (fun e => filterText p.row e.1 e.2), Quiet piece := by
      intro piece member
      rcases List.mem_map.mp member with ⟨e, inEquations, rfl⟩
      exact quiet_filterText parts.isRow (parts.equations_plain e inEquations).1 e.2
    exact optionalClause_plain (by decide) quiet fun piece member =>
      silent_ampersands (quiet piece member)
  have sorts : ∀ c ∈ optionalClause "SORT" ", " (p.criteria.map (sortText p.row)), c.Plain := by
    have quiet : ∀ piece ∈ p.criteria.map (sortText p.row), Quiet piece := by
      intro piece member
      rcases List.mem_map.mp member with ⟨s, inCriteria, rfl⟩
      exact quiet_sortText parts.isRow (parts.criteria_plain s inCriteria)
    exact optionalClause_plain (by decide) quiet fun piece member =>
      silent_comma (quiet piece member)
  have limits : ∀ c ∈ optionalClause "LIMIT" ", " (p.window.numbers.map digitsOf), c.Plain := by
    have quiet : ∀ piece ∈ p.window.numbers.map digitsOf, Quiet piece := by
      intro piece member
      rcases List.mem_map.mp member with ⟨n, _, rfl⟩
      exact quiet_digitsOf n
    exact optionalClause_plain (by decide) quiet fun piece member =>
      silent_comma (quiet piece member)
  constructor
  · intro c member
    rcases List.mem_append.mp member with given | ending
    · rcases List.mem_append.mp given with filter | rest
      · exact filters c filter
      · rcases List.mem_append.mp rest with sort | limit
        · exact sorts c sort
        · exact limits c limit
    · exact (endings c ending).1
  · intro c member
    rw [clauses, List.append_assoc] at member
    rcases List.mem_append.mp (mem_of_mem_tail_optionalClause member) with given | ending
    · rcases List.mem_append.mp given with sort | limit
      · rw [word_of_mem_optionalClause sort]
        decide
      · rw [word_of_mem_optionalClause limit]
        decide
    · intro same
      have notFilter : ∀ word ∈ endingWords, word ≠ "FILTER".toList := by decide
      exact notFilter c.word (endings c ending).2 same

theorem loopText_clear (parts : p.Of q) (plain : q.Plain) {word : List Char}
    (member : word ∈ clauseWords) (rest : List Char) :
    Clear (keyword word) p.loopText rest := by
  have namePlain : isPlainName p.name = true := parts.name_eq ▸ plain.name_plain
  have silent := (plain_removeRows parts.isRow namePlain).silent
  exact (clear_append _ _ _ _).mpr ⟨clear_of_head_notMem _ _ (by decide),
    silent _ (keyword_mem_searched member) rest⟩

end PlainParts.Of

/-! ### Reading the clauses -/

/-- A clause is read piece by piece. -/
theorem readClause?_of_pieces {α : Type} {aql : List Char} {keywordText separator : String}
    {pieces : List (List Char)} {read : List Char → Option α} {word : String}
    (cut : clause? keywordText aql = bodyOf word.toList (optionalClause word separator pieces))
    (separatorNonempty : separator.toList ≠ [])
    (separable : ∀ piece ∈ pieces, Separable separator.toList piece) :
    readClause? keywordText separator aql read = pieces.mapM read := by
  rw [readClause?, cut, bodyOf_optionalClause]
  cases pieces with
  | nil => simp
  | cons piece rest =>
      rw [if_pos ⟨rfl, by simp⟩]
      simp only
      rw [splitAll_intercalate separatorNonempty (by simp) separable]

theorem Query.bindVars_get? {q : Query} {text : String} {columns : List String} {i : Nat}
    (bound : i < q.params.length) :
    (CompiledQuery.bindVars ⟨text, q.params, columns⟩).get? (toString (i + 1)) =
      some (q.params.getD i .null) := by
  apply Dict.get?_ofList_of_mem
  · have keys : (q.params.zipIdx.map fun entry => (toString (entry.2 + 1), entry.1)).map Prod.fst =
        (List.range' 0 q.params.length).map fun j => toString (j + 1) := by
      rw [← List.zipIdx_map_snd 0 q.params, List.map_map, List.map_map]
      rfl
    have distinct : ((List.range' 0 q.params.length).map fun j => toString (j + 1)).Nodup := by
      refine List.pairwise_map.mpr ((List.nodup_range' 1).imp ?_)
      intro a b different same
      exact different (Nat.succ.inj (toString_nat_injective same))
    rw [← keys] at distinct
    exact distinct
  · refine List.mem_map.mpr ⟨(q.params.getD i .null, i), ?_, rfl⟩
    rw [List.mk_mem_zipIdx_iff_getElem?]
    simp [bound]

theorem readWindow?_of_numbers {aql : List Char} {w : PlainWindow} (bindVars : Dict Json)
    (cut : clause? " LIMIT " aql =
      bodyOf "LIMIT".toList (optionalClause "LIMIT" ", " (w.numbers.map digitsOf)))
    (fit : ∀ n ∈ w.numbers, n ≤ signedLimit) :
    readWindow? bindVars aql = some w.toPair := by
  have numbers : (w.numbers.map digitsOf).mapM
      (fun part => (readLiteral? bindVars part).bind Json.natural?) = some (w.numbers.map id) := by
    refine mapM_map_eq_some fun n member => ?_
    have bound : n ≤ wordLimit := Nat.le_trans (fit n member) (by decide)
    rw [readLiteral?_digitsOf bindVars bound]
    simp [Json.int, Json.natural?]
  have separable : ∀ piece ∈ w.numbers.map digitsOf, Separable ", ".toList piece := by
    intro piece member
    rcases List.mem_map.mp member with ⟨n, _, rfl⟩
    exact separable_of_head_notMem _ (notMem_digitsOf (by decide) n)
  rw [bodyOf_optionalClause] at cut
  rw [readWindow?, cut]
  cases w with
  | whole => rfl
  | first limit =>
      rw [if_pos ⟨rfl, by simp [PlainWindow.numbers]⟩]
      simp only
      rw [splitAll_intercalate (by decide) (by simp [PlainWindow.numbers]) separable, numbers]
      rfl
  | slice offset limit =>
      rw [if_pos ⟨rfl, by simp [PlainWindow.numbers]⟩]
      simp only
      rw [splitAll_intercalate (by decide) (by simp [PlainWindow.numbers]) separable, numbers]
      rfl

namespace PlainParts.Of

variable {p : PlainParts} {q : Query} {added : List ClauseText}

theorem bodyOf_filter (p : PlainParts) : bodyOf "FILTER".toList p.clauses =
    bodyOf "FILTER".toList (optionalClause "FILTER" " && "
      (p.equations.map fun e => filterText p.row e.1 e.2)) := by
  simp [clauses, bodyOf_append, bodyOf_optionalClause]

theorem bodyOf_sort (p : PlainParts) : bodyOf "SORT".toList p.clauses =
    bodyOf "SORT".toList (optionalClause "SORT" ", " (p.criteria.map (sortText p.row))) := by
  simp [clauses, bodyOf_append, bodyOf_optionalClause]

theorem bodyOf_limit (p : PlainParts) : bodyOf "LIMIT".toList p.clauses =
    bodyOf "LIMIT".toList (optionalClause "LIMIT" ", " (p.window.numbers.map digitsOf)) := by
  simp [clauses, bodyOf_append, bodyOf_optionalClause]

/-- The clauses of a query are found in its text. -/
theorem clause?_text (parts : p.Of q) (plain : q.Plain) (endings : Endings added) {word : List Char}
    (keywordText : String) (spelled : keywordText.toList = keyword word)
    (member : word ∈ clauseWords) (other : word ∉ endingWords) :
    clause? keywordText (p.loopText ++ Statement.layout (p.clauses ++ added)) =
      bodyOf word p.clauses := by
  rw [clause?_layout spelled (parts.loopText_clear plain member) (parts.layout endings) member,
    bodyOf_append, endings.bodyOf_eq_none other, Option.or_none]

theorem readFilters (parts : p.Of q) (plain : q.Plain) (endings : Endings added) (text : String)
    (columns : List String) :
    readClause? " FILTER " " && " (p.loopText ++ Statement.layout (p.clauses ++ added))
        (readFilter? p.row (CompiledQuery.bindVars ⟨text, q.params, columns⟩)) =
      some (p.equations.map fun e => (e.1, q.params.getD e.2 .null)) := by
  have cut := (parts.clause?_text plain endings " FILTER " rfl (by decide)
    (by decide)).trans (bodyOf_filter p)
  rw [readClause?_of_pieces cut (by decide) fun piece member => ?_]
  · refine mapM_map_eq_some fun e member => ?_
    rcases parts.equations_plain e member with ⟨named, bound⟩
    rw [readFilter?_filterText parts.isRow named, Query.bindVars_get? bound]
    rfl
  · rcases List.mem_map.mp member with ⟨e, inEquations, rfl⟩
    exact separable_of_second_notMem _ (by decide)
      (ampersand_notMem_filterText parts.isRow (parts.equations_plain e inEquations).1 e.2)

theorem readSorts (parts : p.Of q) (plain : q.Plain) (endings : Endings added) :
    readClause? " SORT " ", " (p.loopText ++ Statement.layout (p.clauses ++ added))
        (readSort? p.row) = some p.criteria := by
  have cut := (parts.clause?_text plain endings " SORT " rfl (by decide)
    (by decide)).trans (bodyOf_sort p)
  rw [readClause?_of_pieces cut (by decide) fun piece member => ?_]
  · have read : (p.criteria.map (sortText p.row)).mapM (readSort? p.row) =
        some (p.criteria.map id) := mapM_map_eq_some fun s _ => readSort?_sortText p.row s
    rw [read, List.map_id]
  · rcases List.mem_map.mp member with ⟨s, inCriteria, rfl⟩
    exact separable_of_head_notMem _
      (comma_notMem_sortText parts.isRow (parts.criteria_plain s inCriteria))

theorem readWindow (parts : p.Of q) (plain : q.Plain) (endings : Endings added)
    (bindVars : Dict Json) :
    readWindow? bindVars (p.loopText ++ Statement.layout (p.clauses ++ added)) =
      some p.window.toPair := by
  have cut := (parts.clause?_text plain endings " LIMIT " rfl (by decide)
    (by decide)).trans (bodyOf_limit p)
  exact readWindow?_of_numbers bindVars cut parts.numbers_fit

/-- There is one loop, and it goes over the collection. -/
theorem readSource (parts : p.Of q) (plain : q.Plain) (endings : Endings added) :
    readSource? (p.loopText ++ Statement.layout (p.clauses ++ added)) =
      some (p.row, p.name.toList) := by
  have namePlain : isPlainName p.name = true := parts.name_eq ▸ plain.name_plain
  have noQuote : '`' ∉ p.name.toList := notMem_of_isPlainName namePlain (by decide)
  have clauseLayout := parts.layout endings
  generalize clausesEq : Statement.layout (p.clauses ++ added) = rest
  have opened : p.loopText ++ rest =
      "FOR ".toList ++ (p.row ++ (" IN `".toList ++ (p.name.toList ++ (['`'] ++ rest)))) := by
    simp [loopText]
  have rowCut := parts.isRow.splitOnce?_source (p.name.toList ++ (['`'] ++ rest))
  have nameCut : splitOnce? ['`'] (p.name.toList ++ (['`'] ++ rest)) =
      some (p.name.toList, rest) :=
    splitOnce?_of_clear (by decide) _ (clear_of_head_notMem _ _ noQuote)
  have once : occurrences "FOR ".toList (p.loopText ++ rest) = 1 := by
    have source : Silent (p.row ++ (" IN `".toList ++ (p.name.toList ++ ['`']))) :=
      silent_of_cons (plain_removeRows parts.isRow namePlain).silent
    have clear : Clear "FOR ".toList
        ((p.row ++ (" IN `".toList ++ (p.name.toList ++ ['`']))) ++ rest) [] := by
      refine (clear_append _ _ _ _).mpr ⟨source _ List.mem_cons_self _, ?_⟩
      rw [← clausesEq]
      exact clear_loop_layout (parts.layout endings).plain []
    have whole : p.loopText ++ rest = [] ++ ("FOR ".toList ++
        ((p.row ++ (" IN `".toList ++ (p.name.toList ++ ['`']))) ++ rest)) := by
      simp [loopText]
    have nothing : Clear "FOR ".toList [] ("FOR ".toList ++
        ((p.row ++ (" IN `".toList ++ (p.name.toList ++ ['`']))) ++ rest)) := trivial
    rw [occurrences, whole, splitAll_append (by decide) _ nothing, splitAll_of_clear clear]
    rfl
  rw [readSource?, once, opened, dropLeading?_append]
  simp only [Option.bind_eq_bind, Option.bind_some, rowCut, nameCut, if_true]

/-- The store reads the query: its collection, conditions, criteria and window. -/
theorem read?_text (parts : p.Of q) (plain : q.Plain) (endings : Endings added) {text : String}
    (columns : List String)
    (spelled : text.toList = p.loopText ++ Statement.layout (p.clauses ++ added)) :
    Statement.read? text (CompiledQuery.bindVars ⟨text, q.params, columns⟩) =
      some { collection := q.root.name
             filters := p.equations.map fun e => (e.1, q.params.getD e.2 .null)
             sorts := p.criteria
             window := p.window.toPair
             effect := readEffect p.row text.toList
             ending := readEnding p.row text.toList } := by
  rw [Statement.read?, spelled, parts.readSource plain endings]
  simp only [Option.bind_eq_bind, Option.bind_some, parts.readFilters plain endings text columns,
    parts.readSorts plain endings, parts.readWindow plain endings, String.ofList_toList,
    parts.name_eq]

end PlainParts.Of

/-! ### Reading what happens to the rows -/

theorem readProjection?_rowBody (row : List Char) {variableText : List Char} {names : List String}
    (field : ∀ name ∈ names, (readField? row (fieldText variableText name)).or
      (readField? "OLD".toList (fieldText variableText name)) = some name)
    (variablePlain : ',' ∉ variableText) (nonempty : names ≠ [])
    (named : ∀ name ∈ names, isPlainName name = true) :
    readProjection? row (rowBody variableText names) = some names := by
  have undistinct : dropDistinct (rowBody variableText names) = rowBody variableText names := by
    rw [dropDistinct]
    split
    · next rest found =>
        have start : dropLeading? "DISTINCT ".toList (rowBody variableText names) = none :=
          dropLeading?_cons_of_ne _ _ (by decide)
        rw [start] at found
        cases found
    · rfl
  have separable : ∀ piece ∈ names.map (fieldText variableText), Separable ", ".toList piece := by
    intro piece member
    rcases List.mem_map.mp member with ⟨name, inNames, rfl⟩
    exact separable_of_head_notMem _ (comma_notMem_fieldText variablePlain (named name inNames))
  rw [readProjection?, undistinct, rowBody, dropLeading?_append]
  simp only [Option.bind_eq_bind, Option.bind_some, dropTrailing?_append]
  rw [splitAll_intercalate (by decide) (by simpa using nonempty) separable]
  have read : (names.map (fieldText variableText)).mapM (fun part =>
      (readField? row part).or (readField? "OLD".toList part)) = some (names.map id) :=
    mapM_map_eq_some field
  rw [List.map_id] at read
  exact read

theorem readField?_removed {row : List Char} (isRow : RowVariable row) (name : String) :
    (readField? row (fieldText "OLD".toList name)).or
      (readField? "OLD".toList (fieldText "OLD".toList name)) = some name := by
  have other : readField? row (fieldText "OLD".toList name) = none := by
    rcases isRow with ⟨letter, lower, rfl⟩
    have different : letter ≠ 'O' := fun same => by subst same; cases lower
    rw [readField?]
    simp [fieldText, dropLeading?, different]
  rw [other, Option.none_or, readField?_fieldText]

namespace PlainParts

theorem clause_notMem (p : PlainParts) {word : List Char}
    (other : word ∉ ["FILTER".toList, "SORT".toList, "LIMIT".toList]) :
    word ∉ p.clauses.map (·.word) := by
  intro member
  rcases List.mem_map.mp member with ⟨c, inClauses, rfl⟩
  apply other
  rcases List.mem_append.mp inClauses with filter | rest
  · rw [word_of_mem_optionalClause filter]
    decide
  · rcases List.mem_append.mp rest with sort | limit
    · rw [word_of_mem_optionalClause sort]
      decide
    · rw [word_of_mem_optionalClause limit]
      decide

theorem effect_removal (p : PlainParts) (returned : List ClauseText) :
    readEffect p.row
      (p.loopText ++ Statement.layout (p.clauses ++ removeRows p.row p.name :: returned)) =
        .removal := by
  have whole : p.loopText ++ Statement.layout (p.clauses ++ removeRows p.row p.name :: returned) =
      (p.loopText ++ Statement.layout p.clauses) ++
        ((" REMOVE ".toList ++ p.row ++ " IN ".toList) ++
          ('`' :: (p.name.toList ++ ['`'] ++ Statement.layout returned))) := by
    simp [ClauseText.text]
  rw [readEffect, whole, containsPattern_append _ _ _ (by simp), if_pos rfl]

theorem ending_count (p : PlainParts) :
    readEnding p.row (p.loopText ++ Statement.layout (p.clauses ++ returnCount)) = .count := by
  have whole : p.loopText ++ Statement.layout (p.clauses ++ returnCount) =
      (p.loopText ++ Statement.layout p.clauses) ++
        (" COLLECT WITH COUNT INTO ".toList ++ "total RETURN total".toList) := by
    simp [returnCount, ClauseText.text]
  rw [readEnding, whole, containsPattern_append _ _ _ (by decide), if_pos rfl]

end PlainParts

namespace PlainParts.Of

variable {p : PlainParts} {q : Query} {added : List ClauseText}

/-- A word that introduces no clause occurs nowhere. -/
theorem text_clear (parts : p.Of q) (plain : q.Plain) (endings : Endings added) {word : List Char}
    (member : word ∈ clauseWords) (absent : word ∉ (p.clauses ++ added).map (·.word)) :
    Clear (keyword word) (p.loopText ++ Statement.layout (p.clauses ++ added)) [] :=
  (clear_append _ _ _ _).mpr ⟨parts.loopText_clear plain member _,
    clear_layout (parts.layout endings).plain member absent []⟩

theorem updates_nothing (parts : p.Of q) (plain : q.Plain) (endings : Endings added) :
    containsPattern " UPDATE ".toList (p.loopText ++ Statement.layout (p.clauses ++ added)) =
      false := by
  apply containsPattern_eq_false_of_clear
  have unused : "UPDATE".toList ∉ (p.clauses ++ added).map (·.word) := by
    intro member
    rw [List.map_append] at member
    rcases List.mem_append.mp member with given | ending
    · exact p.clause_notMem (by decide) given
    · rcases List.mem_map.mp ending with ⟨c, inAdded, same⟩
      have listed := (endings c inAdded).2
      rw [same] at listed
      exact absurd listed (by decide)
  exact parts.text_clear plain endings (by decide) unused

theorem effect_reading (parts : p.Of q) (plain : q.Plain) (endings : Endings added)
    (absent : "REMOVE".toList ∉ added.map (·.word)) :
    readEffect p.row (p.loopText ++ Statement.layout (p.clauses ++ added)) = .reading := by
  have nowhere : "REMOVE".toList ∉ (p.clauses ++ added).map (·.word) := by
    rw [List.map_append, List.mem_append, not_or]
    exact ⟨p.clause_notMem (by decide), absent⟩
  have clear := (parts.text_clear plain endings (by decide) nowhere).extend (p.row ++ " IN ".toList)
  have pattern : keyword "REMOVE".toList ++ (p.row ++ " IN ".toList) =
      " REMOVE ".toList ++ p.row ++ " IN ".toList := by simp [keyword]
  rw [pattern] at clear
  rw [readEffect, containsPattern_eq_false_of_clear clear, parts.updates_nothing plain endings]
  rfl

/-- Fields returned after the other clauses, but no count, are read as what the
query returns. -/
theorem ending_fields (parts : p.Of q) (plain : q.Plain) (before : List ClauseText)
    {variableText : List Char} {names : List String}
    (endings : Endings (before ++ [returnFields variableText names]))
    (uncounted : "COLLECT".toList ∉ before.map (·.word))
    (first : "RETURN".toList ∉ before.map (·.word))
    (read : readProjection? p.row (rowBody variableText names) = some names) :
    readEnding p.row (p.loopText ++
      Statement.layout (p.clauses ++ (before ++ [returnFields variableText names]))) =
        .fields names := by
  have nowhere : "COLLECT".toList ∉
      (p.clauses ++ (before ++ [returnFields variableText names])).map (·.word) := by
    simp only [List.map_append, List.mem_append, not_or]
    exact ⟨p.clause_notMem (by decide), uncounted,
      (by decide : "COLLECT".toList ∉ ["RETURN".toList])⟩
  have clear := (parts.text_clear plain endings (by decide) nowhere).extend
    "WITH COUNT INTO ".toList
  have counted : containsPattern " COLLECT WITH COUNT INTO ".toList (p.loopText ++
      Statement.layout (p.clauses ++ (before ++ [returnFields variableText names]))) = false :=
    containsPattern_eq_false_of_clear clear
  have beforePlain : ∀ c ∈ p.clauses ++ before, c.Plain := by
    intro c member
    refine (parts.layout endings).plain c ?_
    rw [← List.append_assoc]
    exact List.mem_append_left _ member
  have beforeAbsent : "RETURN".toList ∉ (p.clauses ++ before).map (·.word) := by
    rw [List.map_append, List.mem_append, not_or]
    exact ⟨p.clause_notMem (by decide), first⟩
  have returned : splitOnce? " RETURN ".toList (p.loopText ++
      Statement.layout (p.clauses ++ (before ++ [returnFields variableText names]))) =
        some (p.loopText ++ Statement.layout (p.clauses ++ before),
          rowBody variableText names ++ Statement.layout []) := by
    rw [← List.append_assoc]
    exact splitOnce?_layout (parts.loopText_clear plain (by decide)) beforePlain (by decide)
      beforeAbsent
  rw [layout_nil, List.append_nil] at returned
  rw [readEnding, counted, returned]
  simp [read]

/-- A removal that returns nothing. -/
theorem ending_nothing (parts : p.Of q) (plain : q.Plain) (endings : Endings added)
    (uncounted : "COLLECT".toList ∉ added.map (·.word))
    (unreturned : "RETURN".toList ∉ added.map (·.word)) :
    readEnding p.row (p.loopText ++ Statement.layout (p.clauses ++ added)) = .nothing := by
  have nowhere : ∀ word ∈ [ "COLLECT".toList, "RETURN".toList],
      word ∉ (p.clauses ++ added).map (·.word) := by
    intro word listed
    simp only [List.mem_cons, List.not_mem_nil, or_false] at listed
    rw [List.map_append, List.mem_append, not_or]
    rcases listed with rfl | rfl
    · exact ⟨p.clause_notMem (by decide), uncounted⟩
    · exact ⟨p.clause_notMem (by decide), unreturned⟩
  have clear := (parts.text_clear plain endings (by decide)
    (nowhere "COLLECT".toList (by decide))).extend "WITH COUNT INTO ".toList
  have counted : containsPattern " COLLECT WITH COUNT INTO ".toList
      (p.loopText ++ Statement.layout (p.clauses ++ added)) = false :=
    containsPattern_eq_false_of_clear clear
  have returned : splitOnce? " RETURN ".toList
      (p.loopText ++ Statement.layout (p.clauses ++ added)) = none :=
    splitOnce?_eq_none_of_clear
      (parts.text_clear plain endings (by decide) (nowhere "RETURN".toList (by decide)))
  rw [readEnding, counted, returned]
  rfl

end PlainParts.Of

end DocStore
