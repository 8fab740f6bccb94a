/-
Module: DocStore.Proofs.Query.Compiled
Purpose: the text that plain queries are compiled to, clause by clause.
Main exports:
  PlainParts, PlainParts.clauses, Query.Plain.compile_select, Query.Plain.compile_count,
  Query.Plain.compile_delete
-/
import DocStore.Proofs.Query.Plain

namespace DocStore

open Text Statement

/-- What the clauses of a plain query are made of: the variable of the rows, the
name of the collection, the equations, the criteria and the window. -/
structure PlainParts where
  row : List Char
  name : String
  equations : List (String × Nat)
  criteria : List StatementSort
  window : PlainWindow

/-- A clause with pieces between separators; nothing without pieces. -/
def optionalClause (word separator : String) (pieces : List (List Char)) : List ClauseText :=
  if pieces.isEmpty then [] else [⟨word.toList, separator.toList.intercalate pieces⟩]

namespace PlainParts

/-- The loop over the rows. -/
def loopText (p : PlainParts) : List Char :=
  "FOR".toList ++ (' ' :: (p.row ++ (" IN `".toList ++ (p.name.toList ++ ['`']))))

/-- The clauses that say which rows are meant. -/
def clauses (p : PlainParts) : List ClauseText :=
  optionalClause "FILTER" " && " (p.equations.map fun e => filterText p.row e.1 e.2) ++
    (optionalClause "SORT" ", " (p.criteria.map (sortText p.row)) ++
      optionalClause "LIMIT" ", " (p.window.numbers.map digitsOf))

/-- The parts stand for those of a query. -/
structure Of (p : PlainParts) (q : Query) : Prop where
  row_eq : p.row = (Query.variableOf q.root.name 0).toList
  name_eq : p.name = q.root.name
  equations_eq : q.clauses = p.equations.map equationClause
  equations_plain : ∀ e ∈ p.equations, isPlainName e.1 = true ∧ e.2 < q.params.length
  criteria_eq : q.sorts = p.criteria.map sortTermOf
  criteria_plain : ∀ s ∈ p.criteria, isPlainName s.field = true
  offset_eq : q.offset = p.window.offset
  limit_eq : q.limit = p.window.limit
  numbers_fit : ∀ n ∈ p.window.numbers, n ≤ signedLimit

end PlainParts

theorem Query.Plain.exists_parts {q : Query} (plain : q.Plain) : ∃ p : PlainParts, p.Of q := by
  rcases plain.exists_equations with ⟨equations, equationsEq, equationsPlain⟩
  rcases plain.exists_criteria with ⟨criteria, criteriaEq, criteriaPlain⟩
  rcases plain.exists_window with ⟨window, offsetEq, limitEq, fit⟩
  exact ⟨⟨_, _, equations, criteria, window⟩, rfl, rfl, equationsEq, equationsPlain, criteriaEq,
    criteriaPlain, offsetEq, limitEq, fit⟩

/-- The fields of rows in brackets. -/
def rowBody (row : List Char) (names : List String) : List Char :=
  "[ ".toList ++ (", ".toList.intercalate (names.map (fieldText row)) ++ " ]".toList)

/-- The clause that returns fields. -/
def returnFields (row : List Char) (names : List String) : ClauseText :=
  ⟨"RETURN".toList, rowBody row names⟩

@[simp] theorem word_returnFields (row : List Char) (names : List String) :
    (returnFields row names).word = "RETURN".toList := rfl

@[simp] theorem body_returnFields (row : List Char) (names : List String) :
    (returnFields row names).body = rowBody row names := rfl

/-- The clauses that return the number of rows. -/
def returnCount : List ClauseText :=
  [⟨"COLLECT".toList, "WITH COUNT INTO total".toList⟩, ⟨"RETURN".toList, "total".toList⟩]

/-- The clause that removes the rows from a collection. -/
def removeRows (row : List Char) (name : String) : ClauseText :=
  ⟨"REMOVE".toList, row ++ (" IN `".toList ++ (name.toList ++ ['`']))⟩

@[simp] theorem word_removeRows (row : List Char) (name : String) :
    (removeRows row name).word = "REMOVE".toList := rfl

@[simp] theorem body_removeRows (row : List Char) (name : String) :
    (removeRows row name).body = row ++ (" IN `".toList ++ (name.toList ++ ['`'])) := rfl

/-- The clause that returns fields of the documents that were removed, if any are
asked for. -/
def returnRemoved : Option (List String) → List ClauseText
  | none => []
  | some names => [returnFields "OLD".toList names]

/-! ### Scope and fields -/

/-- The scope of a query over one collection. -/
def Query.plainScope (q : Query) : Scope :=
  { rowVariables := [variableOf q.root.name 0], paramCount := q.params.length }

theorem isSourceName_of_isPlainName {name : String} (plain : isPlainName name = true) :
    Query.isSourceName name = true := by
  have noQuote : '`' ∉ name.toList := notMem_of_isPlainName plain (by decide)
  rw [isPlainName, Bool.and_eq_true] at plain
  simp [Query.isSourceName, noQuote, plain.1]

theorem Query.Plain.scope_eq {q : Query} (plain : q.Plain) : q.scope = .ok q.plainScope := by
  have named := isSourceName_of_isPlainName plain.name_plain
  simp [Query.scope, Query.sources, Query.rowVariables, Query.plainScope, plain.noJoins, named]

/-- A field of the root source in a scope that gives the rows a variable. -/
theorem Scope.field_eq (s : Scope) (row : String) {name : String} (ungrouped : s.grouped = none)
    (named : s.rowVariable 0 = .ok row) (plain : isPlainName name = true) :
    ∃ text, s.field 0 name = .ok text ∧ text.toList = fieldText row.toList name := by
  have noQuote : '`' ∉ name.toList := notMem_of_isPlainName plain (by decide)
  refine ⟨row ++ ".`" ++ name ++ "`", ?_, by simp [fieldText]⟩
  simp [Scope.field, noQuote, ungrouped, named, Except.map]

theorem Expr.renderAll_fields (s : Scope) (row : String) (ungrouped : s.grouped = none)
    (named : s.rowVariable 0 = .ok row) {names : List String}
    (plain : ∀ name ∈ names, isPlainName name = true) :
    ∃ texts, Expr.renderAll s (names.map (.field 0)) = .ok texts ∧
      texts.map String.toList = names.map (fieldText row.toList) := by
  induction names with
  | nil => exact ⟨[], rfl, rfl⟩
  | cons name rest inductionHypothesis =>
      rcases Scope.field_eq s row ungrouped named (plain name List.mem_cons_self) with
        ⟨text, rendered, spelled⟩
      rcases inductionHypothesis (List.forall_mem_cons.mp plain).2 with
        ⟨texts, allRendered, allSpelled⟩
      refine ⟨text :: texts, ?_, by simp [spelled, allSpelled]⟩
      simp [Expr.renderAll, Expr.render, rendered, allRendered, Bind.bind, Except.bind]

/-- The row of requested fields. -/
theorem Query.rowText_fields (s : Scope) (row : String) (ungrouped : s.grouped = none)
    (named : s.rowVariable 0 = .ok row) {names : List String}
    (plain : ∀ name ∈ names, isPlainName name = true) :
    ∃ text, Query.rowText s (names.map (.field 0)) = .ok text ∧
      text.toList = rowBody row.toList names := by
  rcases Expr.renderAll_fields s row ungrouped named plain with ⟨texts, rendered, spelled⟩
  refine ⟨"[ " ++ join ", " texts ++ " ]", ?_, ?_⟩
  · rw [Query.rowText, rendered]
    rfl
  · simp [rowBody, toList_join, spelled]

/-! ### The clauses -/

theorem equationClause_render {q : Query} {e : String × Nat} (plain : isPlainName e.1 = true)
    (bound : e.2 < q.params.length) :
    ∃ text, (equationClause e).condition.render q.plainScope = .ok text ∧
      (parens text).toList =
        filterText (Query.variableOf q.root.name 0).toList e.1 e.2 := by
  rcases Scope.field_eq q.plainScope (Query.variableOf q.root.name 0) rfl rfl plain
    with ⟨field, rendered, spelled⟩
  have param : q.plainScope.param e.2 = .ok ("@" ++ toString (e.2 + 1)) :=
    if_neg (Nat.not_le.mpr bound)
  refine ⟨field ++ " == @" ++ toString (e.2 + 1), ?_, ?_⟩
  · simp only [equationClause, Expr.render, rendered, param, Bind.bind, Except.bind, Expr.asOperand,
      Expr.isBinary, BinaryOp.symbol, Bool.false_eq_true, if_false, Except.ok.injEq]
    apply String.toList_inj.mp
    simp
  · simp only [parens, String.toList_append, spelled, toList_toString]
    simp [filterText, paramText]

theorem foldClauses_equations {q : Query} {equations : List (String × Nat)}
    (plain : ∀ e ∈ equations, isPlainName e.1 = true ∧ e.2 < q.params.length) (before : String) :
    ∃ text, Query.foldClauses q.plainScope .and before (equations.map equationClause) = .ok text ∧
      text.toList = before.toList ++
        (equations.map fun e => filterText (Query.variableOf q.root.name 0).toList e.1 e.2).flatMap
          (" && ".toList ++ ·) := by
  induction equations generalizing before with
  | nil => exact ⟨before, rfl, by simp⟩
  | cons e rest inductionHypothesis =>
      rcases plain e List.mem_cons_self with ⟨named, bound⟩
      rcases equationClause_render (q := q) named bound with ⟨condition, rendered, spelled⟩
      rcases inductionHypothesis (fun other member => plain other (List.mem_cons_of_mem _ member))
        (before ++ " && " ++ parens condition) with ⟨text, folded, textSpelled⟩
      refine ⟨text, ?_, ?_⟩
      · rw [List.map_cons, Query.foldClauses, rendered]
        exact folded
      · rw [textSpelled]
        simp [spelled]

theorem segmentText_equations {q : Query} {equations : List (String × Nat)}
    (plain : ∀ e ∈ equations, isPlainName e.1 = true ∧ e.2 < q.params.length) :
    ∃ text, Query.segmentText q.plainScope " FILTER " .filter (equations.map equationClause) =
        .ok text ∧
      text.toList = layout (optionalClause "FILTER" " && " (equations.map fun e =>
        filterText (Query.variableOf q.root.name 0).toList e.1 e.2)) := by
  have all : (equations.map equationClause).filter (fun c => c.segment == .filter) =
      equations.map equationClause := by
    rw [List.filter_eq_self]
    intro c member
    rcases List.mem_map.mp member with ⟨e, _, rfl⟩
    rfl
  unfold Query.segmentText
  rw [all]
  cases equations with
  | nil => exact ⟨"", rfl, rfl⟩
  | cons e rest =>
      rcases plain e List.mem_cons_self with ⟨named, bound⟩
      rcases equationClause_render (q := q) named bound with ⟨condition, rendered, spelled⟩
      rcases foldClauses_equations (q := q)
        (fun other member => plain other (List.mem_cons_of_mem _ member)) (parens condition) with
        ⟨text, folded, textSpelled⟩
      refine ⟨" FILTER " ++ text, ?_, ?_⟩
      · simp only [List.map_cons, rendered, Bind.bind, Except.bind]
        rw [show (equationClause e).connective = .and from rfl, folded]
      · rw [String.toList_append, textSpelled, spelled]
        simp [optionalClause, ClauseText.text, intercalate_cons_eq_append_flatMap]

theorem segmentText_search {q : Query} (equations : List (String × Nat)) :
    Query.segmentText q.plainScope " SEARCH " .search (equations.map equationClause) = .ok "" := by
  have none_left : (equations.map equationClause).filter (fun c => c.segment == .search) = [] := by
    rw [List.filter_eq_nil_iff]
    intro c member
    rcases List.mem_map.mp member with ⟨e, _, rfl⟩
    simp [equationClause]
  rw [Query.segmentText, none_left]

theorem sortTexts_criteria {q : Query} {criteria : List StatementSort}
    (plain : ∀ s ∈ criteria, isPlainName s.field = true) :
    ∃ texts, Query.sortTexts q.plainScope (criteria.map sortTermOf) = .ok texts ∧
      texts.map String.toList =
        criteria.map (Statement.sortText (Query.variableOf q.root.name 0).toList) := by
  induction criteria with
  | nil => exact ⟨[], rfl, rfl⟩
  | cons s rest inductionHypothesis =>
      rcases Scope.field_eq q.plainScope (Query.variableOf q.root.name 0) rfl rfl
        (plain s List.mem_cons_self) with ⟨field, rendered, spelled⟩
      rcases inductionHypothesis (List.forall_mem_cons.mp plain).2 with
        ⟨texts, allRendered, allSpelled⟩
      rcases s with ⟨name, descends⟩
      cases descends with
      | true =>
          refine ⟨(field ++ " DESC") :: texts, ?_, ?_⟩
          · simp [Query.sortTexts, sortTermOf, Expr.render, rendered, allRendered, Bind.bind,
              Except.bind]
          · simp [allSpelled, spelled, Statement.sortText]
      | false =>
          refine ⟨field :: texts, ?_, ?_⟩
          · simp [Query.sortTexts, sortTermOf, Expr.render, rendered, allRendered, Bind.bind,
              Except.bind]
          · simp [allSpelled, spelled, Statement.sortText]

theorem sortText_criteria {q : Query} {criteria : List StatementSort}
    (plain : ∀ s ∈ criteria, isPlainName s.field = true) :
    ∃ text, Query.sortText q.plainScope (criteria.map sortTermOf) = .ok text ∧
      text.toList = layout (optionalClause "SORT" ", "
        (criteria.map (Statement.sortText (Query.variableOf q.root.name 0).toList))) := by
  cases criteria with
  | nil => exact ⟨"", rfl, rfl⟩
  | cons s rest =>
      rcases sortTexts_criteria (q := q) plain with ⟨texts, rendered, spelled⟩
      refine ⟨" SORT " ++ join ", " texts, ?_, ?_⟩
      · simp only [Query.sortText, List.map_cons, List.isEmpty_cons, Bool.false_eq_true, if_false]
        rw [List.map_cons] at rendered
        simp [rendered, Bind.bind, Except.bind]
      · rw [String.toList_append, toList_join, spelled]
        simp [optionalClause, ClauseText.text]

theorem windowText_numbers (s : Scope) (w : PlainWindow) :
    ∃ text, Query.windowText s w.offset w.limit = .ok text ∧
      text.toList = layout (optionalClause "LIMIT" ", " (w.numbers.map digitsOf)) := by
  have written : ∀ n : Nat, (toString (n : Int)).toList = digitsOf n := fun n => toList_toString n
  cases w with
  | whole => exact ⟨"", rfl, rfl⟩
  | first limit =>
      refine ⟨" LIMIT " ++ toString (limit : Int), rfl, ?_⟩
      rw [String.toList_append, written]
      simp [optionalClause, ClauseText.text, PlainWindow.numbers]
  | slice offset limit =>
      refine ⟨" LIMIT " ++ toString (offset : Int) ++ ", " ++ toString (limit : Int), rfl, ?_⟩
      simp only [String.toList_append, written]
      simp [optionalClause, ClauseText.text, PlainWindow.numbers, List.intercalate_cons_cons]

/-! ### Whole queries -/

namespace PlainParts.Of

variable {p : PlainParts} {q : Query}

theorem headText (parts : p.Of q) (plain : q.Plain) :
    ∃ text, q.headText q.plainScope = .ok text ∧
      text.toList = p.loopText ++ layout (optionalClause "FILTER" " && "
        (p.equations.map fun e => filterText p.row e.1 e.2)) := by
  rcases segmentText_equations parts.equations_plain with ⟨filter, rendered, spelled⟩
  refine ⟨Query.loopText (Query.variableOf q.root.name 0) q.root.name ++ filter, ?_, ?_⟩
  · rw [Query.headText, parts.equations_eq, plain.noJoins, segmentText_search, rendered]
    simp [Query.plainScope, Query.joinsText, Bind.bind, Except.bind]
  · rw [String.toList_append, spelled, parts.row_eq]
    simp [loopText, Query.loopText, parts.row_eq, parts.name_eq]

/-- What the sort criteria and the window add to the head of a query. -/
theorem tailTexts (parts : p.Of q) :
    ∃ sort window, Query.sortText q.plainScope q.sorts = .ok sort ∧
      Query.windowText q.plainScope q.offset q.limit = .ok window ∧
      sort.toList ++ window.toList = layout
        (optionalClause "SORT" ", " (p.criteria.map (Statement.sortText p.row)) ++
          optionalClause "LIMIT" ", " (p.window.numbers.map digitsOf)) := by
  rcases sortText_criteria (q := q) parts.criteria_plain with ⟨sort, sorted, sortSpelled⟩
  rcases windowText_numbers q.plainScope p.window with ⟨window, windowed, windowSpelled⟩
  refine ⟨sort, window, ?_, ?_, ?_⟩
  · rw [parts.criteria_eq]
    exact sorted
  · rw [parts.offset_eq, parts.limit_eq]
    exact windowed
  · rw [sortSpelled, windowSpelled, parts.row_eq, layout_append]

/-- A query whose operation adds clauses to the plain ones is compiled to the loop
and all these clauses. -/
theorem compile_of_bodyText (parts : p.Of q) (plain : q.Plain) (added : List ClauseText)
    {operation : Operation} {sort window ending : String} {columns : List String}
    (clauses : sort.toList ++ window.toList = layout
      (optionalClause "SORT" ", " (p.criteria.map (Statement.sortText p.row)) ++
        optionalClause "LIMIT" ", " (p.window.numbers.map digitsOf)))
    (body : q.bodyText q.plainScope operation = .ok (sort ++ window ++ ending, columns))
    (spelled : ending.toList = layout added) :
    ∃ text, q.compile operation = .ok ⟨text, q.params, columns⟩ ∧
      text.toList = p.loopText ++ layout (p.clauses ++ added) := by
  rcases parts.headText plain with ⟨head, headRendered, headSpelled⟩
  refine ⟨head ++ (sort ++ window ++ ending), ?_, ?_⟩
  · simp only [Query.compile, Query.compileText, plain.scope_eq, headRendered, body, Bind.bind,
      Except.bind]
  · simp only [String.toList_append, headSpelled, clauses, spelled, PlainParts.clauses,
      layout_append, List.append_assoc]

end PlainParts.Of

theorem countP_isCount_fields (names : List String) :
    (names.map (Expr.field 0)).countP Expr.isCount = 0 := by
  rw [List.countP_eq_zero]
  intro e member
  rcases List.mem_map.mp member with ⟨name, _, rfl⟩
  simp [Expr.isCount]

theorem Query.expandRows_fields (q : Query) (names : List String) :
    q.expandRows (names.map (.field 0)) = .ok (names.map (.field 0)) := by
  induction names with
  | nil => rfl
  | cons name rest inductionHypothesis =>
      simp [expandRows, inductionHypothesis, Bind.bind, Except.bind]

theorem Query.resolveProjection_fields {q : Query} {names : List String} (nonempty : names ≠ [])
    (projection : q.projection = some (names.map (.field 0))) (s : Scope) :
    q.resolveProjection s = .ok (.fields (names.map (.field 0))) := by
  have noCount := countP_isCount_fields names
  have expanded := q.expandRows_fields names
  cases names with
  | nil => exact absurd rfl nonempty
  | cons name rest =>
      unfold Query.resolveProjection
      rw [projection, Option.getD_some]
      rw [List.map_cons] at noCount expanded ⊢
      simp [noCount, expanded, Except.map]

theorem Query.groupText_nil (s : Scope) (count : Option String) :
    Query.groupText s count [] = .ok ("", s) := rfl

namespace Query.Plain

variable {q : Query} {p : PlainParts}

/-- The text of a selection of fields. -/
theorem compile_select (plain : q.Plain) (parts : p.Of q) {names : List String}
    (nonempty : names ≠ []) (named : ∀ name ∈ names, isPlainName name = true)
    (projection : q.projection = some (names.map (.field 0))) :
    ∃ text columns, q.compile .select = .ok ⟨text, q.params, columns⟩ ∧
      text.toList = p.loopText ++ layout (p.clauses ++ [returnFields p.row names]) := by
  rcases parts.tailTexts with ⟨sort, window, sorted, windowed, clauses⟩
  rcases rowText_fields q.plainScope (variableOf q.root.name 0) rfl rfl named with
    ⟨row, rendered, spelled⟩
  have distinct : distinctText q.distinct = .ok "" := by
    rcases plain.notDistinct with same | same <;> rw [same] <;> rfl
  have body : q.bodyText q.plainScope .select =
      .ok (sort ++ window ++ (" RETURN " ++ row), columnsOf (names.map (.field 0))) := by
    rw [bodyText, selectText, resolveProjection_fields nonempty projection, plain.noGroups]
    simp only [groupText_nil, sorted, windowed, distinct, rendered, Bind.bind, Except.bind,
      String.empty_append, String.append_assoc]
  rcases parts.compile_of_bodyText plain [returnFields p.row names] clauses body
    (by simp [ClauseText.text, spelled, parts.row_eq]) with
    ⟨text, compiled, textSpelled⟩
  exact ⟨text, _, compiled, textSpelled⟩

/-- The text of a count. -/
theorem compile_count (plain : q.Plain) (parts : p.Of q)
    (projection : q.projection = some [.countRows]) :
    ∃ text columns, q.compile .select = .ok ⟨text, q.params, columns⟩ ∧
      text.toList = p.loopText ++ layout (p.clauses ++ returnCount) := by
  rcases parts.tailTexts with ⟨sort, window, sorted, windowed, clauses⟩
  have body : q.bodyText q.plainScope .select =
      .ok (sort ++ window ++ (" COLLECT WITH COUNT INTO total RETURN total"), ["total"]) := by
    have resolved : q.resolveProjection q.plainScope = .ok (.count "total") := by
      simp [resolveProjection, projection, Expr.isCount, countName, Except.map]
    rw [bodyText, selectText, resolved, plain.noGroups]
    simp only [groupText_nil, sorted, windowed, Bind.bind, Except.bind, String.empty_append,
      List.isEmpty_nil, if_true, String.append_assoc]
    rfl
  rcases parts.compile_of_bodyText plain returnCount clauses body (by decide) with
    ⟨text, compiled, textSpelled⟩
  exact ⟨text, _, compiled, textSpelled⟩

/-- The text of a removal. -/
theorem compile_delete (plain : q.Plain) (parts : p.Of q) {returned : Option (List String)}
    (removes : q.Removes returned) :
    ∃ text columns, q.compile .delete = .ok ⟨text, q.params, columns⟩ ∧
      text.toList = p.loopText ++
        layout (p.clauses ++ removeRows p.row p.name :: returnRemoved returned) := by
  rcases parts.tailTexts with ⟨sort, window, sorted, windowed, clauses⟩
  have mutable : q.ensureMutable .delete = .ok () := by
    simp [ensureMutable, sources, plain.noJoins, plain.overCollection, plain.noGroups]
  rcases removes with ⟨projection, named⟩
  have returning : ∃ text columns, q.returningText q.plainScope "OLD" = .ok (text, columns) ∧
      text.toList = layout (returnRemoved returned) := by
    cases returned with
    | none =>
        rw [Option.map_none] at projection
        exact ⟨"", [], by simp [returningText, projection], rfl⟩
    | some names =>
        rcases named names rfl with ⟨nonempty, fieldsPlain⟩
        rcases rowText_fields { q.plainScope with returned := some "OLD" } "OLD"
          rfl rfl fieldsPlain with ⟨row, rendered, spelled⟩
        refine ⟨" RETURN " ++ row, columnsOf (names.map (.field 0)), ?_, ?_⟩
        · rw [Option.map_some] at projection
          rw [returningText, resolveProjection_fields nonempty projection, projection]
          simp [rendered, Bind.bind, Except.bind]
        · simp [returnRemoved, ClauseText.text, spelled]
  rcases returning with ⟨answer, columns, answerRendered, answerSpelled⟩
  have body : q.bodyText q.plainScope .delete = .ok (sort ++ window ++
      (" REMOVE " ++ variableOf q.root.name 0 ++ " IN `" ++ q.root.name ++ "`" ++ answer),
        columns) := by
    rw [bodyText, deleteText, mutable, sorted, windowed, answerRendered]
    simp [Bind.bind, Except.bind, String.append_assoc]
  rcases parts.compile_of_bodyText plain
    (removeRows p.row p.name :: returnRemoved returned) clauses body
    (by simp [ClauseText.text, parts.row_eq, parts.name_eq, answerSpelled]) with
    ⟨text, compiled, textSpelled⟩
  exact ⟨text, columns, compiled, textSpelled⟩

end Query.Plain

end DocStore
