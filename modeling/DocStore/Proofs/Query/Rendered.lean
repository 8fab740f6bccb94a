/-
Module: DocStore.Proofs.Query.Rendered
Purpose: queries that the store in memory can tell from all others, and what the clauses of
  such a query are written as.
Main exports:
  Statement.Unmixed, Query.Legible, SelectionText.Of, Query.Legible.exists_text
-/
import DocStore.Proofs.Query.Meaning
import DocStore.Proofs.Query.Quoted
import DocStore.Proofs.Query.Quoting
import DocStore.Proofs.Query.Selection

namespace DocStore

open Text Statement

namespace Statement

/-- The two sides of an equation, without the parentheses around it. -/
def sides? (piece : List Char) : Option (List Char × List Char) :=
  splitOnce? " == ".toList (trimTrailing ')' (trimLeading '(' piece))

/-- What the store takes for one name or for one text in quotes, in the conditions and criteria
of a query, is one. -/
structure Unmixed (row aql : List Char) : Prop where
  fields : ∀ body ∈ clause? " FILTER " aql, ∀ piece ∈ splitAll " && ".toList body,
    ∀ sides ∈ sides? piece, ∀ name ∈ readField? row sides.1, '`' ∉ name.toList
  texts : ∀ body ∈ clause? " FILTER " aql, ∀ piece ∈ splitAll " && ".toList body,
    ∀ sides ∈ sides? piece, (readQuoted? (trim sides.2)).isSome → Quoted (trim sides.2)
  keys : ∀ body ∈ clause? " SORT " aql, ∀ piece ∈ splitAll ", ".toList body,
    ∀ sort ∈ readSort? row piece, '`' ∉ sort.field.toList

instance (row aql : List Char) : Decidable (Unmixed row aql) :=
  decidable_of_iff
    ((∀ body ∈ clause? " FILTER " aql, ∀ piece ∈ splitAll " && ".toList body,
        ∀ sides ∈ sides? piece, ∀ name ∈ readField? row sides.1, '`' ∉ name.toList) ∧
      (∀ body ∈ clause? " FILTER " aql, ∀ piece ∈ splitAll " && ".toList body,
        ∀ sides ∈ sides? piece, (readQuoted? (trim sides.2)).isSome → Quoted (trim sides.2)) ∧
      ∀ body ∈ clause? " SORT " aql, ∀ piece ∈ splitAll ", ".toList body,
        ∀ sort ∈ readSort? row piece, '`' ∉ sort.field.toList)
    ⟨fun ⟨fields, texts, keys⟩ => ⟨fields, texts, keys⟩,
      fun unmixed => ⟨unmixed.fields, unmixed.texts, unmixed.keys⟩⟩

end Statement

/-- A query over one collection that the store in memory looks at in full and that it takes
for no other: it has no search conditions and asks for no distinct rows, it returns fields,
its names and texts contain nothing that the store searches a query for, and the store mixes
up no names or texts. -/
structure Query.Legible (q : Query) : Prop where
  noJoins : q.joins = []
  filtersOnly : ∀ c ∈ q.clauses, c.segment = .filter
  notDistinct : q.isDistinct = false
  name_unmarked : Unmarked q.root.name.toList
  conditions_legible : ∀ c ∈ q.clauses, c.condition.Legible
  groups_silent : ∀ source name, .field source name ∈ q.groups → Silent ('_' :: name.toList)
  keys_legible : ∀ t ∈ q.sorts, t.key.Legible
  offset_legible : ∀ e ∈ q.offset, e.Legible
  limit_legible : ∀ e ∈ q.limit, e.Legible
  returns_fields : ∃ exprs, q.projection = some exprs ∧ ∀ e ∈ exprs, ∃ source name,
    e = .field source name ∧ Unmarked name.toList
  unmixed : ∀ compiled, q.compile .select = .ok compiled →
    Unmixed q.rowChars compiled.text.toList

/-- Texts between separators, if there are any. -/
def joinedBy (separator : String) (texts : List String) : Option (List Char) :=
  if texts.isEmpty then none else some (separator.toList.intercalate (texts.map String.toList))

/-- The conditions of a query as they are written, if there are any. -/
inductive FilterText (s : Scope) : List Clause → Option (List Char) → Prop where
  | none : FilterText s [] none
  | some {first : Clause} {rest : List Clause} {condition text : String}
      (rendered : first.condition.render s = .ok condition)
      (folded : Query.foldClauses s first.connective (parens condition) rest = .ok text) :
      FilterText s (first :: rest) (some text.toList)

namespace SelectionText

/-- The clauses say what a query asks for; after grouping, names are those of a scope. -/
structure Of (t : SelectionText) (q : Query) (s : Scope) (exprs : List Expr) : Prop where
  filter : FilterText q.plainScope q.clauses t.filter
  group : (q.groups = [] ∧ s = q.plainScope) ∨ (q.groups ≠ [] ∧
    ∀ {source : Nat} {name text : String}, s.field source name = .ok text → '`' ∉ text.toList)
  sort : ∃ texts, Query.sortTexts s q.sorts = .ok texts ∧ t.sort = joinedBy ", " texts
  window : ∃ texts, Expr.renderAll s (q.offset.toList ++ q.limit.toList) = .ok texts ∧
    t.window = joinedBy ", " texts
  limited : q.offset.isSome = true → q.limit.isSome = true
  row : ∃ texts, Expr.renderAll s exprs = .ok texts ∧
    t.row = "[ ".toList ++ (", ".toList.intercalate (texts.map String.toList) ++ " ]".toList)

end SelectionText

theorem Query.foldClauses_smooth {s : Scope} (scope : s.Smooth) {clauses : List Clause}
    (legible : ∀ c ∈ clauses, c.condition.Legible) {connective : Connective}
    {before text : String} (smooth : Smooth before.toList)
    (is : foldClauses s connective before clauses = .ok text) : Smooth text.toList := by
  induction clauses generalizing connective before with
  | nil =>
      cases is
      exact smooth
  | cons c rest inductionHypothesis =>
      rw [foldClauses] at is
      rcases exceptBind_eq_ok_iff.mp is with ⟨condition, rendered, folded⟩
      have own := (legible c List.mem_cons_self).smooth_render scope rendered
      refine inductionHypothesis (fun d member => legible d (List.mem_cons_of_mem _ member)) ?_
        folded
      have front : Smooth (if c.connective = connective then before else parens before).toList := by
        split
        · exact smooth
        · exact Expr.smooth_parens smooth.silent
      have sign : Silent (c.connective.symbol.toList ++ (parens condition).toList) := by
        have spelled : ∃ symbol, c.connective.symbol.toList = symbol ++ [' '] ∧ Silent symbol := by
          cases c.connective
          · exact ⟨" &&".toList, rfl, silent_of_rulesOut (by decide)⟩
          · exact ⟨" ||".toList, rfl, silent_of_rulesOut (by decide)⟩
        rcases spelled with ⟨symbol, spelled, silent⟩
        rw [spelled, List.append_assoc]
        exact silent_append silent (Expr.smooth_parens own.silent).silent_space
      rw [String.toList_append, String.toList_append, List.append_assoc]
      exact front.append sign

theorem FilterText.smooth {s : Scope} (scope : s.Smooth) {clauses : List Clause}
    {body : Option (List Char)} (filter : FilterText s clauses body)
    (legible : ∀ c ∈ clauses, c.condition.Legible) : ∀ text ∈ body, Smooth text := by
  cases filter with
  | none => simp
  | some rendered folded =>
      intro text member
      cases member
      rw [List.forall_mem_cons] at legible
      exact Query.foldClauses_smooth scope legible.2
        (Expr.smooth_parens (legible.1.smooth_render scope rendered).silent) folded

theorem silent_joinedBy {texts : List String} (each : ∀ text ∈ texts, Smooth text.toList) :
    ∀ body ∈ joinedBy ", " texts, Silent (' ' :: body) := by
  intro body member
  unfold joinedBy at member
  split at member
  · cases member
  · next some_text =>
      cases member
      have comma : Silent [','] := silent_of_rulesOut (by decide)
      refine silent_intercalate [' '] (by simpa using some_text) (fun piece inPieces => ?_)
        fun piece inPieces => ?_
      · rcases List.mem_map.mp inPieces with ⟨text, inTexts, rfl⟩
        exact (each text inTexts).silent_space
      · rcases List.mem_map.mp inPieces with ⟨text, inTexts, rfl⟩
        have whole := silent_append comma (each text inTexts).silent_space
        exact whole

theorem Query.sortTexts_smooth {s : Scope} (scope : s.Smooth) {sorts : List SortTerm}
    (legible : ∀ t ∈ sorts, t.key.Legible) {texts : List String}
    (is : sortTexts s sorts = .ok texts) : ∀ text ∈ texts, Smooth text.toList := by
  induction sorts generalizing texts with
  | nil =>
      cases is
      simp
  | cons t rest inductionHypothesis =>
      rw [sortTexts] at is
      rcases exceptBind_eq_ok_iff.mp is with ⟨key, rendered, is⟩
      rcases exceptBind_eq_ok_iff.mp is with ⟨others, othersRendered, same⟩
      cases same
      have own := (legible t List.mem_cons_self).smooth_render scope rendered
      refine List.forall_mem_cons.mpr ⟨?_, inductionHypothesis
        (fun other member => legible other (List.mem_cons_of_mem _ member)) othersRendered⟩
      split
      · rw [String.toList_append]
        exact own.append (silent_of_rulesOut (by decide))
      · exact own

/-! ### Groups -/

/-- The group variables and their texts: each is named after the rows and a field. -/
theorem Query.groupTerms_spec {q : Query} {groups : List Expr}
    (silent : ∀ source name, .field source name ∈ groups → Silent ('_' :: name.toList))
    {terms : List (GroupVariable × String)} (is : groupTerms q.plainScope groups = .ok terms) :
    ∀ term ∈ terms, Smooth term.2.toList ∧
      (∃ rest, term.2.toList = q.rowChars ++ '_' :: rest) ∧
      ∃ name : List Char, term.1.name.toList = q.rowChars ++ '_' :: name ∧
        '`' ∉ name ∧ Silent ('_' :: name) := by
  induction groups generalizing terms with
  | nil =>
      cases is
      simp
  | cons e rest inductionHypothesis =>
      cases e with
      | field source name =>
          rw [groupTerms] at is
          rcases exceptBind_eq_ok_iff.mp is with ⟨row, rowFound, is⟩
          rcases exceptBind_eq_ok_iff.mp is with ⟨text, rendered, is⟩
          rcases exceptBind_eq_ok_iff.mp is with ⟨others, othersRendered, same⟩
          cases same
          have own := silent source name List.mem_cons_self
          have rowText : row.toList = q.rowChars := by
            cases source with
            | zero =>
                cases rowFound
                rfl
            | succ source => cases rowFound
          rcases Query.field_plainScope rendered with ⟨noBacktick, fieldSpelled⟩
          have unmarked : Unmarked name.toList := fun pattern member =>
            containsPattern_eq_false_of_clear (own pattern member []).2
          have named : (row ++ "_" ++ name).toList = q.rowChars ++ '_' :: name.toList := by
            simp [rowText]
          have spelled : ((row ++ "_" ++ name) ++ " = " ++ text).toList = q.rowChars ++
              ('_' :: name.toList ++ (" =".toList ++ (' ' :: fieldText q.rowChars name))) := by
            simp [rowText, fieldSpelled]
          refine List.forall_mem_cons.mpr ⟨⟨?_, ?_, ?_⟩, inductionHypothesis
            (fun s n member => silent s n (List.mem_cons_of_mem _ member)) othersRendered⟩
          · rw [spelled]
            have sign : Silent " =".toList := silent_of_rulesOut (by decide)
            exact (smooth_of_rowVariable q.rowVariable_rowChars).append (silent_append own
              (silent_append sign (smooth_fieldText q.rowVariable_rowChars unmarked).silent_space))
          · rw [spelled]
            exact ⟨_, rfl⟩
          · exact ⟨name.toList, named, noBacktick, own⟩
      | _ => cases is

theorem Query.groupTerms_ne_nil {s : Scope} {groups : List Expr} (some_group : groups ≠ [])
    {terms : List (GroupVariable × String)} (is : groupTerms s groups = .ok terms) :
    terms ≠ [] := by
  rintro rfl
  cases groups with
  | nil => exact some_group rfl
  | cons e rest =>
      cases e with
      | field source name =>
          rw [groupTerms] at is
          rcases exceptBind_eq_ok_iff.mp is with ⟨_, _, is⟩
          rcases exceptBind_eq_ok_iff.mp is with ⟨_, _, is⟩
          rcases exceptBind_eq_ok_iff.mp is with ⟨_, _, same⟩
          cases same
      | _ => cases is

/-- Texts that begin like a row are no count. -/
theorem Query.still_joined {q : Query} {texts : List String} (some_text : texts ≠ [])
    (smooth : ∀ text ∈ texts, Smooth text.toList)
    (begins : ∀ text ∈ texts, ∃ rest, text.toList = q.rowChars ++ '_' :: rest) :
    Silent (' ' :: ", ".toList.intercalate (texts.map String.toList)) ∧
      ∃ c rest, ", ".toList.intercalate (texts.map String.toList) = c :: rest ∧ c ≠ 'W' := by
  cases texts with
  | nil => exact absurd rfl some_text
  | cons text texts =>
      refine ⟨silent_joinedBy smooth _ rfl, ?_⟩
      rcases begins text List.mem_cons_self with ⟨tail, spelled⟩
      rcases q.rowVariable_rowChars with ⟨letter, lower, row⟩
      rw [List.map_cons, intercalate_cons_eq_append_flatMap, spelled, row]
      refine ⟨letter, _, rfl, fun same => ?_⟩
      subst same
      cases lower

theorem Query.groupText_spec {q : Query}
    (silent : ∀ source name, .field source name ∈ q.groups → Silent ('_' :: name.toList))
    {text : String} {s : Scope} (is : groupText q.plainScope none q.groups = .ok (text, s)) :
    s.Smooth ∧ ((q.groups = [] ∧ s = q.plainScope) ∨ (q.groups ≠ [] ∧
      ∀ {source : Nat} {name text : String}, s.field source name = .ok text → '`' ∉ text.toList)) ∧
    ∃ body, text.toList = layout (clauseOf "COLLECT" body) ∧
      ∀ chars ∈ body, Silent (' ' :: chars) ∧ ∃ c rest, chars = c :: rest ∧ c ≠ 'W' := by
  by_cases none_given : q.groups = []
  · rw [groupText, none_given] at is
    cases is
    exact ⟨q.smooth_plainScope, .inl ⟨none_given, rfl⟩, none, rfl, by simp⟩
  · rw [groupText, if_neg (by simpa using none_given)] at is
    rcases exceptBind_eq_ok_iff.mp is with ⟨terms, rendered, same⟩
    cases same
    have each := groupTerms_spec silent rendered
    have named : ∀ v ∈ terms.map Prod.fst, ∃ name : List Char,
        v.name.toList = q.rowChars ++ '_' :: name ∧ '`' ∉ name ∧ Silent ('_' :: name) := by
      intro v member
      rcases List.mem_map.mp member with ⟨term, inTerms, rfl⟩
      exact (each term inTerms).2.2
    have written : ∀ text ∈ terms.map Prod.snd, Smooth text.toList ∧
        ∃ rest, text.toList = q.rowChars ++ '_' :: rest := by
      intro text member
      rcases List.mem_map.mp member with ⟨term, inTerms, rfl⟩
      exact ⟨(each term inTerms).1, (each term inTerms).2.1⟩
    have some_text : terms.map Prod.snd ≠ [] := by
      simpa using groupTerms_ne_nil none_given rendered
    refine ⟨?_, .inr ⟨none_given, ?_⟩,
      some (", ".toList.intercalate ((terms.map Prod.snd).map String.toList)), ?_, ?_⟩
    · refine q.smooth_grouped fun v member => ?_
      rcases named v member with ⟨name, spelled, _, still⟩
      exact ⟨name, spelled, still⟩
    · intro source name text is
      rcases Scope.field_cases is with ⟨_, ⟨ungrouped, _⟩ | ⟨_, v, grouped, member, _, rfl⟩⟩
      · cases ungrouped
      · cases grouped
        rcases named v member with ⟨name, spelled, noBacktick, _⟩
        have inRow : '`' ∉ q.rowChars := q.rowVariable_rowChars.notMem (by decide) (by decide)
        simp [spelled, inRow, noBacktick]
    · simp [clauseOf, ClauseText.text, toList_join]
    · intro chars member
      cases member
      exact still_joined some_text (fun text member => (written text member).1)
        fun text member => (written text member).2

/-! ### The whole text -/

namespace Query

theorem scope_eq_plainScope {q : Query} (noJoins : q.joins = []) {s : Scope}
    (is : q.scope = .ok s) : s = q.plainScope ∧ '`' ∉ q.root.name.toList := by
  rcases scope_eq_ok_iff.mp is with ⟨named, rfl⟩
  refine ⟨?_, noBacktick_of_isSourceName (named q.root List.mem_cons_self)⟩
  simp [plainScope, rowVariables, sources, noJoins]

theorem segmentText_filter {s : Scope} {clauses : List Clause} {text : String}
    (all : ∀ c ∈ clauses, c.segment = .filter)
    (is : segmentText s " FILTER " .filter clauses = .ok text) :
    ∃ body, FilterText s clauses body ∧ text.toList = layout (clauseOf "FILTER" body) := by
  have kept : clauses.filter (fun c => c.segment == .filter) = clauses := by
    rw [List.filter_eq_self]
    intro c member
    simp [all c member]
  rw [segmentText, kept] at is
  cases clauses with
  | nil =>
      cases is
      exact ⟨none, .none, rfl⟩
  | cons first rest =>
      simp only at is
      rcases exceptBind_eq_ok_iff.mp is with ⟨condition, rendered, is⟩
      rcases exceptBind_eq_ok_iff.mp is with ⟨text, folded, same⟩
      cases same
      refine ⟨some text.toList, .some rendered folded, ?_⟩
      simp [clauseOf, ClauseText.text]

theorem segmentText_search_of_filters {s : Scope} {clauses : List Clause}
    (all : ∀ c ∈ clauses, c.segment = .filter) :
    segmentText s " SEARCH " .search clauses = .ok "" := by
  have none_left : clauses.filter (fun c => c.segment == .search) = [] := by
    rw [List.filter_eq_nil_iff]
    intro c member
    simp [all c member]
  rw [segmentText, none_left]

theorem sortText_spec {s : Scope} {sorts : List SortTerm} {text : String}
    (is : sortText s sorts = .ok text) : ∃ texts, sortTexts s sorts = .ok texts ∧
      text.toList = layout (clauseOf "SORT" (joinedBy ", " texts)) := by
  unfold sortText at is
  split at is
  · next empty =>
      cases is
      rw [List.isEmpty_iff.mp empty]
      exact ⟨[], rfl, rfl⟩
  · next some_term =>
      rcases exceptBind_eq_ok_iff.mp is with ⟨texts, rendered, same⟩
      cases same
      refine ⟨texts, rendered, ?_⟩
      have nonempty : texts ≠ [] := by
        rintro rfl
        cases sorts with
        | nil => exact some_term rfl
        | cons t rest =>
            rw [sortTexts] at rendered
            rcases exceptBind_eq_ok_iff.mp rendered with ⟨_, _, rendered⟩
            rcases exceptBind_eq_ok_iff.mp rendered with ⟨_, _, same⟩
            cases same
      simp [joinedBy, nonempty, clauseOf, ClauseText.text, toList_join]

theorem windowText_spec {s : Scope} {offset limit : Option Expr} {text : String}
    (is : windowText s offset limit = .ok text) :
    (offset.isSome = true → limit.isSome = true) ∧
    ∃ texts, Expr.renderAll s (offset.toList ++ limit.toList) = .ok texts ∧
      text.toList = layout (clauseOf "LIMIT" (joinedBy ", " texts)) := by
  cases offset with
  | none =>
      cases limit with
      | none =>
          cases is
          exact ⟨by simp, [], rfl, rfl⟩
      | some limit =>
          rw [windowText] at is
          rcases exceptBind_eq_ok_iff.mp is with ⟨kept, rendered, same⟩
          cases same
          refine ⟨by simp, [kept], ?_, ?_⟩
          · simp [Expr.renderAll, rendered, Bind.bind, Except.bind]
          · simp [joinedBy, clauseOf, ClauseText.text]
  | some offset =>
      cases limit with
      | none => cases is
      | some limit =>
          rw [windowText] at is
          rcases exceptBind_eq_ok_iff.mp is with ⟨skipped, rendered, is⟩
          rcases exceptBind_eq_ok_iff.mp is with ⟨kept, rendered', same⟩
          cases same
          refine ⟨by simp, [skipped, kept], ?_, ?_⟩
          · simp [Expr.renderAll, rendered, rendered', Bind.bind, Except.bind]
          · simp [joinedBy, clauseOf, ClauseText.text, List.intercalate_cons_cons]

/-- A row of expressions that are written smoothly. -/
theorem silent_row {texts : List String} (each : ∀ text ∈ texts, Smooth text.toList) :
    Silent (' ' :: ("[ ".toList ++ (", ".toList.intercalate (texts.map String.toList) ++
      " ]".toList))) := by
  cases texts with
  | nil => exact silent_of_rulesOut (by decide)
  | cons text rest =>
      have opening : Silent " [".toList := silent_of_rulesOut (by decide)
      have closing : Silent " ]".toList := silent_of_rulesOut (by decide)
      have inner := silent_joinedBy each _ rfl
      exact silent_append opening (silent_append inner closing)

theorem resolveProjection_of_fields {q : Query} {s : Scope} {exprs : List Expr}
    (requested : q.projection = some exprs)
    (fields : ∀ e ∈ exprs, ∃ source name, e = .field source name ∧ Unmarked name.toList)
    {projection : Projection} (is : q.resolveProjection s = .ok projection) :
    projection = .fields exprs := by
  have uncounted : exprs.countP Expr.isCount = 0 := by
    rw [List.countP_eq_zero]
    intro e member
    rcases fields e member with ⟨source, name, rfl, _⟩
    simp [Expr.isCount]
  have expanded : q.expandRows exprs = .ok exprs := by
    clear is uncounted requested
    induction exprs with
    | nil => rfl
    | cons e rest inductionHypothesis =>
        have others := inductionHypothesis fun other member =>
          fields other (List.mem_cons_of_mem _ member)
        rcases fields e List.mem_cons_self with ⟨source, name, rfl, _⟩
        simp [expandRows, others, Bind.bind, Except.bind]
  unfold resolveProjection at is
  rw [requested, Option.getD_some] at is
  cases exprs with
  | nil => cases is
  | cons e rest =>
      simp only [uncounted, if_true, expanded, Except.map] at is
      cases is
      rfl

theorem headText_of_filters {q : Query} (noJoins : q.joins = [])
    (filtersOnly : ∀ c ∈ q.clauses, c.segment = .filter) {text : String}
    (is : q.headText q.plainScope = .ok text) : ∃ body, FilterText q.plainScope q.clauses body ∧
      text.toList = q.loopChars ++ layout (clauseOf "FILTER" body) := by
  rw [headText, noJoins, segmentText_search_of_filters filtersOnly] at is
  rcases exceptBind_eq_ok_iff.mp is with ⟨joins, joined, is⟩
  rcases exceptBind_eq_ok_iff.mp is with ⟨search, searched, is⟩
  rcases exceptBind_eq_ok_iff.mp is with ⟨filter, filtered, same⟩
  cases same
  rw [List.zip_nil_right] at joined
  cases joined
  cases searched
  rcases segmentText_filter filtersOnly filtered with ⟨body, filters, filterText⟩
  refine ⟨body, filters, ?_⟩
  simp [filterText, loopText, loopChars, rowChars]

theorem distinctText_of_not_isDistinct {q : Query} (notDistinct : q.isDistinct = false)
    {text : String} (is : distinctText q.distinct = .ok text) : text = "" := by
  unfold isDistinct at notDistinct
  unfold distinctText at is
  split at is
  · cases is
    rfl
  · cases is
    rfl
  · next asked =>
      rw [asked] at notDistinct
      cases notDistinct
  · cases is

theorem Legible.window_legible {q : Query} (legible : q.Legible) :
    ∀ e ∈ q.offset.toList ++ q.limit.toList, e.Legible := by
  intro e member
  rcases List.mem_append.mp member with inOffset | inLimit
  · exact legible.offset_legible e (Option.mem_toList.mp inOffset)
  · exact legible.limit_legible e (Option.mem_toList.mp inLimit)

/-- What a legible query asks for is written without anything that a query is searched
for. -/
theorem Legible.still {q : Query} (legible : q.Legible) {t : SelectionText} {s : Scope}
    {exprs : List Expr} (requested : q.projection = some exprs) (of : t.Of q s exprs)
    (smooth : s.Smooth) (groups : ∀ body ∈ t.group, Silent (' ' :: body) ∧
      ∃ c rest, body = c :: rest ∧ c ≠ 'W') : t.Still := by
  have conditions := of.filter.smooth q.smooth_plainScope legible.conditions_legible
  have counts := Expr.allLegible_of_forall legible.window_legible
  have rows : Expr.AllLegible exprs := by
    rcases legible.returns_fields with ⟨_, returned, fields⟩
    cases requested.symm.trans returned
    refine Expr.allLegible_of_forall fun e member => ?_
    rcases fields e member with ⟨source, name, rfl, unmarked⟩
    exact .field source unmarked
  rcases of.sort with ⟨sortTexts, sortRendered, sortWritten⟩
  rcases of.window with ⟨windowTexts, windowRendered, windowWritten⟩
  rcases of.row with ⟨rowTexts, rowRendered, rowWritten⟩
  constructor
  case filter => exact fun body member => (conditions body member).silent_space
  case group => exact fun body member => (groups body member).1
  case sort =>
    rw [sortWritten]
    exact silent_joinedBy (sortTexts_smooth smooth legible.keys_legible sortRendered)
  case window =>
    rw [windowWritten]
    exact silent_joinedBy (counts.smooth_renderAll smooth windowRendered)
  case row =>
    rw [rowWritten]
    exact silent_row (rows.smooth_renderAll smooth rowRendered)
  case uncounted => exact fun body member => (groups body member).2

/-- A legible query is written as a loop and clauses that say what it asks for. -/
theorem Legible.exists_text {q : Query} (legible : q.Legible) {compiled : CompiledQuery}
    (is : q.compile .select = .ok compiled) :
    '`' ∉ q.root.name.toList ∧ compiled.params = q.params ∧
      ∃ (t : SelectionText) (s : Scope) (exprs : List Expr),
        q.projection = some exprs ∧ t.Of q s exprs ∧ t.Still ∧
        compiled.text.toList = q.loopChars ++ layout t.clauses := by
  unfold compile at is
  split at is
  case h_2 => cases is
  next text columns compiledText =>
  cases is
  rw [compileText] at compiledText
  rcases exceptBind_eq_ok_iff.mp compiledText with ⟨scope, opened, compiledText⟩
  rcases scope_eq_plainScope legible.noJoins opened with ⟨rfl, noBacktick⟩
  rcases exceptBind_eq_ok_iff.mp compiledText with ⟨head, headed, compiledText⟩
  rcases exceptBind_eq_ok_iff.mp compiledText with ⟨⟨body, bodyColumns⟩, bodied, same⟩
  cases same
  rcases headText_of_filters legible.noJoins legible.filtersOnly headed with
    ⟨filterBody, filters, headText⟩
  rcases legible.returns_fields with ⟨exprs, requested, fields⟩
  rw [bodyText, selectText] at bodied
  rcases exceptBind_eq_ok_iff.mp bodied with ⟨projection, resolved, bodied⟩
  cases resolveProjection_of_fields requested fields resolved
  rcases exceptBind_eq_ok_iff.mp bodied with ⟨⟨group, s⟩, grouped, bodied⟩
  rcases groupText_spec legible.groups_silent grouped with
    ⟨smoothScope, groups, groupBody, groupText, groupStill⟩
  rcases exceptBind_eq_ok_iff.mp bodied with ⟨sort, sorted, bodied⟩
  rcases sortText_spec sorted with ⟨sortTexts, sortRendered, sortText⟩
  rcases exceptBind_eq_ok_iff.mp bodied with ⟨window, windowed, bodied⟩
  rcases windowText_spec windowed with ⟨limited, windowTexts, windowRendered, windowText⟩
  rcases exceptBind_eq_ok_iff.mp bodied with ⟨distinct, distinctWritten, bodied⟩
  cases distinctText_of_not_isDistinct legible.notDistinct distinctWritten
  rcases exceptBind_eq_ok_iff.mp bodied with ⟨row, rowWritten, same⟩
  cases same
  rw [rowText] at rowWritten
  rcases exceptBind_eq_ok_iff.mp rowWritten with ⟨rowTexts, rowRendered, same⟩
  cases same
  let t : SelectionText := ⟨filterBody, groupBody, joinedBy ", " sortTexts,
    joinedBy ", " windowTexts,
    "[ ".toList ++ (", ".toList.intercalate (rowTexts.map String.toList) ++ " ]".toList)⟩
  have of : t.Of q s exprs := ⟨filters, groups, ⟨_, sortRendered, rfl⟩, ⟨_, windowRendered, rfl⟩,
    limited, ⟨_, rowRendered, rfl⟩⟩
  refine ⟨noBacktick, rfl, t, s, exprs, requested, of,
    legible.still requested of smoothScope groupStill, ?_⟩
  simp only [String.toList_append, headText, groupText, sortText, windowText]
  simp [t, SelectionText.clauses, ClauseText.text, toList_join]

end Query

end DocStore
