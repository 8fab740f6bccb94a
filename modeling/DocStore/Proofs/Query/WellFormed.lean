/-
Module: DocStore.Proofs.Query.WellFormed
Purpose: whatever compiles is well formed: its sources, its joins, its window and what it
  changes are allowed, and all that is written of its expressions, at every depth, refers to
  sources and parameters that there are.
Main exports:
  Expr.Contains, Expr.Admissible, Query.Written, Query.WellFormed, CompiledQuery.Binds,
  Query.wellFormed_of_compile
-/
import DocStore.Proofs.Dict.Order
import DocStore.Proofs.Query.Scoped
import DocStore.Proofs.Text.Decimal

namespace DocStore

/-! ### Parts of expressions -/

namespace Expr

/-- The expressions that the text of an expression is put together from.  What is looked for
in the empty list is not written. -/
def parts : Expr → List Expr
  | list items => items
  | binary _ left right => [left, right]
  | not operand => [operand]
  | member _ (list []) => [list []]
  | member item collection => [item, collection]
  | isNull operand => [operand]
  | call _ arguments => arguments
  | fragment pieces => pieces
  | countOf target => [target]
  | _ => []

/-- An expression is written as a part of another one, at some depth, or is all of it. -/
inductive Contains : Expr → Expr → Prop where
  | itself (e : Expr) : Contains e e
  | inside {e part sub : Expr} (isPart : part ∈ e.parts) (deeper : Contains part sub) :
      Contains e sub

/-- What holds of an expression in a query, apart from what holds of its parts. -/
def Admissible (q : Query) : Expr → Prop
  | field source name => source < q.sources.length ∧ '`' ∉ name.toList
  | row source => source < q.sources.length
  | param index => index < q.params.length
  | literal (.float value) => value.isFinite = true
  | countRows => False
  | countOf _ => False
  | _ => True

/-- All that is written of an expression is admissible. -/
def WellFormed (q : Query) (e : Expr) : Prop :=
  ∀ part, e.Contains part → part.Admissible q

/-- An expression has a text. -/
def Renders (s : Scope) (e : Expr) : Prop :=
  ∃ text, e.render s = .ok text

variable {s : Scope} {q : Query}

theorem renders_of_renderAll {es : List Expr} {texts : List String}
    (are : renderAll s es = .ok texts) : ∀ e ∈ es, e.Renders s := by
  induction es generalizing texts with
  | nil => exact List.forall_mem_nil _
  | cons e rest inductionHypothesis =>
      obtain ⟨text, isText, made⟩ := exceptBind_eq_ok_iff.mp are
      obtain ⟨more, areMore, _⟩ := exceptBind_eq_ok_iff.mp made
      exact List.forall_mem_cons.mpr ⟨⟨text, isText⟩, inductionHypothesis areMore⟩

theorem parts_member {item collection : Expr} (filled : collection ≠ .list []) :
    (member item collection).parts = [item, collection] := by
  rw [parts]
  rintro rfl
  exact filled rfl

/-- What has a text has it from the texts of its parts. -/
theorem Renders.of_parts {e part : Expr} (renders : e.Renders s) (isPart : part ∈ e.parts) :
    part.Renders s := by
  obtain ⟨text, is⟩ := renders
  cases e with
  | list items =>
      obtain ⟨texts, are, _⟩ := exceptBind_eq_ok_iff.mp is
      exact renders_of_renderAll are part isPart
  | binary op left right =>
      obtain ⟨l, isLeft, made⟩ := exceptBind_eq_ok_iff.mp is
      obtain ⟨r, isRight, _⟩ := exceptBind_eq_ok_iff.mp made
      obtain rfl | rfl : part = left ∨ part = right := by simpa [parts] using isPart
      · exact ⟨l, isLeft⟩
      · exact ⟨r, isRight⟩
  | not operand =>
      obtain ⟨inner, isInner, _⟩ := exceptBind_eq_ok_iff.mp is
      obtain rfl := List.mem_singleton.mp isPart
      exact ⟨inner, isInner⟩
  | member item collection =>
      by_cases empty : collection = .list []
      · subst empty
        obtain rfl := List.mem_singleton.mp isPart
        exact ⟨"[]", rfl⟩
      · rw [render_member empty] at is
        rw [parts_member empty] at isPart
        obtain ⟨l, isItem, made⟩ := exceptBind_eq_ok_iff.mp is
        obtain ⟨r, isCollection, _⟩ := exceptBind_eq_ok_iff.mp made
        obtain rfl | rfl : part = item ∨ part = collection := by simpa using isPart
        · exact ⟨l, isItem⟩
        · exact ⟨r, isCollection⟩
  | isNull operand =>
      obtain ⟨inner, isInner, _⟩ := exceptBind_eq_ok_iff.mp is
      obtain rfl := List.mem_singleton.mp isPart
      exact ⟨inner, isInner⟩
  | call function arguments =>
      obtain ⟨texts, are, _⟩ := exceptBind_eq_ok_iff.mp is
      exact renders_of_renderAll are part isPart
  | fragment pieces =>
      obtain ⟨texts, are, _⟩ := exceptBind_eq_ok_iff.mp is
      exact renders_of_renderAll are part isPart
  | countOf target => cases is
  | _ => cases isPart

theorem Renders.of_contains {e sub : Expr} (contains : e.Contains sub) (renders : e.Renders s) :
    sub.Renders s := by
  induction contains with
  | itself e => exact renders
  | inside isPart _ inductionHypothesis => exact inductionHypothesis (renders.of_parts isPart)

end Expr

/-! ### Scopes of a query -/

/-- The names in a scope are those of a query: its sources and its parameters, and the variables
of fields of its sources. -/
structure Scope.Covers (s : Scope) (q : Query) : Prop where
  sources : s.rowVariables.length = q.sources.length
  params : s.paramCount = q.params.length
  groups : ∀ terms ∈ s.grouped, ∀ v ∈ terms, v.source < q.sources.length

namespace Scope.Covers

variable {s : Scope} {q : Query}

theorem lt_of_rowVar (covers : s.Covers q) {source : Nat} {name : String}
    (is : s.rowVar source = .ok name) : source < q.sources.length := by
  unfold rowVar at is
  split at is
  · next found =>
      rw [← covers.sources]
      exact (List.getElem?_eq_some_iff.mp found).1
  · cases is

/-- The pseudo variable stands for the root, which is always there. -/
theorem lt_of_rowVariable (covers : s.Covers q) {source : Nat} {name : String}
    (is : s.rowVariable source = .ok name) : source < q.sources.length := by
  unfold rowVariable at is
  split at is
  · simp [Query.sources]
  · exact covers.lt_of_rowVar is

/-- An expression that has a text in a scope of a query is admissible there. -/
theorem admissible (covers : s.Covers q) {e : Expr} (renders : e.Renders s) : e.Admissible q := by
  obtain ⟨text, is⟩ := renders
  cases e with
  | field source name =>
      obtain ⟨noBacktick, ⟨_, row, found, _⟩ | ⟨terms, v, grouped, among, rfl, _⟩⟩ :=
        Scope.field_cases is
      · exact ⟨covers.lt_of_rowVariable found, noBacktick⟩
      · exact ⟨covers.groups terms grouped v among, noBacktick⟩
  | row source =>
      rw [Expr.render, row] at is
      split at is
      · cases is
      · exact covers.lt_of_rowVariable is
  | param index =>
      rw [Expr.render, param] at is
      split at is
      · cases is
      · next bound =>
          rw [covers.params] at bound
          exact Nat.lt_of_not_le bound
  | literal value =>
      cases value with
      | float x =>
          rw [Expr.render, Literal.render] at is
          split at is
          · next finite => exact finite
          · cases is
      | _ => trivial
  | countRows => cases is
  | countOf target => cases is
  | _ => trivial

theorem wellFormed (covers : s.Covers q) {e : Expr} (renders : e.Renders s) : e.WellFormed q :=
  fun _ contains => covers.admissible (renders.of_contains contains)

/-- A mutation that returns documents looks at the same sources and parameters. -/
theorem returning (covers : s.Covers q) (pseudo : String) :
    Scope.Covers { s with returned := some pseudo } q where
  sources := covers.sources
  params := covers.params
  groups := covers.groups

end Scope.Covers

theorem Expr.wellFormed_row {q : Query} {source : Nat} (inside : source < q.sources.length) :
    (Expr.row source).WellFormed q := by
  rintro part (_ | ⟨isPart, _⟩)
  · exact inside
  · cases isPart

namespace Query

variable {q : Query} {s : Scope} {operation : Operation}

theorem scope_covers (is : q.scope = .ok s) : s.Covers q := by
  obtain ⟨_, rfl⟩ := scope_eq_ok_iff.mp is
  exact ⟨by simp [rowVariables], rfl, by simp⟩

/-! ### Clauses -/

theorem joinsText_wellFormed (covers : s.Covers q) {joins : List (String × Join)} {text : String}
    (is : joinsText s joins = .ok text) :
    ∀ j ∈ joins, j.2.kind = .inner ∧ j.2.condition.WellFormed q := by
  induction joins generalizing text with
  | nil => exact List.forall_mem_nil _
  | cons first rest inductionHypothesis =>
      obtain ⟨joined, isJoined, made⟩ := exceptBind_eq_ok_iff.mp is
      obtain ⟨others, areOthers, _⟩ := exceptBind_eq_ok_iff.mp made
      refine List.forall_mem_cons.mpr ⟨?_, inductionHypothesis areOthers⟩
      unfold joinText at isJoined
      split at isJoined
      · cases isJoined
      · next inner =>
          obtain ⟨condition, isCondition, _⟩ := exceptBind_eq_ok_iff.mp isJoined
          exact ⟨not_not.mp inner, covers.wellFormed ⟨condition, isCondition⟩⟩

theorem foldClauses_wellFormed (covers : s.Covers q) {clauses : List Clause}
    {connective : Connective} {before text : String}
    (is : foldClauses s connective before clauses = .ok text) :
    ∀ c ∈ clauses, c.condition.WellFormed q := by
  induction clauses generalizing connective before with
  | nil => exact List.forall_mem_nil _
  | cons first rest inductionHypothesis =>
      obtain ⟨condition, isCondition, made⟩ := exceptBind_eq_ok_iff.mp is
      exact List.forall_mem_cons.mpr
        ⟨covers.wellFormed ⟨condition, isCondition⟩, inductionHypothesis made⟩

theorem segmentText_wellFormed (covers : s.Covers q) {keyword : String} {segment : Segment}
    {clauses : List Clause} {text : String}
    (is : segmentText s keyword segment clauses = .ok text) :
    ∀ c ∈ clauses, c.segment = segment → c.condition.WellFormed q := by
  intro c member ofSegment
  have kept : c ∈ clauses.filter fun c => c.segment == segment :=
    List.mem_filter.mpr ⟨member, beq_iff_eq.mpr ofSegment⟩
  unfold segmentText at is
  generalize clauses.filter (fun c => c.segment == segment) = chosen at kept is
  cases chosen with
  | nil => cases kept
  | cons first rest =>
      obtain ⟨condition, isCondition, made⟩ := exceptBind_eq_ok_iff.mp is
      obtain ⟨conditions, areConditions, _⟩ := exceptBind_eq_ok_iff.mp made
      rcases List.mem_cons.mp kept with rfl | later
      · exact covers.wellFormed ⟨condition, isCondition⟩
      · exact foldClauses_wellFormed covers areConditions c later

/-- The clauses of the head: the joins, and the conditions of both segments. -/
theorem headText_wellFormed (covers : s.Covers q) {text : String}
    (is : q.headText s = .ok text) :
    (∀ j ∈ q.joins, j.kind = .inner ∧ j.condition.WellFormed q) ∧
      ∀ c ∈ q.clauses, c.condition.WellFormed q := by
  obtain ⟨joins, areJoins, made⟩ := exceptBind_eq_ok_iff.mp is
  obtain ⟨search, isSearch, made⟩ := exceptBind_eq_ok_iff.mp made
  obtain ⟨filter, isFilter, _⟩ := exceptBind_eq_ok_iff.mp made
  have variables_joins : (s.rowVariables.tail.zip q.joins).map Prod.snd = q.joins := by
    apply List.map_snd_zip
    rw [List.length_tail, covers.sources]
    simp [sources]
  constructor
  · intro j member
    rw [← variables_joins] at member
    obtain ⟨entry, among, rfl⟩ := List.mem_map.mp member
    exact joinsText_wellFormed covers areJoins entry among
  · intro c member
    cases place : c.segment with
    | search => exact segmentText_wellFormed covers isSearch c member place
    | filter => exact segmentText_wellFormed covers isFilter c member place

theorem sortTexts_wellFormed (covers : s.Covers q) {sorts : List SortTerm} {texts : List String}
    (are : sortTexts s sorts = .ok texts) : ∀ t ∈ sorts, t.key.WellFormed q := by
  induction sorts generalizing texts with
  | nil => exact List.forall_mem_nil _
  | cons first rest inductionHypothesis =>
      obtain ⟨text, isText, made⟩ := exceptBind_eq_ok_iff.mp are
      obtain ⟨more, areMore, _⟩ := exceptBind_eq_ok_iff.mp made
      exact List.forall_mem_cons.mpr
        ⟨covers.wellFormed ⟨text, isText⟩, inductionHypothesis areMore⟩

/-- The order and the window of a query are well formed. -/
structure Windowed (q : Query) : Prop where
  sorts : ∀ t ∈ q.sorts, t.key.WellFormed q
  offset : ∀ e ∈ q.offset, e.WellFormed q
  limit : ∀ e ∈ q.limit, e.WellFormed q
  limited : q.offset.isSome = true → q.limit.isSome = true

theorem windowed (covers : s.Covers q) {sort window : String}
    (isSort : sortText s q.sorts = .ok sort)
    (isWindow : windowText s q.offset q.limit = .ok window) : q.Windowed := by
  have sorts : ∀ t ∈ q.sorts, t.key.WellFormed q := by
    unfold sortText at isSort
    split at isSort
    · next none =>
        rw [List.isEmpty_iff.mp none]
        exact List.forall_mem_nil _
    · obtain ⟨texts, areTexts, _⟩ := exceptBind_eq_ok_iff.mp isSort
      exact sortTexts_wellFormed covers areTexts
  cases offset : q.offset with
  | none =>
      cases limit : q.limit with
      | none => exact ⟨sorts, by simp [offset], by simp [limit], by simp [offset]⟩
      | some keep =>
          rw [offset, limit] at isWindow
          obtain ⟨kept, isKept, _⟩ := exceptBind_eq_ok_iff.mp isWindow
          have keeps := covers.wellFormed ⟨kept, isKept⟩
          exact ⟨sorts, by simp [offset], by simpa [limit] using keeps, by simp [offset]⟩
  | some skip =>
      cases limit : q.limit with
      | none =>
          rw [offset, limit] at isWindow
          cases isWindow
      | some keep =>
          rw [offset, limit] at isWindow
          obtain ⟨skipped, isSkipped, made⟩ := exceptBind_eq_ok_iff.mp isWindow
          obtain ⟨kept, isKept, _⟩ := exceptBind_eq_ok_iff.mp made
          have skips := covers.wellFormed ⟨skipped, isSkipped⟩
          have keeps := covers.wellFormed ⟨kept, isKept⟩
          exact ⟨sorts, by simpa [offset] using skips, by simpa [limit] using keeps,
            by simp [limit]⟩

/-- Groups are well formed, and the scope after them still names what the query has. -/
theorem groupText_wellFormed (covers : s.Covers q) {count : Option String} {groups : List Expr}
    {made : String × Scope} (is : groupText s count groups = .ok made) :
    (∀ e ∈ groups, e.WellFormed q) ∧ made.2.Covers q := by
  unfold groupText at is
  split at is
  · next none =>
      cases is
      rw [List.isEmpty_iff.mp none]
      exact ⟨List.forall_mem_nil _, covers⟩
  · obtain ⟨terms, areTerms, rest⟩ := exceptBind_eq_ok_iff.mp is
    cases rest
    obtain ⟨each, rfl⟩ := groupTerms_eq_ok areTerms
    constructor
    · intro e member
      obtain ⟨term, among, rfl⟩ := List.mem_map.mp member
      obtain ⟨text, isText, _⟩ := (each term among).bound
      exact covers.wellFormed ⟨text, isText⟩
    · refine ⟨covers.sources, covers.params, ?_⟩
      rintro _ ⟨rfl⟩ v member
      obtain ⟨term, among, rfl⟩ := List.mem_map.mp member
      obtain ⟨row, isRow, _⟩ := (each term among).named
      exact covers.lt_of_rowVar isRow

/-! ### What is returned -/

/-- The expressions that an operation is asked to return, by default the whole root row of a
selection and nothing of a mutation. -/
def requested (q : Query) : Operation → List Expr
  | .select => q.projection.getD [.row 0]
  | _ => q.projection.getD []

/-- A selection that returns a count and nothing else. -/
def Counts (q : Query) (operation : Operation) : Prop :=
  operation = .select ∧ ∃ count, q.requested operation = [count] ∧ count.isCount = true

/-- Requested expressions are well formed, and so are the fields that whole rows stand for. -/
structure Projected (q : Query) (requested : List Expr) : Prop where
  each : ∀ e ∈ requested, e.WellFormed q
  rows : ∀ source fields, .row source ∈ requested → q.expandRow source = .ok fields →
    ∀ e ∈ fields, e.WellFormed q

theorem lt_of_expandRow {source : Nat} {fields : List Expr}
    (are : q.expandRow source = .ok fields) : source < q.sources.length := by
  obtain ⟨_, _, found, _⟩ := expandRow_eq_ok are
  exact (List.getElem?_eq_some_iff.mp found).1

/-- Requested expressions are well formed if those are that they are expanded to. -/
theorem projected_of_expandRows {requested exprs : List Expr}
    (are : q.expandRows requested = .ok exprs) (wellFormed : ∀ e ∈ exprs, e.WellFormed q) :
    q.Projected requested := by
  induction requested generalizing exprs with
  | nil =>
      exact ⟨List.forall_mem_nil _,
        fun _ _ none => absurd none List.not_mem_nil⟩
  | cons first rest inductionHypothesis =>
      by_cases whole : ∃ source, first = .row source
      · obtain ⟨source, rfl⟩ := whole
        obtain ⟨fields, areFields, made⟩ := exceptBind_eq_ok_iff.mp are
        obtain ⟨others, areOthers, same⟩ := exceptBind_eq_ok_iff.mp made
        cases same
        obtain ⟨ofRow, ofOthers⟩ := List.forall_mem_append.mp wellFormed
        have later := inductionHypothesis areOthers ofOthers
        refine ⟨List.forall_mem_cons.mpr ⟨Expr.wellFormed_row (lt_of_expandRow areFields),
          later.each⟩, fun source' fields' member are' => ?_⟩
        rcases List.mem_cons.mp member with same | among
        · cases same
          rw [areFields] at are'
          cases are'
          exact ofRow
        · exact later.rows source' fields' among are'
      · rw [expandRows_cons fun source same => whole ⟨source, same⟩] at are
        obtain ⟨others, areOthers, same⟩ := exceptBind_eq_ok_iff.mp are
        cases same
        obtain ⟨ofFirst, ofOthers⟩ := List.forall_mem_cons.mp wellFormed
        have later := inductionHypothesis areOthers ofOthers
        refine ⟨List.forall_mem_cons.mpr ⟨ofFirst, later.each⟩,
          fun source fields member are' => ?_⟩
        rcases List.mem_cons.mp member with same | among
        · exact absurd ⟨source, same.symm⟩ whole
        · exact later.rows source fields among are'

/-- A projection to fields is well formed if its row has a text. -/
theorem projected_of_rowText {t : Scope} (covers : t.Covers q) {exprs : List Expr} {row : String}
    (isProjection : q.resolveProjection s = .ok (.fields exprs))
    (isRow : rowText t exprs = .ok row) : q.Projected (q.projection.getD [.row 0]) := by
  obtain ⟨_, _, _, _, other⟩ | ⟨_, areExprs, same⟩ := resolveProjection_cases isProjection
  · cases other
  · cases same
    obtain ⟨texts, areTexts, _⟩ := exceptBind_eq_ok_iff.mp isRow
    exact projected_of_expandRows areExprs fun e member =>
      covers.wellFormed (Expr.renders_of_renderAll areTexts e member)

theorem isCount_of_countName {count : Expr} {name : String}
    (is : countName s count = .ok name) : count.isCount = true := by
  unfold countName at is
  split at is <;> first | rfl | cases is

/-- What a mutation is asked to return is well formed. -/
theorem returningText_wellFormed (covers : s.Covers q) (mutates : operation ≠ .select)
    {pseudo : String} {made : String × List String}
    (is : q.returningText s pseudo = .ok made) : q.Projected (q.requested operation) := by
  have asked : q.requested operation = q.projection.getD [] := by
    cases operation with
    | select => exact absurd rfl mutates
    | _ => rfl
  unfold returningText at is
  cases given : q.projection with
  | none =>
      rw [asked, given]
      exact ⟨List.forall_mem_nil _,
        fun _ _ none => absurd none List.not_mem_nil⟩
  | some exprs =>
      rw [given] at is
      obtain ⟨p, isProjection, rest⟩ := exceptBind_eq_ok_iff.mp is
      cases p with
      | count _ => cases rest
      | fields fields =>
          obtain ⟨row, isRow, _⟩ := exceptBind_eq_ok_iff.mp rest
          have projected := projected_of_rowText (covers.returning pseudo) isProjection isRow
          rw [given] at projected
          rwa [asked, given]

/-! ### Operations -/

/-- An expression whose text is a piece of the text of a query: a condition, a group term, a sort
criterion, an end of the window, what is returned unless it is only counted, a field that a whole
row stands for, or a new value. -/
inductive Written (q : Query) (operation : Operation) : Expr → Prop where
  | join {j : Join} (member : j ∈ q.joins) : Written q operation j.condition
  | clause {c : Clause} (member : c ∈ q.clauses) : Written q operation c.condition
  | group {e : Expr} (member : e ∈ q.groups) : Written q operation e
  | sort {t : SortTerm} (member : t ∈ q.sorts) : Written q operation t.key
  | offset {e : Expr} (is : q.offset = some e) : Written q operation e
  | limit {e : Expr} (is : q.limit = some e) : Written q operation e
  | returned {e : Expr} (member : e ∈ q.requested operation) (fields : ¬ q.Counts operation) :
      Written q operation e
  | expanded {source : Nat} {fields : List Expr} {e : Expr}
      (member : .row source ∈ q.requested operation) (are : q.expandRow source = .ok fields)
      (among : e ∈ fields) : Written q operation e
  | assigned {u : Update} (updates : operation = .update) (member : u ∈ q.updates) :
      Written q operation (.field 0 u.field)
  | value {u : Update} (updates : operation = .update) (member : u ∈ q.updates) :
      Written q operation u.value

/-- What is allowed of a query for an operation. -/
structure WellFormed (q : Query) (operation : Operation) : Prop where
  named : ∀ source ∈ q.sources, source.name ≠ "" ∧ '`' ∉ source.name.toList
  inner : ∀ j ∈ q.joins, j.kind = .inner
  limited : q.offset.isSome = true → q.limit.isSome = true
  mutable : operation ≠ .select → (∀ source ∈ q.sources, source.kind ≠ .view) ∧ q.groups = []
  assigns : operation = .update → q.updates ≠ []
  written : ∀ e, q.Written operation e → e.WellFormed q

/-- What an operation needs beside the head of the query. -/
structure Body (q : Query) (operation : Operation) : Prop where
  groups : ∀ e ∈ q.groups, e.WellFormed q
  window : q.Windowed
  projection : q.Counts operation ∨ q.Projected (q.requested operation)
  mutable : operation ≠ .select → (∀ source ∈ q.sources, source.kind ≠ .view) ∧ q.groups = []
  updates : operation = .update → q.updates ≠ [] ∧ ∀ u ∈ q.updates,
    (Expr.field 0 u.field).WellFormed q ∧ u.value.WellFormed q

theorem selectText_body (covers : s.Covers q) {made : String × List String}
    (is : q.selectText s = .ok made) : q.Body .select := by
  obtain ⟨p, isProjection, rest⟩ := exceptBind_eq_ok_iff.mp is
  obtain ⟨⟨group, t⟩, isGroup, rest⟩ := exceptBind_eq_ok_iff.mp rest
  obtain ⟨sort, isSort, rest⟩ := exceptBind_eq_ok_iff.mp rest
  obtain ⟨window, isWindow, rest⟩ := exceptBind_eq_ok_iff.mp rest
  obtain ⟨groups, after⟩ := groupText_wellFormed covers isGroup
  refine ⟨groups, windowed after isSort isWindow, ?_, fun other => absurd rfl other,
    fun other => by cases other⟩
  cases p with
  | count name =>
      obtain ⟨count, _, single, isName, _⟩ | ⟨_, _, other⟩ := resolveProjection_cases isProjection
      · exact .inl ⟨rfl, count, single, isCount_of_countName isName⟩
      · cases other
  | fields exprs =>
      obtain ⟨distinct, _, rest⟩ := exceptBind_eq_ok_iff.mp rest
      obtain ⟨row, isRow, _⟩ := exceptBind_eq_ok_iff.mp rest
      exact .inr (projected_of_rowText after isProjection isRow)

theorem ensureMutable_eq_ok {mutation : Mutation} (is : q.ensureMutable mutation = .ok ()) :
    (∀ source ∈ q.sources, source.kind ≠ .view) ∧ q.groups = [] := by
  unfold ensureMutable at is
  split at is
  · cases is
  · next noView =>
      split at is
      · next ungrouped => exact ⟨by simpa using noView, List.isEmpty_iff.mp ungrouped⟩
      · cases is

theorem deleteText_body (covers : s.Covers q) {made : String × List String}
    (is : q.deleteText s = .ok made) : q.Body .delete := by
  obtain ⟨_, isMutable, rest⟩ := exceptBind_eq_ok_iff.mp is
  obtain ⟨sort, isSort, rest⟩ := exceptBind_eq_ok_iff.mp rest
  obtain ⟨window, isWindow, rest⟩ := exceptBind_eq_ok_iff.mp rest
  obtain ⟨returning, isReturning, _⟩ := exceptBind_eq_ok_iff.mp rest
  have mutable := ensureMutable_eq_ok isMutable
  refine ⟨by simp [mutable.2], windowed covers isSort isWindow,
    .inr (returningText_wellFormed covers (by decide) isReturning), fun _ => mutable,
    fun other => by cases other⟩

theorem assignmentTexts_wellFormed (covers : s.Covers q) {updates : List Update}
    {texts : List String} (are : assignmentTexts s updates = .ok texts) :
    ∀ u ∈ updates, (Expr.field 0 u.field).WellFormed q ∧ u.value.WellFormed q := by
  induction updates generalizing texts with
  | nil => exact List.forall_mem_nil _
  | cons first rest inductionHypothesis =>
      obtain ⟨text, isText, made⟩ := exceptBind_eq_ok_iff.mp are
      obtain ⟨more, areMore, _⟩ := exceptBind_eq_ok_iff.mp made
      obtain ⟨target, isTarget, made⟩ := exceptBind_eq_ok_iff.mp isText
      obtain ⟨value, isValue, _⟩ := exceptBind_eq_ok_iff.mp made
      exact List.forall_mem_cons.mpr ⟨⟨covers.wellFormed ⟨target, isTarget⟩,
        covers.wellFormed ⟨value, isValue⟩⟩, inductionHypothesis areMore⟩

theorem updateText_body (covers : s.Covers q) {made : String × List String}
    (is : q.updateText s = .ok made) : q.Body .update := by
  obtain ⟨_, isMutable, rest⟩ := exceptBind_eq_ok_iff.mp is
  obtain ⟨sort, isSort, rest⟩ := exceptBind_eq_ok_iff.mp rest
  obtain ⟨window, isWindow, rest⟩ := exceptBind_eq_ok_iff.mp rest
  split at rest
  · cases rest
  · next assigns =>
      obtain ⟨texts, areTexts, rest⟩ := exceptBind_eq_ok_iff.mp rest
      obtain ⟨returning, isReturning, _⟩ := exceptBind_eq_ok_iff.mp rest
      have mutable := ensureMutable_eq_ok isMutable
      exact ⟨by simp [mutable.2], windowed covers isSort isWindow,
        .inr (returningText_wellFormed covers (by decide) isReturning), fun _ => mutable,
        fun _ => ⟨by simpa using assigns, assignmentTexts_wellFormed covers areTexts⟩⟩

theorem bodyText_body (covers : s.Covers q) {made : String × List String}
    (is : q.bodyText s operation = .ok made) : q.Body operation := by
  cases operation with
  | select => exact selectText_body covers is
  | delete => exact deleteText_body covers is
  | update => exact updateText_body covers is

theorem isSourceName_iff {name : String} :
    isSourceName name = true ↔ name ≠ "" ∧ '`' ∉ name.toList := by
  simp [isSourceName]

/-- What is written of a query is well formed if its head and the rest of it are. -/
theorem Body.written (body : q.Body operation)
    (joins : ∀ j ∈ q.joins, j.kind = .inner ∧ j.condition.WellFormed q)
    (clauses : ∀ c ∈ q.clauses, c.condition.WellFormed q) {e : Expr}
    (written : q.Written operation e) : e.WellFormed q := by
  cases written with
  | join member => exact (joins _ member).2
  | clause member => exact clauses _ member
  | group member => exact body.groups _ member
  | sort member => exact body.window.sorts _ member
  | offset is => exact body.window.offset _ is
  | limit is => exact body.window.limit _ is
  | returned member fields =>
      rcases body.projection with counts | projected
      · exact absurd counts fields
      · exact projected.each _ member
  | expanded member are among =>
      rcases body.projection with ⟨_, count, single, isCount⟩ | projected
      · rw [single] at member
        obtain rfl := List.mem_singleton.mp member
        cases isCount
      · exact projected.rows _ _ member are _ among
  | assigned updates member => exact ((body.updates updates).2 _ member).1
  | value updates member => exact ((body.updates updates).2 _ member).2

end Query

/-! ### Bound values -/

/-- A compiled query has certain values bound to the numbers from one on. -/
structure CompiledQuery.Binds (c : CompiledQuery) (values : List Json) : Prop where
  params_eq : c.params = values
  keys_perm : c.bindVars.keys.Perm ((List.range values.length).map fun i => toString (i + 1))
  get?_eq : ∀ i, c.bindVars.get? (toString (i + 1)) = values[i]?

/-- The numbers that values are bound to, as keys. -/
theorem keys_numbered (values : List Json) :
    (values.zipIdx.map fun (value, i) => (toString (i + 1), value)).map Prod.fst =
      (List.range values.length).map fun i => toString (i + 1) := by
  rw [List.range_eq_range', ← List.zipIdx_map_snd, List.map_map, List.map_map]
  rfl

theorem nodup_numbers (n : Nat) : ((List.range n).map fun i => toString (i + 1)).Nodup :=
  List.nodup_range.map fun _ _ same => Nat.succ.inj (Text.toString_nat_injective same)

/-- Every compiled query binds its own values. -/
theorem CompiledQuery.binds_params (c : CompiledQuery) : c.Binds c.params := by
  have distinct : ((c.params.zipIdx.map fun (value, i) =>
      (toString (i + 1), value)).map Prod.fst).Nodup := by
    rw [keys_numbered]
    exact nodup_numbers c.params.length
  refine ⟨rfl, ?_, fun i => ?_⟩
  · have keys : c.bindVars.keys.Perm _ := Dict.keys_ofList_perm _
    rwa [distinct.dedup, keys_numbered] at keys
  · cases found : c.params[i]? with
    | some value =>
        apply Dict.get?_ofList_of_mem distinct
        refine List.mem_map.mpr ⟨(value, i), ?_, rfl⟩
        exact List.mem_zipIdx_iff_getElem?.mpr found
    | none =>
        apply Dict.get?_insertAll_of_forall_ne
        intro e member same
        obtain ⟨⟨value, j⟩, numbered, rfl⟩ := List.mem_map.mp member
        have here := List.mem_zipIdx_iff_getElem?.mp numbered
        obtain rfl : j = i := Nat.succ.inj (Text.toString_nat_injective same)
        rw [found] at here
        cases here

namespace Query

variable {q : Query} {operation : Operation} {c : CompiledQuery}

/-- A query that compiles is well formed for its operation, and its text refers to its own
parameters. -/
theorem wellFormed_of_compile (compiled : q.compile operation = .ok c) :
    q.WellFormed operation ∧ c.Binds q.params := by
  unfold compile at compiled
  split at compiled
  · next text columns made =>
      cases compiled
      obtain ⟨s, isScope, rest⟩ := exceptBind_eq_ok_iff.mp made
      obtain ⟨head, isHead, rest⟩ := exceptBind_eq_ok_iff.mp rest
      obtain ⟨body, isBody, _⟩ := exceptBind_eq_ok_iff.mp rest
      have covers := scope_covers isScope
      obtain ⟨joins, clauses⟩ := headText_wellFormed covers isHead
      have rest := bodyText_body covers isBody
      refine ⟨?_, CompiledQuery.binds_params _⟩
      constructor
      · intro source member
        exact isSourceName_iff.mp ((scope_eq_ok_iff.mp isScope).1 source member)
      · exact fun j member => (joins j member).1
      · exact rest.window.limited
      · exact rest.mutable
      · exact fun updates => (rest.updates updates).1
      · exact fun e written => rest.written joins clauses written
  · cases compiled

/-- The scores of players in open games are raised, a page of them, and the players are
returned.  The parameter that is looked for in an empty list is not there, and never written. -/
def raisedScores : Query where
  root := { name := "players", entity := some (.document "Player" "players") }
  joins := [{
    kind := .inner
    source := { name := "games" }
    condition := .binary .eq (.field 1 "player") (.field 0 "_key") }]
  clauses := [
    ⟨.filter, .and, .not (.member (.field 1 "state") (.list [.param 0, .literal .null]))⟩,
    ⟨.filter, .or, .member (.param 9) (.list [])⟩]
  sorts := [⟨.descending, .call "LENGTH" [.field 0 "name"]⟩]
  offset := some (.param 1)
  limit := some (.literal (.int 10))
  projection := some [.row 0, .field 0 "score"]
  updates := [
    ⟨.inc, "score", .binary .mul (.field 1 "won") (.literal (.float ⟨0x3FF8000000000000⟩))⟩,
    ⟨.push, "games", .field 1 "_key"⟩]
  params := [.str "lost", .num (.integer 20)]

theorem wellFormed_of_raisedScores :
    ∃ c, raisedScores.compile .update = .ok c ∧
      raisedScores.WellFormed .update ∧ c.Binds raisedScores.params :=
  ⟨_, rfl, wellFormed_of_compile rfl⟩

end Query

end DocStore
