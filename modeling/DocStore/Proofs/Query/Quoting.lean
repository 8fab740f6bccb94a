/-
Module: DocStore.Proofs.Query.Quoting
Purpose: queries that differ in names and quoted texts only are written as texts with the
  same tokens, as long as the names that become part of variables are words.
Main exports:
  Query.SameShape, Query.WordedVariables, Query.SameShape.tokens_alike
-/
import DocStore.Proofs.Query.Shape

namespace DocStore

open List (Forall₂)
open Aql

/-! ### Queries of the same shape -/

/-- Sources of one kind, bound to entity types with equally many fields or to none. -/
structure Source.SameShape (a b : Source) : Prop where
  kind_eq : a.kind = b.kind
  fieldCount_eq : a.entity.map (·.fields.length) = b.entity.map (·.fields.length)

/-- Joins of one kind with sources and conditions of the same shape. -/
structure Join.SameShape (a b : Join) : Prop where
  kind_eq : a.kind = b.kind
  source : a.source.SameShape b.source
  condition : a.condition.SameShape b.condition

/-- Conditions of the same shape at the same place. -/
structure Clause.SameShape (a b : Clause) : Prop where
  segment_eq : a.segment = b.segment
  connective_eq : a.connective = b.connective
  condition : a.condition.SameShape b.condition

/-- Sort criteria of the same shape in the same order. -/
structure SortTerm.SameShape (a b : SortTerm) : Prop where
  order_eq : a.order = b.order
  key : a.key.SameShape b.key

/-- Changes of one kind with values of the same shape. -/
structure Update.SameShape (a b : Update) : Prop where
  kind_eq : a.kind = b.kind
  value : a.value.SameShape b.value

/-- The same flag, or keys of the same shape. -/
inductive Distinct.SameShape : Distinct → Distinct → Prop where
  | rows (flag : Bool) : Distinct.SameShape (.rows flag) (.rows flag)
  | fields {keys keys' : List Expr} (same : Expr.AllSameShape keys keys') :
      Distinct.SameShape (.fields keys) (.fields keys')

/-- Queries that differ in the names of collections and fields and in the contents of
texts only. -/
structure Query.SameShape (q q' : Query) : Prop where
  root : q.root.SameShape q'.root
  joins : Forall₂ Join.SameShape q.joins q'.joins
  clauses : Forall₂ Clause.SameShape q.clauses q'.clauses
  groups : Expr.AllSameShape q.groups q'.groups
  sorts : Forall₂ SortTerm.SameShape q.sorts q'.sorts
  offset : Option.Rel Expr.SameShape q.offset q'.offset
  limit : Option.Rel Expr.SameShape q.limit q'.limit
  projection : Option.Rel Expr.AllSameShape q.projection q'.projection
  distinct : Option.Rel Distinct.SameShape q.distinct q'.distinct
  updates : Forall₂ Update.SameShape q.updates q'.updates
  paramCount_eq : q.params.length = q'.params.length

/-- The names that become part of variables, those of grouped and of counted fields,
consist of letters, digits and underscores. -/
structure Query.WordedVariables (q : Query) : Prop where
  grouped : ∀ source name, .field source name ∈ q.groups → name.toList.all isWordChar = true
  counted : ∀ requested ∈ q.projection, ∀ source name,
    .countOf (.field source name) ∈ requested → name.toList.all isWordChar = true

namespace Query

/-! ### Sources -/

theorem isSourceVariable_variableOf (name : String) (position : Nat) :
    IsSourceVariable position (variableOf name position) := by
  have letters : ∀ letter : Char, letter.isLower →
      IsSourceVariable position (String.singleton letter ++ toString position) := by
    intro letter lower
    exact ⟨letter, lower, by simp⟩
  unfold variableOf
  apply letters
  split
  · split
    · next letter => exact isLower_toLower letter
    · decide
  · decide

theorem noBacktick_of_isSourceName {name : String} (named : isSourceName name = true) :
    '`' ∉ name.toList := by
  rw [isSourceName, Bool.and_eq_true, Bool.not_eq_true'] at named
  intro member
  rw [List.contains_iff_mem.mpr member] at named
  cases named.2

/-- The scope at the start of a query names its sources, which can all be quoted. -/
theorem scope_eq_ok_iff {q : Query} {s : Scope} :
    q.scope = .ok s ↔ (∀ source ∈ q.sources, isSourceName source.name = true) ∧
      s = { rowVariables := q.rowVariables, paramCount := q.params.length } := by
  unfold scope
  cases found : q.sources.find? fun source => !isSourceName source.name with
  | none =>
      have named : ∀ source ∈ q.sources, isSourceName source.name = true := by
        simpa using found
      constructor
      · rintro ⟨⟩
        exact ⟨named, rfl⟩
      · rintro ⟨_, rfl⟩
        rfl
  | some source =>
      have unnamed := List.find?_some found
      have member := List.mem_of_find?_eq_some found
      simp only [reduceCtorEq, false_iff, not_and]
      intro named
      simp [named source member] at unnamed

theorem scope_worded {q : Query} {s : Scope} (is : q.scope = .ok s) : s.Worded where
  sources := by
    intro i word found
    obtain ⟨_, rfl⟩ := scope_eq_ok_iff.mp is
    unfold Scope.rowVar at found
    split at found
    · next name named =>
        cases found
        rw [rowVariables, List.getElem?_map] at named
        obtain ⟨⟨source, position⟩, placed, rfl⟩ := Option.map_eq_some_iff.mp named
        rw [List.getElem?_zipIdx] at placed
        obtain ⟨_, _, same⟩ := Option.map_eq_some_iff.mp placed
        cases same
        rw [Nat.zero_add]
        exact isSourceVariable_variableOf _ i
    · cases found
  grouped := by
    obtain ⟨_, rfl⟩ := scope_eq_ok_iff.mp is
    simp
  returned := by
    obtain ⟨_, rfl⟩ := scope_eq_ok_iff.mp is
    simp

theorem scope_alike {q q' : Query} {s s' : Scope} (is : q.scope = .ok s)
    (is' : q'.scope = .ok s') : s.Alike s' where
  worded := scope_worded is
  worded' := scope_worded is'
  grouped := by
    obtain ⟨_, rfl⟩ := scope_eq_ok_iff.mp is
    obtain ⟨_, rfl⟩ := scope_eq_ok_iff.mp is'
    rfl
  returned := by
    obtain ⟨_, rfl⟩ := scope_eq_ok_iff.mp is
    obtain ⟨_, rfl⟩ := scope_eq_ok_iff.mp is'
    rfl

theorem inName_eq (name : String) : " IN `" ++ name ++ "`" = " IN " ++ ("`" ++ name ++ "`") := by
  apply String.toList_injective
  simp

/-- Where documents are, or go to, is a name between backticks. -/
theorem inName_following {name name' : String} (noBacktick : '`' ∉ name.toList)
    (noBacktick' : '`' ∉ name'.toList) :
    Following (" IN `" ++ name ++ "`") (" IN `" ++ name' ++ "`") := by
  rw [inName_eq, inName_eq]
  exact (Following.names noBacktick noBacktick').alike.following (by decide) (by decide)
    (by decide)

theorem loopText_alike {position : Nat} {loopVar loopVar' name name' : String}
    (named : IsSourceVariable position loopVar) (named' : IsSourceVariable position loopVar')
    (noBacktick : '`' ∉ name.toList) (noBacktick' : '`' ∉ name'.toList) :
    Alike (loopText loopVar name) (loopText loopVar' name') := by
  have grouped : ∀ loopVar name, loopText loopVar name =
      "FOR " ++ (loopVar ++ (" IN `" ++ name ++ "`")) := by
    intro loopVar name
    simp only [loopText, String.append_assoc]
  rw [grouped, grouped]
  exact ((Alike.sourceVariables named named').append
    (inName_following noBacktick noBacktick')).behind (by decide) (by decide)

/-- Joins of the same shape at the same position, with sources that can be quoted. -/
structure JoinsAlike (a b : String × Join) : Prop where
  placed : ∃ position, IsSourceVariable position a.1 ∧ IsSourceVariable position b.1
  shape : a.2.SameShape b.2
  noBacktick : '`' ∉ a.2.source.name.toList
  noBacktick' : '`' ∉ b.2.source.name.toList

theorem joinsText_following {s s' : Scope} (scopes : s.Alike s')
    {joins joins' : List (String × Join)}
    (same : Forall₂ JoinsAlike joins joins') {text text' : String}
    (is : joinsText s joins = .ok text) (is' : joinsText s' joins' = .ok text') :
    Following text text' := by
  induction same generalizing text text' with
  | nil =>
      cases is
      cases is'
      exact .empty
  | @cons a b others others' same _ inductionHypothesis =>
      obtain ⟨first, isFirst, rest⟩ := exceptBind_eq_ok_iff.mp is
      obtain ⟨texts, areOthers, rest⟩ := exceptBind_eq_ok_iff.mp rest
      obtain ⟨first', isFirst', rest'⟩ := exceptBind_eq_ok_iff.mp is'
      obtain ⟨texts', areOthers', rest'⟩ := exceptBind_eq_ok_iff.mp rest'
      cases rest
      cases rest'
      refine Following.append ?_ (inductionHypothesis areOthers areOthers')
      unfold joinText at isFirst isFirst'
      split at isFirst
      · cases isFirst
      · split at isFirst'
        · cases isFirst'
        · obtain ⟨condition, isCondition, made⟩ := exceptBind_eq_ok_iff.mp isFirst
          obtain ⟨condition', isCondition', made'⟩ := exceptBind_eq_ok_iff.mp isFirst'
          cases made
          cases made'
          rcases same.placed with ⟨position, named, named'⟩
          have looped := loopText_alike named named' same.noBacktick same.noBacktick'
          have conditions := same.shape.condition.render_alike scopes isCondition isCondition'
          simp only [String.append_assoc]
          exact (looped.append (conditions.following (by decide) (by decide)
            (by decide))).following (by decide) (by decide) (by decide)

theorem rowVariables_tail_zip (q : Query) : q.rowVariables.tail.zip q.joins =
    (q.joins.zipIdx 1).map fun (j, i) => (variableOf j.source.name i, j) := by
  have placed : ∀ (joins : List Join) (i : Nat),
      (((joins.map Join.source).zipIdx i).map fun entry =>
        variableOf entry.1.name entry.2).zip joins =
          (joins.zipIdx i).map fun entry => (variableOf entry.1.source.name entry.2, entry.1) := by
    intro joins
    induction joins with
    | nil => simp
    | cons j joins inductionHypothesis =>
        intro i
        simp [inductionHypothesis]
  exact placed q.joins 1

theorem joins_alike {q q' : Query} (same : Forall₂ Join.SameShape q.joins q'.joins)
    (named : ∀ source ∈ q.sources, isSourceName source.name = true)
    (named' : ∀ source ∈ q'.sources, isSourceName source.name = true) :
    Forall₂ JoinsAlike (q.rowVariables.tail.zip q.joins) (q'.rowVariables.tail.zip q'.joins) := by
  have placed : ∀ {joins joins' : List Join} (i : Nat), Forall₂ Join.SameShape joins joins' →
      (∀ j ∈ joins, isSourceName j.source.name = true) →
      (∀ j ∈ joins', isSourceName j.source.name = true) →
      Forall₂ JoinsAlike ((joins.zipIdx i).map fun (j, i) => (variableOf j.source.name i, j))
        ((joins'.zipIdx i).map fun (j, i) => (variableOf j.source.name i, j)) := by
    intro joins joins' i same
    induction same generalizing i with
    | nil => exact fun _ _ => .nil
    | cons first _ inductionHypothesis =>
        intro named named'
        rw [List.forall_mem_cons] at named named'
        exact .cons ⟨⟨i, isSourceVariable_variableOf _ i, isSourceVariable_variableOf _ i⟩, first,
          noBacktick_of_isSourceName named.1, noBacktick_of_isSourceName named'.1⟩
          (inductionHypothesis (i + 1) named.2 named'.2)
  have ofJoin : ∀ {q : Query}, (∀ source ∈ q.sources, isSourceName source.name = true) →
      ∀ j ∈ q.joins, isSourceName j.source.name = true := fun named j member =>
    named j.source (List.mem_cons_of_mem _ (List.mem_map_of_mem member))
  rw [rowVariables_tail_zip, rowVariables_tail_zip]
  exact placed 1 same (ofJoin named) (ofJoin named')

/-! ### Conditions -/

theorem foldClauses_alike {s s' : Scope} (scopes : s.Alike s') {clauses clauses' : List Clause}
    (same : Forall₂ Clause.SameShape clauses clauses') {connective : Connective}
    {before before' : String} (alike : Alike before before') {text text' : String}
    (is : foldClauses s connective before clauses = .ok text)
    (is' : foldClauses s' connective before' clauses' = .ok text') : Alike text text' := by
  induction same generalizing connective before before' with
  | nil =>
      cases is
      cases is'
      exact alike
  | @cons c c' _ _ first _ inductionHypothesis =>
      obtain ⟨condition, isCondition, rest⟩ := exceptBind_eq_ok_iff.mp is
      obtain ⟨condition', isCondition', rest'⟩ := exceptBind_eq_ok_iff.mp is'
      rw [← first.connective_eq] at rest'
      refine inductionHypothesis ?_ rest rest'
      have conditions := (first.condition.render_alike scopes isCondition isCondition').parens
      have joined : ∀ c : Connective, Following c.symbol c.symbol := by
        intro c
        cases c <;> exact .same (by decide) (by decide)
      rw [String.append_assoc, String.append_assoc]
      refine Alike.append ?_ ((joined c.connective).append conditions)
      split
      · exact alike
      · exact alike.parens.alike

theorem filter_segment_alike {clauses clauses' : List Clause} (segment : Segment)
    (same : Forall₂ Clause.SameShape clauses clauses') :
    Forall₂ Clause.SameShape (clauses.filter fun c => c.segment == segment)
      (clauses'.filter fun c => c.segment == segment) := by
  induction same with
  | nil => exact .nil
  | @cons c c' _ _ first _ inductionHypothesis =>
      rw [List.filter_cons, List.filter_cons, ← first.segment_eq]
      split
      · exact .cons first inductionHypothesis
      · exact inductionHypothesis

theorem segmentText_following {s s' : Scope} (scopes : s.Alike s') {keyword : String}
    (unquoted : isUnquoted keyword.toList = true) (starts : startsApart keyword.toList = true)
    (ends : endsApart keyword.toList = true) {segment : Segment} {clauses clauses' : List Clause}
    (same : Forall₂ Clause.SameShape clauses clauses') {text text' : String}
    (is : segmentText s keyword segment clauses = .ok text)
    (is' : segmentText s' keyword segment clauses' = .ok text') : Following text text' := by
  have filtered := filter_segment_alike segment same
  unfold segmentText at is is'
  generalize clauses.filter (fun c => c.segment == segment) = chosen at filtered is
  generalize clauses'.filter (fun c => c.segment == segment) = chosen' at filtered is'
  cases filtered with
  | nil =>
      cases is
      cases is'
      exact .empty
  | cons first others =>
      obtain ⟨condition, isCondition, rest⟩ := exceptBind_eq_ok_iff.mp is
      obtain ⟨conditions, areConditions, rest⟩ := exceptBind_eq_ok_iff.mp rest
      obtain ⟨condition', isCondition', rest'⟩ := exceptBind_eq_ok_iff.mp is'
      obtain ⟨conditions', areConditions', rest'⟩ := exceptBind_eq_ok_iff.mp rest'
      cases rest
      cases rest'
      rw [← first.connective_eq] at areConditions'
      have firstAlike := (first.condition.render_alike scopes isCondition isCondition').parens.alike
      exact (foldClauses_alike scopes others firstAlike areConditions areConditions').following
        unquoted starts ends

/-! ### Groups, order and window -/

/-- A grouped field is bound to a variable for it. -/
theorem groupTerms_alike {s s' : Scope} (scopes : s.Alike s') {groups groups' : List Expr}
    (same : Expr.AllSameShape groups groups')
    (worded : ∀ source name, .field source name ∈ groups → name.toList.all isWordChar = true)
    (worded' : ∀ source name, .field source name ∈ groups' → name.toList.all isWordChar = true)
    {terms terms' : List (GroupVariable × String)} (are : groupTerms s groups = .ok terms)
    (are' : groupTerms s' groups' = .ok terms') :
    (∀ v ∈ terms.map Prod.fst, IsFieldVariable v.source v.field v.name) ∧
      (∀ v ∈ terms'.map Prod.fst, IsFieldVariable v.source v.field v.name) ∧
      Forall₂ Alike (terms.map Prod.snd) (terms'.map Prod.snd) := by
  induction groups generalizing groups' terms terms' with
  | nil =>
      cases same
      cases are
      cases are'
      simp
  | cons group groups inductionHypothesis =>
      cases same with
      | cons first others =>
          cases first with
          | field source name name' =>
              obtain ⟨row, isRow, rest⟩ := exceptBind_eq_ok_iff.mp are
              obtain ⟨text, isText, rest⟩ := exceptBind_eq_ok_iff.mp rest
              obtain ⟨more, areMore, rest⟩ := exceptBind_eq_ok_iff.mp rest
              obtain ⟨row', isRow', rest'⟩ := exceptBind_eq_ok_iff.mp are'
              obtain ⟨text', isText', rest'⟩ := exceptBind_eq_ok_iff.mp rest'
              obtain ⟨more', areMore', rest'⟩ := exceptBind_eq_ok_iff.mp rest'
              cases rest
              cases rest'
              have named : IsFieldVariable source name (row ++ "_" ++ name) :=
                ⟨row, scopes.worded.sources isRow, worded source name List.mem_cons_self, rfl⟩
              have named' : IsFieldVariable source name' (row' ++ "_" ++ name') :=
                ⟨row', scopes.worded'.sources isRow', worded' source name' List.mem_cons_self, rfl⟩
              have remaining := inductionHypothesis others
                (fun source name member => worded source name (List.mem_cons_of_mem _ member))
                (fun source name member => worded' source name (List.mem_cons_of_mem _ member))
                areMore areMore'
              simp only [List.map_cons, List.forall_mem_cons]
              refine ⟨⟨named, remaining.1⟩, ⟨named', remaining.2.1⟩, .cons ?_ remaining.2.2⟩
              have defined : ∀ word text : String,
                  word ++ " = " ++ text = word ++ (" = " ++ text) := fun _ _ => String.append_assoc
              rw [defined _ text, defined _ text']
              exact (Alike.fieldVariables named named').append
                ((scopes.field_alike isText isText').following (by decide) (by decide)
                  (by decide))
          | _ => cases are

/-- The grouping is alike, and so are the scopes after it. -/
theorem groupText_alike {s s' : Scope} (scopes : s.Alike s') {groups groups' : List Expr}
    (same : Expr.AllSameShape groups groups')
    (worded : ∀ source name, .field source name ∈ groups → name.toList.all isWordChar = true)
    (worded' : ∀ source name, .field source name ∈ groups' → name.toList.all isWordChar = true)
    {count count' : Option String} (counts : Option.Rel Alike count count')
    {made made' : String × Scope} (is : groupText s count groups = .ok made)
    (is' : groupText s' count' groups' = .ok made') :
    Following made.1 made'.1 ∧ made.2.Alike made'.2 := by
  unfold groupText at is is'
  cases same with
  | nil =>
      cases is
      cases is'
      exact ⟨.empty, scopes⟩
  | cons first others =>
      obtain ⟨terms, areTerms, rest⟩ := exceptBind_eq_ok_iff.mp is
      obtain ⟨terms', areTerms', rest'⟩ := exceptBind_eq_ok_iff.mp is'
      cases rest
      cases rest'
      obtain ⟨named, named', texts⟩ :=
        groupTerms_alike scopes (.cons first others) worded worded' areTerms areTerms'
      constructor
      · have collected : Following (" COLLECT " ++ Text.join ", " (terms.map Prod.snd))
            (" COLLECT " ++ Text.join ", " (terms'.map Prod.snd)) :=
          (Alike.join texts).following (by decide) (by decide) (by decide)
        refine collected.append ?_
        cases counts with
        | none => exact .empty
        | some name => exact name.following (by decide) (by decide) (by decide)
      · exact {
          worded := ⟨scopes.worded.sources, by simpa using named, scopes.worded.returned⟩
          worded' := ⟨scopes.worded'.sources, by simpa using named', scopes.worded'.returned⟩
          grouped := rfl
          returned := scopes.returned }

theorem sortTexts_alike {s s' : Scope} (scopes : s.Alike s') {sorts sorts' : List SortTerm}
    (same : Forall₂ SortTerm.SameShape sorts sorts') {texts texts' : List String}
    (are : sortTexts s sorts = .ok texts) (are' : sortTexts s' sorts' = .ok texts') :
    Forall₂ Alike texts texts' := by
  induction same generalizing texts texts' with
  | nil =>
      cases are
      cases are'
      exact .nil
  | cons first _ inductionHypothesis =>
      obtain ⟨text, isText, rest⟩ := exceptBind_eq_ok_iff.mp are
      obtain ⟨more, areMore, rest⟩ := exceptBind_eq_ok_iff.mp rest
      obtain ⟨text', isText', rest'⟩ := exceptBind_eq_ok_iff.mp are'
      obtain ⟨more', areMore', rest'⟩ := exceptBind_eq_ok_iff.mp rest'
      cases rest
      cases rest'
      refine .cons ?_ (inductionHypothesis areMore areMore')
      have keys := first.key.render_alike scopes isText isText'
      rw [← first.order_eq]
      split
      · exact keys.append (.same (by decide) (by decide))
      · exact keys

theorem sortText_following {s s' : Scope} (scopes : s.Alike s') {sorts sorts' : List SortTerm}
    (same : Forall₂ SortTerm.SameShape sorts sorts') {text text' : String}
    (is : sortText s sorts = .ok text) (is' : sortText s' sorts' = .ok text') :
    Following text text' := by
  unfold sortText at is is'
  cases same with
  | nil =>
      cases is
      cases is'
      exact .empty
  | cons first others =>
      obtain ⟨texts, areTexts, rest⟩ := exceptBind_eq_ok_iff.mp is
      obtain ⟨texts', areTexts', rest'⟩ := exceptBind_eq_ok_iff.mp is'
      cases rest
      cases rest'
      exact (Alike.join (sortTexts_alike scopes (.cons first others) areTexts areTexts')).following
        (by decide) (by decide) (by decide)

theorem windowText_following {s s' : Scope} (scopes : s.Alike s')
    {offset offset' limit limit' : Option Expr}
    (sameOffset : Option.Rel Expr.SameShape offset offset')
    (sameLimit : Option.Rel Expr.SameShape limit limit') {text text' : String}
    (is : windowText s offset limit = .ok text) (is' : windowText s' offset' limit' = .ok text') :
    Following text text' := by
  cases sameLimit with
  | none =>
      cases sameOffset with
      | none =>
          cases is
          cases is'
          exact .empty
      | some _ => cases is
  | some limits =>
      cases sameOffset with
      | none =>
          obtain ⟨kept, isKept, rest⟩ := exceptBind_eq_ok_iff.mp is
          obtain ⟨kept', isKept', rest'⟩ := exceptBind_eq_ok_iff.mp is'
          cases rest
          cases rest'
          exact (limits.render_alike scopes isKept isKept').following (by decide) (by decide)
            (by decide)
      | some offsets =>
          obtain ⟨skipped, isSkipped, rest⟩ := exceptBind_eq_ok_iff.mp is
          obtain ⟨kept, isKept, rest⟩ := exceptBind_eq_ok_iff.mp rest
          obtain ⟨skipped', isSkipped', rest'⟩ := exceptBind_eq_ok_iff.mp is'
          obtain ⟨kept', isKept', rest'⟩ := exceptBind_eq_ok_iff.mp rest'
          cases rest
          cases rest'
          have limited : Following (", " ++ kept) (", " ++ kept') :=
            (limits.render_alike scopes isKept isKept').following (by decide) (by decide)
              (by decide)
          simp only [String.append_assoc]
          exact ((offsets.render_alike scopes isSkipped isSkipped').append limited).following
            (by decide) (by decide) (by decide)

/-! ### What is returned -/

/-- Counts under names that are alike, or fields of the same shape. -/
inductive Projection.SameShape : Projection → Projection → Prop where
  | count {name name' : String} (alike : Alike name name') :
      Projection.SameShape (.count name) (.count name')
  | fields {exprs exprs' : List Expr} (same : Expr.AllSameShape exprs exprs') :
      Projection.SameShape (.fields exprs) (.fields exprs')

theorem Projection.SameShape.counter_alike {p p' : Projection} : p.SameShape p' →
    Option.Rel Alike (match p with | .count name => some name | .fields _ => none)
      (match p' with | .count name => some name | .fields _ => none) := by
  intro same
  cases same with
  | count alike => exact .some alike
  | fields _ => exact .none

theorem countName_alike {s s' : Scope} (scopes : s.Alike s') {e e' : Expr}
    (same : e.SameShape e')
    (worded : ∀ source name, e = .countOf (.field source name) → name.toList.all isWordChar = true)
    (worded' : ∀ source name, e' = .countOf (.field source name) →
      name.toList.all isWordChar = true)
    {name name' : String} (is : countName s e = .ok name) (is' : countName s' e' = .ok name') :
    Alike name name' := by
  cases same with
  | countRows =>
      cases is
      cases is'
      exact .same (by decide)
  | countOf target =>
      cases target with
      | row source =>
          cases is
          cases is'
          exact .same (by decide)
      | field source name name' =>
          obtain ⟨row, isRow, rfl⟩ := exceptMap_eq_ok_iff.mp is
          obtain ⟨row', isRow', rfl⟩ := exceptMap_eq_ok_iff.mp is'
          exact .fieldVariables ⟨row, scopes.worded.sources isRow, worded source name rfl, rfl⟩
            ⟨row', scopes.worded'.sources isRow', worded' source name' rfl, rfl⟩
      | _ => cases is
  | _ => cases is

theorem sources_alike {q q' : Query} (same : q.SameShape q') :
    Forall₂ Source.SameShape q.sources q'.sources := by
  refine .cons same.root ?_
  rw [List.forall₂_map_left_iff, List.forall₂_map_right_iff]
  exact same.joins.imp fun _ _ joined => joined.source

theorem allSameShape_fields (source : Nat) (f g : String → String) {names names' : List String}
    (same : names.length = names'.length) :
    Expr.AllSameShape (names.map fun name => .field source (f name))
      (names'.map fun name => .field source (g name)) := by
  induction names generalizing names' with
  | nil =>
      obtain rfl := List.length_eq_zero_iff.mp same.symm
      exact .nil
  | cons name names inductionHypothesis =>
      obtain ⟨name', others, rfl⟩ := List.exists_cons_of_length_eq_add_one same.symm
      exact .cons (.field _ _ _) (inductionHypothesis (by simpa using same))

theorem expandRow_eq_ok {q : Query} {source : Nat} {exprs : List Expr}
    (are : q.expandRow source = .ok exprs) :
    ∃ origin entity, q.sources[source]? = some origin ∧ origin.entity = some entity ∧
      exprs = entity.fields.map fun name =>
        .field source (if name = entity.primaryKey then "_key" else name) := by
  unfold expandRow at are
  split at are
  · cases are
  · next origin found =>
      split at are
      · cases are
      · next entity bound =>
          split at are
          · cases are
          · cases are
            exact ⟨origin, entity, found, bound, rfl⟩

/-- A whole row stands for equally many fields. -/
theorem expandRow_alike {q q' : Query} (same : q.SameShape q') {source : Nat}
    {exprs exprs' : List Expr} (are : q.expandRow source = .ok exprs)
    (are' : q'.expandRow source = .ok exprs') : Expr.AllSameShape exprs exprs' := by
  obtain ⟨origin, entity, found, bound, rfl⟩ := expandRow_eq_ok are
  obtain ⟨origin', entity', found', bound', rfl⟩ := expandRow_eq_ok are'
  obtain ⟨inside, is⟩ := List.getElem?_eq_some_iff.mp found
  obtain ⟨inside', is'⟩ := List.getElem?_eq_some_iff.mp found'
  have counts := ((sources_alike same).get inside inside').fieldCount_eq
  simp only [List.get_eq_getElem, is, is', bound, bound', Option.map_some,
    Option.some.injEq] at counts
  exact allSameShape_fields source _ _ counts

theorem expandRows_cons {q : Query} {e : Expr} {rest : List Expr}
    (noRow : ∀ source, e ≠ .row source) :
    q.expandRows (e :: rest) = (do
      let others ← q.expandRows rest
      .ok (e :: others)) := by
  cases e <;> first | rfl | exact absurd rfl (noRow _)

theorem expandRows_alike {q q' : Query} (same : q.SameShape q') {requested requested' : List Expr}
    (sameRequested : Expr.AllSameShape requested requested') {exprs exprs' : List Expr}
    (are : q.expandRows requested = .ok exprs) (are' : q'.expandRows requested' = .ok exprs') :
    Expr.AllSameShape exprs exprs' := by
  induction requested generalizing requested' exprs exprs' with
  | nil =>
      cases sameRequested
      cases are
      cases are'
      exact .nil
  | cons e requested inductionHypothesis =>
      cases sameRequested with
      | @cons _ e' _ others' first others =>
          by_cases whole : ∃ source, e = .row source
          · rcases whole with ⟨source, rfl⟩
            cases first with
            | row source =>
                obtain ⟨fields, areFields, rest⟩ := exceptBind_eq_ok_iff.mp are
                obtain ⟨more, areMore, rest⟩ := exceptBind_eq_ok_iff.mp rest
                obtain ⟨fields', areFields', rest'⟩ := exceptBind_eq_ok_iff.mp are'
                obtain ⟨more', areMore', rest'⟩ := exceptBind_eq_ok_iff.mp rest'
                cases rest
                cases rest'
                exact (expandRow_alike same areFields areFields').append
                  (inductionHypothesis others areMore areMore')
          · have noRow : ∀ source, e ≠ .row source := fun source is => whole ⟨source, is⟩
            have noRow' : ∀ source, e' ≠ .row source := by
              rintro source rfl
              cases first
              exact noRow source rfl
            rw [expandRows_cons noRow] at are
            rw [expandRows_cons noRow'] at are'
            obtain ⟨more, areMore, rest⟩ := exceptBind_eq_ok_iff.mp are
            obtain ⟨more', areMore', rest'⟩ := exceptBind_eq_ok_iff.mp are'
            cases rest
            cases rest'
            exact .cons first (inductionHypothesis others areMore areMore')

theorem resolveProjection_alike {q q' : Query} (same : q.SameShape q') (worded : q.WordedVariables)
    (worded' : q'.WordedVariables) {s s' : Scope} (scopes : s.Alike s') {p p' : Projection}
    (is : q.resolveProjection s = .ok p) (is' : q'.resolveProjection s' = .ok p') :
    p.SameShape p' := by
  have requestedSame : ∀ {requested requested' : Option (List Expr)},
      Option.Rel Expr.AllSameShape requested requested' →
      Expr.AllSameShape (requested.getD [.row 0]) (requested'.getD [.row 0]) := by
    intro requested requested' related
    cases related with
    | none => exact .cons (.row 0) .nil
    | some exprs => exact exprs
  replace requestedSame := requestedSame same.projection
  have counted : ∀ {q : Query}, q.WordedVariables → ∀ source name,
      .countOf (.field source name) ∈ q.projection.getD [.row 0] →
        name.toList.all isWordChar = true := by
    intro q worded source name member
    cases requested : q.projection with
    | none => simp [requested] at member
    | some requested' =>
        rw [requested] at member
        exact worded.counted requested' requested source name member
  have countedHere := counted worded
  have countedThere := counted worded'
  unfold resolveProjection at is is'
  generalize q.projection.getD [.row 0] = requested at requestedSame countedHere is
  generalize q'.projection.getD [.row 0] = requested' at requestedSame countedThere is'
  cases requestedSame with
  | nil => cases is
  | @cons e e' rest rest' first others =>
      have counts := (Expr.AllSameShape.cons first others).countP_eq
      dsimp only at is is'
      rw [← counts] at is'
      split at is
      · next noCounts =>
          rw [if_pos noCounts] at is'
          obtain ⟨exprs, areExprs, rfl⟩ := exceptMap_eq_ok_iff.mp is
          obtain ⟨exprs', areExprs', rfl⟩ := exceptMap_eq_ok_iff.mp is'
          exact .fields (expandRows_alike same (.cons first others) areExprs areExprs')
      · next someCounts =>
          rw [if_neg someCounts] at is'
          cases others with
          | nil =>
              obtain ⟨name, isName, rfl⟩ := exceptMap_eq_ok_iff.mp is
              obtain ⟨name', isName', rfl⟩ := exceptMap_eq_ok_iff.mp is'
              refine .count (countName_alike scopes first ?_ ?_ isName isName')
              · rintro source name rfl
                exact countedHere source name List.mem_cons_self
              · rintro source name rfl
                exact countedThere source name List.mem_cons_self
          | cons _ _ =>
              dsimp only at is
              split at is <;> cases is

theorem rowText_alike {s s' : Scope} (scopes : s.Alike s') {exprs exprs' : List Expr}
    (same : Expr.AllSameShape exprs exprs') {text text' : String} (is : rowText s exprs = .ok text)
    (is' : rowText s' exprs' = .ok text') : Following text text' := by
  obtain ⟨texts, areTexts, rest⟩ := exceptBind_eq_ok_iff.mp is
  obtain ⟨texts', areTexts', rest'⟩ := exceptBind_eq_ok_iff.mp is'
  cases rest
  cases rest'
  have joined := Alike.join (same.renderAll_alike scopes areTexts areTexts')
  rw [String.append_assoc, String.append_assoc]
  exact (joined.append (.same (by decide) (by decide))).following (by decide) (by decide)
    (by decide)

theorem returningText_following {q q' : Query} (same : q.SameShape q') (worded : q.WordedVariables)
    (worded' : q'.WordedVariables) {s s' : Scope} (scopes : s.Alike s') {pseudo : String}
    (unquoted : isUnquoted pseudo.toList = true) {made made' : String × List String}
    (is : q.returningText s pseudo = .ok made) (is' : q'.returningText s' pseudo = .ok made') :
    Following made.1 made'.1 := by
  unfold returningText at is is'
  have requested : ∀ {requested requested' : Option (List Expr)},
      Option.Rel Expr.AllSameShape requested requested' →
      requested.isNone = requested'.isNone := by
    rintro _ _ (_ | _) <;> rfl
  replace requested := requested same.projection
  rw [← requested] at is'
  split at is
  · next nothing =>
      rw [if_pos nothing] at is'
      cases is
      cases is'
      exact .empty
  · next something =>
      rw [if_neg something] at is'
      obtain ⟨p, isProjection, rest⟩ := exceptBind_eq_ok_iff.mp is
      obtain ⟨p', isProjection', rest'⟩ := exceptBind_eq_ok_iff.mp is'
      cases resolveProjection_alike same worded worded' scopes isProjection isProjection' with
      | count _ => cases rest
      | fields exprs =>
          obtain ⟨row, isRow, rest⟩ := exceptBind_eq_ok_iff.mp rest
          obtain ⟨row', isRow', rest'⟩ := exceptBind_eq_ok_iff.mp rest'
          cases rest
          cases rest'
          have returned : Scope.Alike { s with returned := some pseudo }
              { s' with returned := some pseudo } := {
            worded := ⟨scopes.worded.sources, scopes.worded.grouped, by simpa using unquoted⟩
            worded' := ⟨scopes.worded'.sources, scopes.worded'.grouped, by simpa using unquoted⟩
            grouped := scopes.grouped
            returned := rfl }
          exact (rowText_alike returned exprs isRow isRow').alike.following (by decide)
            (by decide) (by decide)

/-! ### Operations -/

theorem headText_alike {q q' : Query} (same : q.SameShape q') {s s' : Scope}
    (is : q.scope = .ok s) (is' : q'.scope = .ok s') {text text' : String}
    (isHead : q.headText s = .ok text) (isHead' : q'.headText s' = .ok text') :
    Alike text text' := by
  have scopes := scope_alike is is'
  obtain ⟨named, rfl⟩ := scope_eq_ok_iff.mp is
  obtain ⟨named', rfl⟩ := scope_eq_ok_iff.mp is'
  obtain ⟨joins, areJoins, rest⟩ := exceptBind_eq_ok_iff.mp isHead
  obtain ⟨search, isSearch, rest⟩ := exceptBind_eq_ok_iff.mp rest
  obtain ⟨filter, isFilter, rest⟩ := exceptBind_eq_ok_iff.mp rest
  obtain ⟨joins', areJoins', rest'⟩ := exceptBind_eq_ok_iff.mp isHead'
  obtain ⟨search', isSearch', rest'⟩ := exceptBind_eq_ok_iff.mp rest'
  obtain ⟨filter', isFilter', rest'⟩ := exceptBind_eq_ok_iff.mp rest'
  cases rest
  cases rest'
  have looped := loopText_alike (isSourceVariable_variableOf q.root.name 0)
    (isSourceVariable_variableOf q'.root.name 0)
    (noBacktick_of_isSourceName (named q.root List.mem_cons_self))
    (noBacktick_of_isSourceName (named' q'.root List.mem_cons_self))
  exact ((looped.append (joinsText_following scopes (joins_alike same.joins named named') areJoins
    areJoins')).append (segmentText_following scopes (by decide) (by decide) (by decide)
      same.clauses isSearch isSearch')).append
        (segmentText_following scopes (by decide) (by decide) (by decide) same.clauses isFilter
          isFilter')

theorem distinctText_cases {distinct distinct' : Option Distinct}
    (same : Option.Rel Distinct.SameShape distinct distinct') {text text' : String}
    (is : distinctText distinct = .ok text) (is' : distinctText distinct' = .ok text') :
    text = text' ∧ (text = "" ∨ text = "DISTINCT ") := by
  cases same with
  | none =>
      cases is
      cases is'
      exact ⟨rfl, .inl rfl⟩
  | some same =>
      cases same with
      | rows flag =>
          cases flag with
          | false =>
              cases is
              cases is'
              exact ⟨rfl, .inl rfl⟩
          | true =>
              cases is
              cases is'
              exact ⟨rfl, .inr rfl⟩
      | fields _ => cases is

theorem selectText_following {q q' : Query} (same : q.SameShape q') (worded : q.WordedVariables)
    (worded' : q'.WordedVariables) {s s' : Scope} (scopes : s.Alike s')
    {made made' : String × List String} (is : q.selectText s = .ok made)
    (is' : q'.selectText s' = .ok made') : Following made.1 made'.1 := by
  obtain ⟨p, isProjection, rest⟩ := exceptBind_eq_ok_iff.mp is
  obtain ⟨⟨group, t⟩, isGroup, rest⟩ := exceptBind_eq_ok_iff.mp rest
  obtain ⟨sort, isSort, rest⟩ := exceptBind_eq_ok_iff.mp rest
  obtain ⟨window, isWindow, rest⟩ := exceptBind_eq_ok_iff.mp rest
  obtain ⟨p', isProjection', rest'⟩ := exceptBind_eq_ok_iff.mp is'
  obtain ⟨⟨group', t'⟩, isGroup', rest'⟩ := exceptBind_eq_ok_iff.mp rest'
  obtain ⟨sort', isSort', rest'⟩ := exceptBind_eq_ok_iff.mp rest'
  obtain ⟨window', isWindow', rest'⟩ := exceptBind_eq_ok_iff.mp rest'
  have projections := resolveProjection_alike same worded worded' scopes isProjection isProjection'
  obtain ⟨groups, after⟩ := groupText_alike scopes same.groups worded.grouped worded'.grouped
    projections.counter_alike isGroup isGroup'
  have found := (groups.append (sortText_following after same.sorts isSort isSort')).append
    (windowText_following after same.offset same.limit isWindow isWindow')
  cases projections with
  | @count name name' alike =>
      have grouped : q.groups.isEmpty = q'.groups.isEmpty := by
        have groupsSame := same.groups
        generalize q.groups = groups at groupsSame ⊢
        generalize q'.groups = groups' at groupsSame ⊢
        cases groupsSame <;> rfl
      cases rest
      cases rest'
      have returned : Following (" RETURN " ++ name) (" RETURN " ++ name') :=
        alike.following (by decide) (by decide) (by decide)
      have last : ∀ before name : String,
          before ++ " RETURN " ++ name = before ++ (" RETURN " ++ name) :=
        fun _ _ => String.append_assoc
      rw [← grouped, last, last]
      refine (found.append ?_).append returned
      split
      · exact alike.following (by decide) (by decide) (by decide)
      · exact .empty
  | @fields exprs exprs' exprsSame =>
      obtain ⟨distinct, isDistinct, rest⟩ := exceptBind_eq_ok_iff.mp rest
      obtain ⟨row, isRow, rest⟩ := exceptBind_eq_ok_iff.mp rest
      obtain ⟨distinct', isDistinct', rest'⟩ := exceptBind_eq_ok_iff.mp rest'
      obtain ⟨row', isRow', rest'⟩ := exceptBind_eq_ok_iff.mp rest'
      cases rest
      cases rest'
      have rows := (rowText_alike after exprsSame isRow isRow').alike
      have returned : Following (" RETURN " ++ distinct ++ row)
          (" RETURN " ++ distinct' ++ row') := by
        obtain ⟨rfl, rfl | rfl⟩ := distinctText_cases same.distinct isDistinct isDistinct'
        · exact rows.following (by decide) (by decide) (by decide)
        · exact rows.following (by decide) (by decide) (by decide)
      have last : ∀ before distinct row : String,
          before ++ " RETURN " ++ distinct ++ row = before ++ (" RETURN " ++ distinct ++ row) :=
        fun _ _ _ => by simp only [String.append_assoc]
      rw [last, last]
      exact found.append returned

theorem deleteText_following {q q' : Query} (same : q.SameShape q') (worded : q.WordedVariables)
    (worded' : q'.WordedVariables) (noBacktick : '`' ∉ q.root.name.toList)
    (noBacktick' : '`' ∉ q'.root.name.toList) {s s' : Scope} (scopes : s.Alike s')
    {made made' : String × List String} (is : q.deleteText s = .ok made)
    (is' : q'.deleteText s' = .ok made') : Following made.1 made'.1 := by
  obtain ⟨_, _, rest⟩ := exceptBind_eq_ok_iff.mp is
  obtain ⟨sort, isSort, rest⟩ := exceptBind_eq_ok_iff.mp rest
  obtain ⟨window, isWindow, rest⟩ := exceptBind_eq_ok_iff.mp rest
  obtain ⟨⟨returning, columns⟩, isReturning, rest⟩ := exceptBind_eq_ok_iff.mp rest
  obtain ⟨_, _, rest'⟩ := exceptBind_eq_ok_iff.mp is'
  obtain ⟨sort', isSort', rest'⟩ := exceptBind_eq_ok_iff.mp rest'
  obtain ⟨window', isWindow', rest'⟩ := exceptBind_eq_ok_iff.mp rest'
  obtain ⟨⟨returning', columns'⟩, isReturning', rest'⟩ := exceptBind_eq_ok_iff.mp rest'
  cases rest
  cases rest'
  have removed : Following (" REMOVE " ++ variableOf q.root.name 0 ++ " IN `" ++ q.root.name ++ "`")
      (" REMOVE " ++ variableOf q'.root.name 0 ++ " IN `" ++ q'.root.name ++ "`") := by
    have grouped : ∀ row name : String, " REMOVE " ++ row ++ " IN `" ++ name ++ "`" =
        " REMOVE " ++ (row ++ (" IN `" ++ name ++ "`")) := by
      intro row name
      simp only [String.append_assoc]
    rw [grouped, grouped]
    exact ((Alike.sourceVariables (isSourceVariable_variableOf _ 0)
      (isSourceVariable_variableOf _ 0)).append
        (inName_following noBacktick noBacktick')).following (by decide) (by decide) (by decide)
  exact (((sortText_following scopes same.sorts isSort isSort').append
    (windowText_following scopes same.offset same.limit isWindow isWindow')).append removed).append
      (returningText_following same worded worded' scopes (by decide) isReturning isReturning')

theorem assignmentText_alike {s s' : Scope} (scopes : s.Alike s') {u u' : Update}
    (same : u.SameShape u') {text text' : String} (is : assignmentText s u = .ok text)
    (is' : assignmentText s' u' = .ok text') : Alike text text' := by
  obtain ⟨target, isTarget, rest⟩ := exceptBind_eq_ok_iff.mp is
  obtain ⟨value, isValue, rest⟩ := exceptBind_eq_ok_iff.mp rest
  obtain ⟨target', isTarget', rest'⟩ := exceptBind_eq_ok_iff.mp is'
  obtain ⟨value', isValue', rest'⟩ := exceptBind_eq_ok_iff.mp rest'
  cases rest
  cases rest'
  have named := (Following.names (Scope.Alike.noBacktick_of_field isTarget)
    (Scope.Alike.noBacktick_of_field isTarget')).alike
  have targets := scopes.field_alike isTarget isTarget'
  have values := same.value.render_alike scopes isValue isValue'
  have regrouped : ∀ field text : String,
      "`" ++ field ++ "`: " ++ text = "`" ++ field ++ "`" ++ (": " ++ text) := by
    intro field text
    apply String.toList_injective
    simp
  rw [regrouped, regrouped, ← same.kind_eq]
  refine named.append (Alike.following ?_ (by decide) (by decide) (by decide))
  cases u.kind with
  | set => exact values
  | inc =>
      dsimp only
      rw [String.append_assoc, String.append_assoc]
      exact targets.append ((same.value.asOperand_alike values).following (by decide) (by decide)
        (by decide))
  | push =>
      dsimp only
      simp only [String.append_assoc]
      exact (targets.append ((values.append (.same (by decide) (by decide))).following (by decide)
        (by decide) (by decide))).behind (by decide) (by decide)
  | pull =>
      dsimp only
      simp only [String.append_assoc]
      exact (targets.append ((values.append (.same (by decide) (by decide))).following (by decide)
        (by decide) (by decide))).behind (by decide) (by decide)

theorem assignmentTexts_alike {s s' : Scope} (scopes : s.Alike s') {updates updates' : List Update}
    (same : Forall₂ Update.SameShape updates updates') {texts texts' : List String}
    (are : assignmentTexts s updates = .ok texts)
    (are' : assignmentTexts s' updates' = .ok texts') :
    Forall₂ Alike texts texts' := by
  induction same generalizing texts texts' with
  | nil =>
      cases are
      cases are'
      exact .nil
  | cons first _ inductionHypothesis =>
      obtain ⟨text, isText, rest⟩ := exceptBind_eq_ok_iff.mp are
      obtain ⟨more, areMore, rest⟩ := exceptBind_eq_ok_iff.mp rest
      obtain ⟨text', isText', rest'⟩ := exceptBind_eq_ok_iff.mp are'
      obtain ⟨more', areMore', rest'⟩ := exceptBind_eq_ok_iff.mp rest'
      cases rest
      cases rest'
      exact .cons (assignmentText_alike scopes first isText isText')
        (inductionHypothesis areMore areMore')

theorem updateText_following {q q' : Query} (same : q.SameShape q') (worded : q.WordedVariables)
    (worded' : q'.WordedVariables) (noBacktick : '`' ∉ q.root.name.toList)
    (noBacktick' : '`' ∉ q'.root.name.toList) {s s' : Scope} (scopes : s.Alike s')
    {made made' : String × List String} (is : q.updateText s = .ok made)
    (is' : q'.updateText s' = .ok made') : Following made.1 made'.1 := by
  obtain ⟨_, _, rest⟩ := exceptBind_eq_ok_iff.mp is
  obtain ⟨sort, isSort, rest⟩ := exceptBind_eq_ok_iff.mp rest
  obtain ⟨window, isWindow, rest⟩ := exceptBind_eq_ok_iff.mp rest
  obtain ⟨_, _, rest'⟩ := exceptBind_eq_ok_iff.mp is'
  obtain ⟨sort', isSort', rest'⟩ := exceptBind_eq_ok_iff.mp rest'
  obtain ⟨window', isWindow', rest'⟩ := exceptBind_eq_ok_iff.mp rest'
  split at rest
  · cases rest
  · split at rest'
    · cases rest'
    · obtain ⟨texts, areTexts, rest⟩ := exceptBind_eq_ok_iff.mp rest
      obtain ⟨⟨returning, columns⟩, isReturning, rest⟩ := exceptBind_eq_ok_iff.mp rest
      obtain ⟨texts', areTexts', rest'⟩ := exceptBind_eq_ok_iff.mp rest'
      obtain ⟨⟨returning', columns'⟩, isReturning', rest'⟩ := exceptBind_eq_ok_iff.mp rest'
      cases rest
      cases rest'
      have joined := Alike.join (assignmentTexts_alike scopes same.updates areTexts areTexts')
      have updated : ∀ row texts name : String,
          " UPDATE " ++ row ++ " WITH \x7b" ++ texts ++ "\x7d IN `" ++ name ++ "`" =
            " UPDATE " ++ (row ++ (" WITH \x7b" ++ (texts ++ ("\x7d" ++
              (" IN `" ++ name ++ "`"))))) := by
        intro row texts name
        apply String.toList_injective
        simp
      refine (((sortText_following scopes same.sorts isSort isSort').append
        (windowText_following scopes same.offset same.limit isWindow isWindow')).append ?_).append
          (returningText_following same worded worded' scopes (by decide) isReturning isReturning')
      rw [updated, updated]
      have target : Following ("\x7d" ++ (" IN `" ++ q.root.name ++ "`"))
          ("\x7d" ++ (" IN `" ++ q'.root.name ++ "`")) :=
        (inName_following noBacktick noBacktick').alike.following (by decide) (by decide)
          (by decide)
      exact ((Alike.sourceVariables (isSourceVariable_variableOf _ 0)
        (isSourceVariable_variableOf _ 0)).append ((joined.append target).following (by decide)
          (by decide) (by decide))).following (by decide) (by decide) (by decide)

/-- Queries that differ only in names and in the contents of texts are written with the
same tokens: where the two texts differ, each has one name between backticks, one quoted
text or one variable of the same source.  The names that become part of variables, which
stand without quotes, have to be words. -/
theorem SameShape.tokens_alike {q q' : Query} (same : q.SameShape q') (worded : q.WordedVariables)
    (worded' : q'.WordedVariables) (operation : Operation) {c c' : CompiledQuery}
    (compiled : q.compile operation = .ok c) (compiled' : q'.compile operation = .ok c') :
    Forall₂ Token.Alike (tokens c.text) (tokens c'.text) := by
  unfold compile at compiled compiled'
  split at compiled
  · next text columns made =>
      split at compiled'
      · next text' columns' made' =>
          cases compiled
          cases compiled'
          obtain ⟨s, isScope, rest⟩ := exceptBind_eq_ok_iff.mp made
          obtain ⟨head, isHead, rest⟩ := exceptBind_eq_ok_iff.mp rest
          obtain ⟨⟨body, _⟩, isBody, rest⟩ := exceptBind_eq_ok_iff.mp rest
          obtain ⟨s', isScope', rest'⟩ := exceptBind_eq_ok_iff.mp made'
          obtain ⟨head', isHead', rest'⟩ := exceptBind_eq_ok_iff.mp rest'
          obtain ⟨⟨body', _⟩, isBody', rest'⟩ := exceptBind_eq_ok_iff.mp rest'
          cases rest
          cases rest'
          have scopes := scope_alike isScope isScope'
          have noBacktick := noBacktick_of_isSourceName
            ((scope_eq_ok_iff.mp isScope).1 q.root List.mem_cons_self)
          have noBacktick' := noBacktick_of_isSourceName
            ((scope_eq_ok_iff.mp isScope').1 q'.root List.mem_cons_self)
          have bodies : Following body body' := by
            cases operation with
            | select => exact selectText_following same worded worded' scopes isBody isBody'
            | delete =>
                exact deleteText_following same worded worded' noBacktick noBacktick' scopes isBody
                  isBody'
            | update =>
                exact updateText_following same worded worded' noBacktick noBacktick' scopes isBody
                  isBody'
          exact ((headText_alike same isScope isScope' isHead isHead').append bodies).tokens
      · cases compiled'
  · cases compiled

/-- The names of users in a group, with their number: the collection, the grouped field,
a field of a condition and a text are free. -/
def groupedBy (collection group field text : String) : Query where
  root := { name := collection }
  clauses := [⟨.filter, .and, .binary .eq (.field 0 field) (.literal (.text text))⟩]
  groups := [.field 0 group]
  sorts := [⟨.descending, .field 0 group⟩]
  projection := some [.field 0 group, .call "LENGTH" [.literal (.text text)]]

theorem groupedBy_sameShape (collection collection' group group' field field' text text' : String) :
    (groupedBy collection group field text).SameShape
      (groupedBy collection' group' field' text') where
  root := ⟨rfl, rfl⟩
  joins := .nil
  clauses := .cons ⟨rfl, rfl, .binary .eq (.field _ _ _) (.text _ _)⟩ .nil
  groups := .cons (.field _ _ _) .nil
  sorts := .cons ⟨rfl, .field _ _ _⟩ .nil
  offset := .none
  limit := .none
  projection := .some (.cons (.field _ _ _) (.cons (.call "LENGTH" (by decide)
    (.cons (.text _ _) .nil)) .nil))
  distinct := .none
  updates := .nil
  paramCount_eq := rfl

theorem groupedBy_worded {collection group field text : String}
    (plain : group.toList.all isWordChar = true) :
    (groupedBy collection group field text).WordedVariables where
  grouped := by
    intro source name member
    cases List.mem_singleton.mp member
    exact plain
  counted := by
    rintro requested ⟨⟩ source name member
    simp at member

/-- Quotes, backslashes, spaces and operators in names and texts change no other token. -/
theorem tokens_alike_of_groupedBy :
    ∃ c c', (groupedBy "users" "city" "name" "Joe").compile .select = .ok c ∧
      (groupedBy "it's \"x\"" "Zip_2" "a, b" "\\' || 1 == 1 || '").compile .select = .ok c' ∧
      Forall₂ Token.Alike (tokens c.text) (tokens c'.text) := by
  have worded : (groupedBy "users" "city" "name" "Joe").WordedVariables :=
    groupedBy_worded (by decide)
  have worded' : (groupedBy "it's \"x\"" "Zip_2" "a, b" "\\' || 1 == 1 || '").WordedVariables :=
    groupedBy_worded (by decide)
  exact ⟨_, _, rfl, rfl, SameShape.tokens_alike (groupedBy_sameShape _ _ _ _ _ _ _ _) worded
    worded' .select rfl rfl⟩

/-- How many users have a field. -/
def countOfField (field : String) : Query where
  root := { name := "users" }
  projection := some [.countOf (.field 0 field)]

/-- The name of a counted field stands without quotes and is not looked at: a backtick in
it takes the text behind it for a name. -/
theorem tokens_unlike_of_countedBacktick :
    (countOfField "age").SameShape (countOfField "a`") ∧
      ∃ c c', (countOfField "age").compile .select = .ok c ∧
        (countOfField "a`").compile .select = .ok c' ∧
        ¬ Forall₂ Token.Alike (tokens c.text) (tokens c'.text) := by
  refine ⟨?_, _, _, rfl, rfl, ?_⟩
  · exact {
      root := ⟨rfl, rfl⟩
      joins := .nil
      clauses := .nil
      groups := .nil
      sorts := .nil
      offset := .none
      limit := .none
      projection := .some (.cons (.countOf (.field _ _ _)) .nil)
      distinct := .none
      updates := .nil
      paramCount_eq := rfl }
  · intro alike
    have lengths := alike.length_eq
    revert lengths
    decide

end Query

end DocStore
