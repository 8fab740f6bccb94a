/-
Module: DocStore.Proofs.Query.Orderly
Purpose: queries that keep their variables apart, and the clauses before their groups: the
  loops with the conditions of joins, the conditions, the order and the window.
Main exports:
  Expr.Structured, Query.Orderly, Scope.Stands, Query.headText_extends
-/
import DocStore.Proofs.Query.Clauses
import DocStore.Proofs.Query.Quoting
import DocStore.Proofs.Query.Within
import DocStore.Proofs.Text.Cutting

namespace DocStore

open Aql

namespace Aql

/-! ### Variables that differ -/

theorem IsSourceVariable.position_eq {i j : Nat} {word : String} (one : IsSourceVariable i word)
    (other : IsSourceVariable j word) : i = j := by
  rcases one with ⟨_, _, spelled⟩
  rcases other with ⟨_, _, spelled'⟩
  rw [spelled] at spelled'
  exact Text.toString_nat_injective (String.toList_injective (List.cons.inj spelled').2)

theorem underscore_notMem_toString (n : Nat) : '_' ∉ (toString n).toList := by
  rw [Text.toList_toString]
  exact Text.notMem_digitsOf (by decide) n

/-- The variable of a field is for one field of one source. -/
theorem IsFieldVariable.unique {i j : Nat} {field name word : String}
    (one : IsFieldVariable i field word) (other : IsFieldVariable j name word) :
    i = j ∧ field = name := by
  obtain ⟨_, _, spelled⟩ := one.toList_eq
  obtain ⟨_, _, spelled'⟩ := other.toList_eq
  rw [spelled] at spelled'
  obtain ⟨digits, names⟩ := Text.append_cons_inj (underscore_notMem_toString i)
    (underscore_notMem_toString j) (List.cons.inj spelled').2
  exact ⟨Text.toString_nat_injective (String.toList_injective digits),
    String.toList_injective names⟩

/-- No variable of a source is one of a field. -/
theorem IsSourceVariable.ne_field {i j : Nat} {word field name : String}
    (source : IsSourceVariable i word) (ofField : IsFieldVariable j field name) :
    word.toList ≠ name.toList := by
  rcases source with ⟨letter, lower, spelled⟩
  obtain ⟨_, _, spelled'⟩ := ofField.toList_eq
  rw [spelled, spelled']
  intro same
  apply underscore_notMem_toString i
  rw [(List.cons.inj same).2]
  simp

/-- The name of a count of all rows contains no position. -/
theorem ne_total_of_digit {word : String} {d : Char} (digit : d.isDigit = true)
    (member : d ∈ word.toList) : word.toList ≠ "total".toList := by
  intro same
  rw [same] at member
  have none : "total".toList.all (fun c => !c.isDigit) = true := by decide
  simpa [digit] using List.all_eq_true.mp none d member

theorem IsSourceVariable.ne_total {i : Nat} {word : String} (source : IsSourceVariable i word) :
    word.toList ≠ "total".toList := by
  rcases source with ⟨_, _, spelled⟩
  obtain ⟨d, member, digit⟩ := exists_digit_toString i
  exact ne_total_of_digit digit (by rw [spelled]; exact List.mem_cons_of_mem _ member)

theorem IsFieldVariable.ne_total {i : Nat} {field word : String}
    (ofField : IsFieldVariable i field word) : word.toList ≠ "total".toList := by
  obtain ⟨_, _, spelled⟩ := ofField.toList_eq
  obtain ⟨d, member, digit⟩ := exists_digit_toString i
  refine ne_total_of_digit digit ?_
  rw [spelled]
  exact List.mem_cons_of_mem _ (List.mem_append_left _ member)

end Aql

/-! ### Queries that keep their variables apart -/

/-- An expression without text taken as it is, whose functions have names. -/
def Expr.Structured (e : Expr) : Prop :=
  e.Within fun _ => True

/-- Expressions without text taken as it is.  The condition of a join looks at the sources
up to its own; no field is grouped by twice, or counted and grouped by; and the names that
become part of variables are words. -/
structure Query.Orderly (q : Query) : Prop where
  joins : ∀ i (inside : i < q.joins.length), q.joins[i].condition.Within (· ≤ i + 1)
  clauses : ∀ c ∈ q.clauses, c.condition.Structured
  sorts : ∀ t ∈ q.sorts, t.key.Structured
  offset : ∀ e ∈ q.offset, e.Structured
  limit : ∀ e ∈ q.limit, e.Structured
  projection : ∀ requested ∈ q.projection, ∀ e ∈ requested, e.Structured
  updates : ∀ u ∈ q.updates, u.value.Structured
  worded : q.WordedVariables
  groupedOnce : q.groups.Nodup
  countedApart : ∀ requested ∈ q.projection, ∀ target, .countOf target ∈ requested →
    target ∉ q.groups

/-- What the names in a scope are written with is visible, and nothing is introduced
twice. -/
structure Scope.Stands (s : Scope) (b : Bindings) : Prop where
  shows : s.Shows (fun _ => True) b.visible []
  once : b.introduced.Nodup

namespace Query

/-! ### Pieces of clauses -/

variable {operation : Operation} {q : Query} {s : Scope} {b : Bindings}

theorem foldClauses_mentions {visible : List (List Char)}
    (shows : s.Shows (fun _ => True) visible []) {clauses : List Clause}
    (structured : ∀ c ∈ clauses, c.condition.Structured) {connective : Connective}
    {before text : String} (piece : Mentions [] visible [] before)
    (is : foldClauses s connective before clauses = .ok text) : Mentions [] visible [] text := by
  induction clauses generalizing connective before with
  | nil =>
      cases is
      exact piece
  | cons c clauses inductionHypothesis =>
      rw [List.forall_mem_cons] at structured
      obtain ⟨condition, isCondition, rest⟩ := exceptBind_eq_ok_iff.mp is
      refine inductionHypothesis structured.2 ?_ rest
      have links : isLink c.connective.symbol = true := by
        cases c.connective <;> decide
      have conditions := (structured.1.mentions shows isCondition).parens
      rw [String.append_assoc]
      split
      · exact piece.linked links conditions
      · exact piece.parens.linked links conditions

theorem segmentText_continues (stands : s.Stands b) (kind : ClauseKind)
    (keeps : kind.binds = false) {segment : Segment} {clauses : List Clause}
    (structured : ∀ c ∈ clauses, c.condition.Structured) {text : String}
    (is : segmentText s kind.lead segment clauses = .ok text) : Continues operation b text b := by
  have chosen : ∀ c ∈ clauses.filter fun c => c.segment == segment, c.condition.Structured :=
    fun c member => structured c (List.mem_of_mem_filter member)
  unfold segmentText at is
  generalize clauses.filter (fun c => c.segment == segment) = kept at chosen is
  cases kept with
  | nil =>
      cases is
      exact .empty
  | cons first others =>
      rw [List.forall_mem_cons] at chosen
      obtain ⟨condition, isCondition, rest⟩ := exceptBind_eq_ok_iff.mp is
      obtain ⟨conditions, areConditions, rest⟩ := exceptBind_eq_ok_iff.mp rest
      cases rest
      have piece := foldClauses_mentions stands.shows chosen.2
        (chosen.1.mentions stands.shows isCondition).parens areConditions
      exact .using kind keeps piece stands.once

theorem sortTexts_mentions {visible : List (List Char)}
    (shows : s.Shows (fun _ => True) visible []) {sorts : List SortTerm}
    (structured : ∀ t ∈ sorts, t.key.Structured) {texts : List String}
    (are : sortTexts s sorts = .ok texts) : ∀ text ∈ texts, Mentions [] visible [] text := by
  induction sorts generalizing texts with
  | nil =>
      cases are
      simp
  | cons term sorts inductionHypothesis =>
      rw [List.forall_mem_cons] at structured
      obtain ⟨text, isText, rest⟩ := exceptBind_eq_ok_iff.mp are
      obtain ⟨more, areMore, rest⟩ := exceptBind_eq_ok_iff.mp rest
      cases rest
      refine List.forall_mem_cons.mpr ⟨?_, inductionHypothesis structured.2 areMore⟩
      have key := structured.1.mentions shows isText
      split
      · exact key.ended (by decide)
      · exact key

theorem sortText_continues (stands : s.Stands b) {sorts : List SortTerm}
    (structured : ∀ t ∈ sorts, t.key.Structured) {text : String}
    (is : sortText s sorts = .ok text) : Continues operation b text b := by
  unfold sortText at is
  split at is
  · cases is
    exact .empty
  · obtain ⟨texts, areTexts, rest⟩ := exceptBind_eq_ok_iff.mp is
    cases rest
    have piece := Mentions.joinUsing (sortTexts_mentions stands.shows structured areTexts)
    exact .using .sort rfl piece stands.once

theorem windowText_continues (stands : s.Stands b) {offset limit : Option Expr}
    (offsetStructured : ∀ e ∈ offset, e.Structured) (limitStructured : ∀ e ∈ limit, e.Structured)
    {text : String} (is : windowText s offset limit = .ok text) :
    Continues operation b text b := by
  unfold windowText at is
  split at is
  · next skip keep =>
      obtain ⟨skipped, isSkipped, rest⟩ := exceptBind_eq_ok_iff.mp is
      obtain ⟨kept, isKept, rest⟩ := exceptBind_eq_ok_iff.mp rest
      cases rest
      have comma : isLink ", " = true := rfl
      have piece := ((offsetStructured skip rfl).mentions stands.shows isSkipped).linked comma
        ((limitStructured keep rfl).mentions stands.shows isKept)
      rw [String.append_assoc, String.append_assoc]
      exact .using .limit rfl piece stands.once
  · next keep =>
      obtain ⟨kept, isKept, rest⟩ := exceptBind_eq_ok_iff.mp is
      cases rest
      exact .using .limit rfl ((limitStructured keep rfl).mentions stands.shows isKept) stands.once
  · cases is
  · cases is
    exact .empty

/-! ### Loops -/

/-- What is known after loops with certain variables. -/
def looped (words : List String) : Bindings where
  introduced := words.map String.toList
  visible := words.map String.toList

theorem looped_after (words : List String) (word : String) :
    (looped words).after .loop [word.toList] = looped (words ++ [word]) := by
  simp [looped, Bindings.after]

theorem isSourceVariable_of_rowVariables {i : Nat} {word : String}
    (found : q.rowVariables[i]? = some word) : IsSourceVariable i word := by
  rw [rowVariables, List.getElem?_map] at found
  obtain ⟨⟨source, position⟩, placed, rfl⟩ := Option.map_eq_some_iff.mp found
  rw [List.getElem?_zipIdx] at placed
  obtain ⟨_, _, same⟩ := Option.map_eq_some_iff.mp placed
  cases same
  rw [Nat.zero_add]
  exact isSourceVariable_variableOf _ i

/-- Every source has a variable of its own. -/
theorem nodup_rowVariables (q : Query) : (q.rowVariables.map String.toList).Nodup := by
  apply List.Nodup.map fun _ _ same => String.toList_injective same
  rw [List.nodup_iff_getElem?_ne_getElem?]
  intro i j before inside same
  rw [List.getElem?_eq_getElem inside] at same
  have one := isSourceVariable_of_rowVariables same
  have other := isSourceVariable_of_rowVariables (List.getElem?_eq_getElem inside)
  exact absurd (one.position_eq other) (Nat.ne_of_lt before)

/-- The scope of a query before grouping names the loop variables of the sources that have
one already. -/
theorem shows_looped {seen rest : List String} (parts : q.rowVariables = seen ++ rest)
    (n : Nat) : Scope.Shows { rowVariables := q.rowVariables, paramCount := n }
      (· < seen.length) (seen.map String.toList) [] where
  rows := by
    intro _ source word inReach found
    have named : q.rowVariables[source]? = some word := by
      unfold Scope.rowVariable Scope.rowVar at found
      dsimp only at found
      split at found
      · next known =>
          cases found
          exact known
      · cases found
    refine .visible (isSourceVariable_of_rowVariables named).isVariable ?_
    rw [parts, List.getElem?_append_left inReach] at named
    exact List.mem_map_of_mem (List.mem_of_getElem? named)
  groups := by simp

/-- The loops of joins go on with the variables of their sources.  A condition looks at the
sources up to its own. -/
theorem joinsText_continues {n : Nat} {seen : List String} {joins : List (String × Join)}
    (parts : q.rowVariables = seen ++ joins.map Prod.fst)
    (noBacktick : ∀ j ∈ joins, '`' ∉ j.2.source.name.toList)
    (within : ∀ i (inside : i < joins.length),
      joins[i].2.condition.Within (· ≤ seen.length + i)) {text : String}
    (is : joinsText { rowVariables := q.rowVariables, paramCount := n } joins = .ok text) :
    Continues operation (looped seen) text (looped q.rowVariables) := by
  induction joins generalizing seen text with
  | nil =>
      cases is
      rw [parts, List.map_nil, List.append_nil]
      exact .empty
  | cons entry joins inductionHypothesis =>
      obtain ⟨word, j⟩ := entry
      obtain ⟨first, isFirst, rest⟩ := exceptBind_eq_ok_iff.mp is
      obtain ⟨others, areOthers, rest⟩ := exceptBind_eq_ok_iff.mp rest
      cases rest
      have here : q.rowVariables = (seen ++ [word]) ++ joins.map Prod.fst := by
        simpa using parts
      have once : ((looped seen).introduced ++ [word.toList]).Nodup := by
        have all := nodup_rowVariables q
        rw [here, List.map_append] at all
        simpa [looped] using all.of_append_left
      have named : IsVariable word := by
        have placed : q.rowVariables[seen.length]? = some word := by
          rw [parts]
          simp
        exact (isSourceVariable_of_rowVariables placed).isVariable
      rw [List.forall_mem_cons] at noBacktick
      refine Continues.append ?_ (inductionHypothesis here noBacktick.2 ?_ areOthers)
      · unfold joinText at isFirst
        split at isFirst
        · cases isFirst
        · obtain ⟨condition, isCondition, made⟩ := exceptBind_eq_ok_iff.mp isFirst
          cases made
          have loop : Extends operation (looped seen) (loopText word j.source.name)
              (looped (seen ++ [word])) := by
            rw [← looped_after]
            exact .loop named noBacktick.1 once rfl
          have reached := within 0 (by simp)
          have sight := (shows_looped here n).narrow fun k (near : k ≤ seen.length + 0) => by
            rw [List.length_append, List.length_singleton]
            omega
          have piece := reached.mentions sight isCondition
          have filtered : Continues operation (looped (seen ++ [word])) (" FILTER " ++ condition)
              (looped (seen ++ [word])) :=
            .using .filter rfl piece (by simpa [looped] using once)
          have whole := loop.spaced.append filtered
          simpa only [String.append_assoc] using whole
      · intro i inside
        have later := within (i + 1) (by simpa using inside)
        have shifted : seen.length + (i + 1) = (seen ++ [word]).length + i := by
          rw [List.length_append, List.length_singleton]
          omega
        rw [shifted] at later
        exact later

theorem rowVariables_eq (q : Query) : q.rowVariables =
    [variableOf q.root.name 0] ++ (q.rowVariables.tail.zip q.joins).map Prod.fst := by
  have lengths : q.rowVariables.tail.length = q.joins.length := by
    simp [rowVariables, sources]
  rw [List.map_fst_zip (Nat.le_of_eq lengths)]
  simp [rowVariables, sources]

/-- Before grouping, all loop variables of a query can be used. -/
theorem scope_stands (is : q.scope = .ok s) : s.Stands (looped q.rowVariables) := by
  obtain ⟨_, rfl⟩ := scope_eq_ok_iff.mp is
  have all := shows_looped (List.append_nil q.rowVariables).symm q.params.length
  refine ⟨⟨fun ungrouped source word _ found => all.rows ungrouped ?_ found, all.groups⟩,
    nodup_rowVariables q⟩
  unfold Scope.rowVariable Scope.rowVar at found
  dsimp only at found
  split at found
  · next known => exact (List.getElem?_eq_some_iff.mp known).1
  · cases found

/-- After its head, a query knows its loop variables. -/
theorem headText_extends (orderly : q.Orderly) (is : q.scope = .ok s) {text : String}
    (isHead : q.headText s = .ok text) : Extends operation {} text (looped q.rowVariables) := by
  have stands := scope_stands is
  obtain ⟨named, rfl⟩ := scope_eq_ok_iff.mp is
  have noBacktick : ∀ source ∈ q.sources, '`' ∉ source.name.toList :=
    fun source member => noBacktick_of_isSourceName (named source member)
  obtain ⟨joins, areJoins, rest⟩ := exceptBind_eq_ok_iff.mp isHead
  obtain ⟨search, isSearch, rest⟩ := exceptBind_eq_ok_iff.mp rest
  obtain ⟨filter, isFilter, rest⟩ := exceptBind_eq_ok_iff.mp rest
  cases rest
  have root : Extends operation {} (loopText (variableOf q.root.name 0) q.root.name)
      (looped [variableOf q.root.name 0]) := by
    have word := (isSourceVariable_variableOf q.root.name 0).isVariable
    exact .loop word (noBacktick q.root List.mem_cons_self) (by simp) rfl
  have joined : Continues operation (looped [variableOf q.root.name 0]) joins
      (looped q.rowVariables) := by
    refine joinsText_continues (rowVariables_eq q) ?_ ?_ areJoins
    · intro entry member
      have ofJoin := (List.of_mem_zip member).2
      exact noBacktick _ (List.mem_cons_of_mem _ (List.mem_map_of_mem ofJoin))
    · intro i inside
      have bound : i < q.joins.length := by
        rw [List.length_zip] at inside
        omega
      rw [List.getElem_zip, List.length_singleton, Nat.add_comm 1 i]
      exact orderly.joins i bound
  have searched : Continues operation (looped q.rowVariables) search (looped q.rowVariables) :=
    segmentText_continues stands .search rfl orderly.clauses isSearch
  have filtered : Continues operation (looped q.rowVariables) filter (looped q.rowVariables) :=
    segmentText_continues stands .filter rfl orderly.clauses isFilter
  exact ((root.append joined).append searched).append filtered

end Query

end DocStore
