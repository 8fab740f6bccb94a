/-
Module: DocStore.Proofs.Query.Scoped
Purpose: the texts of queries are well scoped, as long as joins look back only and grouped
  and counted fields differ.
Main exports:
  Query.groupText_continues, Query.Orderly.text_wellScoped
-/
import DocStore.Proofs.Query.Orderly

namespace DocStore

open Aql

namespace Query

variable {operation : Operation} {q : Query} {s : Scope} {b : Bindings}

/-! ### Groups -/

/-- A group term binds the variable of its field to it. -/
structure IsGroupTerm (s : Scope) (term : GroupVariable × String) : Prop where
  named : ∃ row, s.rowVar term.1.source = .ok row ∧ term.1.name = row ++ "_" ++ term.1.field
  bound : ∃ text, s.field term.1.source term.1.field = .ok text ∧
    term.2 = term.1.name ++ " = " ++ text

theorem groupTerms_eq_ok {groups : List Expr} {terms : List (GroupVariable × String)}
    (are : groupTerms s groups = .ok terms) : (∀ term ∈ terms, IsGroupTerm s term) ∧
      groups = terms.map fun term => .field term.1.source term.1.field := by
  induction groups generalizing terms with
  | nil =>
      cases are
      simp
  | cons group groups inductionHypothesis =>
      cases group with
      | field source name =>
          obtain ⟨row, isRow, rest⟩ := exceptBind_eq_ok_iff.mp are
          obtain ⟨text, isText, rest⟩ := exceptBind_eq_ok_iff.mp rest
          obtain ⟨more, areMore, rest⟩ := exceptBind_eq_ok_iff.mp rest
          cases rest
          obtain ⟨each, same⟩ := inductionHypothesis areMore
          refine ⟨List.forall_mem_cons.mpr ⟨⟨⟨row, isRow, rfl⟩, text, isText, rfl⟩, each⟩, ?_⟩
          rw [List.map_cons, ← same]
      | _ => cases are

/-- A group term introduces its variable and looks at its field. -/
theorem IsGroupTerm.mentions {term : GroupVariable × String} (isTerm : IsGroupTerm s term)
    (named : IsVariable term.1.name) {visible : List (List Char)}
    (shows : s.Shows (fun _ => True) visible []) (ungrouped : s.grouped = none) :
    Mentions [term.1.name.toList] visible [] term.2 := by
  obtain ⟨text, isText, spelled⟩ := isTerm.bound
  obtain ⟨noBacktick, ⟨_, row, found, rfl⟩ | ⟨_, _, grouped, _⟩⟩ := Scope.field_cases isText
  · have mentionable := shows.rows ungrouped trivial found
    have read := mentionable.tokens_field noBacktick
    rw [spelled, String.append_assoc]
    apply named.defined (mentionable.field noBacktick)
    · rw [read]
      simp
    · rw [read]
      simp
  · rw [ungrouped] at grouped
    cases grouped

/-- The variables of group terms. -/
def groupNames (terms : List (GroupVariable × String)) : List (List Char) :=
  terms.map fun term => term.1.name.toList

/-- What counts are named: a variable that no loop and no group has. -/
structure IsCountName (q : Query) (name : String) : Prop where
  named : IsVariable name
  noLoop : name.toList ∉ q.rowVariables.map String.toList
  noGroup : ∀ source field word, .field source field ∈ q.groups →
    IsFieldVariable source field word → name.toList ≠ word.toList

section

variable {terms : List (GroupVariable × String)} (orderly : q.Orderly) (is : q.scope = .ok s)
  (areTerms : groupTerms s q.groups = .ok terms)
include orderly is areTerms

theorem groupTerms_named : ∀ term ∈ terms, .field term.1.source term.1.field ∈ q.groups ∧
    IsFieldVariable term.1.source term.1.field term.1.name := by
  intro term member
  obtain ⟨each, groups⟩ := groupTerms_eq_ok areTerms
  have among : .field term.1.source term.1.field ∈ q.groups := by
    rw [groups]
    exact List.mem_map_of_mem member
  obtain ⟨row, isRow, named⟩ := (each term member).named
  exact ⟨among, row, (scope_worded is).sources isRow, orderly.worded.grouped _ _ among, named⟩

/-- The variables of different group terms differ. -/
theorem nodup_groupNames : (groupNames terms).Nodup := by
  have named := groupTerms_named orderly is areTerms
  have once := orderly.groupedOnce
  rw [(groupTerms_eq_ok areTerms).2] at once
  rw [groupNames, List.nodup_map_iff_inj_on (List.Nodup.of_map _ once)]
  intro term member other among same
  have ofOther := (named other among).2
  rw [← String.toList_injective same] at ofOther
  obtain ⟨sources, fields⟩ := (named term member).2.unique ofOther
  exact List.inj_on_of_nodup_map once member among (by rw [sources, fields])

/-- No variable of a group is one of a loop. -/
theorem groupNames_apart {row : List Char} (isRow : row ∈ q.rowVariables.map String.toList) :
    row ∉ groupNames terms := by
  intro member
  obtain ⟨term, inside, same⟩ := List.mem_map.mp member
  obtain ⟨word, placed, rfl⟩ := List.mem_map.mp isRow
  obtain ⟨i, found⟩ := List.mem_iff_getElem?.mp placed
  have named := (groupTerms_named orderly is areTerms term inside).2
  exact (isSourceVariable_of_rowVariables found).ne_field named same.symm

/-- No variable of a group is that of a count. -/
theorem countName_apart {count : String} (counts : IsCountName q count) :
    count.toList ∉ groupNames terms := by
  intro member
  obtain ⟨term, inside, same⟩ := List.mem_map.mp member
  obtain ⟨among, named⟩ := groupTerms_named orderly is areTerms term inside
  exact counts.noGroup _ _ _ among named same.symm

/-- Loops, groups and a count have variables of their own. -/
theorem nodup_collected {count : Option String} (counted : ∀ name ∈ count, IsCountName q name) :
    ((looped q.rowVariables).introduced ++
      (groupNames terms ++ count.toList.map String.toList)).Nodup := by
  have loops : (looped q.rowVariables).introduced.Nodup := nodup_rowVariables q
  have groups := nodup_groupNames orderly is areTerms
  have apart : List.Disjoint (looped q.rowVariables).introduced (groupNames terms) :=
    fun row isRow => groupNames_apart orderly is areTerms isRow
  cases count with
  | none =>
      rw [Option.toList_none, List.map_nil, List.append_nil]
      exact loops.append groups apart
  | some name =>
      have counts := counted name rfl
      have noGroup := countName_apart orderly is areTerms counts
      rw [← List.append_assoc]
      apply (loops.append groups apart).append (by simp)
      intro other earlier isCount
      obtain rfl : other = name.toList := by simpa using isCount
      rcases List.mem_append.mp earlier with isRow | isGroup
      · exact counts.noLoop isRow
      · exact noGroup isGroup

/-- Group terms introduce their variables and look at the fields of the loops. -/
theorem groupTerms_mentions : Mentions (groupNames terms) (looped q.rowVariables).visible []
    (Text.join ", " (terms.map Prod.snd)) := by
  have ungrouped : s.grouped = none := by
    obtain ⟨_, rfl⟩ := scope_eq_ok_iff.mp is
    rfl
  have items : ∀ item ∈ terms.map fun term => ([term.1.name.toList], term.2),
      Mentions item.1 (looped q.rowVariables).visible [] item.2 := by
    intro item member
    obtain ⟨term, inside, rfl⟩ := List.mem_map.mp member
    have named := (groupTerms_named orderly is areTerms term inside).2.isVariable
    exact ((groupTerms_eq_ok areTerms).1 term inside).mentions named (scope_stands is).shows
      ungrouped
  have joined := Mentions.join items
  rw [List.map_map, List.flatMap_map] at joined
  simpa [groupNames, Function.comp_def, List.map_eq_flatMap] using joined

end

/-- A count next to groups introduces its variable, too. -/
theorem mentions_counting {introduced visible : List (List Char)} {text : String}
    (piece : Mentions introduced visible [] text) : ∀ count : Option String,
    (∀ name ∈ count, IsVariable name) →
      Mentions (introduced ++ count.toList.map String.toList) visible []
        (text ++ match count with
          | some name => " WITH COUNT INTO " ++ name
          | none => "") := by
  intro count named
  cases count with
  | none =>
      rw [Option.toList_none, List.map_nil, List.append_nil, String.append_empty]
      exact piece
  | some name =>
      have counting : " WITH COUNT INTO " ++ name = " WITH COUNT " ++ ("INTO " ++ name) := by
        rw [← String.append_assoc]
        rfl
      dsimp only
      rw [counting]
      exact piece.linked rfl (named name rfl).bound

/-- What is known after a group clause: its own variables take the place of all others. -/
def collected (q : Query) (names : List (List Char)) : Bindings :=
  (looped q.rowVariables).after .collect names

/-- A group clause introduces the variables of its terms and of its count, and hides the
loop variables. -/
theorem groupText_continues (orderly : q.Orderly) (is : q.scope = .ok s) (filled : q.groups ≠ [])
    {count : Option String} (counted : ∀ name ∈ count, IsCountName q name)
    {made : String × Scope} (isGroup : groupText s count q.groups = .ok made) :
    ∃ names, (∀ name ∈ count, name.toList ∈ names) ∧
      Continues operation (looped q.rowVariables) made.1 (collected q names) ∧
      made.2.Stands (collected q names) := by
  unfold groupText at isGroup
  rw [if_neg (by simpa using filled)] at isGroup
  obtain ⟨terms, areTerms, rest⟩ := exceptBind_eq_ok_iff.mp isGroup
  cases rest
  have once := nodup_collected orderly is areTerms counted
  refine ⟨groupNames terms ++ count.toList.map String.toList, ?_, ?_, ?_, once⟩
  · rintro name isSome
    simp [Option.mem_def.mp isSome]
  · have piece := mentions_counting (groupTerms_mentions orderly is areTerms) count
      fun name isSome => (counted name isSome).named
    have clause : Continues operation (looped q.rowVariables) _ _ :=
      .clause .collect (by decide) piece once (by simp)
    rw [String.append_assoc]
    exact clause
  · constructor
    · intro ungrouped
      cases ungrouped
    · rintro _ ⟨rfl⟩ v member
      obtain ⟨term, inside, rfl⟩ := List.mem_map.mp member
      refine .visible (groupTerms_named orderly is areTerms term inside).2.isVariable ?_
      exact List.mem_append_left _ (List.mem_map_of_mem inside)

/-! ### What is returned -/

/-- Whole rows are replaced by fields; all else is kept. -/
theorem mem_expandRows {requested exprs : List Expr} (are : q.expandRows requested = .ok exprs)
    {e : Expr} (member : e ∈ exprs) : e ∈ requested ∨ ∃ source name, e = .field source name := by
  induction requested generalizing exprs with
  | nil =>
      cases are
      cases member
  | cons first requested inductionHypothesis =>
      by_cases whole : ∃ source, first = .row source
      · rcases whole with ⟨source, rfl⟩
        obtain ⟨fields, areFields, rest⟩ := exceptBind_eq_ok_iff.mp are
        obtain ⟨more, areMore, rest⟩ := exceptBind_eq_ok_iff.mp rest
        cases rest
        rcases List.mem_append.mp member with ofRow | later
        · obtain ⟨_, entity, _, _, rfl⟩ := expandRow_eq_ok areFields
          obtain ⟨name, _, rfl⟩ := List.mem_map.mp ofRow
          exact .inr ⟨source, _, rfl⟩
        · exact (inductionHypothesis areMore later).imp_left (List.mem_cons_of_mem _)
      · rw [expandRows_cons fun source same => whole ⟨source, same⟩] at are
        obtain ⟨more, areMore, rest⟩ := exceptBind_eq_ok_iff.mp are
        cases rest
        rcases List.mem_cons.mp member with rfl | later
        · exact .inl List.mem_cons_self
        · exact (inductionHypothesis areMore later).imp_left (List.mem_cons_of_mem _)

/-- A projection is a count that stands alone, or the requested expressions. -/
theorem resolveProjection_cases {p : Projection} (is : q.resolveProjection s = .ok p) :
    (∃ count name, q.projection.getD [.row 0] = [count] ∧ countName s count = .ok name ∧
        p = .count name) ∨
      ∃ exprs, q.expandRows (q.projection.getD [.row 0]) = .ok exprs ∧ p = .fields exprs := by
  unfold resolveProjection at is
  generalize q.projection.getD [.row 0] = requested at is ⊢
  cases requested with
  | nil => cases is
  | cons first others =>
      dsimp only at is
      split at is
      · obtain ⟨exprs, areExprs, rfl⟩ := exceptMap_eq_ok_iff.mp is
        exact .inr ⟨exprs, areExprs, rfl⟩
      · cases others with
        | nil =>
            obtain ⟨name, isName, rfl⟩ := exceptMap_eq_ok_iff.mp is
            exact .inl ⟨first, name, rfl, isName, rfl⟩
        | cons _ _ =>
            dsimp only at is
            split at is <;> cases is

theorem structured_of_fields (orderly : q.Orderly) {exprs : List Expr}
    (is : q.resolveProjection s = .ok (.fields exprs)) : ∀ e ∈ exprs, e.Structured := by
  intro e member
  obtain ⟨_, _, _, _, other⟩ | ⟨_, areExprs, same⟩ := resolveProjection_cases is
  · cases other
  · cases same
    rcases mem_expandRows areExprs member with requested | ⟨source, name, rfl⟩
    · cases given : q.projection with
      | none =>
          rw [given] at requested
          obtain rfl := List.mem_singleton.mp requested
          exact .row trivial
      | some exprs =>
          rw [given] at requested
          exact orderly.projection exprs given e requested
    · exact .field trivial name

/-- A count is named after all rows or after a field that is not grouped by. -/
theorem isCountName_of_count (orderly : q.Orderly) (isScope : q.scope = .ok s) {name : String}
    (is : q.resolveProjection s = .ok (.count name)) : IsCountName q name := by
  have rowNames : ∀ row ∈ q.rowVariables.map String.toList,
      ∃ i word, IsSourceVariable i word ∧ word.toList = row := by
    intro row isRow
    obtain ⟨word, placed, same⟩ := List.mem_map.mp isRow
    obtain ⟨i, found⟩ := List.mem_iff_getElem?.mp placed
    exact ⟨i, word, isSourceVariable_of_rowVariables found, same⟩
  have total : IsCountName q "total" := by
    refine ⟨⟨⟨'t', "otal".toList, rfl, rfl, rfl⟩, rfl⟩, ?_, ?_⟩
    · intro isRow
      obtain ⟨_, _, named, same⟩ := rowNames _ isRow
      exact named.ne_total same
    · intro _ _ _ _ named same
      exact named.ne_total same.symm
  obtain ⟨count, _, single, isName, same⟩ | ⟨_, _, other⟩ := resolveProjection_cases is
  · cases same
    unfold countName at isName
    split at isName
    · cases isName
      exact total
    · cases isName
      exact total
    · next source field =>
        obtain ⟨row, isRow, rfl⟩ := exceptMap_eq_ok_iff.mp isName
        cases given : q.projection with
        | none =>
            rw [given] at single
            cases single
        | some requested =>
            obtain rfl : requested = [.countOf (.field source field)] := by
              rw [given] at single
              exact single
            have plain := orderly.worded.counted _ given source field (by simp)
            have named : IsFieldVariable source field (row ++ "_" ++ field) :=
              ⟨row, (scope_worded isScope).sources isRow, plain, rfl⟩
            refine ⟨named.isVariable, ?_, ?_⟩
            · intro isLoop
              obtain ⟨_, _, ofSource, same⟩ := rowNames _ isLoop
              exact ofSource.ne_field named same
            · intro source' field' word grouped ofGroup same
              rw [← String.toList_injective same] at ofGroup
              obtain ⟨rfl, rfl⟩ := named.unique ofGroup
              exact orderly.countedApart _ given _ (by simp) grouped
    · cases isName
  · cases other

theorem rowText_mentions {visible pseudo : List (List Char)}
    (shows : s.Shows (fun _ => True) visible pseudo) {exprs : List Expr}
    (structured : ∀ e ∈ exprs, e.Structured) {text : String} (is : rowText s exprs = .ok text) :
    Mentions [] visible pseudo text := by
  obtain ⟨texts, areTexts, rest⟩ := exceptBind_eq_ok_iff.mp is
  cases rest
  have each := (Expr.allWithin_iff.mpr structured).mentionsAll shows areTexts
  rw [String.append_assoc]
  exact ((Mentions.joinUsing each).ended rfl).behind rfl

/-- What a mutation returns can look at the changed documents. -/
theorem returningText_continues (orderly : q.Orderly) (is : q.scope = .ok s) {pseudo : String}
    (stands : operation.pseudo? = some pseudo) {made : String × List String}
    (isReturning : q.returningText s pseudo = .ok made) :
    Continues operation (looped q.rowVariables) made.1 (looped q.rowVariables) := by
  unfold returningText at isReturning
  split at isReturning
  · cases isReturning
    exact .empty
  · obtain ⟨p, isProjection, rest⟩ := exceptBind_eq_ok_iff.mp isReturning
    cases p with
    | count _ => cases rest
    | fields exprs =>
        obtain ⟨row, isRow, rest⟩ := exceptBind_eq_ok_iff.mp rest
        cases rest
        have before := (scope_stands is).shows
        have shows : Scope.Shows { s with returned := some pseudo } (fun _ => True)
            (looped q.rowVariables).visible [pseudo.toList] := by
          obtain ⟨_, rfl⟩ := scope_eq_ok_iff.mp is
          constructor
          · intro ungrouped source word inReach found
            cases source with
            | zero =>
                cases found
                exact .changed stands
            | succ source =>
                have same : Mentionable (looped q.rowVariables).visible [] word :=
                  before.rows ungrouped inReach found
                cases same with
                | visible named member => exact .visible named member
                | pseudo _ member => cases member
          · simp
        have structured := structured_of_fields orderly isProjection
        exact .returning (rowText_mentions shows structured isRow) (scope_stands is).once
          (by simpa using stands)

/-! ### Operations -/

/-- What a selection says behind its groups: it keeps to what is known there. -/
theorem sortedWindow_continues (orderly : q.Orderly) (stands : s.Stands b) {sort window : String}
    (isSort : sortText s q.sorts = .ok sort)
    (isWindow : windowText s q.offset q.limit = .ok window) :
    Continues operation b (sort ++ window) b :=
  (sortText_continues stands orderly.sorts isSort).append
    (windowText_continues stands orderly.offset orderly.limit isWindow)

theorem IsCountName.nodup_collected {name : String} (counts : IsCountName q name) :
    (collected q [name.toList]).introduced.Nodup := by
  have loops : (looped q.rowVariables).introduced.Nodup := nodup_rowVariables q
  apply loops.append (by simp)
  intro row isRow isCount
  obtain rfl : row = name.toList := by simpa using isCount
  exact counts.noLoop isRow

/-- The count of a query without groups is what it collects. -/
theorem counting_continues {name : String} (counts : IsCountName q name) :
    Continues operation (looped q.rowVariables) (" COLLECT WITH COUNT INTO " ++ name)
      (collected q [name.toList]) := by
  have piece : Mentions [name.toList] (looped q.rowVariables).visible []
      ("WITH COUNT " ++ ("INTO " ++ name)) := counts.named.bound.behind rfl
  have clause : Continues operation (looped q.rowVariables) _ _ :=
    .clause .collect (by decide) piece counts.nodup_collected (by simp)
  have spelled : " COLLECT WITH COUNT INTO " ++ name =
      ClauseKind.collect.lead ++ ("WITH COUNT " ++ ("INTO " ++ name)) := by
    apply String.toList_injective
    simp [ClauseKind.lead]
  rw [spelled]
  exact clause

/-- What a counting selection returns. -/
theorem countReturned_continues (once : b.introduced.Nodup) {name : String}
    (named : IsVariable name) (known : name.toList ∈ b.visible) :
    Continues operation b (" RETURN " ++ name) b := by
  have piece : Mentions [] b.visible [] name := Mentionable.mentions (.visible named known)
  exact .returning piece once (by simp)

theorem groupText_of_nil {count : Option String} {made : String × Scope}
    (is : groupText s count [] = .ok made) : made = ("", s) := by
  cases is
  rfl

/-- A selection that counts returns its count. -/
theorem countText_continues (orderly : q.Orderly) (is : q.scope = .ok s) {name : String}
    (counts : IsCountName q name) {made : String × Scope} {sort window : String}
    (isGroup : groupText s (some name) q.groups = .ok made)
    (isSort : sortText made.2 q.sorts = .ok sort)
    (isWindow : windowText made.2 q.offset q.limit = .ok window) :
    ∃ c, Continues operation (looped q.rowVariables) (made.1 ++ (sort ++ window) ++
      (if q.groups.isEmpty then " COLLECT WITH COUNT INTO " ++ name else "") ++
        (" RETURN " ++ name)) c := by
  by_cases filled : q.groups = []
  · rw [filled] at isGroup ⊢
    obtain rfl := groupText_of_nil isGroup
    have stands := scope_stands is
    have found : Continues operation (looped q.rowVariables) ("" ++ (sort ++ window))
        (looped q.rowVariables) :=
      Continues.empty.append (sortedWindow_continues orderly stands isSort isWindow)
    refine ⟨collected q [name.toList], ?_⟩
    exact (found.append (counting_continues counts)).append
      (countReturned_continues counts.nodup_collected counts.named List.mem_cons_self)
  · obtain ⟨names, among, groups, stands⟩ :=
      groupText_continues orderly is filled (by simpa using counts) isGroup
    refine ⟨collected q names, ?_⟩
    rw [if_neg (by simpa using filled), String.append_empty]
    exact (groups.append (sortedWindow_continues orderly stands isSort isWindow)).append
      (countReturned_continues stands.once counts.named (among name rfl))

/-- A selection that does not count returns its fields. -/
theorem fieldsText_continues (orderly : q.Orderly) (is : q.scope = .ok s) {exprs : List Expr}
    (structured : ∀ e ∈ exprs, e.Structured) {made : String × Scope}
    {sort window distinct row : String} (isGroup : groupText s none q.groups = .ok made)
    (isSort : sortText made.2 q.sorts = .ok sort)
    (isWindow : windowText made.2 q.offset q.limit = .ok window)
    (isDistinct : distinctText q.distinct = .ok distinct)
    (isRow : rowText made.2 exprs = .ok row) :
    ∃ c, Continues operation (looped q.rowVariables)
      (made.1 ++ (sort ++ window) ++ (" RETURN " ++ (distinct ++ row))) c := by
  have grouped : ∃ c, Continues operation (looped q.rowVariables) made.1 c ∧ made.2.Stands c := by
    by_cases filled : q.groups = []
    · rw [filled] at isGroup
      obtain rfl := groupText_of_nil isGroup
      exact ⟨_, .empty, scope_stands is⟩
    · obtain ⟨names, _, groups, stands⟩ :=
        groupText_continues orderly is filled (by simp) isGroup
      exact ⟨_, groups, stands⟩
  obtain ⟨c, groups, stands⟩ := grouped
  have fields := rowText_mentions stands.shows structured isRow
  have leads : isLead distinct = true := by
    unfold distinctText at isDistinct
    split at isDistinct <;> cases isDistinct <;> rfl
  have piece : Mentions [] c.visible [] (distinct ++ row) := fields.behind leads
  exact ⟨c, (groups.append (sortedWindow_continues orderly stands isSort isWindow)).append
    (.returning piece stands.once (by simp))⟩

theorem selectText_continues (orderly : q.Orderly) (is : q.scope = .ok s)
    {made : String × List String} (isBody : q.selectText s = .ok made) :
    ∃ c, Continues operation (looped q.rowVariables) made.1 c := by
  obtain ⟨p, isProjection, rest⟩ := exceptBind_eq_ok_iff.mp isBody
  obtain ⟨⟨group, t⟩, isGroup, rest⟩ := exceptBind_eq_ok_iff.mp rest
  obtain ⟨sort, isSort, rest⟩ := exceptBind_eq_ok_iff.mp rest
  obtain ⟨window, isWindow, rest⟩ := exceptBind_eq_ok_iff.mp rest
  cases p with
  | count name =>
      cases rest
      have counts := isCountName_of_count orderly is isProjection
      have whole : ∃ c, Continues operation (looped q.rowVariables) _ c :=
        countText_continues orderly is counts isGroup isSort isWindow
      simpa only [String.append_assoc] using whole
  | fields exprs =>
      obtain ⟨distinct, isDistinct, rest⟩ := exceptBind_eq_ok_iff.mp rest
      obtain ⟨row, isRow, rest⟩ := exceptBind_eq_ok_iff.mp rest
      cases rest
      have structured := structured_of_fields orderly isProjection
      have whole : ∃ c, Continues operation (looped q.rowVariables) _ c :=
        fieldsText_continues orderly is structured isGroup isSort isWindow isDistinct isRow
      simpa only [String.append_assoc] using whole

theorem inName_mentions {visible pseudo : List (List Char)} {piece name : String}
    (mentions : Mentions [] visible pseudo piece) (noBacktick : '`' ∉ name.toList) :
    Mentions [] visible pseudo (piece ++ (" IN `" ++ name ++ "`")) := by
  rw [inName_eq]
  exact mentions.linked rfl (Mentions.name noBacktick)

/-- The variable of the root can be used while the loops are known. -/
theorem mentions_root (q : Query) :
    Mentions [] (looped q.rowVariables).visible [] (variableOf q.root.name 0) := by
  have named := (isSourceVariable_variableOf q.root.name 0).isVariable
  refine Mentionable.mentions (.visible named ?_)
  rw [rowVariables_eq]
  exact List.mem_cons_self

theorem deleteText_continues (orderly : q.Orderly) (is : q.scope = .ok s)
    {made : String × List String} (isBody : q.deleteText s = .ok made) :
    Continues .delete (looped q.rowVariables) made.1 (looped q.rowVariables) := by
  obtain ⟨_, _, rest⟩ := exceptBind_eq_ok_iff.mp isBody
  obtain ⟨sort, isSort, rest⟩ := exceptBind_eq_ok_iff.mp rest
  obtain ⟨window, isWindow, rest⟩ := exceptBind_eq_ok_iff.mp rest
  obtain ⟨⟨returning, columns⟩, isReturning, rest⟩ := exceptBind_eq_ok_iff.mp rest
  cases rest
  have stands := scope_stands is
  have noBacktick := noBacktick_of_isSourceName
    ((scope_eq_ok_iff.mp is).1 q.root List.mem_cons_self)
  have removed : Continues .delete (looped q.rowVariables)
      (" REMOVE " ++ variableOf q.root.name 0 ++ " IN `" ++ q.root.name ++ "`")
      (looped q.rowVariables) := by
    have clause : Continues .delete (looped q.rowVariables) _ _ :=
      .using .remove rfl (inName_mentions (mentions_root q) noBacktick) stands.once
    simpa only [ClauseKind.lead, String.append_assoc] using clause
  exact ((sortedWindow_continues orderly stands isSort isWindow).append removed).append
    (returningText_continues orderly is rfl isReturning)

/-- The key of a field in an object. -/
theorem isLead_key {name : String} (noBacktick : '`' ∉ name.toList) :
    isLead ("`" ++ name ++ "`: ") = true := by
  have scanned := scan_backticks (s := .rest) rfl noBacktick
  have ends : endState ("`" ++ name ++ "`") = .rest := by
    rw [endState, scanned]
  have parts : "`" ++ name ++ "`: " = ("`" ++ name ++ "`") ++ ": " := by
    apply String.toList_injective
    simp
  have read : tokens ("`" ++ name ++ "`: ") = [.name name.toList, .sign ':'] := by
    rw [parts, tokens_append_of_rest ends, tokens, scanned]
    rfl
  rw [isLead, read, parts, endState_append_of_rest ends]
  rfl

theorem isFunctionName_push : IsFunctionName "PUSH" :=
  IsFunctionPart.isFunctionName ⟨⟨'P', "USH".toList, rfl, rfl, rfl, rfl⟩, rfl, rfl⟩

theorem isFunctionName_removeValue : IsFunctionName "REMOVE_VALUE" :=
  IsFunctionPart.isFunctionName ⟨⟨'R', "EMOVE_VALUE".toList, rfl, rfl, rfl, rfl⟩, rfl, rfl⟩

theorem assignmentText_mentions {visible : List (List Char)}
    (shows : s.Shows (fun _ => True) visible []) {u : Update} (structured : u.value.Structured)
    {text : String} (is : assignmentText s u = .ok text) : Mentions [] visible [] text := by
  obtain ⟨target, isTarget, rest⟩ := exceptBind_eq_ok_iff.mp is
  obtain ⟨value, isValue, rest⟩ := exceptBind_eq_ok_iff.mp rest
  cases rest
  have targets := shows.field trivial isTarget
  have values := structured.mentions shows isValue
  have noBacktick := (Scope.field_cases isTarget).1
  refine Mentions.behind (isLead_key noBacktick) ?_
  cases u.kind with
  | set => exact values
  | inc =>
      dsimp only
      rw [String.append_assoc]
      exact targets.linked rfl (u.value.mentions_asOperand values)
  | push =>
      have called : "PUSH(" ++ target ++ ", " ++ value ++ ")" =
          "PUSH" ++ parens (target ++ (", " ++ value)) := by
        apply String.toList_injective
        simp [parens]
      dsimp only
      rw [called]
      exact isFunctionName_push.mentions (targets.linked rfl values)
  | pull =>
      have called : "REMOVE_VALUE(" ++ target ++ ", " ++ value ++ ", 1)" =
          "REMOVE_VALUE" ++ parens (target ++ (", " ++ (value ++ ", 1"))) := by
        apply String.toList_injective
        simp [parens]
      dsimp only
      rw [called]
      exact isFunctionName_removeValue.mentions (targets.linked rfl (values.ended rfl))

theorem assignmentTexts_mentions {visible : List (List Char)}
    (shows : s.Shows (fun _ => True) visible []) {updates : List Update}
    (structured : ∀ u ∈ updates, u.value.Structured) {texts : List String}
    (are : assignmentTexts s updates = .ok texts) :
    ∀ text ∈ texts, Mentions [] visible [] text := by
  induction updates generalizing texts with
  | nil =>
      cases are
      simp
  | cons u updates inductionHypothesis =>
      rw [List.forall_mem_cons] at structured
      obtain ⟨text, isText, rest⟩ := exceptBind_eq_ok_iff.mp are
      obtain ⟨more, areMore, rest⟩ := exceptBind_eq_ok_iff.mp rest
      cases rest
      exact List.forall_mem_cons.mpr ⟨assignmentText_mentions shows structured.1 isText,
        inductionHypothesis structured.2 areMore⟩

theorem updateText_continues (orderly : q.Orderly) (is : q.scope = .ok s)
    {made : String × List String} (isBody : q.updateText s = .ok made) :
    Continues .update (looped q.rowVariables) made.1 (looped q.rowVariables) := by
  obtain ⟨_, _, rest⟩ := exceptBind_eq_ok_iff.mp isBody
  obtain ⟨sort, isSort, rest⟩ := exceptBind_eq_ok_iff.mp rest
  obtain ⟨window, isWindow, rest⟩ := exceptBind_eq_ok_iff.mp rest
  split at rest
  · cases rest
  · obtain ⟨texts, areTexts, rest⟩ := exceptBind_eq_ok_iff.mp rest
    obtain ⟨⟨returning, columns⟩, isReturning, rest⟩ := exceptBind_eq_ok_iff.mp rest
    cases rest
    have stands := scope_stands is
    have noBacktick := noBacktick_of_isSourceName
      ((scope_eq_ok_iff.mp is).1 q.root List.mem_cons_self)
    have assigned := Mentions.joinUsing
      (assignmentTexts_mentions stands.shows orderly.updates areTexts)
    have updated : Continues .update (looped q.rowVariables)
        (" UPDATE " ++ variableOf q.root.name 0 ++ " WITH \x7b" ++ Text.join ", " texts ++
          "\x7d IN `" ++ q.root.name ++ "`") (looped q.rowVariables) := by
      have objects : Mentions [] (looped q.rowVariables).visible []
          (variableOf q.root.name 0 ++ (" WITH \x7b" ++ (Text.join ", " texts ++ "\x7d"))) :=
        (mentions_root q).linked rfl (assigned.ended rfl)
      have clause : Continues .update (looped q.rowVariables) _ _ :=
        .using .update rfl (inName_mentions objects noBacktick) stands.once
      have spelled : " UPDATE " ++ variableOf q.root.name 0 ++ " WITH \x7b" ++
          Text.join ", " texts ++ "\x7d IN `" ++ q.root.name ++ "`" =
            ClauseKind.update.lead ++ (variableOf q.root.name 0 ++
              (" WITH \x7b" ++ (Text.join ", " texts ++ "\x7d")) ++
                (" IN `" ++ q.root.name ++ "`")) := by
        apply String.toList_injective
        simp [ClauseKind.lead]
      rw [spelled]
      exact clause
    exact ((sortedWindow_continues orderly stands isSort isWindow).append updated).append
      (returningText_continues orderly is rfl isReturning)

/-- The text of a query introduces every variable once and uses it in its scope: loop
variables behind their loops and before any grouping, group variables and the count behind
it.  The documents that a mutation changes are looked at where it returns only. -/
theorem Orderly.text_wellScoped (orderly : q.Orderly) {c : CompiledQuery}
    (compiled : q.compile operation = .ok c) : WellScoped operation c.text := by
  unfold compile at compiled
  split at compiled
  · next text columns made =>
      cases compiled
      obtain ⟨s, isScope, rest⟩ := exceptBind_eq_ok_iff.mp made
      obtain ⟨head, isHead, rest⟩ := exceptBind_eq_ok_iff.mp rest
      obtain ⟨⟨body, _⟩, isBody, rest⟩ := exceptBind_eq_ok_iff.mp rest
      cases rest
      have leads : Extends operation {} head (looped q.rowVariables) :=
        headText_extends orderly isScope isHead
      have goesOn : ∃ d, Continues operation (looped q.rowVariables) body d := by
        cases operation with
        | select => exact selectText_continues orderly isScope isBody
        | delete => exact ⟨_, deleteText_continues orderly isScope isBody⟩
        | update => exact ⟨_, updateText_continues orderly isScope isBody⟩
      obtain ⟨_, goesOn⟩ := goesOn
      exact (leads.append goesOn).wellScoped
  · cases compiled

/-- How many orders users with long names have, by city and by the state of the order. -/
def ordersByCity : Query where
  root := { name := "users" }
  joins := [⟨.inner, { name := "orders" }, .binary .eq (.field 1 "user") (.field 0 "_key")⟩]
  clauses := [⟨.filter, .and,
    .binary .gt (.call "LENGTH" [.field 0 "name"]) (.literal (.int 9))⟩]
  groups := [.field 0 "city", .field 1 "state"]
  sorts := [⟨.descending, .field 0 "city"⟩]
  projection := some [.countOf (.field 1 "total")]

theorem ordersByCity_orderly : ordersByCity.Orderly where
  joins := by
    rintro (_ | i) inside
    · exact .binary .eq (.field (by decide) _) (.field (by decide) _)
    · exact absurd inside (by simp [ordersByCity])
  clauses := by
    intro c member
    obtain rfl := List.mem_singleton.mp member
    have named : IsFunctionName "LENGTH" :=
      IsFunctionPart.isFunctionName ⟨⟨'L', "ENGTH".toList, rfl, rfl, rfl, rfl⟩, rfl, rfl⟩
    exact .binary .gt (.call named (.cons (.field trivial _) .nil)) (.literal _)
  sorts := by
    intro t member
    obtain rfl := List.mem_singleton.mp member
    exact .field trivial _
  offset := by simp [ordersByCity]
  limit := by simp [ordersByCity]
  projection := by
    rintro _ ⟨rfl⟩ e member
    obtain rfl := List.mem_singleton.mp member
    exact .countOf (.field trivial _)
  updates := by simp [ordersByCity]
  worded := by
    constructor
    · intro source name member
      simp only [ordersByCity, List.mem_cons, Expr.field.injEq, List.not_mem_nil,
        or_false] at member
      rcases member with ⟨_, rfl⟩ | ⟨_, rfl⟩ <;> rfl
    · rintro _ ⟨rfl⟩ source name member
      cases List.mem_singleton.mp member
      rfl
  groupedOnce := by simp [ordersByCity]
  countedApart := by
    rintro _ ⟨rfl⟩ target member
    cases List.mem_singleton.mp member
    simp [ordersByCity]

theorem text_wellScoped_of_ordersByCity :
    ∃ c, ordersByCity.compile .select = .ok c ∧ WellScoped .select c.text :=
  ⟨_, rfl, Orderly.text_wellScoped ordersByCity_orderly rfl⟩

/-- A join whose condition looks at a source that is joined after it. -/
def lookingAhead : Query where
  root := { name := "users" }
  joins := [⟨.inner, { name := "orders" }, .binary .eq (.field 2 "order") (.field 1 "_key")⟩,
    ⟨.inner, { name := "items" }, .binary .eq (.field 1 "user") (.field 0 "_key")⟩]
  projection := some [.field 0 "name"]

/-- A source that does not exist is refused, but one whose loop comes later is not: its
variable is used before it is introduced. -/
theorem not_wellScoped_of_lookingAhead :
    ∃ c, lookingAhead.compile .select = .ok c ∧ ¬ WellScoped .select c.text :=
  ⟨_, rfl, by decide +kernel⟩

/-- The users by some fields. -/
def usersBy (groups projection : List Expr) : Query where
  root := { name := "users" }
  groups := groups
  projection := some projection

/-- A field that is grouped by twice is introduced twice, and so is one that is counted and
grouped by. -/
example :
    (∃ c, (usersBy [.field 0 "a", .field 0 "a"] [.field 0 "a"]).compile .select = .ok c ∧
      ¬ WellScoped .select c.text) ∧
    ∃ c, (usersBy [.field 0 "a"] [.countOf (.field 0 "a")]).compile .select = .ok c ∧
      ¬ WellScoped .select c.text :=
  ⟨⟨_, rfl, by decide +kernel⟩, _, rfl, by decide +kernel⟩

end Query

end DocStore
