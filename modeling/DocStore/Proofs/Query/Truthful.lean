/-
Module: DocStore.Proofs.Query.Truthful
Purpose: the store in memory answers a legible query with what it asks for, or refuses it.
Main exports:
  SelectionText.ReadAs.denotes, Query.Legible.truthful
-/
import DocStore.Proofs.Query.Agreement
import DocStore.Proofs.Query.Shown

namespace DocStore

open Text Statement

/-- Conditions that are all filters are those that a document has to meet. -/
theorem Query.meets_eq {q : Query} (filtersOnly : ∀ c ∈ q.clauses, c.segment = .filter)
    (m : Meaning) (d : Document) :
    q.meets m d = Clause.holdTogether (Clause.holds m q.params d) q.clauses := by
  have searches : q.clauses.filter (·.segment == .search) = [] := by
    rw [List.filter_eq_nil_iff]
    intro c member
    simp [filtersOnly c member]
  have filters : q.clauses.filter (·.segment == .filter) = q.clauses := by
    rw [List.filter_eq_self]
    intro c member
    simp [filtersOnly c member]
  rw [meets, searches, filters]
  rfl

/-! ### What the store reads in a legible query -/

namespace SelectionText

variable {t : SelectionText} {q : Query} {exprs : List Expr} {st : Statement}

/-- The documents that a selection without groups finds, as the store reads it, are shown as
the query asks for it. -/
theorem ReadAs.denotes (readAs : t.ReadAs q q.bound st) (legible : q.Legible)
    (of : t.Of q q.plainScope exprs) (requested : q.projection = some exprs)
    {aql : List Char} (unmixed : Unmixed q.rowChars aql)
    (filterFound : clause? " FILTER " aql = t.filter) (sortFound : clause? " SORT " aql = t.sort)
    {names : List String} (row : readProjection? q.rowChars t.row = some names) (m : Meaning)
    (documents : List Document) :
    q.Denotes m documents ((st.found documents).map fun d => .arr (names.map d.value)) := by
  rcases of.sort with ⟨sortTexts, sortRendered, sortWritten⟩
  rcases of.window with ⟨windowTexts, windowRendered, windowWritten⟩
  rcases of.row with ⟨rowTexts, rowRendered, rowWritten⟩
  rcases legible.returns_fields with ⟨requestedExprs, returned, fields⟩
  cases requested.symm.trans returned
  have meets : (fun d : Document => d.satisfies st.filters) = q.meets m := by
    funext d
    rw [Query.meets_eq legible.filtersOnly]
    exact Document.satisfies_eq_holdTogether of.filter legible.conditions_legible readAs.filters
      (fun body member => unmixed.fields body (filterFound.trans member))
      (fun body member => unmixed.texts body (filterFound.trans member)) m d
  have order : q.compareBy m = compareDocuments st.sorts := by
    refine Query.compareBy_eq (readAs_of_sortTexts legible.keys_legible sortRendered ?_ ?_) m
    · rw [← sortWritten]
      exact readAs.sorts
    · rw [← sortWritten]
      exact fun body member => unmixed.keys body (sortFound.trans member)
  have window : q.window? m ((documents.filter (q.meets m)).mergeSort fun a b =>
      compareDocuments st.sorts a b != .gt) = some (st.found documents) := by
    rcases readAs.window with ⟨counts, countsRead, windowed⟩
    rw [windowWritten] at countsRead windowed
    rw [Query.window?_eq legible.window_legible of.limited windowRendered countsRead windowed m,
      Statement.found, meets]
  have shown : ∀ d, q.rowOf m d = .arr (names.map d.value) := by
    rw [rowWritten] at row
    have named := names_of_readProjection? (fun e member => by
      rcases fields e member with ⟨source, name, own, _⟩
      exact ⟨source, name, own⟩) rowRendered row
    exact Query.rowOf_eq requested named m
  refine ⟨_, _, ?_, window, fun _ => ?_, fun asked => ?_⟩
  · rw [order]
    exact stablySorted_mergeSort _ _
  · exact List.map_congr_left fun d _ => (shown d).symm
  · rw [legible.notDistinct] at asked
    cases asked

/-- Groups cannot be shown: the row of a grouped query is not read. -/
theorem Of.readProjection?_eq_none {s : Scope} (of : t.Of q s exprs)
    (fields : ∀ e ∈ exprs, ∃ source name, e = .field source name)
    (grouped : ∀ {source : Nat} {name text : String}, s.field source name = .ok text →
      '`' ∉ text.toList) : readProjection? q.rowChars t.row = none := by
  rcases of.row with ⟨texts, rendered, written⟩
  rw [written]
  apply Statement.readProjection?_eq_none
  have each : ∀ text ∈ texts, '`' ∉ text.toList := by
    intro text member
    rcases exists_left_of_forall₂ (forall₂_of_renderAll rendered) member with ⟨e, inExprs, own⟩
    rcases fields e inExprs with ⟨source, name, rfl⟩
    exact grouped own
  clear rendered written
  cases texts with
  | nil => simp
  | cons text texts =>
      rw [List.forall_mem_cons] at each
      rw [List.map_cons, intercalate_cons_eq_append_flatMap]
      simp only [List.mem_append, List.mem_flatMap, List.mem_map, not_or]
      refine ⟨each.1, ?_⟩
      rintro ⟨piece, ⟨other, member, rfl⟩, inPiece⟩
      rcases inPiece with inSeparator | inText
      · revert inSeparator
        decide
      · exact each.2 other member inText

end SelectionText

namespace Query.Legible

variable {q : Query} {s : Store} {database : Option String} {c : StoredCollection}

/-- The text of a legible query is run without a change of the store.  The store refuses it,
or it answers with just the rows that the query asks for, which has no groups then. -/
theorem runQuery_eq (legible : q.Legible) {r : Request}
    (stored : (s.database (s.databaseOf r)).collections.get? q.root.name = some c)
    {compiled : CompiledQuery} (is : q.compile .select = .ok compiled) :
    ∃ answer, s.runQuery r compiled.text compiled.bindVars = (answer, s) ∧
      (answer = .error (.unsupportedQuery compiled.text) ∨
        ∃ rows, answer = .ok rows ∧ q.groups = [] ∧
          ∀ m : Meaning, q.Denotes m c.documents rows) := by
  rcases legible.exists_text is with
    ⟨noBacktick, params, t, scope, exprs, requested, of, still, spelled⟩
  have bindVars : compiled.bindVars = q.bound := by
    unfold CompiledQuery.bindVars bound
    rw [params]
    rfl
  rw [Store.runQuery, bindVars]
  cases read : Statement.read? compiled.text q.bound with
  | none => exact ⟨_, rfl, .inl rfl⟩
  | some st =>
      have readAs := t.readAs_of_read? still legible.name_unmarked noBacktick spelled read
      have found := readAs.collection ▸ stored
      simp only
      rw [Store.runStatement_reading readAs.effect found]
      refine ⟨_, rfl, ?_⟩
      rw [Statement.rows, readAs.ending]
      cases row : readProjection? q.rowChars t.row with
      | none => exact .inl rfl
      | some names =>
          rcases of.group with ⟨ungrouped, rfl⟩ | ⟨_, grouped⟩
          · have unmixed := spelled ▸ legible.unmixed compiled is
            rcases t.clause?_found still legible.name_unmarked with ⟨filter, sort, _⟩
            exact .inr ⟨_, rfl, ungrouped, fun m => readAs.denotes legible of requested unmixed
              filter sort row m c.documents⟩
          · rcases legible.returns_fields with ⟨_, returned, fields⟩
            cases requested.symm.trans returned
            have nothing := of.readProjection?_eq_none (fun e member => by
              rcases fields e member with ⟨source, name, own, _⟩
              exact ⟨source, name, own⟩) grouped
            cases row.symm.trans nothing

/-- A legible query, compiled and run through a cursor of the store, leaves all documents as
they are.  It is refused as unsupported, or else it has no groups and is answered with just
the rows that it asks for. -/
theorem truthful (legible : q.Legible) (batch : 0 < s.batchSize)
    (stored : (s.database (database.getD s.home)).collections.get? q.root.name = some c)
    {compiled : CompiledQuery} (is : q.compile .select = .ok compiled) :
    ∃ outcome s', (Exchange.runCursor database compiled.text compiled.bindVars none).Ends
        Store.server s outcome s' ∧ (∀ name, s'.database name = s.database name) ∧
      ((∃ refusal, refusal = Refusal.unsupportedQuery compiled.text ∧
          outcome = .error (.store refusal.status refusal.number refusal.message)) ∨
        ∃ rows, outcome = .ok rows ∧ q.groups = [] ∧
          ∀ m : Meaning, q.Denotes m c.documents rows) := by
  let r := Store.startRequest database compiled.text compiled.bindVars none
  have noted := Store.sameData_noteQuery s r compiled.text
  have kept : ((s.noteQuery r compiled.text).database
      ((s.noteQuery r compiled.text).databaseOf r)).collections.get? q.root.name = some c := stored
  rcases legible.runQuery_eq kept is with ⟨answer, run, rfl | ⟨rows, rfl, ungrouped, denotes⟩⟩
  · exact ⟨_, _, Store.ends_runCursor_error s.opened_none run, noted.database_eq,
      .inl ⟨_, rfl, rfl⟩⟩
  · rcases Store.ends_runCursor_ok s.opened_none batch run rfl (Store.opened_none _) with
      ⟨s', ends, sameAfter⟩
    exact ⟨_, s', ends, (noted.trans sameAfter).database_eq, .inr ⟨rows, rfl, ungrouped, denotes⟩⟩

end Query.Legible

/-- The oldest user called Ann who is active. -/
def oldestAnn : Query :=
  { root := { name := "users" }
    clauses := [⟨.filter, .and, .binary .eq (.field 0 "name") (.literal (.text "Ann"))⟩,
      ⟨.filter, .and, .binary .eq (.field 0 "active") (.param 0)⟩]
    sorts := [⟨.descending, .field 0 "age"⟩]
    limit := some (.literal (.int 1))
    projection := some [.field 0 "name"]
    params := [.bool true] }

theorem oldestAnn_legible : oldestAnn.Legible where
  noJoins := rfl
  filtersOnly := by decide
  notDistinct := rfl
  name_unmarked := by decide
  conditions_legible c member := by
    have text : (Literal.text "Ann").Legible := (by decide : Unmarked "Ann".toList)
    simp only [oldestAnn, List.mem_cons, List.not_mem_nil, or_false] at member
    rcases member with rfl | rfl
    · exact .binary .eq (.field 0 (by decide)) (.literal text)
    · exact .binary .eq (.field 0 (by decide)) (.param 0)
  groups_silent := nofun
  keys_legible t member := by
    rw [oldestAnn, List.mem_singleton] at member
    rw [member]
    exact .field 0 (by decide)
  offset_legible := nofun
  limit_legible e member := by
    cases member
    exact .literal ⟨by decide, by decide⟩
  returns_fields := by
    refine ⟨_, rfl, fun e member => ?_⟩
    rw [List.mem_singleton.mp member]
    exact ⟨0, "name", rfl, by decide⟩
  unmixed compiled is := by
    have all : ∀ compiled ∈ (oldestAnn.compile .select).toOption,
        Unmixed oldestAnn.rowChars compiled.text.toList := by decide +kernel
    exact all compiled (by rw [is]; rfl)

/-- One row is found for the oldest Ann, and it is the one that is asked for. -/
theorem truthful_on_oldestAnn :
    ∃ compiled row s', oldestAnn.compile .select = .ok compiled ∧
      (Exchange.runCursor none compiled.text compiled.bindVars none).Ends Store.server userStore
        (.ok [row]) s' ∧ (∀ name, s'.database name = userStore.database name) ∧
      ∀ m : Meaning, oldestAnn.Denotes m userCollection.documents [row] := by
  have counted : ∀ compiled ∈ (oldestAnn.compile .select).toOption,
      ((Exchange.runCursor none compiled.text compiled.bindVars none).runOn Store.server
        userStore).outcome.toOption.map List.length = some 1 := by decide +kernel
  have compiles : ∃ compiled, oldestAnn.compile .select = .ok compiled := ⟨_, rfl⟩
  rcases compiles with ⟨compiled, is⟩
  have one := counted compiled (by rw [is]; rfl)
  have stored : (userStore.database ((none : Option String).getD userStore.home)).collections.get?
      oldestAnn.root.name = some userCollection := rfl
  rcases oldestAnn_legible.truthful (by decide) stored is with
    ⟨outcome, s', ends, kept, ⟨_, _, rfl⟩ | ⟨rows, rfl, _, denotes⟩⟩
  · rw [ends.1] at one
    cases one
  · rw [ends.1] at one
    rcases List.length_eq_one_iff.mp (Option.some.inj one) with ⟨row, rfl⟩
    exact ⟨compiled, row, s', is, ends, kept, denotes⟩

/-- The users called Ann or Bob. -/
def annOrBob : Query :=
  { root := { name := "users" }
    clauses := [⟨.filter, .and, .binary .eq (.field 0 "name") (.literal (.text "Ann"))⟩,
      ⟨.filter, .or, .binary .eq (.field 0 "name") (.literal (.text "Bob"))⟩]
    projection := some [.field 0 "name"] }

/-- The quotes of the first name and of the last are taken for those of one text, so that the
store answers a query for two names with nobody. -/
theorem nobody_for_annOrBob :
    ∃ compiled s', annOrBob.compile .select = .ok compiled ∧
      DistinctKeys userCollection.documents ∧
      (Exchange.runCursor none compiled.text compiled.bindVars none).Ends Store.server userStore
        (.ok []) s' ∧ ∀ m : Meaning, ¬ annOrBob.Denotes m userCollection.documents [] := by
  have counted : ∀ compiled ∈ (annOrBob.compile .select).toOption,
      ((Exchange.runCursor none compiled.text compiled.bindVars none).runOn Store.server
        userStore).outcome.toOption.map List.length = some 0 := by decide +kernel
  have compiles : ∃ compiled, annOrBob.compile .select = .ok compiled := ⟨_, rfl⟩
  rcases compiles with ⟨compiled, is⟩
  have none_found := counted compiled (by rw [is]; rfl)
  rcases Exchange.exists_ends Store.server userStore
    (Exchange.runCursor none compiled.text compiled.bindVars none) with ⟨outcome, s', ends⟩
  rw [ends.1] at none_found
  cases outcome with
  | error e => cases none_found
  | ok rows =>
      cases List.length_eq_zero_iff.mp (Option.some.inj none_found)
      refine ⟨compiled, s', is, distinctKeys_userCollection, ends, fun m denotes => ?_⟩
      rcases denotes with ⟨sorted, shown, stably, window, plain, _⟩
      cases window
      have nobody : sorted = [] := List.map_eq_nil_iff.mp (plain rfl).symm
      have meets : annOrBob.meets m (userDocument "a" "Ann" 31 true) = true := by
        have own : (userDocument "a" "Ann" 31 true).value "name" == .str "Ann" := by decide
        rw [Query.meets_eq (by decide)]
        simp [annOrBob, Clause.holdTogether, Clause.holds, Connective.join, Expr.value,
          Literal.value, m.truth_eq, own]
      have found : userDocument "a" "Ann" 31 true ∈ sorted :=
        stably.perm.mem_iff.mpr (List.mem_filter.mpr ⟨List.mem_cons_self, meets⟩)
      rw [nobody] at found
      cases found

end DocStore
