/-
Module: DocStore.Proofs.Query.Agreement
Purpose: what a plain query asks for is what the store in memory does with its compiled
  text.
Main exports:
  Query.Finds, Query.Answers, Query.Plain.store_agrees
-/
import DocStore.Proofs.Memory.Keys
import DocStore.Proofs.Memory.Paging
import DocStore.Proofs.Memory.Writes
import DocStore.Proofs.Query.Reading
import DocStore.Proofs.Query.Sorting

namespace DocStore

open Text Statement

namespace Query

/-- The documents that a query is about: those that meet its conditions, stably
sorted by its criteria, within its window. -/
def Finds (q : Query) (documents found : List Document) : Prop :=
  ∃ sorted, StablySorted q.compareRows (documents.filter q.holdsOf) sorted ∧
    found = q.inWindow sorted

/-- The query, compiled for an operation and run through a cursor outside of
transactions, ends with the rows and leaves the store as given. -/
def Answers (q : Query) (operation : Operation) (database : Option String) (s : Store)
    (rows : List Json) (s' : Store) : Prop :=
  ∃ compiled, q.compile operation = .ok compiled ∧
    (Exchange.runCursor database compiled.text compiled.bindVars none).Ends Store.server s
      (.ok rows) s'

theorem mem_of_mem_inWindow {α : Type} {q : Query} {rows : List α} {a : α}
    (member : a ∈ q.inWindow rows) : a ∈ rows := by
  unfold inWindow at member
  cases limited : q.limit <;> cases skipped : q.offset <;>
    simp only [limited, skipped] at member
  · exact member
  · exact List.mem_of_mem_drop member
  · exact List.mem_of_mem_take member
  · exact List.mem_of_mem_drop (List.mem_of_mem_take member)

theorem Finds.mem {q : Query} {documents found : List Document} (finds : q.Finds documents found)
    {d : Document} (member : d ∈ found) : d ∈ documents := by
  rcases finds with ⟨sorted, stably, rfl⟩
  exact (List.mem_filter.mp (stably.perm.mem_iff.mp (mem_of_mem_inWindow member))).1

end Query

namespace PlainParts

/-- The statement that the store reads, but for what happens to the rows. -/
def statement (p : PlainParts) (q : Query) (effect : StatementEffect) (ending : StatementEnding) :
    Statement :=
  { collection := q.root.name
    filters := p.equations.map fun e => (e.1, q.params.getD e.2 .null)
    sorts := p.criteria
    window := p.window.toPair
    effect
    ending }

variable {p : PlainParts} {q : Query}

theorem Of.compareRows_eq (parts : p.Of q) : q.compareRows = compareDocuments p.criteria := by
  funext a b
  exact Query.compareRows_eq parts.criteria_eq a b

theorem Of.transCmp (parts : p.Of q) : Std.TransCmp q.compareRows :=
  parts.compareRows_eq ▸ transCmp_compareDocuments p.criteria

/-- The store finds the documents that the query is about. -/
theorem Of.finds (parts : p.Of q) (effect : StatementEffect) (ending : StatementEnding)
    (documents : List Document) :
    q.Finds documents ((p.statement q effect ending).found documents) := by
  have same : (fun d : Document => d.satisfies (p.statement q effect ending).filters) = q.holdsOf :=
    funext fun d => (Query.holdsOf_eq parts.equations_eq d).symm
  rw [Query.Finds, parts.compareRows_eq]
  refine ⟨_, stablySorted_mergeSort (compareDocuments p.criteria) _, ?_⟩
  rw [Query.inWindow_eq parts.offset_eq parts.limit_eq, Statement.found, same]
  rfl

theorem Of.finds_unique (parts : p.Of q) {documents one other : List Document}
    (first : q.Finds documents one) (second : q.Finds documents other) : one = other := by
  have := parts.transCmp
  rcases first with ⟨_, stablyOne, rfl⟩
  rcases second with ⟨_, stablyOther, rfl⟩
  rw [stablyOne.unique stablyOther]

end PlainParts

/-! ### Running the statement -/

namespace Query.Plain

variable {q : Query} {p : PlainParts} {s : Store} {database : Option String} {c : StoredCollection}

/-- A query whose text the store reads as a reading statement leaves the store, which has
noted the query. -/
theorem runQuery_reading {text : String} {bindVars : Dict Json} {ending : StatementEnding}
    {rows : List Json} (r : Request)
    (stored : (s.database (s.databaseOf r)).collections.get? q.root.name = some c)
    (read : Statement.read? text bindVars = some (p.statement q .reading ending))
    (shown : (p.statement q .reading ending).rows text
      ((p.statement q .reading ending).found c.documents) = .ok rows) :
    (s.noteQuery r text).runQuery r text bindVars = (.ok rows, s.noteQuery r text) := by
  have kept : ((s.noteQuery r text).database ((s.noteQuery r text).databaseOf r)).collections.get?
      q.root.name = some c := stored
  rw [Store.runQuery, read]
  simp only
  rw [Store.runStatement_reading rfl kept, shown]

/-- A query whose text the store reads as a reading statement answers with the rows
of the documents that are found. -/
theorem answers_reading {operation : Operation} {text : String} {columns : List String}
    {ending : StatementEnding} {rows : List Json} (batch : 0 < s.batchSize)
    (stored : (s.database (database.getD s.home)).collections.get? q.root.name = some c)
    (compiled : q.compile operation = .ok ⟨text, q.params, columns⟩)
    (read : Statement.read? text (CompiledQuery.bindVars ⟨text, q.params, columns⟩) =
      some (p.statement q .reading ending))
    (shown : (p.statement q .reading ending).rows text
      ((p.statement q .reading ending).found c.documents) = .ok rows) :
    ∃ s', q.Answers operation database s rows s' ∧ ∀ name, s'.database name = s.database name := by
  let r := Store.startRequest database text (CompiledQuery.bindVars ⟨text, q.params, columns⟩) none
  have same := Store.sameData_noteQuery s r text
  have run := runQuery_reading r stored read shown
  rcases Store.ends_runCursor_ok (s.opened_none) batch run rfl (Store.opened_none _) with
    ⟨s', ends, sameAfter⟩
  exact ⟨s', ⟨_, compiled, ends⟩, (same.trans sameAfter).database_eq⟩

/-- A query whose text the store reads as a removal answers with the rows of the
documents that are found, and removes these. -/
theorem answers_removal {operation : Operation} {text : String} {columns : List String}
    {ending : StatementEnding} {rows : List Json} (batch : 0 < s.batchSize)
    (stored : (s.database (database.getD s.home)).collections.get? q.root.name = some c)
    (compiled : q.compile operation = .ok ⟨text, q.params, columns⟩)
    (read : Statement.read? text (CompiledQuery.bindVars ⟨text, q.params, columns⟩) =
      some (p.statement q .removal ending))
    (shown : (p.statement q .removal ending).rows text
      ((p.statement q .removal ending).found c.documents) = .ok rows) :
    ∃ s', q.Answers operation database s rows s' ∧
      ∀ name, s'.database name = if name = database.getD s.home then
        (s.database name).putCollection q.root.name
          (c.removeAll ((p.statement q .removal ending).found c.documents))
      else s.database name := by
  let bindVars := CompiledQuery.bindVars ⟨text, q.params, columns⟩
  let r := Store.startRequest database text bindVars none
  let after := (s.noteQuery r text).putCollection (database.getD s.home) q.root.name
    (c.removeAll ((p.statement q .removal ending).found c.documents))
  have run : (s.noteQuery r text).runQuery r text bindVars = (.ok rows, after) := by
    rw [Store.runQuery, read]
    simp only
    rw [Store.runStatement_removal rfl rfl stored, shown, Store.removeFound_outside rfl]
    rfl
  rcases Store.ends_runCursor_ok (s.opened_none) batch run rfl (Store.opened_none _) with
    ⟨s', ends, sameAfter⟩
  refine ⟨s', ⟨_, compiled, ends⟩, fun name => ?_⟩
  rw [sameAfter.database_eq]
  split
  · next own =>
      subst own
      exact Store.database_putDatabase_self _ _ _
  · next other => exact Store.database_putDatabase_of_ne _ _ other

variable {found : List Document}

/-- The text of a selection is read back as a statement that only reads. -/
theorem select_read (plain : q.Plain) (parts : p.Of q) {names : List String}
    (nonempty : names ≠ []) (named : ∀ name ∈ names, isPlainName name = true)
    (projection : q.projection = some (names.map (.field 0))) :
    ∃ text columns, q.compile .select = .ok ⟨text, q.params, columns⟩ ∧
      Statement.read? text (CompiledQuery.bindVars ⟨text, q.params, columns⟩) =
        some (p.statement q .reading (.fields names)) := by
  rcases plain.compile_select parts nonempty named projection with
    ⟨text, columns, compiled, spelled⟩
  have endings := endings_returnFields parts.isRow nonempty named
  have fields := readProjection?_rowBody p.row
    (fun name _ => by rw [readField?_fieldText, Option.some_or])
    (parts.isRow.notMem (by decide) (by decide)) nonempty named
  have effect := parts.effect_reading plain endings
    (by decide : "REMOVE".toList ∉ ["RETURN".toList])
  have ending : readEnding p.row (p.loopText ++ layout (p.clauses ++ [returnFields p.row names])) =
      .fields names := parts.ending_fields plain [] endings (by simp) (by simp) fields
  have read := parts.read?_text plain endings columns spelled
  rw [spelled, effect, ending] at read
  exact ⟨text, columns, compiled, read⟩

/-- A selection answers with the fields of each document, missing ones being null. -/
theorem select_agrees (plain : q.Plain) (batch : 0 < s.batchSize)
    (stored : (s.database (database.getD s.home)).collections.get? q.root.name = some c)
    (finds : q.Finds c.documents found) {names : List String} (nonempty : names ≠ [])
    (named : ∀ name ∈ names, isPlainName name = true)
    (projection : q.projection = some (names.map (.field 0))) :
    ∃ s', q.Answers .select database s (found.map fun d => .arr (names.map d.value)) s' ∧
      ∀ name, s'.database name = s.database name := by
  rcases plain.exists_parts with ⟨p, parts⟩
  rcases plain.select_read parts nonempty named projection with ⟨text, columns, compiled, read⟩
  rw [parts.finds_unique finds (parts.finds .reading (.fields names) c.documents)]
  exact answers_reading batch stored compiled read rfl

/-- A selection, inside of a transaction or outside, answers with the fields of each
document. -/
theorem ends_select (plain : q.Plain) (batch : 0 < s.batchSize) {t : Option Transaction}
    (opened : s.Opened t)
    (stored : (s.database (s.target database t)).collections.get? q.root.name = some c)
    (finds : q.Finds c.documents found) {names : List String} (nonempty : names ≠ [])
    (named : ∀ name ∈ names, isPlainName name = true)
    (projection : q.projection = some (names.map (.field 0))) :
    ∃ text columns s', q.compile .select = .ok ⟨text, q.params, columns⟩ ∧
      (Exchange.runCursor database text (CompiledQuery.bindVars ⟨text, q.params, columns⟩)
        t).Ends Store.server s (.ok (found.map fun d => .arr (names.map d.value))) s' ∧
      Store.SameData s s' := by
  rcases plain.exists_parts with ⟨p, parts⟩
  rcases plain.select_read parts nonempty named projection with ⟨text, columns, compiled, read⟩
  let r := Store.startRequest database text (CompiledQuery.bindVars ⟨text, q.params, columns⟩) t
  have noted := Store.sameData_noteQuery s r text
  have addressed : s.databaseOf r = s.target database t := s.databaseOf_inTransaction _ t
  rw [← addressed] at stored
  have run := runQuery_reading r stored read rfl
  rw [← parts.finds_unique finds (parts.finds .reading (.fields names) c.documents)] at run
  rcases Store.ends_runCursor_ok opened batch run rfl (opened.of_sameData noted) with
    ⟨s', ends, same⟩
  exact ⟨text, columns, s', compiled, ends, noted.trans same⟩

/-- A selection from a collection that is not there is refused. -/
theorem ends_select_missing (plain : q.Plain)
    (missing : (s.database (database.getD s.home)).collections.get? q.root.name = none)
    {names : List String} (nonempty : names ≠ [])
    (named : ∀ name ∈ names, isPlainName name = true)
    (projection : q.projection = some (names.map (.field 0))) :
    ∃ text columns e s', q.compile .select = .ok ⟨text, q.params, columns⟩ ∧
      (Exchange.runCursor database text (CompiledQuery.bindVars ⟨text, q.params, columns⟩)
        none).Ends Store.server s (.error e) s' ∧ Store.SameData s s' := by
  rcases plain.exists_parts with ⟨p, parts⟩
  rcases plain.select_read parts nonempty named projection with ⟨text, columns, compiled, read⟩
  let r := Store.startRequest database text (CompiledQuery.bindVars ⟨text, q.params, columns⟩) none
  have absent : ((s.noteQuery r text).database ((s.noteQuery r text).databaseOf r)).collection
      q.root.name = .error (.noSource q.root.name) := by
    have none_there : ((s.noteQuery r text).database
        ((s.noteQuery r text).databaseOf r)).collections.get? q.root.name = none := missing
    rw [Database.collection, none_there]
  have run : (s.noteQuery r text).runQuery r text
      (CompiledQuery.bindVars ⟨text, q.params, columns⟩) =
        (.error (.noSource q.root.name), s.noteQuery r text) := by
    rw [Store.runQuery, read]
    simp only [Store.runStatement, PlainParts.statement, absent]
    rfl
  exact ⟨text, columns, _, _, compiled, Store.ends_runCursor_error s.opened_none run,
    Store.sameData_noteQuery s r text⟩

/-- A selection has no effect besides reading. -/
theorem effect_of_select (plain : q.Plain) {names : List String} (nonempty : names ≠ [])
    (named : ∀ name ∈ names, isPlainName name = true)
    (projection : q.projection = some (names.map (.field 0))) {compiled : CompiledQuery}
    (is : q.compile .select = .ok compiled) {statement : Statement}
    (reads : Statement.read? compiled.text compiled.bindVars = some statement) :
    statement.effect = .reading := by
  rcases plain.exists_parts with ⟨p, parts⟩
  rcases plain.select_read parts nonempty named projection with ⟨text, columns, same, read⟩
  cases is.symm.trans same
  cases reads.symm.trans read
  rfl

/-- A count answers with the number of the documents. -/
theorem count_agrees (plain : q.Plain) (batch : 0 < s.batchSize)
    (stored : (s.database (database.getD s.home)).collections.get? q.root.name = some c)
    (finds : q.Finds c.documents found) (projection : q.projection = some [.countRows]) :
    ∃ s', q.Answers .select database s [.int found.length] s' ∧
      ∀ name, s'.database name = s.database name := by
  rcases plain.exists_parts with ⟨p, parts⟩
  rcases plain.compile_count parts projection with ⟨text, columns, compiled, spelled⟩
  have read := parts.read?_text plain endings_returnCount columns spelled
  rw [spelled, parts.effect_reading plain endings_returnCount (by decide), p.ending_count] at read
  rw [parts.finds_unique finds (parts.finds .reading .count c.documents)]
  exact answers_reading batch stored compiled read rfl

/-- The documents that a removal answers with. -/
def removedRows (found : List Document) : Option (List String) → List Json
  | none => []
  | some names => found.map fun d => .arr (names.map d.value)

/-- A removal removes the documents, and each of the others stays as it is. -/
theorem delete_agrees (plain : q.Plain) (batch : 0 < s.batchSize)
    (stored : (s.database (database.getD s.home)).collections.get? q.root.name = some c)
    (keys : DistinctKeys c.documents) (finds : q.Finds c.documents found)
    {returned : Option (List String)} (removes : q.Removes returned) :
    ∃ s' kept, q.Answers .delete database s (removedRows found returned) s' ∧
      kept.Sublist c.documents ∧ (∀ d, d ∈ kept ↔ d ∈ c.documents ∧ d ∉ found) ∧
      ∀ name, s'.database name = if name = database.getD s.home then
          (s.database name).putCollection q.root.name { c with documents := kept }
        else s.database name := by
  rcases plain.exists_parts with ⟨p, parts⟩
  rcases plain.compile_delete parts removes with ⟨text, columns, compiled, spelled⟩
  have endings := endings_removal parts.isRow
    (parts.name_eq ▸ plain.name_plain : isPlainName p.name = true) removes.2
  have ending : ∃ ending, readEnding p.row (p.loopText ++
        layout (p.clauses ++ removeRows p.row p.name :: returnRemoved returned)) = ending ∧
      ∀ documents, (p.statement q .removal ending).rows text documents =
        .ok (removedRows documents returned) := by
    cases returned with
    | none =>
        refine ⟨.nothing, parts.ending_nothing plain endings ?_ ?_, fun _ => rfl⟩
        · exact (by decide : "COLLECT".toList ∉ ["REMOVE".toList])
        · exact (by decide : "RETURN".toList ∉ ["REMOVE".toList])
    | some names =>
        rcases removes.2 names rfl with ⟨nonempty, named⟩
        have fields := readProjection?_rowBody p.row
          (fun name _ => readField?_removed parts.isRow name) (by decide) nonempty named
        refine ⟨.fields names, parts.ending_fields plain [removeRows p.row p.name] endings ?_ ?_
          fields, fun _ => rfl⟩
        · exact (by decide : "COLLECT".toList ∉ ["REMOVE".toList])
        · exact (by decide : "RETURN".toList ∉ ["REMOVE".toList])
  rcases ending with ⟨ending, endingRead, shown⟩
  have read := parts.read?_text plain endings columns spelled
  rw [spelled, p.effect_removal, endingRead] at read
  have part : ∀ d ∈ found, d ∈ c.documents := fun d member => finds.mem member
  rw [parts.finds_unique finds (parts.finds .removal ending c.documents)] at part ⊢
  rcases answers_removal batch stored compiled read (shown _) with ⟨s', answers, after⟩
  exact ⟨s', _, answers, List.filter_sublist, keys.mem_removeAll_iff part, after⟩

/-- A plain query, compiled and run through a cursor of the store, does what it asks
for.  Exactly one list of documents is found: those that meet the conditions, stably
sorted and cut to the window.  A selection of fields answers with these fields of
each, missing ones being null; a count with their number; and a removal removes just
these documents, each of the others staying as it is. -/
theorem store_agrees (plain : q.Plain) (batch : 0 < s.batchSize)
    (stored : (s.database (database.getD s.home)).collections.get? q.root.name = some c)
    (keys : DistinctKeys c.documents) :
    ∃ found, q.Finds c.documents found ∧ (∀ other, q.Finds c.documents other → other = found) ∧
      (∀ names, names ≠ [] → (∀ name ∈ names, isPlainName name = true) →
        q.projection = some (names.map (.field 0)) →
        ∃ s', q.Answers .select database s (found.map fun d => .arr (names.map d.value)) s' ∧
          ∀ name, s'.database name = s.database name) ∧
      (q.projection = some [.countRows] →
        ∃ s', q.Answers .select database s [.int found.length] s' ∧
          ∀ name, s'.database name = s.database name) ∧
      (∀ returned, q.Removes returned →
        ∃ s' kept, q.Answers .delete database s (removedRows found returned) s' ∧
          kept.Sublist c.documents ∧ (∀ d, d ∈ kept ↔ d ∈ c.documents ∧ d ∉ found) ∧
          ∀ name, s'.database name = if name = database.getD s.home then
              (s.database name).putCollection q.root.name { c with documents := kept }
            else s.database name) := by
  rcases plain.exists_parts with ⟨p, parts⟩
  have finds := parts.finds .reading .nothing c.documents
  refine ⟨_, finds, fun other otherFinds => parts.finds_unique otherFinds finds, ?_, ?_, ?_⟩
  · exact fun names nonempty named projection =>
      plain.select_agrees batch stored finds nonempty named projection
  · exact fun projection => plain.count_agrees batch stored finds projection
  · exact fun returned removes => plain.delete_agrees batch stored keys finds removes

end Query.Plain

/-- A document about a user. -/
def userDocument (key name : String) (age : Int) (active : Bool) : Document :=
  ⟨[("_key", .str key), ("active", .bool active), ("age", .int age), ("name", .str name)]⟩

/-- A collection of users, one of whom is not active. -/
def userCollection : StoredCollection :=
  { properties := {}
    documents := [userDocument "a" "Ann" 31 true, userDocument "b" "Bob" 52 false,
      userDocument "c" "Cid" 44 true] }

theorem distinctKeys_userCollection : DistinctKeys userCollection.documents := by
  constructor
  · intro d member
    simp only [userCollection, List.mem_cons, List.not_mem_nil, or_false] at member
    rcases member with rfl | rfl | rfl <;> exact ⟨_, rfl⟩
  · have key : ∀ key name age active,
        (userDocument key name age active).value "_key" = .str key :=
      fun _ _ _ _ => rfl
    simp [userCollection, key]

/-- A store with the collection of users. -/
def userStore : Store :=
  { databases := ⟨[("_system", { collections := ⟨[("users", userCollection)]⟩ })]⟩ }

/-- The names of the two oldest active users. -/
def oldestActive : Query :=
  { root := { name := "users" }
    clauses := [⟨.filter, .and, .binary .eq (.field 0 "active") (.param 0)⟩]
    sorts := [⟨.descending, .field 0 "age"⟩]
    limit := some (.literal (.int 2))
    projection := some [.field 0 "name"]
    params := [.bool true] }

theorem oldestActive_plain : oldestActive.Plain where
  overCollection := rfl
  name_plain := by decide
  noJoins := rfl
  noGroups := rfl
  notDistinct := Or.inl rfl
  clauses_plain c member := by
    rw [oldestActive, List.mem_singleton] at member
    exact ⟨"active", 0, member, by decide, by decide⟩
  sorts_plain t member := by
    rw [oldestActive, List.mem_singleton] at member
    exact ⟨.descending, "age", member, by decide⟩
  offset_plain := Or.inl rfl
  limit_plain := Or.inr ⟨2, by decide, rfl⟩
  offset_limited := nofun

theorem store_agrees_on_oldestActive :
    ∃ found s', oldestActive.Finds userCollection.documents found ∧
      oldestActive.Answers .select none userStore
        (found.map fun d => .arr [d.value "name"]) s' := by
  have stored : (userStore.database ((none : Option String).getD userStore.home)).collections.get?
      oldestActive.root.name = some userCollection := rfl
  rcases oldestActive_plain.store_agrees (by decide) stored distinctKeys_userCollection with
    ⟨found, finds, _, selects, _⟩
  rcases selects ["name"] (by simp) (by decide) rfl with ⟨s', answers, _⟩
  exact ⟨found, s', finds, answers⟩

end DocStore
