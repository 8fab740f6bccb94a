/-
Module: DocStore.Proofs.Migration.Bookkeeping
Purpose: the collection that records the applied versions: making sure that it is there, and
  reading the versions that it records.
Main exports:
  Document.Records, Recorded, RunnerOptions.Keeps, RunnerOptions.ends_ensureBookkeeping,
  RunnerOptions.Keeps.appliedVersions, RunnerOptions.Records.appliedVersions,
  RunnerOptions.answer_readRequest
-/
import DocStore.Proofs.Memory.Definitions
import DocStore.Proofs.Memory.Transactions
import DocStore.Proofs.Migration.Sparing
import DocStore.Proofs.Query.Agreement
import Mathlib.Data.List.Forall2
import Mathlib.Data.List.Nodup

namespace DocStore

open Text

/-! ### Rows -/

/-- Whether a document is the record of a version. -/
def Document.Records (d : Document) (version : Int) : Prop :=
  d.value "_key" = .str (toString version) ∧ d.value "version" = .int version

/-- The documents record the versions, in this order, each once. -/
structure Recorded (documents : List Document) (versions : List Int) : Prop where
  rows : List.Forall₂ Document.Records documents versions
  once : versions.Nodup
  fits : ∀ v ∈ versions, v ≤ signedLimit

theorem Document.Records.hasKey_iff {d : Document} {version other : Int}
    (records : d.Records version) : d.hasKey (toString other) = true ↔ version = other := by
  rw [Document.hasKey_iff, records.1, Json.str.injEq]
  exact ⟨toString_int_injective, fun same => by rw [same]⟩

namespace Recorded

variable {documents : List Document} {versions : List Int} {version : Int}

theorem nil : Recorded [] [] where
  rows := .nil
  once := .nil
  fits := by simp

theorem exists_find? (recorded : Recorded documents versions) (member : version ∈ versions) :
    ∃ d, documents.find? (·.hasKey (toString version)) = some d := by
  have rows := recorded.rows
  clear recorded
  induction rows with
  | nil => cases member
  | @cons d v _ _ records rows inductionHypothesis =>
      by_cases own : v = version
      · exact ⟨d, List.find?_cons_of_pos (records.hasKey_iff.mpr own)⟩
      · obtain ⟨found, is⟩ := inductionHypothesis
          ((List.mem_cons.mp member).resolve_left fun same => own same.symm)
        refine ⟨found, ?_⟩
        rw [List.find?_cons_of_neg, is]
        rw [records.hasKey_iff]
        exact own

/-- There is one row for each recorded version. -/
theorem countP_hasKey (recorded : Recorded documents versions) (member : version ∈ versions) :
    documents.countP (·.hasKey (toString version)) = 1 := by
  have counted : documents.countP (·.hasKey (toString version)) = versions.count version := by
    have rows := recorded.rows
    clear recorded member
    induction rows with
    | nil => rfl
    | @cons d v _ _ records rows inductionHypothesis =>
        rw [List.countP_cons, List.count_cons, inductionHypothesis]
        by_cases own : v = version
        · rw [if_pos (records.hasKey_iff.mpr own), own, if_pos (beq_self_eq_true version)]
        · rw [if_neg (fun has => own (records.hasKey_iff.mp has)), if_neg (by simpa using own)]
  rw [counted, List.count_eq_one_of_mem recorded.once member]

theorem append (recorded : Recorded documents versions) {d : Document} (records : d.Records version)
    (fresh : version ∉ versions) (fits : version ≤ signedLimit) :
    Recorded (documents ++ [d]) (versions ++ [version]) where
  rows := List.rel_append recorded.rows (.cons records .nil)
  once := by
    rw [List.nodup_append]
    refine ⟨recorded.once, by simp, ?_⟩
    rintro v member w inSingle rfl
    rw [List.mem_singleton] at inSingle
    exact fresh (inSingle ▸ member)
  fits v member := by
    rcases List.mem_append.mp member with old | new
    · exact recorded.fits v old
    · rw [List.mem_singleton] at new
      exact new ▸ fits

theorem eraseP (recorded : Recorded documents versions) (version : Int) :
    Recorded (documents.eraseP (·.hasKey (toString version)))
      (versions.filter (· != version)) where
  rows := by
    rw [← recorded.once.erase_eq_filter]
    have rows := recorded.rows
    clear recorded
    induction rows with
    | nil => exact .nil
    | @cons d v _ _ records rows inductionHypothesis =>
        by_cases own : v = version
        · have has := records.hasKey_iff.mpr own
          simp only [List.eraseP_cons, has, cond_true]
          rw [own, List.erase_cons_head]
          exact rows
        · have hasNot : d.hasKey (toString version) = false := by
            rw [Bool.eq_false_iff, ne_eq, records.hasKey_iff]
            exact own
          simp only [List.eraseP_cons, hasNot, cond_false]
          rw [List.erase_cons_tail (by simpa using own)]
          exact .cons records inductionHypothesis
  once := recorded.once.filter _
  fits v member := recorded.fits v (List.mem_filter.mp member).1

/-- The rows are read back as the versions. -/
theorem mapM_versionOf (recorded : Recorded documents versions) :
    (documents.map fun d => Json.arr (["version"].map d.value)).mapM RunnerOptions.versionOf =
      .ok versions := by
  obtain ⟨rows, once, fits⟩ := recorded
  clear once
  induction rows with
  | nil => rfl
  | @cons d v _ _ records rows inductionHypothesis =>
      have rest := inductionHypothesis fun w member => fits w (List.mem_cons_of_mem _ member)
      have first : RunnerOptions.versionOf (.arr (["version"].map d.value)) = .ok v := by
        have small : v ≤ signedLimit := fits v List.mem_cons_self
        unfold RunnerOptions.versionOf
        rw [List.map_cons, records.2, List.map_nil]
        simp [Json.item, Json.int, Json.signed?, small]
      rw [List.map_cons, List.mapM_cons, first, rest]
      rfl

end Recorded

namespace RunnerOptions

variable {o : RunnerOptions} {home : String} {versions : List Int} {s : Store}

/-- A store whose collection of records holds just those of the versions. -/
def Records (o : RunnerOptions) (home : String) (versions : List Int) (s : Store) : Prop :=
  ∃ documents, Recorded documents versions ∧
    s.Holds home (o.tenant.getD home) o.collection documents

/-- The same, or the collection of records is still to be created and there are none. -/
def Keeps (o : RunnerOptions) (home : String) (versions : List Int) (s : Store) : Prop :=
  o.Records home versions s ∨
  (versions = [] ∧ s.home = home ∧ 0 < s.batchSize ∧
    (s.database (o.tenant.getD home)).nameTaken o.collection = false)

/-! ### Reading the records -/

/-- The collection of records. -/
def bookkeeping (o : RunnerOptions) : Collection :=
  { name := o.collection, tenant := o.tenant }

/-- The definition of the collection of records. -/
def bookkeepingFields (o : RunnerOptions) : Dict Json :=
  (Dict.insert {} "name" (.str o.collection)).insert "type"
    (.int CollectionKind.document.typeCode)

/-- The request that creates the collection of records. -/
def createRequest (o : RunnerOptions) : Request :=
  (Request.post "collection" (.obj o.bookkeepingFields)).withDatabase o.tenant

theorem nonempty_of_plain {name : String} (plain : isPlainName name = true) :
    name.isEmpty = false := by
  rw [isPlainName, Bool.and_eq_true, Bool.not_eq_true'] at plain
  exact plain.1

theorem body_bookkeeping (named : isPlainName o.collection = true) :
    o.bookkeeping.body = .ok (.obj o.bookkeepingFields) := by
  have isName : Collection.isName o.collection = true := by
    have plain : '/' ∉ o.collection.toList := notMem_of_isPlainName named (by decide)
    simp [Collection.isName, nonempty_of_plain named, plain]
  simp [Collection.body, bookkeeping, isName, Collection.schema, Bind.bind, Except.bind,
    bookkeepingFields]

theorem route_createRequest (o : RunnerOptions) :
    Route.of? o.createRequest = some .createCollection :=
  Route.of?_post "collection" rfl rfl (by decide)

/-- The collection of records takes a name that is free. -/
theorem createCollection_bookkeeping (named : isPlainName o.collection = true) (db : Database) :
    db.createCollection (.obj o.bookkeepingFields) =
      if db.nameTaken o.collection then .error (.nameTaken o.collection)
      else .ok (answered 200 (.obj (Database.newProperties o.bookkeepingFields)),
        db.putCollection o.collection
          { properties := Database.newProperties o.bookkeepingFields }) := by
  apply Database.createCollection_eq db _ (nonempty_of_plain named)
  simp [Json.field, Json.get?, bookkeepingFields, Dict.get?_insert]

/-- A collection of records that is there already is not created again. -/
theorem ends_create_taken (named : isPlainName o.collection = true) {documents : List Document}
    (holds : s.Holds home (o.tenant.getD home) o.collection documents) :
    ∃ e, (Exchange.command o.createRequest).Ends Store.server s (.error e)
        (s.noteRequest o.createRequest) ∧ e.isConflict = true := by
  have taken : (s.database (s.databaseOf o.createRequest)).nameTaken o.collection = true := by
    have stored : ((s.database (o.tenant.getD home)).documentsOf o.collection).isSome = true := by
      rw [← Store.documentsOf, holds.documents_eq]
      rfl
    rw [Database.documentsOf, Option.isSome_map] at stored
    have here : s.databaseOf o.createRequest = o.tenant.getD home := by
      rw [← holds.home_eq]
      rfl
    rw [here, Database.nameTaken, Dict.contains_eq, stored, Bool.true_or]
  have refused := createCollection_bookkeeping named (s.database (s.databaseOf o.createRequest))
  rw [if_pos taken] at refused
  exact ⟨_, Store.ends_command_of_refused rfl o.route_createRequest rfl refused, rfl⟩

/-- What creating the collection of records ends with: it is created, or it is there
already. -/
theorem ends_create (named : isPlainName o.collection = true) (keeps : o.Keeps home versions s) :
    ∃ outcome s' documents, (Exchange.command o.createRequest).Ends Store.server s outcome s' ∧
      (∀ e, outcome = .error e → e.isConflict = true) ∧ Recorded documents versions ∧
      s'.Holds home (o.tenant.getD home) o.collection documents := by
  rcases keeps with ⟨documents, recorded, holds⟩ | ⟨rfl, isHome, batch, free⟩
  · obtain ⟨e, ends, conflict⟩ := ends_create_taken named holds
    refine ⟨_, _, documents, ends, ?_, recorded, holds.of_same (Store.sameData_noteRequest s _)⟩
    rintro _ ⟨⟩
    exact conflict
  · have here : s.databaseOf o.createRequest = o.tenant.getD home := by
      rw [← isHome]
      rfl
    have made := createCollection_bookkeeping named (s.database (s.databaseOf o.createRequest))
    rw [here, free] at made
    have success : (answered 200 (.obj (Database.newProperties o.bookkeepingFields))).result =
        .ok (.obj (Database.newProperties o.bookkeepingFields)) := by
      apply Response.result_answered (by decide)
      rw [Json.field, Json.get?, Database.get?_newProperties_of_ne _ (by decide) (by decide),
        bookkeepingFields, Dict.get?_insert_of_ne _ _ (by decide),
        Dict.get?_insert_of_ne _ _ (by decide)]
      rintro ⟨⟩
    refine ⟨_, _, [], Store.ends_command_of_made rfl o.route_createRequest rfl
      (by rw [here]; exact made) success, ?_, .nil, isHome, batch, ?_⟩
    · rintro e ⟨⟩
    · rw [here, Store.documentsOf, Store.database_putDatabase_self]
      simp [Database.documentsOf, Database.putCollection]

/-- The collection of records is there once it was created or found to be there. -/
theorem ends_ensureBookkeeping_of_create (named : isPlainName o.collection = true)
    (creates : o.skipCreation = false) {outcome : Except Error Unit} {s' : Store}
    (ends : (Exchange.command o.createRequest).Ends Store.server s outcome s')
    (conflict : ∀ e, outcome = .error e → e.isConflict = true) :
    o.ensureBookkeeping.Ends Store.server s (.ok ()) s' := by
  have attempted : (Definition.create (.collection o.bookkeeping)).attempt.Ends Store.server s
      (.ok outcome) s' := by
    refine Exchange.ends_attempt_iff.mpr ⟨outcome, rfl, ?_⟩
    rw [Definition.create, body_bookkeeping named]
    exact ends
  have valid : (Exchange.ofSchema (Definition.collection o.bookkeeping).validate).Ends
      Store.server s (.ok ()) s := by
    rw [Definition.validate, body_bookkeeping named]
    exact Exchange.ends_done_iff.mpr ⟨rfl, rfl⟩
  have performed : ∃ report, ((Command.createIfNotExists (.collection o.bookkeeping)).perform
      none none).Ends Store.server s (.ok report) s' := by
    cases outcome with
    | ok _ => exact ⟨_, valid.bind (attempted.bind (Exchange.ends_pure_iff.mpr ⟨rfl, rfl⟩))⟩
    | error e =>
        refine ⟨.alreadyThere "collection" o.collection, valid.bind (attempted.bind ?_)⟩
        dsimp only
        rw [if_pos (conflict e rfl)]
        exact Exchange.ends_pure_iff.mpr ⟨rfl, rfl⟩
  obtain ⟨report, performed⟩ := performed
  rw [ensureBookkeeping, creates]
  exact performed.bind (Exchange.ends_pure_iff.mpr ⟨rfl, rfl⟩)

theorem ends_ensureBookkeeping (named : isPlainName o.collection = true)
    (creates : o.skipCreation = false) (keeps : o.Keeps home versions s) :
    ∃ s' documents, o.ensureBookkeeping.Ends Store.server s (.ok ()) s' ∧
      Recorded documents versions ∧
      s'.Holds home (o.tenant.getD home) o.collection documents := by
  obtain ⟨outcome, s', documents, ends, conflict, recorded, holds⟩ := ends_create named keeps
  exact ⟨s', documents, ends_ensureBookkeeping_of_create named creates ends conflict, recorded,
    holds⟩

/-- A collection of records that is there already is left as it is. -/
theorem ends_ensureBookkeeping_taken (named : isPlainName o.collection = true)
    {documents : List Document}
    (holds : s.Holds home (o.tenant.getD home) o.collection documents) :
    ∃ s', o.ensureBookkeeping.Ends Store.server s (.ok ()) s' ∧ Store.SameData s s' := by
  cases creates : o.skipCreation with
  | false =>
      obtain ⟨e, ends, conflict⟩ := ends_create_taken named holds
      refine ⟨_, ends_ensureBookkeeping_of_create named creates ends ?_,
        Store.sameData_noteRequest s _⟩
      rintro _ ⟨⟩
      exact conflict
  | true =>
      rw [ensureBookkeeping, creates]
      exact ⟨s, Exchange.ends_pure_iff.mpr ⟨rfl, rfl⟩, .refl s⟩

/-- The query for the versions is a plain one. -/
theorem versionsQuery_plain (named : isPlainName o.collection = true) : o.versionsQuery.Plain where
  overCollection := rfl
  name_plain := named
  noJoins := rfl
  noGroups := rfl
  notDistinct := Or.inl rfl
  clauses_plain c member := by cases member
  sorts_plain t member := by cases member
  offset_plain := Or.inl rfl
  limit_plain := Or.inl rfl
  offset_limited := nofun

/-- It finds all documents, in their order. -/
theorem finds_versionsQuery (o : RunnerOptions) (documents : List Document) :
    o.versionsQuery.Finds documents documents := by
  have all : documents.filter o.versionsQuery.holdsOf = documents :=
    List.filter_eq_self.mpr fun _ _ => rfl
  refine ⟨documents, ?_, rfl⟩
  rw [all]
  exact ⟨List.Perm.refl _, List.pairwise_of_forall fun _ _ => nofun, fun _ => rfl⟩

/-- Once the collection of records is there, the versions are read in ascending order, and
nothing is changed. -/
theorem ends_appliedVersions (named : isPlainName o.collection = true) {s₁ : Store}
    {documents : List Document} (ensured : o.ensureBookkeeping.Ends Store.server s (.ok ()) s₁)
    (read : (documents.map fun d => Json.arr (["version"].map d.value)).mapM versionOf =
      .ok versions)
    (holds : s₁.Holds home (o.tenant.getD home) o.collection documents) :
    ∃ s', o.appliedVersions.Ends Store.server s (.ok versions.mergeSort) s' ∧
      Store.SameData s₁ s' := by
  obtain ⟨c, stored, rfl⟩ := Option.map_eq_some_iff.mp holds.documents_eq
  rw [← holds.home_eq] at stored
  obtain ⟨text, columns, s', compiles, answers, same⟩ := (versionsQuery_plain named).ends_select
    holds.batch s₁.opened_none stored (o.finds_versionsQuery c.documents) (List.cons_ne_nil _ _)
    (by decide : ∀ name ∈ ["version"], isPlainName name = true) rfl
  refine ⟨s', ?_, same⟩
  apply ensured.bind
  apply Exchange.Ends.bind (Exchange.ends_ofExcept_iff.mpr ⟨compiles.symm, rfl⟩)
  apply Exchange.Ends.bind answers
  apply Exchange.Ends.bind (Exchange.ends_ofExcept_iff.mpr ⟨read.symm, rfl⟩)
  exact Exchange.ends_pure_iff.mpr ⟨rfl, rfl⟩

/-- To read versions from a collection that is there already changes nothing. -/
theorem ends_appliedVersions_taken (named : isPlainName o.collection = true)
    {documents : List Document}
    (read : (documents.map fun d => Json.arr (["version"].map d.value)).mapM versionOf =
      .ok versions)
    (holds : s.Holds home (o.tenant.getD home) o.collection documents) :
    ∃ s', o.appliedVersions.Ends Store.server s (.ok versions.mergeSort) s' ∧
      Store.SameData s s' := by
  obtain ⟨s₁, ensured, kept⟩ := ends_ensureBookkeeping_taken named holds
  obtain ⟨s', ends, same⟩ := ends_appliedVersions named ensured read (holds.of_same kept)
  exact ⟨s', ends, kept.trans same⟩

/-- The recorded versions are read in ascending order. -/
theorem Keeps.appliedVersions (named : isPlainName o.collection = true)
    (creates : o.skipCreation = false) (keeps : o.Keeps home versions s) :
    ∃ s', o.appliedVersions.Ends Store.server s (.ok versions.mergeSort) s' ∧
      o.Records home versions s' := by
  obtain ⟨s₁, documents, ensured, recorded, holds⟩ := ends_ensureBookkeeping named creates keeps
  obtain ⟨s', ends, same⟩ := ends_appliedVersions named ensured recorded.mapM_versionOf holds
  exact ⟨s', ends, documents, recorded, holds.of_same same⟩

/-- To read records that are there already changes nothing. -/
theorem Records.appliedVersions (named : isPlainName o.collection = true)
    (records : o.Records home versions s) :
    ∃ s', o.appliedVersions.Ends Store.server s (.ok versions.mergeSort) s' ∧
      Store.SameData s s' := by
  obtain ⟨documents, recorded, holds⟩ := records
  exact ends_appliedVersions_taken named recorded.mapM_versionOf holds

/-- The request that starts the reading of the records. -/
def readRequest (o : RunnerOptions) (compiled : CompiledQuery) : Request :=
  Store.startRequest o.tenant compiled.text compiled.bindVars none

/-- Records that fit into a page are read at once. -/
theorem answer_readRequest (named : isPlainName o.collection = true)
    {c : StoredCollection} {compiled : CompiledQuery}
    (stored : (s.database (o.tenant.getD s.home)).collections.get? o.collection = some c)
    (fits : c.documents.length ≤ s.batchSize)
    (compiles : o.versionsQuery.compile .select = .ok compiled) :
    Store.server.answer s (o.readRequest compiled) =
      (.answered (answered 201 (.obj ⟨[("hasMore", .bool false),
        ("result", .arr (c.documents.map fun d => .arr (["version"].map d.value)))]⟩)),
        s.noteQuery (o.readRequest compiled) compiled.text) := by
  have plain := versionsQuery_plain named
  rcases plain.exists_parts with ⟨p, parts⟩
  rcases plain.select_read parts (List.cons_ne_nil _ _)
    (by decide : ∀ name ∈ ["version"], isPlainName name = true) rfl with
    ⟨text, columns, same, read⟩
  cases compiles.symm.trans same
  have found := parts.finds_unique (o.finds_versionsQuery c.documents)
    (parts.finds .reading (.fields ["version"]) c.documents)
  have run := Query.Plain.runQuery_reading (q := o.versionsQuery) (s := s)
    (o.readRequest ⟨text, o.versionsQuery.params, columns⟩) stored read rfl
  have short : (c.documents.map fun d => Json.arr (["version"].map d.value)).length ≤
      s.batchSize := by
    rw [List.length_map]
    exact fits
  rw [← found] at run
  unfold readRequest at run ⊢
  rw [Store.answer_startRequest o.tenant text _ s.opened_none, run]
  change (_, _) = _
  simp only [Store.firstPage, Store.page_short _ short]
  rfl

end RunnerOptions

end DocStore
