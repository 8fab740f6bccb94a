/-
Module: DocStore.Proofs.Migration.Idempotence
Purpose: a command that creates an object unless it exists, or drops it if it exists, can be
  given again: the second time it succeeds and leaves all databases as they are.
Main exports:
  Exchange.Repeats, Database.Settles, Exchange.repeats_command, Definition.repeats_create,
  Definition.repeats_drop, Command.guarded_repeats
-/
import DocStore.Proofs.Memory.Namespace
import DocStore.Proofs.Migration.Ensuring
import Mathlib.Data.List.Nodup

namespace DocStore

/-!
The commands tolerate some errors: that a name is taken, or that nothing of the name is there.
What they asked for once is then either refused with such an error, or, for an analyzer, done
once more with the same result.
-/

/-- An operation ended well, or with an error that is accepted. -/
def Exchange.Accepted (accepts : Error → Bool) (outcome : Except Error Unit) : Prop :=
  ∀ e, outcome = .error e → accepts e = true

/-- The second store has what the first one has in all its databases. -/
structure Store.SameDatabases (s s' : Store) : Prop where
  home_eq : s'.home = s.home
  database_eq : ∀ name, s'.database name = s.database name

namespace Store.SameDatabases

variable {s s' s'' : Store}

theorem refl (s : Store) : s.SameDatabases s := ⟨rfl, fun _ => rfl⟩

theorem trans (first : s.SameDatabases s') (second : s'.SameDatabases s'') :
    s.SameDatabases s'' where
  home_eq := second.home_eq.trans first.home_eq
  database_eq name := (second.database_eq name).trans (first.database_eq name)

theorem of_note (s : Store) (r : Request) : s.SameDatabases (s.noteRequest r) :=
  ⟨rfl, fun _ => rfl⟩

/-- A database in the place of itself. -/
theorem of_redefined {database : String}
    (redefined : s.Redefined database (s.database database) s') :
    s.SameDatabases s' where
  home_eq := redefined.home_eq
  database_eq name := by
    by_cases here : name = database
    · rw [here, redefined.here]
    · exact redefined.others name here

theorem databaseOf_eq (same : s.SameDatabases s') (r : Request) :
    s'.database (s'.databaseOf r) = s.database (s.databaseOf r) := by
  rw [Store.databaseOf, same.home_eq, same.database_eq]
  rfl

end Store.SameDatabases

namespace Exchange

/-- An operation that ended in an accepted way from a store does so again, from every store with
the databases that it led to, and then leaves these as they are. -/
def Repeats (accepts : Error → Bool) (x : Exchange Unit) (s : Store) : Prop :=
  ∀ outcome s' t, x.Ends Store.server s outcome s' → Accepted accepts outcome →
    s'.SameDatabases t → ∃ outcome' t', x.Ends Store.server t outcome' t' ∧
      Accepted accepts outcome' ∧ t.SameDatabases t'

end Exchange

open Exchange

/-! ### Single requests -/

/-- A change that was made is refused with an accepted error in the database that it led to. -/
def Database.Settles (accepts : Error → Bool) (change : Database → Change) : Prop :=
  ∀ db response db', change db = .ok (response, db') →
    ∃ refusal : Refusal, change db' = .error refusal ∧
      accepts (.store refusal.status refusal.number refusal.message) = true

/-- A request for a change that settles. -/
theorem Exchange.repeats_command {accepts : Error → Bool} {r : Request}
    (outside : r.transaction = none)
    (settles : ∀ route, Route.of? r = some route →
      ∃ change, route.change? r (r.body.getD .null) = some change ∧
        Database.Settles accepts change) (s : Store) :
    (Exchange.command r).Repeats accepts s := by
  intro outcome s' t ends accepted same
  cases routed : Route.of? r with
  | none =>
      obtain ⟨rfl, rfl⟩ := ends.unique (Store.ends_command_of_noRoute outside routed)
      exact ⟨_, _, Store.ends_command_of_noRoute outside routed, accepted, .of_note t r⟩
  | some route =>
      obtain ⟨change, is, settled⟩ := settles route routed
      have refused (refusal : Refusal)
          (no : change (t.database (t.databaseOf r)) = .error refusal) :=
        Store.ends_command_of_refused (s := t) outside routed is no
      rcases Store.ends_command_cases outside routed is ends with
        ⟨refusal, no, rfl, rfl⟩ | ⟨response, db, made, _, rfl⟩
      · refine ⟨_, _, refused _ ?_, accepted, .of_note t r⟩
        rw [same.databaseOf_eq]
        exact no
      · obtain ⟨refusal, again, accepts⟩ := settled _ response db made
        refine ⟨_, _, refused refusal ?_, ?_, .of_note t r⟩
        · rw [same.databaseOf_eq]
          change change (((s.noteRequest r).putDatabase (s.databaseOf r) db).database
            (s.databaseOf r)) = _
          rw [Store.database_putDatabase_self]
          exact again
        · rintro _ ⟨⟩
          exact accepts

namespace Database

variable {db : Database} {body : Json} {name : String}

theorem settles_createCollection (body : Json) :
    Settles Error.isConflict (·.createCollection body) := by
  intro db response db' made
  obtain ⟨fields, name, rfl, named, nonempty, _, _, rfl⟩ := createCollection_eq_ok_iff.mp made
  refine ⟨.nameTaken name, ?_, rfl⟩
  have taken : (db.putCollection name { properties := newProperties fields }).nameTaken name =
      true := by
    simp [nameTaken, putCollection, Dict.contains_insert]
  change Database.createCollection _ _ = _
  rw [createCollection_eq _ named nonempty, taken]
  rfl

theorem settles_createView (body : Json) : Settles Error.isConflict (·.createView body) := by
  intro db response db' made
  obtain ⟨members, name, rfl, named, _, _, rfl⟩ := createView_eq_ok_iff.mp made
  refine ⟨.nameTaken name, ?_, rfl⟩
  have taken : (db.putView name members).nameTaken name = true := by
    simp [nameTaken, putView, Dict.contains_insert]
  simp [createView, objectBody, nameIn, named, Json.text?, Bind.bind, Except.bind, freshName, taken]

/-- An index with a name is not created twice; one without is named by its number. -/
theorem settles_createIndex {r : Request} (named : body.field "name" = .str name) :
    Settles Error.isConflict (·.createIndex r body) := by
  intro db response db' made
  obtain ⟨collection, definition, c, about, rfl, stored, _, _, rfl⟩ :=
    createIndex_eq_ok_iff.mp made
  refine ⟨.nameTaken name, ?_, rfl⟩
  have newName : (Document.value (newIndex collection c definition) "name").isTextOf name =
      true := by
    rw [newIndex, Document.value, Dict.get?_insert_self, named]
    simp [Json.isTextOf, Json.text?]
  simp [createIndex, about, objectBody, Database.collection, putCollection, Bind.bind, Except.bind,
    named, Json.text?, newName]

theorem settles_dropCollection (name : String) :
    Settles Error.isNotFound (·.dropCollection name) := by
  intro db response db' made
  obtain ⟨_, _, rfl⟩ := dropCollection_eq_ok_iff.mp made
  refine ⟨.noSource name, ?_, rfl⟩
  simp [dropCollection, collection, Bind.bind, Except.bind]

theorem settles_dropView (name : String) : Settles Error.isNotFound (·.dropView name) := by
  intro db response db' made
  obtain ⟨_, _, rfl⟩ := dropView_eq_ok_iff.mp made
  refine ⟨.noSource name, ?_, rfl⟩
  simp [dropView, view, Bind.bind, Except.bind]

theorem settles_dropAnalyzer (name : String) :
    Settles Error.isNotFound (·.dropAnalyzer name) := by
  intro db response db' made
  obtain ⟨_, _, rfl⟩ := dropAnalyzer_eq_ok_iff.mp made
  refine ⟨.noAnalyzer name, dropAnalyzer_of_absent ?_, rfl⟩
  rw [Dict.get?_erase, if_pos rfl]

theorem settles_dropIndex (collection number : String) :
    Settles Error.isNotFound (·.dropIndex collection number) := by
  intro db response db' made
  obtain ⟨c, stored, _, _, rfl⟩ := dropIndex_eq_ok_iff.mp made
  refine ⟨.noIndex (collection ++ "/" ++ number), ?_, rfl⟩
  simp [dropIndex, Database.collection, putCollection, indexesWithout, Bind.bind, Except.bind]

/-- The database with an analyzer in the place of one with its name. -/
def withAnalyzer (db : Database) (a : Analyzer) : Database :=
  { db with analyzers := (db.analyzers.erase a.name).insert a.name a.body }

theorem withAnalyzer_again (db : Database) (a : Analyzer) :
    (db.withAnalyzer a).withAnalyzer a = db.withAnalyzer a := by
  have absent : (db.analyzers.erase a.name).get? a.name = none := by
    rw [Dict.get?_erase, if_pos rfl]
  simp only [withAnalyzer, Dict.erase_insert absent]

end Database

/-! ### Creating objects -/

namespace Definition

variable {s s' : Store} {outcome : Except Error Unit}

theorem repeats_create_collection (c : Collection) (s : Store) :
    (create (collection c)).Repeats Error.isConflict s := by
  cases is : c.body with
  | error fault =>
      intro outcome s' t ends accepted _
      rw [create, is] at ends ⊢
      obtain ⟨rfl, rfl⟩ := ends_fail_iff.mp ends
      exact ⟨_, t, ends_fail_iff.mpr ⟨rfl, rfl⟩, accepted, .refl t⟩
  | ok body =>
      rw [create, is]
      apply repeats_command rfl
      intro route routed
      rw [Route.of?_post "collection" rfl rfl (by decide)] at routed
      cases routed
      exact ⟨_, rfl, Database.settles_createCollection body⟩

theorem repeats_create_view (v : View) (s : Store) :
    (create (view v)).Repeats Error.isConflict s := by
  apply repeats_command rfl
  intro route routed
  rw [Route.of?_post "view" rfl rfl (by decide)] at routed
  cases routed
  exact ⟨_, rfl, Database.settles_createView v.body⟩

theorem repeats_create_index (i : Index) (s : Store) :
    (create (index i)).Repeats Error.isConflict s := by
  apply repeats_command rfl
  intro route routed
  rw [Route.of?_post "index" rfl rfl (by decide)] at routed
  cases routed
  exact ⟨_, rfl, Database.settles_createIndex i.name_of_body⟩

/-- An analyzer whose name leads to a route is put in the place of one with its name. -/
theorem create_analyzer_of_routed {a : Analyzer}
    (routed : Route.of? (deleteRequest a) = some (.dropAnalyzer a.name)) (s : Store) :
    ∃ s', (create (analyzer a)).Ends Store.server s
        ((answered 201 a.body).result.map fun _ => ()) s' ∧
      s.Redefined (a.tenant.getD s.home)
        ((s.database (a.tenant.getD s.home)).withAnalyzer a) s' := by
  let r := (Request.post "analyzer" a.body).withDatabase a.tenant
  have posts : Route.of? r = some .createAnalyzer := Route.of?_post "analyzer" rfl rfl (by decide)
  obtain ⟨s₀, clears, first⟩ := clear_of_routed routed s
  have here : s₀.databaseOf r = a.tenant.getD s.home := by
    rw [← first.home_eq]
    rfl
  have free : (s₀.database (s₀.databaseOf r)).analyzers.get? a.name = none := by
    rw [here, first.here, Dict.get?_erase, if_pos rfl]
  have named : (r.body.getD .null).field "name" = .str a.name := rfl
  have made := Database.createAnalyzer_eq_ok_iff.mpr ⟨a.name, named, free, rfl, rfl⟩
  have second := s₀.redefined_put r (s₀.databaseOf r)
    ((s.database (a.tenant.getD s.home)).withAnalyzer a)
  rw [here] at second
  refine ⟨_, clears.bind (ends_command_iff.mpr ⟨?_, rfl⟩), ?_⟩
  · rw [Store.answer_of_made rfl posts rfl made]
    rfl
  · rw [Store.answer_of_made rfl posts rfl made, here, first.here]
    exact first.trans second

theorem repeats_create_analyzer (a : Analyzer) (s : Store) :
    (create (analyzer a)).Repeats Error.isConflict s := by
  intro outcome s' t ends accepted same
  have routed : Route.of? (deleteRequest a) = some (.dropAnalyzer a.name) := by
    rcases ends_bind_iff.mp ends with ⟨_, _, cleared, _⟩ | ⟨e, failed, rfl⟩
    · exact routed_of_clear cleared (by rintro _ ⟨⟩)
    · exact routed_of_clear failed (by
        rintro _ ⟨⟩
        exact accepted e rfl)
  obtain ⟨s₁, creates, defined⟩ := create_analyzer_of_routed routed s
  obtain ⟨t', createsAgain, definedAgain⟩ := create_analyzer_of_routed routed t
  obtain ⟨rfl, rfl⟩ := ends.unique creates
  have here : t.database (a.tenant.getD t.home) =
      (s.database (a.tenant.getD s.home)).withAnalyzer a := by
    rw [same.home_eq, defined.home_eq, same.database_eq, defined.here]
  rw [here, Database.withAnalyzer_again, ← here] at definedAgain
  exact ⟨_, t', createsAgain, accepted, .of_redefined definedAgain⟩

/-- What the creation of an object has led to, if a taken name is accepted, it leads to again. -/
theorem repeats_create (o : Definition) (s : Store) : o.create.Repeats Error.isConflict s := by
  cases o with
  | collection c => exact repeats_create_collection c s
  | index i => exact repeats_create_index i s
  | view v => exact repeats_create_view v s
  | analyzer a => exact repeats_create_analyzer a s

/-! ### Dropping objects -/

theorem repeats_drop_collection (c : Collection) (s : Store) :
    (drop (collection c)).Repeats Error.isNotFound s := by
  apply repeats_command rfl
  intro route routed
  cases Route.eq_of_delete_collection rfl rfl routed
  exact ⟨_, rfl, Database.settles_dropCollection c.name⟩

theorem repeats_drop_view (v : View) (s : Store) :
    (drop (view v)).Repeats Error.isNotFound s := by
  apply repeats_command rfl
  intro route routed
  cases Route.eq_of_delete_view rfl rfl routed
  exact ⟨_, rfl, Database.settles_dropView v.name⟩

theorem repeats_drop_analyzer (a : Analyzer) (s : Store) :
    (drop (analyzer a)).Repeats Error.isNotFound s := by
  apply repeats_command rfl
  intro route routed
  cases Route.eq_of_delete_analyzer rfl rfl routed
  exact ⟨_, rfl, Database.settles_dropAnalyzer a.name⟩

end Definition

/-! ### Dropping an index -/

/-- Under its name an index is found. -/
theorem StoredCollection.Numbered.index?_eq {c : StoredCollection} {index : Dict Json}
    (numbered : c.Numbered) (member : index ∈ c.indexes) {name : String}
    (named : Document.value index "name" = .str name) : c.index? name = some index := by
  have isSome : (c.index? name).isSome := List.find?_isSome.mpr
    ⟨index, member, Json.isTextOf_iff.mpr named⟩
  obtain ⟨rival, found⟩ := Option.isSome_iff_exists.mp isSome
  have names : (c.indexes.map fun index => Document.value index "name").Nodup :=
    List.pairwise_map.mpr numbered.names
  have same : rival = index := by
    have also : (Document.value rival "name").isTextOf name = true :=
      List.find?_some (p := fun index => (Document.value index "name").isTextOf name) found
    refine List.inj_on_of_nodup_map names (List.mem_of_find?_eq_some found) member ?_
    rw [named, Json.isTextOf_iff.mp also]
  exact same ▸ found

namespace Index

variable {i : Index} {c : StoredCollection} {db : Database} {s s' : Store} {id : String}

/-- The identifier that is listed for the index in its collection.  The first one listed is the
index that every collection has. -/
def listedId? (i : Index) (c : StoredCollection) : Option String :=
  if i.indexName = "primary" then some (i.collection ++ "/0")
  else (c.index? i.indexName).bind fun index => (Document.value index "id").text?

theorem inListing?_eq (i : Index) (c : StoredCollection) :
    ((inListing? (.obj ⟨[("indexes", .arr (Database.primaryIndex i.collection ::
      c.indexes.map .obj))]⟩) i.indexName).bind fun index => (index.field "id").text?) =
        i.listedId? c := by
  have first : ((Database.primaryIndex i.collection).field "name").isTextOf i.indexName =
      decide (i.indexName = "primary") := by
    change (some "primary" == some i.indexName) = _
    rw [Bool.eq_iff_iff, beq_iff_eq, Option.some.injEq, decide_eq_true_iff]
    exact eq_comm
  change ((Database.primaryIndex i.collection :: c.indexes.map .obj).find? fun index =>
    (index.field "name").isTextOf i.indexName).bind _ = _
  unfold listedId?
  split
  · next primary =>
      have own := first.trans (decide_eq_true primary)
      rw [List.find?_cons_of_pos (by exact own)]
      rfl
  · next other =>
      rw [List.find?_cons_of_neg (by simp [first, other]), List.find?_map, Option.bind_map]
      rfl

/-- What comes of looking for the index in a database. -/
def foundIn (i : Index) (db : Database) : Except Error String :=
  match db.collections.get? i.collection with
  | none =>
      .error (.store 404 StoreError.dataSourceNotFound (Refusal.noSource i.collection).message)
  | some c => match i.listedId? c with
    | some id => .ok id
    | none => .error (.store 404 StoreError.indexNotFound
        ("index `" ++ i.indexName ++ "` not found on `" ++ i.collection ++ "`"))

/-- The index is looked for by listing, which changes nothing. -/
theorem ends_find (i : Index) (s : Store) :
    ∃ s', i.find.Ends Store.server s (i.foundIn (s.database (i.tenant.getD s.home))) s' ∧
      s.SameDatabases s' := by
  let listing := ((Request.get "index").withQuery "collection" i.collection).withDatabase i.tenant
  have routed : Route.of? listing = some .listIndexes := by
    change Route.ofGet? (Text.splitAt '/' "index") = _
    rw [Text.splitAt_of_notMem (by decide)]
    rfl
  have about : Database.indexedCollection listing = .ok i.collection := rfl
  cases stored : (s.database (i.tenant.getD s.home)).collections.get? i.collection with
  | none =>
      have refused : (s.database (s.databaseOf listing)).listIndexes listing =
          .error (.noSource i.collection) := by
        change (s.database (i.tenant.getD s.home)).listIndexes listing = _
        simp [Database.listIndexes, about, Database.collection, stored, Bind.bind, Except.bind]
      simp only [foundIn, stored]
      refine ⟨_, Ends.bind_error (ends_request_iff.mpr ⟨?_, rfl⟩), ?_⟩
      · rw [Store.answer_of_refused rfl routed rfl refused]
        exact (Response.result_refusal (.noSource i.collection)).symm
      · rw [Store.answer_of_refused rfl routed rfl refused]
        exact .of_note s listing
  | some c =>
      have listed := Database.listIndexes_eq_ok_iff.mpr ⟨i.collection, c, about, stored, rfl, rfl⟩
      have shows := Store.ends_request_of_made (s := s) (r := listing) rfl routed rfl listed
        (Response.result_answered (by decide) (by rintro ⟨⟩))
      have same : s.SameDatabases ((s.noteRequest listing).putDatabase (s.databaseOf listing)
          (s.database (s.databaseOf listing))) := .of_redefined (s.redefined_put listing _ _)
      refine ⟨_, shows.bind ?_, same⟩
      simp only [foundIn, stored, i.inListing?_eq c]
      cases i.listedId? c with
      | some id => exact ends_pure_iff.mpr ⟨rfl, rfl⟩
      | none => exact ends_fail_iff.mpr ⟨rfl, rfl⟩

/-- Without the index that is listed under the name, the index is not listed or, if it is the
one that every collection has, is still the same: no other index has the name. -/
theorem listedId?_without (numbered : c.Numbered) (listed : i.listedId? c = some id) :
    i.listedId? { c with indexes := Database.indexesWithout id c.indexes } = some id ∨
      i.listedId? { c with indexes := Database.indexesWithout id c.indexes } = none := by
  unfold listedId? at listed ⊢
  split at listed
  · next primary => exact Or.inl (by rw [if_pos primary, listed])
  · next other =>
      right
      rw [if_neg other]
      obtain ⟨index, found, isId⟩ := Option.bind_eq_some_iff.mp listed
      have none : StoredCollection.index?
          { c with indexes := Database.indexesWithout id c.indexes } i.indexName = none := by
        refine List.find?_eq_none.mpr fun rival kept named => ?_
        obtain ⟨member, unlike⟩ := List.mem_filter.mp kept
        have also := numbered.index?_eq member (Json.isTextOf_iff.mp named)
        have same : rival = index := Option.some.inj (also.symm.trans found)
        rw [same, Json.isTextOf_iff.mpr (Json.text?_eq_some_iff.mp isId)] at unlike
        cases unlike
      rw [none, Option.bind_none]

/-- After an index of a collection is dropped by its identifier, the index is found under this
identifier as before, or it is not found any more. -/
theorem foundIn_of_dropped {collection number : String} {response : Response}
    {db' : Database} (space : db.Namespace)
    (found : i.foundIn db = .ok (collection ++ "/" ++ number))
    (dropped : db.dropIndex collection number = .ok (response, db')) :
    i.foundIn db' = .ok (collection ++ "/" ++ number) ∨
      ∃ e, i.foundIn db' = .error e ∧ e.isNotFound = true := by
  obtain ⟨c, stored, _, _, rfl⟩ := Database.dropIndex_eq_ok_iff.mp dropped
  by_cases here : i.collection = collection
  · have now : (db.putCollection collection
        { c with indexes := Database.indexesWithout (collection ++ "/" ++ number) c.indexes }
          ).collections.get? i.collection = some
        { c with indexes := Database.indexesWithout (collection ++ "/" ++ number) c.indexes } := by
      rw [here, Database.putCollection, Dict.get?_insert_self]
    rw [← here] at stored
    have listed : i.listedId? c = some (collection ++ "/" ++ number) := by
      simp only [foundIn, stored] at found
      split at found
      · next given =>
          cases found
          exact given
      · cases found
    rcases listedId?_without (space.numbered _ c stored) listed with still | gone
    · left
      simp only [foundIn, now, still]
    · right
      simp only [foundIn, now, gone]
      exact ⟨_, rfl, rfl⟩
  · left
    rw [← found]
    unfold foundIn
    rw [Database.putCollection, Dict.get?_insert_of_ne _ _ here]

end Index

namespace Definition

/-- The request that drops an index by its identifier. -/
def dropRequest (i : Index) (id : String) : Request :=
  (Request.delete ("index/" ++ id)).withDatabase i.tenant

theorem ends_drop_index_found {i : Index} {s s' s₁ : Store} {id : String}
    {outcome : Except Error Unit}
    (finds : i.find.Ends Store.server s (.ok id) s₁)
    (ends : (drop (index i)).Ends Store.server s outcome s') :
    (Exchange.command (dropRequest i id)).Ends Store.server s₁ outcome s' := by
  rcases ends_bind_iff.mp ends with ⟨_, _, first, removes⟩ | ⟨_, first, _⟩
  · obtain ⟨same, rfl⟩ := first.unique finds
    cases same
    exact removes
  · cases (first.unique finds).1

/-- After an index was dropped by the identifier under which it was found, it is found under this
identifier as before, or it is not found any more. -/
theorem foundIn_after_drop {i : Index} {s s₁ s' t : Store} {collection number : String}
    {outcome : Except Error Unit} (space : s.Namespace)
    (found : i.foundIn (s.database (i.tenant.getD s.home)) = .ok (collection ++ "/" ++ number))
    (unchanged : s.SameDatabases s₁) (same : s'.SameDatabases t)
    (routed : Route.of? (dropRequest i (collection ++ "/" ++ number)) =
      some (.dropIndex collection number))
    (removes : (Exchange.command (dropRequest i (collection ++ "/" ++ number))).Ends Store.server s₁
      outcome s') :
    i.foundIn (t.database (i.tenant.getD t.home)) = .ok (collection ++ "/" ++ number) ∨
      ∃ e, i.foundIn (t.database (i.tenant.getD t.home)) = .error e ∧ e.isNotFound = true := by
  rw [same.home_eq, same.database_eq]
  have before : s₁.database (i.tenant.getD s₁.home) = s.database (i.tenant.getD s.home) := by
    rw [unchanged.home_eq, unchanged.database_eq]
  rcases Store.ends_command_cases rfl routed rfl removes with
    ⟨refusal, _, _, rfl⟩ | ⟨response, db, dropped, _, rfl⟩
  · left
    change i.foundIn (s₁.database (i.tenant.getD s₁.home)) = _
    rw [before, found]
  · change (s₁.database (i.tenant.getD s₁.home)).dropIndex collection number = _ at dropped
    change i.foundIn ((Store.putDatabase _ (i.tenant.getD s₁.home) db).database
        (i.tenant.getD s₁.home)) = _ ∨
      ∃ e, i.foundIn ((Store.putDatabase _ (i.tenant.getD s₁.home) db).database
        (i.tenant.getD s₁.home)) = _ ∧ _
    rw [Store.database_putDatabase_self]
    rw [before] at dropped
    exact Index.foundIn_of_dropped (space _) found dropped

theorem repeats_drop_index (i : Index) {s : Store} (space : s.Namespace) :
    (drop (index i)).Repeats Error.isNotFound s := by
  intro outcome s' t ends accepted same
  obtain ⟨s₀, finds, unchanged⟩ := i.ends_find s
  obtain ⟨t₀, findsAgain, unchangedAgain⟩ := i.ends_find t
  cases found : i.foundIn (s.database (i.tenant.getD s.home)) with
  | error e =>
      rw [found] at finds
      obtain ⟨rfl, rfl⟩ := ends.unique finds.bind_error
      rw [same.home_eq, same.database_eq, unchanged.home_eq, unchanged.database_eq,
        found] at findsAgain
      exact ⟨_, t₀, findsAgain.bind_error, accepted, unchangedAgain⟩
  | ok id =>
      rw [found] at finds
      have removes := ends_drop_index_found finds ends
      cases routed : Route.of? (dropRequest i id) with
      | none =>
          cases accepted _ (removes.unique (Store.ends_command_of_noRoute rfl routed)).1
      | some route =>
          obtain ⟨collection, number, rfl, rfl⟩ := Route.eq_of_delete_index rfl rfl routed
          have repeats : (Exchange.command (dropRequest i (collection ++ "/" ++ number))).Repeats
              Error.isNotFound s₀ := by
            apply repeats_command rfl
            intro route given
            cases routed.symm.trans given
            exact ⟨_, rfl, Database.settles_dropIndex collection number⟩
          rcases foundIn_after_drop space found unchanged same routed removes with
            still | ⟨e, gone, notFound⟩
          · rw [still] at findsAgain
            obtain ⟨outcome', t', again, tolerated, last⟩ :=
              repeats outcome s' t₀ removes accepted (same.trans unchangedAgain)
            exact ⟨outcome', t', findsAgain.bind again, tolerated, unchangedAgain.trans last⟩
          · rw [gone] at findsAgain
            refine ⟨_, t₀, findsAgain.bind_error, ?_, unchangedAgain⟩
            rintro _ ⟨⟩
            exact notFound

/-- What the dropping of an object has led to, if it is accepted that there is none, it leads to
again. -/
theorem repeats_drop (o : Definition) {s : Store} (space : s.Namespace) :
    o.drop.Repeats Error.isNotFound s := by
  cases o with
  | collection c => exact repeats_drop_collection c s
  | index i => exact repeats_drop_index i space
  | view v => exact repeats_drop_view v s
  | analyzer a => exact repeats_drop_analyzer a s

end Definition

/-! ### Commands -/

/-- An attempt of which some errors are accepted ends well exactly if what was attempted ended
in an accepted way. -/
theorem Exchange.exists_ends_tolerant_iff {α : Type} {s s' : Store} {x : Exchange Unit}
    {done other : α} {accepts : Error → Bool} :
    (∃ value, Exchange.Ends Store.server s (do
      match ← x.attempt with
      | .ok () => return done
      | .error e => if accepts e then return other else .fail e) (.ok value) s') ↔
      ∃ outcome, x.Ends Store.server s outcome s' ∧ Accepted accepts outcome := by
  constructor
  · rintro ⟨value, ends⟩
    rcases ends_tolerant ends with ⟨own, _⟩ | ⟨e, own, given⟩
    · exact ⟨_, own, by rintro _ ⟨⟩⟩
    · refine ⟨_, own, ?_⟩
      rintro _ ⟨⟩
      split at given
      · assumption
      · cases given
  · rintro ⟨outcome, ends, accepted⟩
    have attempted := ends_attempt_iff.mpr ⟨outcome, rfl, ends⟩
    cases outcome with
    | ok value => exact ⟨done, attempted.bind (ends_pure_iff.mpr ⟨rfl, rfl⟩)⟩
    | error e =>
        refine ⟨other, attempted.bind ?_⟩
        dsimp only
        rw [if_pos (accepted e rfl)]
        exact ends_pure_iff.mpr ⟨rfl, rfl⟩

namespace Command

variable {s s' : Store} {o : Definition} {database : Option String}
  {transaction : Option Transaction} {report : Report}

theorem ends_createIfNotExists_iff :
    (∃ report, ((createIfNotExists o).perform database transaction).Ends Store.server s
      (.ok report) s') ↔
      o.validate = .ok () ∧
        ∃ outcome, o.create.Ends Store.server s outcome s' ∧
          Accepted Error.isConflict outcome := by
  constructor
  · rintro ⟨report, ends⟩
    obtain ⟨_, _, valid, rest⟩ := ends_bind_ok_iff.mp ends
    obtain ⟨isValid, rfl⟩ := ends_ofSchema_iff.mp valid
    refine ⟨?_, exists_ends_tolerant_iff.mp ⟨report, rest⟩⟩
    cases given : o.validate with
    | ok _ => rfl
    | error fault =>
        rw [given] at isValid
        cases isValid
  · rintro ⟨valid, attempted⟩
    obtain ⟨report, rest⟩ := exists_ends_tolerant_iff.mpr attempted
    exact ⟨report, Ends.bind (ends_ofSchema_iff.mpr ⟨by rw [valid]; rfl, rfl⟩) rest⟩

theorem ends_dropIfExists_iff :
    (∃ report, ((dropIfExists o).perform database transaction).Ends Store.server s (.ok report)
      s') ↔
      ∃ outcome, o.drop.Ends Store.server s outcome s' ∧ Accepted Error.isNotFound outcome :=
  exists_ends_tolerant_iff

/-- In a store that requests of whatever kind have led to, a command that created an object
unless it existed, or dropped it if it existed, succeeds again when it is given once more, and
then leaves all databases exactly as they were after the first time. -/
theorem guarded_repeats {home : String} {batchSize : Nat} {requests : List Request}
    {command : Command} (guarded : command = .createIfNotExists o ∨ command = .dropIfExists o)
    (ends : (command.perform database transaction).Ends Store.server
      (({ home, batchSize } : Store).answers requests) (.ok report) s') :
    ∃ report' s'', (command.perform database transaction).Ends Store.server s' (.ok report') s'' ∧
      ∀ name, s''.database name = s'.database name := by
  rcases guarded with rfl | rfl
  · obtain ⟨valid, outcome, creates, accepted⟩ := ends_createIfNotExists_iff.mp ⟨report, ends⟩
    obtain ⟨outcome', s'', again, acceptedAgain, same⟩ :=
      o.repeats_create _ outcome s' s' creates accepted (.refl s')
    obtain ⟨report', endsAgain⟩ :=
      ends_createIfNotExists_iff.mpr ⟨valid, outcome', again, acceptedAgain⟩
    exact ⟨report', s'', endsAgain, same.database_eq⟩
  · have space := Store.namespace_of_requests home batchSize requests
    obtain ⟨outcome, drops, accepted⟩ := ends_dropIfExists_iff.mp ⟨report, ends⟩
    obtain ⟨outcome', s'', again, acceptedAgain, same⟩ :=
      o.repeats_drop space outcome s' s' drops accepted (.refl s')
    obtain ⟨report', endsAgain⟩ := ends_dropIfExists_iff.mpr ⟨outcome', again, acceptedAgain⟩
    exact ⟨report', s'', endsAgain, same.database_eq⟩

/-- Requests that create a collection with two indexes. -/
def indexedRequests : List Request :=
  [.post "collection" (.obj ⟨[("name", .str "users")]⟩),
    (Request.post "index" (.obj ⟨[("name", .str "users_age_index")]⟩)).withQuery "collection"
      "users",
    (Request.post "index" (.obj ⟨[("name", .str "users_name_index")]⟩)).withQuery "collection"
      "users"]

/-- The index is dropped once, and the other one stays. -/
theorem guarded_repeats_of_indexedRequests :
    ∃ s' report' s'',
      ((dropIfExists (.index { collection := "users", fields := ["age"] })).perform none none).Ends
        Store.server (({} : Store).answers indexedRequests)
        (.ok (.dropped "index" "users_age_index")) s' ∧
      (s'.indexes none "users").length = 1 ∧
      ((dropIfExists (.index { collection := "users", fields := ["age"] })).perform none none).Ends
        Store.server s' (.ok report') s'' ∧
      ∀ name, s''.database name = s'.database name := by
  have first : ((dropIfExists (.index { collection := "users", fields := ["age"] })).perform none
      none).Ends Store.server (({} : Store).answers indexedRequests)
        (.ok (.dropped "index" "users_age_index")) _ := ⟨rfl, rfl⟩
  obtain ⟨report', s'', again, same⟩ := guarded_repeats (Or.inr rfl) first
  exact ⟨_, report', s'', first, rfl, again, same⟩

end Command

end DocStore
