/-
Module: DocStore.Proofs.Migration.Ensuring
Purpose: what the creation of an object leaves in its database if a taken name is tolerated.
Main exports:
  Database.stored?, Database.Unrivalled, Database.Ensured, Store.Redefined,
  Definition.create_ensured, Command.createIfNotExists_ensures
-/
import DocStore.Proofs.Dict.Order
import DocStore.Proofs.Migration.Rollback

namespace DocStore

open Exchange

/-! ### What is stored under a name -/

/-- What a database has stored for an object. -/
inductive Stored where
  | collection (c : StoredCollection)
  | index (members : Dict Json)
  | view (members : Dict Json)
  | analyzer (body : Json)

/-- The index of a name. -/
def StoredCollection.index? (c : StoredCollection) (name : String) : Option (Dict Json) :=
  c.indexes.find? fun index => (Document.value index "name").isTextOf name

namespace Database

/-- What is stored of the kind and the name of an object; of an index, on its
collection. -/
def stored? (db : Database) : Definition → Option Stored
  | .collection c => (db.collections.get? c.name).map .collection
  | .index i => ((db.collections.get? i.collection).bind (·.index? i.indexName)).map .index
  | .view v => (db.views.get? v.name).map .view
  | .analyzer a => (db.analyzers.get? a.name).map .analyzer

theorem isSome_stored?_collection (db : Database) (c : Collection) :
    (db.stored? (.collection c)).isSome = db.collections.contains c.name :=
  Option.isSome_map

theorem isSome_stored?_view (db : Database) (v : View) :
    (db.stored? (.view v)).isSome = db.views.contains v.name :=
  Option.isSome_map

theorem isSome_stored?_analyzer (db : Database) (a : Analyzer) :
    (db.stored? (.analyzer a)).isSome = db.analyzers.contains a.name :=
  Option.isSome_map

/-- Collections and views share their names.  If the object is missing, its name is not that
of an object of the other kind. -/
def Unrivalled (db : Database) : Definition → Prop
  | .collection c => db.collections.contains c.name = false → db.views.contains c.name = false
  | .view v => db.views.contains v.name = false → db.collections.contains v.name = false
  | _ => True

/-- The name of an object is in use, so that the object is not created.  An analyzer takes
the place of another one. -/
def Taken (db : Database) : Definition → Prop
  | .collection c => db.nameTaken c.name = true
  | .index i => (db.stored? (.index i)).isSome = true
  | .view v => db.nameTaken v.name = true
  | .analyzer _ => False

/-- What becomes of a database in which an object is created unless its name is taken. -/
inductive Ensured (db : Database) : Definition → Database → Prop where
  | taken {o : Definition} (taken : db.Taken o) : db.Ensured o db
  | collection {c : Collection} (free : db.nameTaken c.name = false) (properties : Dict Json) :
      db.Ensured (.collection c) (db.putCollection c.name { properties })
  | index {i : Index} {c : StoredCollection} {members : Dict Json}
      (stored : db.collections.get? i.collection = some c) (free : c.index? i.indexName = none)
      (named : members.get? "name" = some (.str i.indexName)) :
      db.Ensured (.index i) (db.putCollection i.collection
        { c with indexes := c.indexes ++ [members], nextIndex := c.nextIndex + 1 })
  | view {v : View} (free : db.nameTaken v.name = false) (members : Dict Json) :
      db.Ensured (.view v) (db.putView v.name members)
  | analyzer {a : Analyzer} {analyzers : Dict Json}
      (replaced : ∀ name, analyzers.get? name =
        if name = a.name then some a.body else db.analyzers.get? name) :
      db.Ensured (.analyzer a) { db with analyzers }

namespace Ensured

variable {db db' : Database} {o : Definition}

/-- The object is there afterwards, unless its name is that of an object of another kind. -/
theorem isSome_stored? (ensured : db.Ensured o db') (unrivalled : db.Unrivalled o) :
    (db'.stored? o).isSome = true := by
  cases ensured with
  | taken taken =>
      cases o with
      | collection c =>
          rw [isSome_stored?_collection]
          cases missing : db.collections.contains c.name with
          | true => rfl
          | false =>
              have free : db.nameTaken c.name = false := by
                rw [nameTaken, missing, unrivalled missing, Bool.or_self]
              cases taken.symm.trans free
      | index i => exact taken
      | view v =>
          rw [isSome_stored?_view]
          cases missing : db.views.contains v.name with
          | true => rfl
          | false =>
              have free : db.nameTaken v.name = false := by
                rw [nameTaken, missing, unrivalled missing, Bool.or_self]
              cases taken.symm.trans free
      | analyzer a => cases taken
  | collection free properties => simp [stored?, putCollection]
  | @index i c members stored free named =>
      have found : (Document.value members "name").isTextOf i.indexName = true := by
        simp [Document.value, named, Json.isTextOf, Json.text?]
      simp [stored?, putCollection, StoredCollection.index?, found]
  | view free members => simp [stored?, putView]
  | analyzer replaced => simp [stored?, replaced]

/-- What was there of the kind and the name of the object is as it was, but for an analyzer
that is given another definition. -/
theorem stored?_eq (ensured : db.Ensured o db') {found : Stored}
    (same : ∀ a, o = .analyzer a → found = .analyzer a.body)
    (stored : db.stored? o = some found) : db'.stored? o = some found := by
  cases ensured with
  | taken taken => exact stored
  | collection free properties =>
      rw [stored?, (nameTaken_eq_false_iff.mp free).1] at stored
      cases stored
  | index present free named =>
      rw [stored?, present, Option.bind_some, free] at stored
      cases stored
  | view free members =>
      rw [stored?, (nameTaken_eq_false_iff.mp free).2] at stored
      cases stored
  | @analyzer a analyzers replaced =>
      rw [same a rfl, stored?, replaced, if_pos rfl]
      rfl

end Ensured

end Database

/-! ### Stores with a database in the place of another -/

namespace Store

/-- The second store has the given database under a name; all others are those of the
first. -/
structure Redefined (s : Store) (database : String) (db : Database) (s' : Store) : Prop where
  home_eq : s'.home = s.home
  here : s'.database database = db
  others : ∀ other, other ≠ database → s'.database other = s.database other

variable {s s' s'' : Store} {database : String} {db db' : Database} {r : Request}

theorem Redefined.trans (first : s.Redefined database db s')
    (second : s'.Redefined database db' s'') : s.Redefined database db' s'' where
  home_eq := second.home_eq.trans first.home_eq
  here := second.here
  others other apart := (second.others other apart).trans (first.others other apart)

theorem redefined_put (s : Store) (r : Request) (database : String) (db : Database) :
    s.Redefined database db ((s.noteRequest r).putDatabase database db) where
  home_eq := rfl
  here := database_putDatabase_self _ database db
  others _ apart := database_putDatabase_of_ne (s.noteRequest r) db apart

theorem redefined_note (s : Store) (r : Request) (database : String) :
    s.Redefined database (s.database database) (s.noteRequest r) :=
  ⟨rfl, rfl, fun _ _ => rfl⟩

/-- An operation ended well, or with a conflict. -/
def Tolerated (outcome : Except Error Unit) : Prop :=
  ∀ e, outcome = .error e → e.isConflict = true

theorem nameTaken_of_isConflict {refusal : Refusal}
    (conflict : (Error.store refusal.status refusal.number refusal.message).isConflict = true) :
    ∃ name, refusal = .nameTaken name := by
  cases refusal with
  | nameTaken name => exact ⟨name, rfl⟩
  | _ => cases conflict

/-- A change of definitions that ended well, or with a conflict, was made, or it was refused
since a name is taken. -/
theorem change_of_tolerated {route : Route} {change : Database → Change}
    {outcome : Except Error Unit} (outside : r.transaction = none)
    (routed : Route.of? r = some route)
    (is : route.change? r (r.body.getD .null) = some change)
    (ends : (Exchange.command r).Ends Store.server s outcome s')
    (tolerated : Store.Tolerated outcome) :
    (∃ response db, change (s.database (s.databaseOf r)) = .ok (response, db) ∧
        s.Redefined (s.databaseOf r) db s') ∨
      (∃ name, change (s.database (s.databaseOf r)) = .error (.nameTaken name)) ∧
        s.Redefined (s.databaseOf r) (s.database (s.databaseOf r)) s' := by
  rcases ends_command_cases outside routed is ends with
    ⟨refusal, refused, failed, rfl⟩ | ⟨response, db, made, _, rfl⟩
  · obtain ⟨name, rfl⟩ := nameTaken_of_isConflict (tolerated _ failed)
    exact Or.inr ⟨⟨name, refused⟩, redefined_note s r _⟩
  · exact Or.inl ⟨response, db, made, redefined_put s r _ _⟩

end Store

namespace Database

variable {db : Database} {r : Request} {body : Json} {name other : String}

/-- Only a name that is in use is refused as taken. -/
theorem nameTaken_of_createCollection (named : body.field "name" = .str name)
    (refused : db.createCollection body = .error (.nameTaken other)) :
    db.nameTaken name = true := by
  cases taken : db.nameTaken name with
  | true => rfl
  | false =>
      cases body with
      | obj fields =>
          cases empty : name.isEmpty with
          | true =>
              simp [createCollection, objectBody, nameIn, named, Json.text?, Bind.bind,
                Except.bind, empty] at refused
          | false =>
              rw [createCollection_eq db named empty, taken] at refused
              cases refused
      | _ => cases refused

theorem nameTaken_of_createView (named : body.field "name" = .str name)
    (refused : db.createView body = .error (.nameTaken other)) : db.nameTaken name = true := by
  cases taken : db.nameTaken name with
  | true => rfl
  | false =>
      cases body with
      | obj fields =>
          simp [createView, objectBody, nameIn, named, Json.text?, Bind.bind, Except.bind,
            freshName, taken] at refused
      | _ => cases refused

theorem stored?_of_createIndex {i : Index} (named : body.field "name" = .str i.indexName)
    (about : indexedCollection r = .ok i.collection)
    (refused : db.createIndex r body = .error (.nameTaken other)) :
    (db.stored? (.index i)).isSome = true := by
  cases body with
  | obj fields =>
      cases stored : db.collections.get? i.collection with
      | none =>
          simp [createIndex, about, objectBody, collection, stored, Bind.bind,
            Except.bind] at refused
      | some c =>
          simp only [createIndex, about, objectBody, collection, stored, Bind.bind, Except.bind,
            named, Json.text?, Option.getD_some] at refused
          split at refused
          · next used => simpa [stored?, stored, StoredCollection.index?] using used
          · cases refused
  | _ => simp [createIndex, about, objectBody, Bind.bind, Except.bind] at refused

end Database

/-! ### Creating objects -/

namespace Definition

/-- The second store is the first one with the object created in its database, unless its
name was taken there. -/
def EnsuredIn (o : Definition) (s s' : Store) : Prop :=
  ∃ db, s.Redefined (o.tenant.getD s.home) db s' ∧
    (s.database (o.tenant.getD s.home)).Ensured o db

variable {s s' : Store} {outcome : Except Error Unit}

theorem ensured_collection {c : Collection}
    (ends : (create (collection c)).Ends Store.server s outcome s')
    (tolerated : Store.Tolerated outcome) : (collection c).EnsuredIn s s' := by
  cases is : c.body with
  | error fault =>
      rw [create, is] at ends
      cases tolerated _ (ends_fail_iff.mp ends).1
  | ok body =>
      rw [create, is] at ends
      have routed : Route.of? ((Request.post "collection" body).withDatabase c.tenant) =
          some .createCollection := Route.of?_post "collection" rfl rfl (by decide)
      have named := Collection.name_of_body is
      rcases Store.change_of_tolerated rfl routed rfl ends tolerated with
        ⟨response, db, made, redefined⟩ | ⟨⟨name, refused⟩, redefined⟩
      · obtain ⟨fields, name, _, isGiven, _, free, _, rfl⟩ :=
          Database.createCollection_eq_ok_iff.mp made
        cases named.symm.trans isGiven
        exact ⟨_, redefined, .collection free _⟩
      · exact ⟨_, redefined, .taken (Database.nameTaken_of_createCollection named refused)⟩

theorem ensured_view {v : View} (ends : (create (view v)).Ends Store.server s outcome s')
    (tolerated : Store.Tolerated outcome) : (view v).EnsuredIn s s' := by
  have routed : Route.of? ((Request.post "view" v.body).withDatabase v.tenant) =
      some .createView := Route.of?_post "view" rfl rfl (by decide)
  have named := v.name_of_body
  rcases Store.change_of_tolerated rfl routed rfl ends tolerated with
    ⟨response, db, made, redefined⟩ | ⟨⟨name, refused⟩, redefined⟩
  · obtain ⟨members, name, _, isGiven, free, _, rfl⟩ := Database.createView_eq_ok_iff.mp made
    cases named.symm.trans isGiven
    exact ⟨_, redefined, .view free _⟩
  · exact ⟨_, redefined, .taken (Database.nameTaken_of_createView named refused)⟩

theorem ensured_index {i : Index} (ends : (create (index i)).Ends Store.server s outcome s')
    (tolerated : Store.Tolerated outcome) : (index i).EnsuredIn s s' := by
  let r := ((Request.post "index" i.body).withQuery "collection" i.collection).withDatabase
    i.tenant
  have routed : Route.of? r = some .createIndex := Route.of?_post "index" rfl rfl (by decide)
  have named : (r.body.getD .null).field "name" = .str i.indexName := i.name_of_body
  have about : Database.indexedCollection r = .ok i.collection := rfl
  rcases Store.change_of_tolerated rfl routed rfl ends tolerated with
    ⟨response, db, made, redefined⟩ | ⟨⟨name, refused⟩, redefined⟩
  · obtain ⟨collection, definition, c, given, isObject, stored, free, _, rfl⟩ :=
      Database.createIndex_eq_ok_iff.mp made
    cases about.symm.trans given
    rw [named, Json.text?, Option.getD_some] at free
    refine ⟨_, redefined, .index stored ?_ ?_⟩
    · exact List.find?_eq_none.mpr fun index member => by
        simpa using List.any_eq_false.mp free index member
    · rw [isObject] at named
      rw [Database.newIndex, named, Dict.get?_insert_self]
      rfl
  · exact ⟨_, redefined, .taken (Database.stored?_of_createIndex named about refused)⟩

/-- An analyzer whose name leads to a route is deleted, or it is not there. -/
theorem clear_of_routed {a : Analyzer}
    (routed : Route.of? (deleteRequest a) = some (.dropAnalyzer a.name)) (s : Store) :
    ∃ s', a.clear.Ends Store.server s (.ok ()) s' ∧
      s.Redefined (a.tenant.getD s.home)
        { s.database (a.tenant.getD s.home) with
          analyzers := (s.database (a.tenant.getD s.home)).analyzers.erase a.name } s' := by
  obtain ⟨outcome, s', ends⟩ := exists_ends Store.server s a.clear
  cases stored : (s.database (a.tenant.getD s.home)).analyzers.get? a.name with
  | none =>
      have refused := Store.ends_command_of_refused (s := s) (r := deleteRequest a) rfl routed
        rfl (Database.dropAnalyzer_of_absent stored)
      rcases ends_tolerant ends with ⟨deletes, _⟩ | ⟨e, deletes, tolerates⟩
      · cases (deletes.unique refused).1
      · obtain ⟨same, rfl⟩ := deletes.unique refused
        cases same
        rw [tolerates] at ends
        rw [Dict.erase_of_absent stored]
        exact ⟨_, ends, Store.redefined_note s _ _⟩
  | some body =>
      have made := Store.ends_command_of_made (s := s) (r := deleteRequest a) rfl routed rfl
        (Database.dropAnalyzer_eq_ok_iff.mpr ⟨⟨body, stored⟩, rfl, rfl⟩)
        (Response.result_single _ (by decide) (by decide))
      rcases ends_tolerant ends with ⟨deletes, done⟩ | ⟨e, deletes, _⟩
      · obtain ⟨_, rfl⟩ := deletes.unique made
        rw [done] at ends
        exact ⟨_, ends, Store.redefined_put s _ _ _⟩
      · cases (deletes.unique made).1

/-- Before an analyzer is created, one of its name is deleted. -/
theorem ends_clear {a : Analyzer} (ends : a.clear.Ends Store.server s outcome s')
    (tolerated : Store.Tolerated outcome) :
    outcome = .ok () ∧ ∃ analyzers : Dict Json,
      (∀ name, analyzers.get? name = if name = a.name then none
        else (s.database (a.tenant.getD s.home)).analyzers.get? name) ∧
      s.Redefined (a.tenant.getD s.home)
        { s.database (a.tenant.getD s.home) with analyzers } s' := by
  obtain ⟨s₁, clears, redefined⟩ := clear_of_routed (routed_of_clear ends tolerated) s
  obtain ⟨rfl, rfl⟩ := ends.unique clears
  exact ⟨rfl, _, Dict.get?_erase _ _, redefined⟩

theorem ensured_analyzer {a : Analyzer}
    (ends : (create (analyzer a)).Ends Store.server s outcome s')
    (tolerated : Store.Tolerated outcome) : (analyzer a).EnsuredIn s s' := by
  let r := (Request.post "analyzer" a.body).withDatabase a.tenant
  have routed : Route.of? r = some .createAnalyzer :=
    Route.of?_post "analyzer" rfl rfl (by decide)
  rcases ends_bind_iff.mp ends with ⟨_, s₀, cleared, posted⟩ | ⟨e, failed, rfl⟩
  · obtain ⟨_, analyzers, without, first⟩ := ends_clear cleared fun _ failed => by cases failed
    have here : s₀.databaseOf r = a.tenant.getD s.home := by
      rw [← first.home_eq]
      rfl
    have free : (s₀.database (s₀.databaseOf r)).analyzers.get? a.name = none := by
      rw [here, first.here, without, if_pos rfl]
    have named : (r.body.getD .null).field "name" = .str a.name := rfl
    have made := Database.createAnalyzer_eq_ok_iff.mpr ⟨a.name, named, free, rfl, rfl⟩
    rcases Store.change_of_tolerated rfl routed rfl posted tolerated with
      ⟨_, _, same, second⟩ | ⟨⟨_, refused⟩, _⟩
    · cases made.symm.trans same
      rw [here, first.here] at second
      refine ⟨_, first.trans second, .analyzer fun name => ?_⟩
      rw [Dict.get?_insert]
      split
      · rfl
      · next unlike =>
          rw [without, if_neg unlike]
          rfl
    · cases made.symm.trans refused
  · cases (ends_clear failed tolerated).1

/-- An object that is created, or whose name is taken already, is then in its database. -/
theorem create_ensured {o : Definition} (ends : o.create.Ends Store.server s outcome s')
    (tolerated : Store.Tolerated outcome) : o.EnsuredIn s s' := by
  cases o with
  | collection c => exact ensured_collection ends tolerated
  | index i => exact ensured_index ends tolerated
  | view v => exact ensured_view ends tolerated
  | analyzer a => exact ensured_analyzer ends tolerated

end Definition

namespace Command

variable {o : Definition} {s s' : Store} {database : Option String}
  {transaction : Option Transaction} {report : Report}

theorem ensured_of_create
    (ends : ((create o).perform database transaction).Ends Store.server s (.ok report) s') :
    o.EnsuredIn s s' := by
  exact Definition.create_ensured (ends_create_of_perform ends) fun _ failed => by cases failed

/-- What a command to create an object unless it exists leaves in the database of the
object, if it succeeds. -/
theorem ensured_of_createIfNotExists
    (ends : ((createIfNotExists o).perform database transaction).Ends Store.server s (.ok report)
      s') :
    o.EnsuredIn s s' := by
  obtain ⟨_, _, valid, rest⟩ := ends_bind_ok_iff.mp ends
  obtain ⟨_, rfl⟩ := ends_ofSchema_iff.mp valid
  rcases ends_tolerant rest with ⟨creates, _⟩ | ⟨e, creates, reported⟩
  · exact Definition.create_ensured creates fun _ failed => by cases failed
  · split at reported
    · next conflict =>
        refine Definition.create_ensured creates ?_
        rintro _ ⟨⟩
        exact conflict
    · cases reported

/-- The object that a command creates unless it exists is there afterwards, if no object of
another kind has taken its name.  One that was there already is unchanged with all that is in
it, but for an analyzer that is given another definition. -/
theorem createIfNotExists_ensures
    (ends : ((createIfNotExists o).perform database transaction).Ends Store.server s (.ok report)
      s') :
    ((s.inspected o.tenant).Unrivalled o →
        ((s'.inspected o.tenant).stored? o).isSome = true) ∧
      ∀ found, (∀ a, o = .analyzer a → found = .analyzer a.body) →
        (s.inspected o.tenant).stored? o = some found →
        (s'.inspected o.tenant).stored? o = some found := by
  obtain ⟨db, redefined, ensured⟩ := ensured_of_createIfNotExists ends
  have here : s'.inspected o.tenant = db := by
    rw [Store.inspected, redefined.home_eq, redefined.here]
  rw [here]
  exact ⟨ensured.isSome_stored?, fun _ => ensured.stored?_eq⟩

/-- A store with a guest in a collection. -/
def guestStore : Store :=
  { databases := ⟨[("_system", { collections := ⟨[("guests",
      { properties := ⟨[("name", .str "guests")]⟩
        documents := [⟨[("_key", .str "ann")]⟩] })]⟩ })]⟩ }

theorem createIfNotExists_ensures_of_guestStore :
    ∃ s', ((createIfNotExists (.collection { name := "guests" })).perform none none).Ends
        Store.server guestStore (.ok (.alreadyThere "collection" "guests")) s' ∧
      (s'.inspected none).stored? (.collection { name := "guests" }) =
        some (.collection
          { properties := ⟨[("name", .str "guests")]⟩
            documents := [⟨[("_key", .str "ann")]⟩] }) := by
  refine ⟨_, ⟨rfl, rfl⟩, (createIfNotExists_ensures ⟨rfl, rfl⟩).2 _ ?_ rfl⟩
  rintro _ ⟨⟩

/-- The name of a view is tolerated as if it were that of the collection. -/
example : ∃ s', ((createIfNotExists (.collection { name := "found" })).perform none none).Ends
      Store.server { databases := ⟨[("_system", { views := ⟨[("found", {})]⟩ })]⟩ }
      (.ok (.alreadyThere "collection" "found")) s' ∧
    (s'.inspected none).stored? (.collection { name := "found" }) = none :=
  ⟨_, ⟨rfl, rfl⟩, rfl⟩

/-- An analyzer that cuts texts at a delimiter. -/
def splitBy (delimiter : String) : Analyzer :=
  { name := "split", kind := .delimiter, properties := ⟨[("delimiter", .str delimiter)]⟩ }

theorem validate_splitBy (delimiter : String) : (splitBy delimiter).validate = .ok () := by
  have named : Analyzer.isName "split" = true := by decide
  simp [Analyzer.validate, splitBy, named, checkProperties, checkRules, checkShape,
    AnalyzerKind.takes, AnalyzerKind.rules, Dict.keys, Dict.get?, Dict.lookupEntry, Shape.accepts,
    Json.isText, Json.text?]

/-- A store with an analyzer that cuts at commas. -/
def commaStore : Store :=
  { databases := ⟨[("_system", { analyzers := ⟨[("split", (splitBy ",").body)]⟩ })]⟩ }

/-- An analyzer that is there is replaced. -/
theorem analyzer_replaced_by_createIfNotExists :
    ∃ s', commaStore.analyzer none "split" = some (splitBy ",").body ∧
      ((createIfNotExists (.analyzer (splitBy ";"))).perform none none).Ends Store.server commaStore
        (.ok (.created "analyzer" "split")) s' ∧
      s'.analyzer none "split" = some (splitBy ";").body := by
  have valid : (Exchange.ofSchema (Definition.validate (.analyzer (splitBy ";")))).Ends
      Store.server commaStore (.ok ()) commaStore := by
    rw [Definition.validate, validate_splitBy]
    exact ⟨rfl, rfl⟩
  let o : Definition := .analyzer (splitBy ";")
  have creates : o.create.Ends Store.server commaStore (.ok ())
      (o.create.runOn Store.server commaStore).state := ⟨rfl, rfl⟩
  have attempted := ends_attempt_iff.mpr ⟨_, rfl, creates⟩
  refine ⟨_, rfl, valid.bind (attempted.bind (ends_pure_iff.mpr ⟨rfl, rfl⟩)), rfl⟩

end Command

end DocStore
