/-
Module: DocStore.Proofs.Adapter.DynamicInsert
Purpose: an insertion that creates its collection if that is missing, against the creation of
  the collection followed by an insertion that leaves collections as they are.
Main exports:
  Database.unrevised, Store.UpToRevisions, Store.Abreast, Store.Abreast.insertDocument,
  Adapter.static, Adapter.insertInSteps, Adapter.insert_dynamic
-/
import DocStore.Proofs.Adapter.ReadBack
import DocStore.Proofs.Memory.Definitions

namespace DocStore

open Exchange

/-!
The insertion posts the document first, so that it has given a revision when it finds out that
the collection is missing; the two steps have not.  From there on both do the same in stores
that hold the same, and what they insert differs in its revision only.
-/

/-! ### Without revisions -/

namespace Dict

variable {α β : Type}

/-- The map with the values replaced by their images. -/
def mapValues (f : α → β) (d : Dict α) : Dict β :=
  ⟨d.entries.map fun e => (e.1, f e.2)⟩

theorem mapValues_insert (f : α → β) (d : Dict α) (key : String) (value : α) :
    (d.insert key value).mapValues f = (d.mapValues f).insert key (f value) := by
  have entries : ∀ list : List (String × α),
      (insertEntry key value list).map (fun e => (e.1, f e.2)) =
        insertEntry key (f value) (list.map fun e => (e.1, f e.2)) := by
    intro list
    induction list with
    | nil => rfl
    | cons first rest inductionHypothesis =>
        simp only [insertEntry, List.map_cons]
        split
        · rfl
        · split
          · rfl
          · rw [List.map_cons, inductionHypothesis]
  exact congrArg Dict.mk (entries d.entries)

end Dict

/-- A document with its revision blanked. -/
def Document.unrevised (d : Document) : Document :=
  Dict.modify d "_rev" fun _ => .null

/-- A collection with the revisions of its documents blanked. -/
def StoredCollection.unrevised (c : StoredCollection) : StoredCollection :=
  { c with documents := c.documents.map Document.unrevised }

/-- A database with the revisions of its documents blanked. -/
def Database.unrevised (db : Database) : Database :=
  { db with collections := db.collections.mapValues StoredCollection.unrevised }

theorem Document.unrevised_insert (d : Document) (revision : String) :
    Document.unrevised (d.insert "_rev" (.str revision)) = d.insert "_rev" .null := by
  rw [Document.unrevised, Dict.modify, Dict.get?_insert_self]
  exact Dict.insert_insert d "_rev" _ _

theorem Database.unrevised_putCollection (db : Database) (name : String) {c c' : StoredCollection}
    (same : c.unrevised = c'.unrevised) :
    (db.putCollection name c).unrevised = (db.putCollection name c').unrevised := by
  simp only [unrevised, putCollection, Dict.mapValues_insert, same]

namespace Store

/-- Two stores that hold the same but for the revisions of documents. -/
structure UpToRevisions (s t : Store) : Prop where
  home_eq : t.home = s.home
  database_eq : ∀ name, (t.database name).unrevised = (s.database name).unrevised

/-- Two stores that hold the same and will give the same names, though not the same
revisions. -/
structure Abreast (s t : Store) : Prop where
  home_eq : t.home = s.home
  databases_eq : t.databases = s.databases
  names_eq : t.names = s.names

namespace Abreast

variable {s t : Store} {r : Request}

theorem refl (s : Store) : s.Abreast s := ⟨rfl, rfl, rfl⟩

theorem database_eq (abreast : s.Abreast t) (name : String) :
    t.database name = s.database name := by
  rw [Store.database, abreast.databases_eq, Store.database]

theorem databaseOf_eq (abreast : s.Abreast t) (r : Request) :
    t.databaseOf r = s.databaseOf r := by
  rw [Store.databaseOf, abreast.home_eq]
  rfl

theorem here_eq (abreast : s.Abreast t) (r : Request) :
    t.database (t.databaseOf r) = s.database (s.databaseOf r) := by
  rw [abreast.databaseOf_eq, abreast.database_eq]

theorem upToRevisions (abreast : s.Abreast t) : s.UpToRevisions t :=
  ⟨abreast.home_eq, fun name => by rw [abreast.database_eq]⟩

theorem noteRequest (abreast : s.Abreast t) (r : Request) :
    (s.noteRequest r).Abreast (t.noteRequest r) :=
  ⟨abreast.home_eq, abreast.databases_eq, abreast.names_eq⟩

theorem putDatabase (abreast : s.Abreast t) (name : String) (db : Database) :
    (s.putDatabase name db).Abreast (t.putDatabase name db) where
  home_eq := abreast.home_eq
  databases_eq := by rw [Store.putDatabase, Store.putDatabase, abreast.databases_eq]
  names_eq := abreast.names_eq

/-- A change of definitions is answered in the same way. -/
theorem command (abreast : s.Abreast t) {route : Route} {change : Database → Change}
    (outside : r.transaction = none) (routed : Route.of? r = some route)
    (is : route.change? r (r.body.getD .null) = some change) :
    ∃ outcome s' t', (Exchange.command r).Ends Store.server s outcome s' ∧
      (Exchange.command r).Ends Store.server t outcome t' ∧ s'.Abreast t' := by
  cases made : change (s.database (s.databaseOf r)) with
  | error refusal =>
      exact ⟨_, _, _, ends_command_of_refused outside routed is made,
        ends_command_of_refused outside routed is ((abreast.here_eq r).symm ▸ made),
        abreast.noteRequest r⟩
  | ok result =>
      obtain ⟨response, db⟩ := result
      have answers := answer_of_made outside routed is made
      have answersAlso := answer_of_made (s := t) outside routed is
        ((abreast.here_eq r).symm ▸ made)
      refine ⟨response.result.map fun _ => (), _, _, ends_command_iff.mpr ⟨?_, rfl⟩,
        ends_command_iff.mpr ⟨?_, rfl⟩, ?_⟩
      · rw [answers]
        rfl
      · rw [answersAlso]
        rfl
      · rw [answers, answersAlso, abreast.databaseOf_eq]
        exact (abreast.noteRequest r).putDatabase _ _

end Abreast

end Store

/-! ### Inserting documents -/

/-- Whether a document can be inserted, and what it becomes, depends on its revision only in
that. -/
theorem StoredCollection.insertDocument_revisions (c : StoredCollection) (name key : String)
    (fields : Dict Json) (first second : String) :
    (∃ refusal, c.insertDocument name key first fields = .error refusal ∧
        c.insertDocument name key second fields = .error refusal) ∨
      ∃ d d' : Document,
        c.insertDocument name key first fields =
          .ok (d, { c with documents := c.documents ++ [d] }) ∧
        c.insertDocument name key second fields =
          .ok (d', { c with documents := c.documents ++ [d'] }) ∧
        d.value "_key" = .str key ∧ d'.value "_key" = .str key ∧ d.unrevised = d'.unrevised := by
  unfold insertDocument
  split
  · exact Or.inl ⟨_, rfl, rfl⟩
  · split
    · exact Or.inl ⟨_, rfl, rfl⟩
    · refine Or.inr ⟨_, _, rfl, rfl, ?_, ?_, ?_⟩
      · simp [Document.value, Dict.get?_insert]
      · simp [Document.value, Dict.get?_insert]
      · rw [Document.unrevised_insert, Document.unrevised_insert]

namespace Store

variable {s t : Store} {r : Request} {collection : String} {fields : Dict Json}

/-- An insertion outside of transactions.  The revision is given before anything is looked
up. -/
theorem insertDocument_outside (outside : r.transaction = none) :
    s.insertDocument r collection (.obj fields) =
      match (s.database (s.databaseOf r)).collection collection with
      | .error refusal => (.error refusal, s.takeRevision.2)
      | .ok c =>
          match c.insertDocument collection (s.takeRevision.2.keyFor fields).1 s.takeRevision.1
              fields with
          | .error refusal => (.error refusal, (s.takeRevision.2.keyFor fields).2)
          | .ok (d, c) =>
              (.ok (answered 201
                (.obj ((Dict.ofList (StoredCollection.header d)).insert "new" (.obj d)))),
                (s.takeRevision.2.keyFor fields).2.putCollection (s.databaseOf r) collection
                  c) := by
  have permitted : s.permitWrite r collection = .ok () := by
    rw [permitWrite, outside]
    rfl
  unfold insertDocument
  simp only [Database.objectBody, permitted, noteUndo_outside outside]
  rfl

theorem Abreast.takeRevision (abreast : s.Abreast t) :
    s.takeRevision.2.Abreast t.takeRevision.2 :=
  ⟨abreast.home_eq, abreast.databases_eq, abreast.names_eq⟩

theorem Abreast.keyFor (abreast : s.Abreast t) (fields : Dict Json) :
    (t.keyFor fields).1 = (s.keyFor fields).1 ∧
      (s.keyFor fields).2.Abreast (t.keyFor fields).2 := by
  unfold Store.keyFor
  split
  · exact ⟨rfl, abreast⟩
  · refine ⟨?_, abreast.home_eq, abreast.databases_eq, congrArg (· + 1) abreast.names_eq⟩
    rw [takeName, takeName, abreast.names_eq]

/-- In stores that are abreast an insertion is refused for the same reason, or it shows the same
key and leads to the same but for revisions. -/
theorem Abreast.insertDocument (abreast : s.Abreast t) (outside : r.transaction = none)
    (collection : String) (fields : Dict Json) :
    (∃ refusal s' t', s.insertDocument r collection (.obj fields) = (.error refusal, s') ∧
        t.insertDocument r collection (.obj fields) = (.error refusal, t') ∧ s'.Abreast t') ∨
      ∃ (d d' : Document) (key : String) (s' t' : Store),
        d.value "_key" = .str key ∧ d'.value "_key" = .str key ∧
        s.insertDocument r collection (.obj fields) = (.ok (answered 201
          (.obj ((Dict.ofList (StoredCollection.header d)).insert "new" (.obj d)))), s') ∧
        t.insertDocument r collection (.obj fields) = (.ok (answered 201
          (.obj ((Dict.ofList (StoredCollection.header d')).insert "new" (.obj d')))), t') ∧
        s'.UpToRevisions t' := by
  obtain ⟨sameKey, named⟩ := abreast.takeRevision.keyFor fields
  rw [insertDocument_outside outside, insertDocument_outside outside, abreast.here_eq r, sameKey]
  cases found : (s.database (s.databaseOf r)).collection collection with
  | error refusal => exact Or.inl ⟨refusal, _, _, rfl, rfl, abreast.takeRevision⟩
  | ok c =>
      rcases c.insertDocument_revisions collection (s.takeRevision.2.keyFor fields).1 fields
        s.takeRevision.1 t.takeRevision.1 with
        ⟨refusal, one, other⟩ | ⟨d, d', one, other, keyed, keyedAlso, same⟩
      · simp only [one, other]
        exact Or.inl ⟨refusal, _, _, rfl, rfl, named⟩
      · simp only [one, other]
        refine Or.inr ⟨d, d', _, _, _, keyed, keyedAlso, rfl, rfl, named.home_eq, fun name => ?_⟩
        rw [abreast.databaseOf_eq, Store.putCollection, Store.putCollection, named.database_eq]
        by_cases own : name = s.databaseOf r
        · rw [own, database_putDatabase_self, database_putDatabase_self]
          refine Database.unrevised_putCollection _ _ ?_
          simp only [StoredCollection.unrevised, List.map_append, List.map_singleton, same]
        · rw [database_putDatabase_of_ne _ _ own, database_putDatabase_of_ne _ _ own,
            named.database_eq]

end Store

namespace Adapter

variable {a : Adapter} {e : Entity} {s s' t : Store} {document : Row}

/-- Posting the document of an entity outside of transactions is inserting it. -/
theorem ends_postDocument_outside (plain : '/' ∉ e.collection.toList)
    {served : Except Refusal Response}
    (inserts : (s.noteRequest (a.postRequest e document none)).insertDocument
      (a.postRequest e document none) e.collection (.obj document) = (served, s')) :
    (a.postDocument e document none).Ends Store.server s (Store.responseTo served).result s' := by
  have answers := Store.answer_of_route (s := s) (r := a.postRequest e document none)
    (Store.knowsTransaction_none rfl) (route_postRequest_of_notMem plain document)
  change (Exchange.request (a.postRequest e document none)).Ends Store.server s _ s'
  rw [ends_request_iff, answers]
  change _ = (Store.responseTo (Store.insertDocument _ _ _ (.obj document)).1).result ∧
    _ = (Store.insertDocument _ _ _ (.obj document)).2
  exact ⟨by rw [inserts], by rw [inserts]⟩

/-- Posted to stores that are abreast, the document is refused for the same reason, or it gets
the same key and leads to the same but for revisions. -/
theorem postDocument_abreast (plain : '/' ∉ e.collection.toList) (document : Row)
    (abreast : s.Abreast t) :
    (∃ error s' t', (a.postDocument e document none).Ends Store.server s (.error error) s' ∧
        (a.postDocument e document none).Ends Store.server t (.error error) t' ∧
        s'.Abreast t') ∨
      ∃ created created' key s' t', created.field "_key" = .str key ∧
        created'.field "_key" = .str key ∧
        (a.postDocument e document none).Ends Store.server s (.ok created) s' ∧
        (a.postDocument e document none).Ends Store.server t (.ok created') t' ∧
        s'.UpToRevisions t' := by
  rcases (abreast.noteRequest (a.postRequest e document none)).insertDocument
    (r := a.postRequest e document none) rfl e.collection document with
    ⟨refusal, s', t', first, second, kept⟩ |
      ⟨d, d', key, s', t', keyed, keyedAlso, first, second, same⟩
  · have one := ends_postDocument_outside plain first
    have other := ends_postDocument_outside plain second
    rw [Store.responseTo, Response.result_refusal] at one other
    exact Or.inl ⟨_, s', t', one, other, kept⟩
  · have one := ends_postDocument_outside plain first
    have other := ends_postDocument_outside plain second
    rw [Store.responseTo, result_inserted] at one other
    exact Or.inr ⟨_, _, key, s', t', (key_inserted d).trans keyed,
      (key_inserted d').trans keyedAlso, one, other, same⟩

/-! ### Creating the collection -/

/-- What a creation of a valid object unless it exists comes to is decided by what the creation
itself comes to. -/
theorem exists_ends_createIfNotExists {o : Definition} (valid : o.validate = .ok ())
    (created : Except Error Unit) :
    ∃ outcome, ∀ u u' : Store, o.create.Ends Store.server u created u' →
      ((Command.createIfNotExists o).perform none none).Ends Store.server u outcome u' := by
  have checked (u : Store) : (Exchange.ofSchema o.validate).Ends Store.server u (.ok ()) u :=
    ends_ofSchema_iff.mpr ⟨by rw [valid]; rfl, rfl⟩
  cases created with
  | ok done =>
      refine ⟨.ok (.created o.kindWord o.name), fun u u' ends => (checked u).bind ?_⟩
      exact (ends_attempt_iff.mpr ⟨_, rfl, ends⟩).bind (ends_pure_iff.mpr ⟨rfl, rfl⟩)
  | error failure =>
      by_cases conflict : failure.isConflict = true
      · refine ⟨.ok (.alreadyThere o.kindWord o.name), fun u u' ends => (checked u).bind ?_⟩
        refine (ends_attempt_iff.mpr ⟨_, rfl, ends⟩).bind ?_
        simp only [conflict, if_true]
        exact ends_pure_iff.mpr ⟨rfl, rfl⟩
      · refine ⟨.error failure, fun u u' ends => (checked u).bind ?_⟩
        refine (ends_attempt_iff.mpr ⟨_, rfl, ends⟩).bind ?_
        simp only [conflict, Bool.false_eq_true, if_false]
        exact ends_fail_iff.mpr ⟨rfl, rfl⟩

/-- The creation of a collection unless it exists goes the same way in stores that are
abreast. -/
theorem createIfNotExists_abreast (c : Collection) (abreast : s.Abreast t) :
    ∃ outcome s' t',
      ((Command.createIfNotExists (.collection c)).perform none none).Ends Store.server s outcome
        s' ∧
      ((Command.createIfNotExists (.collection c)).perform none none).Ends Store.server t outcome
        t' ∧ s'.Abreast t' := by
  cases is : c.body with
  | error fault =>
      have fails (u : Store) :
          ((Command.createIfNotExists (.collection c)).perform none none).Ends Store.server u
            (.error (.schema fault)) u := by
        refine Ends.bind_error (ends_ofSchema_iff.mpr ⟨?_, rfl⟩)
        rw [Definition.validate, is]
        rfl
      exact ⟨_, s, t, fails s, fails t, abreast⟩
  | ok body =>
      let r := (Request.post "collection" body).withDatabase c.tenant
      have routed : Route.of? r = some .createCollection :=
        Route.of?_post "collection" rfl rfl (by decide)
      have valid : Definition.validate (.collection c) = .ok () := by
        rw [Definition.validate, is]
        rfl
      have creates : Definition.create (.collection c) = Exchange.command r := by
        rw [Definition.create, is]
        rfl
      obtain ⟨created, s', t', one, other, kept⟩ := abreast.command (r := r) rfl routed rfl
      rw [← creates] at one other
      obtain ⟨outcome, ends⟩ := exists_ends_createIfNotExists valid created
      exact ⟨outcome, s', t', ends s s' one, ends t t' other, kept⟩

/-! ### Storing a document -/

section

variable {created : Json} {error : Error} {outcome : Except Error Json} {s₁ s₂ : Store}

theorem ends_storeDocument_ok
    (posts : (a.postDocument e document none).Ends Store.server s (.ok created) s') :
    (a.storeDocument e document none).Ends Store.server s (.ok created) s' :=
  (ends_attempt_iff.mpr ⟨_, rfl, posts⟩).bind (ends_pure_iff.mpr ⟨rfl, rfl⟩)

/-- A document that is refused for another reason than a missing collection, or in static mode,
is not posted again. -/
theorem ends_storeDocument_error (final : a.createsFor error = false)
    (posts : (a.postDocument e document none).Ends Store.server s (.error error) s') :
    (a.storeDocument e document none).Ends Store.server s (.error error) s' := by
  refine (ends_attempt_iff.mpr ⟨_, rfl, posts⟩).bind ?_
  simp only [final, Bool.false_eq_true, if_false]
  exact ends_fail_iff.mpr ⟨rfl, rfl⟩

/-- For a missing collection the creation of the collection and a second post are what
counts. -/
theorem ends_storeDocument_again (missing : a.createsFor error = true)
    (posts : (a.postDocument e document none).Ends Store.server s (.error error) s₁)
    (follows : (do
      a.createCollectionOf e
      a.postDocument e document none).Ends Store.server s₁ outcome s') :
    (a.storeDocument e document none).Ends Store.server s outcome s' := by
  refine (ends_attempt_iff.mpr ⟨_, rfl, posts⟩).bind ?_
  simp only [missing, if_true]
  exact follows

/-- How an insertion goes on from the storing of its document. -/
theorem ends_insert_of_error {fields : Row} (is : e.toDocument fields = .ok document)
    (stores : (a.storeDocument e document none).Ends Store.server s (.error error) s') :
    (a.insert e fields none).Ends Store.server s (.error error) s' :=
  (ends_ofExcept_iff.mpr ⟨is.symm, rfl⟩).bind stores.bind_error

theorem ends_insert_of_ok {fields : Row} {key : String} (is : e.toDocument fields = .ok document)
    (keyed : created.field "_key" = .str key)
    (stores : (a.storeDocument e document none).Ends Store.server s (.ok created) s') :
    (a.insert e fields none).Ends Store.server s
      (.ok ((fields.erase "_key").insert e.primaryKey (.str key))) s' := by
  refine (ends_ofExcept_iff.mpr ⟨is.symm, rfl⟩).bind (stores.bind ?_)
  rw [keyed]
  exact ends_pure_iff.mpr ⟨rfl, rfl⟩

end

/-! ### The two ways -/

/-- The adapter in static mode. -/
def static (a : Adapter) : Adapter :=
  { a with settings := { a.settings with staticMode := true } }

/-- Create the collection of an entity in the database of the adapter if it is missing there and
a row can be stored, and insert the row in static mode. -/
def insertInSteps (a : Adapter) (s : Store) (e : Entity) (fields : Row) : Exchange Row :=
  let missing := !(s.inspected a.database).collections.contains e.collection
  if (e.toDocument fields).isOk && missing then do
    let _ ← (Command.createIfNotExists (.collection
      { name := e.collection, kind := e.kind, tenant := a.database })).perform none none
    a.static.insert e fields none
  else a.static.insert e fields none

theorem createsFor_static (a : Adapter) (error : Error) : a.static.createsFor error = false := rfl

/-- Where the collection is, an insertion in whatever mode goes as in static mode. -/
theorem insert_stored {c : StoredCollection} (plain : '/' ∉ e.collection.toList)
    (stored : (s.inspected a.database).collections.get? e.collection = some c) (fields : Row) :
    ∃ outcome s', (a.insert e fields none).Ends Store.server s outcome s' ∧
      (a.static.insert e fields none).Ends Store.server s outcome s' := by
  cases is : e.toDocument fields with
  | error failure =>
      have fails (b : Adapter) : (b.insert e fields none).Ends Store.server s (.error failure) s :=
        Ends.bind_error (ends_ofExcept_iff.mpr ⟨is.symm, rfl⟩)
      exact ⟨_, s, fails a, fails a.static⟩
  | ok document =>
      let r := a.postRequest e document none
      cases performed : (s.noteRequest r).insertDocument r e.collection (.obj document) with
      | mk served s' =>
          have posts := ends_postDocument_outside plain performed
          cases served with
          | error refusal =>
              rw [Store.responseTo, Response.result_refusal] at posts
              have other := Store.insertDocument_number (s := s.noteRequest r) (r := r) stored
                (congrArg Prod.fst performed)
              have final : a.createsFor
                  (.store refusal.status refusal.number refusal.message) = false := by
                simp [createsFor, Error.number?, other]
              exact ⟨_, s', ends_insert_of_error is (ends_storeDocument_error final posts),
                ends_insert_of_error is
                  (ends_storeDocument_error (a.createsFor_static _) posts)⟩
          | ok response =>
              obtain ⟨_, d, key, _, _, keyed, _, rfl, _⟩ := Store.insertDocument_ok performed
              rw [Store.responseTo, result_inserted] at posts
              have shown := (key_inserted d).trans keyed
              exact ⟨_, s', ends_insert_of_ok is shown (ends_storeDocument_ok posts),
                ends_insert_of_ok is shown (ends_storeDocument_ok posts)⟩

/-- A document whose collection is missing is refused for that, which takes a revision. -/
theorem ends_postDocument_missing (plain : '/' ∉ e.collection.toList)
    (missing : (s.inspected a.database).collections.get? e.collection = none) (document : Row) :
    ∃ s', (a.postDocument e document none).Ends Store.server s
        (.error (.store 404 StoreError.dataSourceNotFound
          (Refusal.noSource e.collection).message)) s' ∧
      s'.Abreast s := by
  let r := a.postRequest e document none
  have found : ((s.noteRequest r).database ((s.noteRequest r).databaseOf r)).collection
      e.collection = .error (.noSource e.collection) := by
    change (s.inspected a.database).collection e.collection = _
    rw [Database.collection, missing]
  have refused : (s.noteRequest r).insertDocument r e.collection (.obj document) =
      (.error (.noSource e.collection), (s.noteRequest r).takeRevision.2) := by
    rw [Store.insertDocument_outside rfl, found]
  have posts := ends_postDocument_outside plain refused
  rw [Store.responseTo, Response.result_refusal] at posts
  exact ⟨_, posts, rfl, rfl, rfl⟩

/-- An insertion that is refused for a missing collection goes as the two steps do. -/
theorem insert_missing (dynamic : a.settings.staticMode = false) (plain : '/' ∉ e.collection.toList)
    (missing : (s.inspected a.database).collections.get? e.collection = none) {fields : Row}
    (is : e.toDocument fields = .ok document) :
    ∃ outcome s₁ s₂, (a.insert e fields none).Ends Store.server s outcome s₁ ∧
      (do
        let _ ← (Command.createIfNotExists (.collection
          { name := e.collection, kind := e.kind, tenant := a.database })).perform none none
        a.static.insert e fields none).Ends Store.server s outcome s₂ ∧
      s₁.UpToRevisions s₂ := by
  obtain ⟨s₀, refused, level⟩ := ends_postDocument_missing plain missing document
  have repeats : a.createsFor (.store 404 StoreError.dataSourceNotFound
      (Refusal.noSource e.collection).message) = true := by
    simp [createsFor, dynamic, Error.number?]
  have stores {outcome : Except Error Json} {s' : Store} (follows : (do
      a.createCollectionOf e
      a.postDocument e document none).Ends Store.server s₀ outcome s') :
      (a.storeDocument e document none).Ends Store.server s outcome s' :=
    ends_storeDocument_again repeats refused follows
  obtain ⟨created, s₁, t₁, one, other, kept⟩ := createIfNotExists_abreast
    { name := e.collection, kind := e.kind, tenant := a.database } level
  have creates := one.map fun _ => ()
  cases created with
  | error failure =>
      exact ⟨_, s₁, t₁, ends_insert_of_error is (stores (Ends.bind_error creates)),
        other.bind_error, kept.upToRevisions⟩
  | ok report =>
      rcases postDocument_abreast (a := a) plain document kept with
        ⟨failure, s₂, t₂, posts, postsAlso, after⟩ |
          ⟨_, _, key, s₂, t₂, shown, shownAlso, posts, postsAlso, same⟩
      · exact ⟨_, s₂, t₂, ends_insert_of_error is (stores (Ends.bind creates posts)),
          other.bind (ends_insert_of_error is
            (ends_storeDocument_error (a.createsFor_static _) postsAlso)), after.upToRevisions⟩
      · exact ⟨_, s₂, t₂, ends_insert_of_ok is shown (stores (Ends.bind creates posts)),
          other.bind (ends_insert_of_ok is shownAlso (ends_storeDocument_ok postsAlso)), same⟩

/-- An insertion in dynamic mode, outside of transactions, gives the same result and leads to the
same databases, but for revisions, as the creation of the collection, if that is missing and
the row can be stored, followed by an insertion in static mode. -/
theorem insert_dynamic (dynamic : a.settings.staticMode = false)
    (plain : '/' ∉ e.collection.toList) (fields : Row) (s : Store) :
    ∃ outcome s₁ s₂, (a.insert e fields none).Ends Store.server s outcome s₁ ∧
      (a.insertInSteps s e fields).Ends Store.server s outcome s₂ ∧ s₁.UpToRevisions s₂ := by
  unfold insertInSteps
  cases stored : (s.inspected a.database).collections.get? e.collection with
  | some c =>
      rw [Dict.contains_eq, stored]
      simp only [Option.isSome_some, Bool.not_true, Bool.and_false, Bool.false_eq_true, if_false]
      obtain ⟨outcome, s', one, other⟩ := insert_stored plain stored fields
      exact ⟨outcome, s', s', one, other, (Store.Abreast.refl s').upToRevisions⟩
  | none =>
      rw [Dict.contains_eq, stored]
      cases is : e.toDocument fields with
      | error failure =>
          have fails (b : Adapter) :
              (b.insert e fields none).Ends Store.server s (.error failure) s :=
            Ends.bind_error (ends_ofExcept_iff.mpr ⟨is.symm, rfl⟩)
          exact ⟨_, s, s, fails a, fails a.static, (Store.Abreast.refl s).upToRevisions⟩
      | ok document => exact insert_missing dynamic plain stored is

/-- Who follows whom. -/
def followEntity : Entity :=
  .edge "Follow" "follows"

/-- The first edge is inserted into a collection of edges. -/
theorem insert_dynamic_of_followEntity :
    ∃ s₁ s₂,
      (({ settings := { staticMode := false } } : Adapter).insert followEntity
        ⟨[("_from", .str "users/ann"), ("_to", .str "users/bob"), ("id", .int 7)]⟩ none).Ends
          Store.server {} (.ok ⟨[("_from", .str "users/ann"), ("_to", .str "users/bob"),
            ("id", .str "7")]⟩) s₁ ∧
      (({ settings := { staticMode := false } } : Adapter).insertInSteps {} followEntity
        ⟨[("_from", .str "users/ann"), ("_to", .str "users/bob"), ("id", .int 7)]⟩).Ends
          Store.server {} (.ok ⟨[("_from", .str "users/ann"), ("_to", .str "users/bob"),
            ("id", .str "7")]⟩) s₂ ∧
      s₁.UpToRevisions s₂ ∧
      ((s₁.collectionProperties none "follows").bind (·.get? "type")) = some (.int 3) := by
  obtain ⟨outcome, s₁, s₂, one, other, same⟩ := insert_dynamic
    (a := { settings := { staticMode := false } }) (e := followEntity) rfl (by decide)
    ⟨[("_from", .str "users/ann"), ("_to", .str "users/bob"), ("id", .int 7)]⟩ {}
  obtain ⟨rfl, rfl⟩ := one.unique ⟨rfl, rfl⟩
  exact ⟨_, s₂, one, other, same, rfl⟩

end Adapter

end DocStore
