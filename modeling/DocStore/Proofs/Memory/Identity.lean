/-
Module: DocStore.Proofs.Memory.Identity
Purpose: in every store that requests lead to, a document is told apart from the others of its
  collection by its key, and is named after the collection and the key.
Main exports:
  Document.Identified, Identified, Store.Identified, Route.KeepsIdentity,
  Store.Identified.answer, Store.identified_of_requests
-/
import DocStore.Proofs.Memory.Step
import DocStore.Proofs.Memory.Undo

namespace DocStore

/-! ### Documents of a collection -/

/-- A document with a text as its key, named after its collection and that key. -/
def Document.Identified (collection : String) (d : Document) : Prop :=
  ∃ key, d.value "_key" = .str key ∧ d.value "_id" = .str (collection ++ "/" ++ key)

/-- All documents of a collection are identified, and no two by the same key. -/
structure Identified (collection : String) (documents : List Document) : Prop where
  each : ∀ d ∈ documents, d.Identified collection
  distinct : documents.Pairwise fun a b => a.value "_key" ≠ b.value "_key"

/-- What a change of a document gives as its key or as its identifier is its own. -/
def KeepsNames (collection key : String) (changes : Dict Json) : Prop :=
  ∀ member ∈ changes.entries, (member.1 = "_key" → member.2 = .str key) ∧
    (member.1 = "_id" → member.2 = .str (collection ++ "/" ++ key))

/-- A changed document keeps its names. -/
theorem Document.value_changed {d : Document} {collection key : String} {body : Json}
    (keeps : ∀ changes, body = .obj changes → KeepsNames collection key changes)
    (keyed : d.value "_key" = .str key) (named : d.value "_id" = .str (collection ++ "/" ++ key))
    (revision : String) :
    Document.value (StoredCollection.changed d revision body) "_key" = .str key ∧
      Document.value (StoredCollection.changed d revision body) "_id" =
        .str (collection ++ "/" ++ key) := by
  unfold StoredCollection.changed
  split
  · next changes =>
      have own := keeps changes rfl
      have given : ∀ {label value}, label ≠ "_rev" →
          (∀ member ∈ changes.entries, member.1 = label → member.2 = value) →
          d.value label = value →
            Document.value (Dict.insert (d.merge changes) "_rev" (.str revision)) label =
              value := by
        intro label value notRevision same before
        rw [Document.value, Dict.get?_insert_of_ne _ _ notRevision]
        rcases Dict.get?_insertAll_cases d changes.entries label with kept | ⟨other, member, is⟩
        · rw [show (d.merge changes).get? label = _ from kept]
          exact before
        · rw [show (d.merge changes).get? label = _ from is]
          exact same (label, other) member rfl
      exact ⟨given (by decide) (fun member listed => (own member listed).1) keyed,
        given (by decide) (fun member listed => (own member listed).2) named⟩
  · exact ⟨keyed, named⟩

namespace Identified

variable {collection : String} {documents others : List Document}

theorem nil (collection : String) : Identified collection [] :=
  ⟨fun _ member => absurd member List.not_mem_nil, List.Pairwise.nil⟩

theorem keys (identified : Identified collection documents) : DistinctKeys documents := by
  refine ⟨fun d member => ?_, identified.distinct⟩
  obtain ⟨key, keyed, _⟩ := identified.each d member
  exact ⟨key, keyed⟩

/-- Of documents whose keys are distinct each is one that was identified before. -/
theorem of_keys (keys : DistinctKeys documents) (each : ∀ d ∈ documents, d.Identified collection) :
    Identified collection documents :=
  ⟨each, keys.distinct⟩

theorem sublist (identified : Identified collection documents) (sub : others.Sublist documents) :
    Identified collection others :=
  ⟨fun d member => identified.each d (sub.mem member), identified.distinct.sublist sub⟩

theorem perm (identified : Identified collection documents) (same : documents.Perm others) :
    Identified collection others :=
  ⟨fun d member => identified.each d (same.mem_iff.mpr member),
    identified.distinct.perm same fun differ => differ.symm⟩

/-- A document takes the place of the one with its key. -/
theorem cons_without (identified : Identified collection documents) {d : Document} {key : String}
    (keyed : d.value "_key" = .str key) (named : d.value "_id" = .str (collection ++ "/" ++ key)) :
    Identified collection (d :: without key documents) := by
  refine ⟨?_, (identified.keys.cons_without keyed).distinct⟩
  refine List.forall_mem_cons.mpr ⟨⟨key, keyed, named⟩, fun e member => ?_⟩
  exact identified.each e (List.mem_filter.mp member).1

end Identified

/-- A document that is to be put back is identified in the collection that it goes to. -/
def Undo.Identified : Undo → Prop
  | remove _ _ => True
  | restore collection d => d.Identified collection

namespace Identified

variable {collection : String} {documents : List Document}

/-- Documents are identified after a write is taken back. -/
theorem onDocuments (identified : Identified collection documents) {u : Undo}
    (own : u.Identified) : Identified collection (u.onDocuments collection documents) := by
  cases u with
  | remove name key =>
      simp only [Undo.onDocuments]
      split
      · exact identified.sublist List.filter_sublist
      · exact identified
  | restore name d =>
      simp only [Undo.onDocuments]
      split
      · next here =>
          subst here
          obtain ⟨key, keyed, named⟩ := own
          exact (identified.cons_without keyed named).perm
            (restored_perm identified.keys keyed).symm
      · exact identified

theorem takenBack (identified : Identified collection documents) {undos : List Undo}
    (own : ∀ u ∈ undos, u.Identified) :
    Identified collection (takenBack collection undos documents) := by
  induction undos generalizing documents with
  | nil => exact identified
  | cons u rest inductionHypothesis =>
      obtain ⟨first, later⟩ := List.forall_mem_cons.mp own
      exact inductionHypothesis (identified.onDocuments first) later

end Identified

/-! ### Writes -/

namespace DocumentWrite

variable {route : Route} {body : Json} {collection : String} {c : StoredCollection}
  {w : DocumentWrite}

/-- Documents are identified after a write, if a change keeps the names of its document. -/
theorem identified_apply (identified : DocStore.Identified collection c.documents)
    (follows : w.Follows route body collection c)
    (keeps : ∀ key, route = .changeDocument collection key →
      ∀ changes, body = .obj changes → KeepsNames collection key changes) :
    DocStore.Identified collection (w.apply c).documents := by
  cases w with
  | insert key d =>
      obtain ⟨free, keyed, named⟩ := follows
      have distinct := (undone_insert identified.keys free keyed collection).distinct
      refine .of_keys distinct (List.forall_mem_append.mpr ⟨identified.each, ?_⟩)
      exact List.forall_mem_singleton.mpr ⟨key, keyed, named⟩
  | change key old new =>
      obtain ⟨is, found, revision, rfl⟩ := follows
      have oldKey := key_of_find? found
      obtain ⟨other, otherKey, oldName⟩ :=
        identified.each old (List.mem_of_find?_eq_some found)
      cases oldKey.symm.trans otherKey
      obtain ⟨keyed, named⟩ := old.value_changed (keeps key is) oldKey oldName revision
      have present : c.documents.any (·.hasKey key) = true :=
        List.any_eq_true.mpr ⟨old, List.mem_of_find?_eq_some found, (old.hasKey_iff key).mpr oldKey⟩
      exact (identified.cons_without keyed named).perm
        (identified.keys.replaceFirst_perm present _).symm
  | remove key old => exact identified.sublist List.eraseP_sublist
  | removeAll found => exact identified.sublist List.filter_sublist

/-- What a write notes puts only documents back that were identified. -/
theorem identified_undos (identified : DocStore.Identified collection c.documents)
    (follows : w.Follows route body collection c) : ∀ u ∈ w.undos collection, u.Identified := by
  cases w with
  | insert key d => exact List.forall_mem_singleton.mpr trivial
  | change key old new =>
      exact List.forall_mem_singleton.mpr
        (identified.each old (List.mem_of_find?_eq_some follows.2.1))
  | remove key old =>
      exact List.forall_mem_singleton.mpr (identified.each old (List.mem_of_find?_eq_some follows))
  | removeAll found =>
      obtain ⟨others, split⟩ := follows
      intro u member
      obtain ⟨d, inFound, rfl⟩ := List.mem_map.mp member
      exact identified.each d (split.mem_iff.mp (List.mem_append_left others inFound))

end DocumentWrite

/-! ### Requests -/

/-- What is asked for keeps the names of documents: a collection that is given another name is
empty, and a document is changed without being given another key or identifier. -/
def Route.KeepsIdentity (db : Database) (body : Json) : Route → Prop
  | .renameCollection source => ∀ target, body.field "name" = .str target →
      db.nameTaken target = false → ∀ documents, db.documentsOf source = some documents →
        documents = []
  | .changeDocument collection key => ∀ changes, body = .obj changes →
      KeepsNames collection key changes
  | _ => True

/-- Whether a request keeps the names of the documents in the store that it comes to. -/
def Store.KeepsIdentity (s : Store) (r : Request) : Prop :=
  ∀ route, Route.of? r = some route →
    route.KeepsIdentity (s.database (s.databaseOf r)) (r.body.getD .null)

/-! ### Databases -/

namespace Database

/-- The documents of all collections are identified. -/
def Identified (db : Database) : Prop :=
  ∀ name documents, db.documentsOf name = some documents → DocStore.Identified name documents

namespace Identified

variable {db db' : Database} {name : String} {c : StoredCollection} {body : Json} {route : Route}

theorem empty : ({} : Database).Identified := by
  rintro name documents ⟨⟩

theorem of_stored (identified : db.Identified) (stored : db.collections.get? name = some c) :
    DocStore.Identified name c.documents :=
  identified name c.documents (by rw [documentsOf, stored, Option.map_some])

theorem putCollection (identified : db.Identified) (own : DocStore.Identified name c.documents) :
    (db.putCollection name c).Identified := by
  intro other documents stored
  by_cases here : other = name
  · subst here
    rw [documentsOf, Database.putCollection, Dict.get?_insert_self, Option.map_some] at stored
    cases stored
    exact own
  · rw [documentsOf_putCollection_of_ne db c here] at stored
    exact identified other documents stored

/-- A collection is put in the place of one with the same documents. -/
theorem putAgain (identified : db.Identified) {new : StoredCollection}
    (stored : db.collections.get? name = some c) (same : new.documents = c.documents) :
    (db.putCollection name new).Identified := by
  apply identified.putCollection
  rw [same]
  exact identified.of_stored stored

theorem eraseCollection (identified : db.Identified) (name : String) :
    { db with collections := db.collections.erase name }.Identified := by
  intro other documents stored
  apply identified other documents
  rw [documentsOf, Dict.get?_erase] at stored
  split at stored
  · cases stored
  · exact stored

/-- A change of definitions keeps documents identified, if only empty collections get other
names. -/
theorem becomes (identified : db.Identified) (defined : db.Becomes body route db')
    (keeps : route.KeepsIdentity db body) : db'.Identified := by
  cases defined with
  | collectionCreated named free => exact identified.putCollection (.nil _)
  | collectionChanged stored => exact identified.putAgain stored rfl
  | @collectionRenamed source target c _ named free stored =>
      have empty : c.documents = [] :=
        keeps target named free c.documents (by rw [documentsOf, stored, Option.map_some])
      refine (identified.eraseCollection source).putCollection ?_
      change DocStore.Identified target c.documents
      rw [empty]
      exact .nil target
  | collectionDropped => exact identified.eraseCollection _
  | indexCreated stored unused => exact identified.putAgain stored rfl
  | indexDropped stored => exact identified.putAgain stored rfl
  -- What is left concerns no collection.
  | _ => exact identified

theorem undoAll (identified : db.Identified) {undos : List Undo}
    (own : ∀ u ∈ undos, u.Identified) : (undos.foldl Database.undo db).Identified := by
  intro name documents stored
  rw [documentsOf_undoAll_eq] at stored
  obtain ⟨before, was, rfl⟩ := Option.map_eq_some_iff.mp stored
  exact (identified name before was).takenBack own

end Identified

end Database

/-! ### Stores -/

namespace Store

/-- All documents of a store are identified, and so are those that open transactions would put
back.  An abort may come at any time, so that the former is not kept without the latter. -/
structure Identified (s : Store) : Prop where
  documents : ∀ database, (s.database database).Identified
  notes : ∀ id t, s.transactions.get? id = some t → ∀ u ∈ t.undo, u.Identified

namespace Identified

variable {s s' : Store} {r : Request} {route : Route} {body : Json}

theorem empty (home : String) (batchSize : Nat) : ({ home, batchSize } : Store).Identified where
  documents _ := Database.Identified.empty
  notes _ _ stored := by cases stored

theorem of_same (identified : s.Identified) (same : SameData s s') : s'.Identified where
  documents database := by
    rw [same.database_eq]
    exact identified.documents database
  notes id t stored := by
    rw [same.transactions_eq] at stored
    exact identified.notes id t stored

theorem putDatabase (identified : s.Identified) {database : String} {db : Database}
    (own : db.Identified) : (s.putDatabase database db).Identified where
  documents name := by
    by_cases here : name = database
    · subst here
      rw [database_putDatabase_self]
      exact own
    · rw [database_putDatabase_of_ne s db here]
      exact identified.documents name
  notes := identified.notes

theorem noteUndos (identified : s.Identified) {undos : List Undo}
    (own : ∀ u ∈ undos, u.Identified) : (s.noteUndos r undos).Identified where
  documents database := by
    rw [Store.database, databases_noteUndos]
    exact identified.documents database
  notes id t stored := by
    rw [transaction_noteUndos] at stored
    split at stored
    · obtain ⟨before, was, rfl⟩ := Option.map_eq_some_iff.mp stored
      refine List.forall_mem_append.mpr ⟨fun u member => ?_, identified.notes id before was⟩
      exact own u (List.mem_reverse.mp member)
    · exact identified.notes id t stored

theorem eraseTransaction (identified : s.Identified) (id : String) :
    { s with transactions := s.transactions.erase id }.Identified where
  documents := identified.documents
  notes other t stored := by
    rw [Dict.get?_erase] at stored
    split at stored
    · cases stored
    · exact identified.notes other t stored

/-- A new transaction has nothing to put back. -/
theorem insertTransaction (identified : s.Identified) (id database : String)
    (write : List String) :
    { s with transactions := s.transactions.insert id { database, write } }.Identified where
  documents := identified.documents
  notes other t stored := by
    rw [Dict.get?_insert] at stored
    split at stored
    · cases stored
      exact fun u member => absurd member List.not_mem_nil
    · exact identified.notes other t stored

/-- A step keeps documents identified. -/
theorem step (identified : s.Identified) (step : s.Step r route body s')
    (keeps : route.KeepsIdentity (s.database (s.databaseOf r)) body) : s'.Identified := by
  cases step with
  | idle same => exact identified.of_same same
  | redefined defined same =>
      exact (identified.putDatabase
        ((identified.documents _).becomes defined keeps)).of_same same
  | @wrote collection c w stored follows same =>
      have own := identified.documents (s.databaseOf r)
      have before := own.of_stored stored
      have after : DocStore.Identified collection (w.apply c).documents := by
        apply w.identified_apply before follows
        rintro key rfl
        exact keeps
      exact ((identified.putDatabase (own.putCollection after)).noteUndos
        (w.identified_undos before follows)).of_same same
  | begun same => exact (identified.insertTransaction _ _ _).of_same same
  | committed same => exact (identified.eraseTransaction _).of_same same
  | @aborted id t opened same =>
      -- What is put back was noted while its transaction was open.
      have undone := (identified.documents t.database).undoAll (identified.notes id t opened)
      exact ((identified.eraseTransaction id).putDatabase undone).of_same same

theorem answer (identified : s.Identified) (keeps : s.KeepsIdentity r) :
    (Store.server.answer s r).2.Identified := by
  rcases step_answer s r with same | ⟨route, routed, step⟩
  · exact identified.of_same same
  · exact identified.step step (keeps route routed)

theorem answers (identified : s.Identified) {requests : List Request}
    (keep : s.Meets KeepsIdentity requests) : (s.answers requests).Identified := by
  induction requests generalizing s with
  | nil => exact identified
  | cons r rest inductionHypothesis => exact inductionHypothesis (identified.answer keep.1) keep.2

end Identified

/-- Whatever requests an empty store has answered, be it in a transaction that goes on, is kept
or is taken back: if each of them keeps the names of documents, every stored document has a text
as its key, no other document of its collection has that key, and its identifier is the name of
the collection, a slash and the key. -/
theorem identified_of_requests (home : String) (batchSize : Nat) {requests : List Request}
    (keep : ({ home, batchSize } : Store).Meets KeepsIdentity requests) (database name : String)
    {documents : List Document}
    (stored : (({ home, batchSize } : Store).answers requests).documentsOf database name =
      some documents) : DocStore.Identified name documents :=
  ((Identified.empty home batchSize).answers keep).documents database name documents stored

theorem keepsIdentity_of_route {s : Store} {r : Request} (route : Route)
    (routed : Route.of? r = some route)
    (keeps : route.KeepsIdentity (s.database (s.databaseOf r)) (r.body.getD .null)) :
    s.KeepsIdentity r := by
  intro other is
  cases routed.symm.trans is
  exact keeps

/-- A transaction that changes a document, inserts another one and removes the first, and that
is aborted. -/
def abortedRequests : List Request :=
  let inside := fun r : Request =>
    r.inTransaction (some { id := "00000000000000000000000000000001" })
  [.post "collection" (.obj ⟨[("name", .str "users")]⟩),
    .post "document/users" (.obj ⟨[("_key", .str "ann"), ("name", .str "Ann")]⟩),
    .post "transaction/begin" (.obj ⟨[("collections", .obj ⟨[("write", .texts ["users"])]⟩)]⟩),
    inside (.patch "document/users/ann" (.obj ⟨[("_key", .str "ann"), ("name", .str "Anna")]⟩)),
    inside (.post "document/users" (.obj ⟨[("name", .str "Bob")]⟩)),
    inside (.delete "document/users/ann"),
    .delete "transaction/00000000000000000000000000000001"]

theorem identified_of_abortedRequests :
    ∃ documents, (({} : Store).answers abortedRequests).documentsOf "_system" "users" =
        some documents ∧
      documents.map (fun d => (d.value "name").text?) = [some "Ann"] ∧
        DocStore.Identified "users" documents := by
  have own : ∀ changes, Json.obj ⟨[("_key", .str "ann"), ("name", .str "Anna")]⟩ = .obj changes →
      KeepsNames "users" "ann" changes := by
    rintro changes ⟨⟩
    simp [KeepsNames]
  have keep : ({} : Store).Meets KeepsIdentity abortedRequests := by
    refine ⟨keepsIdentity_of_route .createCollection rfl trivial,
      keepsIdentity_of_route (.insertDocument "users") rfl trivial,
      keepsIdentity_of_route .beginTransaction rfl trivial,
      keepsIdentity_of_route (.changeDocument "users" "ann") rfl own,
      keepsIdentity_of_route (.insertDocument "users") rfl trivial,
      keepsIdentity_of_route (.removeDocument "users" "ann") rfl trivial, ?_, trivial⟩
    exact keepsIdentity_of_route (.abortTransaction "00000000000000000000000000000001") rfl trivial
  have names : ((({} : Store).answers abortedRequests).documentsOf "_system" "users").map
      (fun documents => documents.map fun d => (d.value "name").text?) = some [some "Ann"] := by
    decide +kernel
  obtain ⟨documents, stored, shown⟩ := Option.map_eq_some_iff.mp names
  exact ⟨documents, stored, shown,
    identified_of_requests "_system" 1000 keep "_system" "users" stored⟩

/-- What is stored of Ann. -/
def storedAnn : Document :=
  ⟨[("_id", .str "users/ann"), ("_key", .str "ann"), ("_rev", .str "_rev1")]⟩

/-- What is stored of Bob after his key was overwritten. -/
def rekeyedBob : Document :=
  ⟨[("_id", .str "users/bob"), ("_key", .str "ann"), ("_rev", .str "_rev3")]⟩

/-- A collection with documents that is given another name does not rename them, and a change
may put the key of another document in the place of one's own. -/
theorem misnamed_by_requests :
    let users : List Request :=
      [.post "collection" (.obj ⟨[("name", .str "users")]⟩),
        .post "document/users" (.obj ⟨[("_key", .str "ann")]⟩)]
    let renamed := ({} : Store).answers
      (users ++ [.put "collection/users/rename" (.obj ⟨[("name", .str "people")]⟩)])
    let rekeyed := ({} : Store).answers
      (users ++ [.post "document/users" (.obj ⟨[("_key", .str "bob")]⟩),
        .patch "document/users/bob" (.obj ⟨[("_key", .str "ann")]⟩)])
    renamed.documentsOf "_system" "people" = some [storedAnn] ∧
      ¬DocStore.Identified "people" [storedAnn] ∧
      rekeyed.documentsOf "_system" "users" = some [storedAnn, rekeyedBob] ∧
      ¬DocStore.Identified "users" [storedAnn, rekeyedBob] := by
  refine ⟨rfl, fun identified => ?_, rfl, fun identified => ?_⟩
  · obtain ⟨key, keyed, named⟩ := identified.each storedAnn List.mem_cons_self
    have isKey : Json.str "ann" = .str key := keyed
    cases isKey
    have isName : "users/ann" = "people" ++ "/" ++ "ann" := Json.str.inj named
    exact absurd isName (by decide)
  · have differ := (List.pairwise_cons.mp identified.distinct).1 rekeyedBob List.mem_cons_self
    exact differ rfl

end Store

end DocStore
