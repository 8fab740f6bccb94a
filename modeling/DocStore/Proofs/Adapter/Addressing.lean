/-
Module: DocStore.Proofs.Adapter.Addressing
Purpose: an inserted row is updated and deleted by the primary key that it has got.
Main exports:
  Entity.givenKey?, Adapter.Reaches, Adapter.Reaches.ends_update, Adapter.Reaches.ends_delete,
  Adapter.Addressed, Adapter.insert_addressed
-/
import DocStore.Proofs.Adapter.Keys
import DocStore.Proofs.Adapter.ReadBack
import DocStore.Proofs.Memory.Rewriting

namespace DocStore

open Text Exchange

namespace Store

variable {s s' : Store} {r : Request} {collection : String}

/-- A document that is inserted gets the key that is meant for it. -/
theorem insertDocument_keyFor {fields : Dict Json} {response : Response}
    (done : s.insertDocument r collection (.obj fields) = (.ok response, s')) :
    s.permitWrite r collection = .ok () ∧
      response.body.field "_key" = .str (s.takeRevision.2.keyFor fields).1 := by
  unfold insertDocument at done
  cases permitted : s.permitWrite r collection with
  | error refusal =>
      simp only [Database.objectBody, permitted] at done
      cases done
  | ok =>
      simp only [Database.objectBody, permitted] at done
      split at done
      · cases done
      · split at done
        · cases done
        · next d new inserted =>
            obtain ⟨_, _, keyed, _⟩ := insertDocument_documents inserted
            cases done
            exact ⟨rfl, (Adapter.key_inserted d).trans keyed⟩

theorem keyFor_cases (s : Store) (fields : Dict Json) :
    (Document.value fields "_key").text? = some (s.keyFor fields).1 ∨
      ∃ n, (s.keyFor fields).1 = hexName n := by
  unfold keyFor
  split
  · next key is => exact Or.inl is
  · exact Or.inr ⟨_, rfl⟩

end Store

/-- The key that a row gives as a text: as its primary key, or else as the key of its
document. -/
def Entity.givenKey? (e : Entity) (fields : Row) : Option String :=
  match Document.value fields e.primaryKey with
  | .str key => some key
  | .null => (Document.value fields "_key").text?
  | _ => none

namespace Adapter

variable {a : Adapter} {e : Entity} {t : Option Transaction} {s s' : Store}
  {c : StoredCollection} {before after : List Document} {key : String} {d : Document}

/-- The document of an entity that a key stands for is in the store, where it may be
written to. -/
structure Reaches (a : Adapter) (e : Entity) (t : Option Transaction) (c : StoredCollection)
    (before : List Document) (key : String) (d : Document) (after : List Document) (s : Store) :
    Prop where
  named : isPlainName e.collection = true
  part : DocumentId.isPart key.toList = true
  stored : (s.database (s.target a.database t)).collections.get? e.collection =
    some (c.holding (before ++ d :: after))
  permitted : s.MayWrite t e.collection
  stands : StandsFor key before d

/-- The document of an entity with changed fields. -/
def patched (e : Entity) (d : Document) (revision : String) (changes : Row) : Document :=
  StoredCollection.changed d revision (.obj ((changes.erase e.primaryKey).erase "_key"))

namespace Reaches

theorem keyOf_eq (reaches : a.Reaches e t c before key d after s) : keyOf key = .ok key := by
  rw [keyOf, DocumentId.keyOf_eq_self_iff.mpr reaches.part]

theorem segments_eq (reaches : a.Reaches e t c before key d after s) :
    Text.splitAt '/' ("document/" ++ e.collection ++ "/" ++ key) =
      ["document", e.collection, key] := by
  have named : '/' ∉ e.collection.toList := notMem_of_isPlainName reaches.named (by decide)
  rw [Route.segments_document,
    Route.segments_named _ _ named (DocumentId.isPart_iff.mp reaches.part).2]

/-- The document can be changed, and has its key afterwards. -/
theorem ends_update (reaches : a.Reaches e t c before key d after s) (changes : Row) :
    ∃ revision s', (a.update e key changes t).Ends Store.server s
        (.ok (e.ofDocument (.obj (patched e d revision changes)))) s' ∧
      s.Wrote (s.target a.database t) e.collection
        (c.holding (before ++ patched e d revision changes :: after)) s' ∧
      a.Reaches e t c before key (patched e d revision changes) after s' := by
  let r : Request := (((Request.patch ("document/" ++ e.collection ++ "/" ++ key)
    (.obj ((changes.erase e.primaryKey).erase "_key"))).withQuery "returnNew" "true").withDatabase
      a.database).inTransaction t
  have inside : r.transaction = t.map (·.id) := Request.transaction_inTransaction _ t rfl
  have addressed : s.databaseOf r = s.target a.database t := s.databaseOf_inTransaction _ t
  have routed : Route.of? r = some (.changeDocument e.collection key) := by
    rw [Route.of?, Request.method_inTransaction, Request.path_inTransaction]
    change Route.ofPatch? (Text.splitAt '/' ("document/" ++ e.collection ++ "/" ++ key)) = _
    rw [reaches.segments_eq]
    rfl
  have body : r.body.getD .null = .obj ((changes.erase e.primaryKey).erase "_key") := by
    rw [Request.body_inTransaction]
    rfl
  obtain ⟨revision, s', ends, wrote⟩ := Store.ends_changeDocument
    (reaches.permitted.opened.knows inside) routed body (reaches.permitted.permitWrite inside)
    (addressed ▸ reaches.stored) reaches.stands.document?_eq
  have applied : (c.holding (before ++ d :: after)).changeDocument key
      (patched e d revision changes) =
        c.holding (before ++ patched e d revision changes :: after) :=
    congrArg c.holding (reaches.stands.replaceFirstDocument_eq _)
  rw [← patched, applied, addressed] at wrote
  have shown : (Json.obj ((Dict.ofList (StoredCollection.header
      (patched e d revision changes))).insert "new" (.obj (patched e d revision changes)))).field
        "new" = .obj (patched e d revision changes) := by
    rw [Json.field, Json.get?, Dict.get?_insert_self]
    rfl
  refine ⟨revision, s', ?_, wrote, ?_⟩
  · refine (ends_ofExcept_iff.mpr ⟨reaches.keyOf_eq.symm, rfl⟩).bind (ends.bind ?_)
    rw [← patched, shown]
    exact ends_pure_iff.mpr ⟨rfl, rfl⟩
  · -- The adapter takes the key out of the changes, so the document still stands for it.
    refine ⟨reaches.named, reaches.part, ?_, wrote.permits _ _ reaches.permitted,
      reaches.stands.changed revision (Dict.get?_erase_self _ _)⟩
    rw [Store.target, wrote.home_eq]
    exact wrote.stored

/-- The document can be deleted. -/
theorem ends_delete (reaches : a.Reaches e t c before key d after s) :
    ∃ s', (a.delete e key t).Ends Store.server s (.ok ()) s' ∧
      s.Wrote (s.target a.database t) e.collection (c.holding (before ++ after)) s' := by
  let r : Request := ((Request.delete ("document/" ++ e.collection ++ "/" ++ key)).withDatabase
    a.database).inTransaction t
  have inside : r.transaction = t.map (·.id) := Request.transaction_inTransaction _ t rfl
  have addressed : s.databaseOf r = s.target a.database t := s.databaseOf_inTransaction _ t
  have routed : Route.of? r = some (.removeDocument e.collection key) := by
    rw [Route.of?, Request.method_inTransaction, Request.path_inTransaction]
    change Route.ofDelete? (Text.splitAt '/' ("document/" ++ e.collection ++ "/" ++ key)) = _
    rw [reaches.segments_eq]
    rfl
  obtain ⟨s', ends, wrote⟩ := Store.ends_removeDocument
    (reaches.permitted.opened.knows inside) routed (reaches.permitted.permitWrite inside)
    (addressed ▸ reaches.stored) reaches.stands.document?_eq
  have applied : (c.holding (before ++ d :: after)).removeDocument key =
      c.holding (before ++ after) := congrArg c.holding reaches.stands.eraseP_eq
  rw [applied, addressed] at wrote
  exact ⟨s', (ends_ofExcept_iff.mpr ⟨reaches.keyOf_eq.symm, rfl⟩).bind ends, wrote⟩

end Reaches

/-- A document is posted behind those that are there, under the key that it gives or a name
of the store. -/
theorem ends_postDocument_ok {document : Row} {created : Json}
    (named : isPlainName e.collection = true)
    (posts : (a.postDocument e document t).Ends Store.server s (.ok created) s') :
    ∃ c d key, (s.database (s.target a.database t)).collections.get? e.collection = some c ∧
      c.document? key = none ∧ d.value "_key" = .str key ∧ created.field "_key" = .str key ∧
      ((Document.value document "_key").text? = some key ∨ ∃ n, key = hexName n) ∧
      s.MayWrite t e.collection ∧
      s.Wrote (s.target a.database t) e.collection (c.holding (c.documents ++ [d])) s' := by
  let r := a.postRequest e document t
  have inside : r.transaction = t.map (·.id) := Request.transaction_inTransaction _ t rfl
  have addressed : s.databaseOf r = s.target a.database t := s.databaseOf_inTransaction _ t
  have body : r.body.getD .null = .obj document := by
    change ((Request.inTransaction _ t).body).getD .null = _
    rw [Request.body_inTransaction]
    rfl
  obtain ⟨route, response, routed, known, performed, shown⟩ :=
    Store.performed_of_ends_request (r := r) posts
  cases routed.symm.trans (route_postRequest named document)
  rw [body] at performed
  obtain ⟨permitted, keyFor⟩ := Store.insertDocument_keyFor performed
  obtain ⟨c, d, key, stored, free, keyed, _, rfl, same⟩ := Store.insertDocument_ok performed
  cases shown.symm.trans (result_inserted d)
  have own := (key_inserted d).trans keyed
  have given : key = _ := Json.str.inj (own.symm.trans keyFor)
  rw [← addressed]
  refine ⟨c, d, key, stored, free, keyed, own, ?_,
    Store.mayWrite_of_permitted inside known permitted, ?_⟩
  · rw [given]
    exact Store.keyFor_cases _ _
  · exact Store.wrote_of_documentWrite (w := .insert key d) (r := r)
      (Store.sameData_noteRequest s r) same

/-- The key of the document of a row is the one that the row gives as a text, or a number as
a text. -/
theorem key_toDocument {fields document : Row} {key : String}
    (is : e.toDocument fields = .ok document)
    (keyed : (Document.value document "_key").text? = some key) :
    e.givenKey? fields = some key ∨ ∃ number : Number, key = number.render := by
  obtain ⟨given, withKey, rest⟩ := exceptBind_eq_ok_iff.mp is
  obtain ⟨_, _, same⟩ := exceptBind_eq_ok_iff.mp rest
  cases same
  unfold Entity.withDocumentKey at withKey
  unfold Entity.givenKey?
  split at withKey
  -- An entity whose primary key is the key of documents leaves the row as it is: then only a
  -- text gives a key.
  · next primary =>
      cases withKey
      rw [primary]
      left
      cases held : Document.value fields "_key" <;> rw [held] at keyed <;> cases keyed
      rfl
  · next other =>
      have apart : "_key" ≠ e.primaryKey := fun same => other same.symm
      have erased : Document.value (fields.erase e.primaryKey) "_key" =
          Document.value fields "_key" := by
        rw [Document.value, Dict.get?_erase, if_neg apart, Document.value]
      dsimp only at withKey
      split at withKey
      · next absent =>
          cases withKey
          rw [erased] at keyed
          rw [Document.value, absent]
          exact Or.inl keyed
      · next null =>
          cases withKey
          rw [erased] at keyed
          rw [Document.value, null]
          exact Or.inl keyed
      · next text held =>
          cases withKey
          rw [Document.value, Dict.get?_insert_self] at keyed
          rw [Document.value, held]
          exact Or.inl keyed
      · next number _ =>
          cases withKey
          rw [Document.value, Dict.get?_insert_self] at keyed
          exact Or.inr ⟨number, (Option.some.inj keyed).symm⟩
      · cases withKey

/-- A row that has been inserted can be addressed by the primary key that it has got: its
document is behind those that were there, an update with this key changes just this
document, and a deletion with it, right away or after the update, removes just this
document. -/
def Addressed (a : Adapter) (e : Entity) (t : Option Transaction) (s : Store)
    (c : StoredCollection) (row : Row) (s' : Store) : Prop :=
  ∃ key d, row.get? e.primaryKey = some (.str key) ∧ d.value "_key" = .str key ∧
    s.Wrote (s.target a.database t) e.collection (c.holding (c.documents ++ [d])) s' ∧
    (∀ changes, ∃ revision s₁, (a.update e key changes t).Ends Store.server s'
        (.ok (e.ofDocument (.obj (patched e d revision changes)))) s₁ ∧
      s'.Wrote (s.target a.database t) e.collection
        (c.holding (c.documents ++ [patched e d revision changes])) s₁ ∧
      ∃ s₂, (a.delete e key t).Ends Store.server s₁ (.ok ()) s₂ ∧
        s₁.Wrote (s.target a.database t) e.collection c s₂) ∧
    ∃ s₁, (a.delete e key t).Ends Store.server s' (.ok ()) s₁ ∧
      s'.Wrote (s.target a.database t) e.collection c s₁

/-- An inserted row is addressed by the key that it has got, if that is a number, a name of
the store, or a text that can be a part of an identifier. -/
theorem insert_addressed {fields row : Row} (named : isPlainName e.collection = true)
    (stored : (s.database (s.target a.database t)).collections.get? e.collection = some c)
    (given : ∀ key ∈ e.givenKey? fields, DocumentId.isPart key.toList = true)
    (inserts : (a.insert e fields t).Ends Store.server s (.ok row) s') :
    a.Addressed e t s c row s' := by
  obtain ⟨document, created, key, is, stores, shown, rfl⟩ := ends_insert_ok inserts
  obtain ⟨c', d, own, there, free, keyed, created_eq, source, permitted, wrote⟩ :=
    ends_postDocument_ok named (ends_post_of_ends_store named stored stores)
  cases there.symm.trans stored
  cases shown.symm.trans created_eq
  -- Three sources of a key: a text of the row, a number of the row, the store.
  have part : DocumentId.isPart key.toList = true := by
    rcases source with text | ⟨n, rfl⟩
    · rcases key_toDocument is text with gives | ⟨number, rfl⟩
      · exact given key gives
      · exact isPart_render number
    · exact isPart_hexName n
  have target_eq : ∀ {s₁ s₂ : Store}, s₂.home = s₁.home →
      s₂.target a.database t = s₁.target a.database t := by
    intro s₁ s₂ home
    rw [Store.target, home, Store.target]
  have reaches : a.Reaches e t c c.documents key d [] s' :=
    { named, part
      stored := target_eq wrote.home_eq ▸ wrote.stored
      permitted := wrote.permits _ _ permitted
      stands := ⟨keyed, fun other member => by
        simpa using List.find?_eq_none.mp free other member⟩ }
  -- The document is the last one, so to take it away is to have the old collection again.
  have removed : c.holding (c.documents ++ []) = c := by
    rw [List.append_nil]
    rfl
  refine ⟨key, d, Dict.get?_insert_self _ _ _, keyed, wrote, fun changes => ?_, ?_⟩
  · obtain ⟨revision, s₁, updates, rewrote, after⟩ := reaches.ends_update changes
    obtain ⟨s₂, deletes, removes⟩ := after.ends_delete
    rw [removed, target_eq rewrote.home_eq, target_eq wrote.home_eq] at removes
    rw [target_eq wrote.home_eq] at rewrote
    exact ⟨revision, s₁, updates, rewrote, s₂, deletes, removes⟩
  · obtain ⟨s₁, deletes, removes⟩ := reaches.ends_delete
    rw [removed, target_eq wrote.home_eq] at removes
    exact ⟨s₁, deletes, removes⟩

/-- Users by their names. -/
def userEntity : Entity :=
  (Entity.document "User" "users").withFields ["id", "name"]

/-- A collection with one user, whose key is a single letter. -/
def bobOnly : StoredCollection :=
  { properties := {}, documents := [⟨[("_key", .str "b"), ("name", .str "Bob")]⟩] }

def bobStore : Store :=
  { databases := ⟨[("_system", { collections := ⟨[("users", bobOnly)]⟩ })]⟩ }

theorem insert_addressed_of_number :
    ∃ s', (({} : Adapter).insert userEntity ⟨[("id", .int 7), ("name", .str "Ann")]⟩
        none).Ends Store.server bobStore
          (.ok ⟨[("id", .str "7"), ("name", .str "Ann")]⟩) s' ∧
      ({} : Adapter).Addressed userEntity none bobStore bobOnly
        ⟨[("id", .str "7"), ("name", .str "Ann")]⟩ s' := by
  have inserts : (({} : Adapter).insert userEntity ⟨[("id", .int 7), ("name", .str "Ann")]⟩
      none).Ends Store.server bobStore
        (.ok ⟨[("id", .str "7"), ("name", .str "Ann")]⟩) _ := ⟨rfl, rfl⟩
  exact ⟨_, inserts, insert_addressed (by decide) rfl (by decide) inserts⟩

/-- A text with a slash is taken as a key by an insertion, but an update reads it as an
identifier: the user who is changed by the key that was returned is another one. -/
theorem other_changed_by_slash :
    ∃ s' s'', (({} : Adapter).insert userEntity ⟨[("id", .str "a/b"), ("name", .str "Ann")]⟩
        none).Ends Store.server bobStore
          (.ok ⟨[("id", .str "a/b"), ("name", .str "Ann")]⟩) s' ∧
      (({} : Adapter).update userEntity "a/b" ⟨[("name", .str "Zoe")]⟩ none).Ends Store.server s'
          (.ok ⟨[("id", .str "b"), ("name", .str "Zoe")]⟩) s'' ∧
      (s''.documents none "users").map (fun d => (d.value "_key", d.value "name")) =
        [(.str "b", .str "Zoe"), (.str "a/b", .str "Ann")] :=
  ⟨_, _, ⟨rfl, rfl⟩, ⟨rfl, rfl⟩, rfl⟩

end Adapter

end DocStore
