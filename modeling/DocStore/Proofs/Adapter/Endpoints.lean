/-
Module: DocStore.Proofs.Adapter.Endpoints
Purpose: edges that are written through an adapter have both ends.
Main exports:
  Document.Linked, Store.Linked, Request.KeepsEnds, Store.Linked.answer, Adapter.Call.Links,
  Adapter.Session.Only, Adapter.Session.keeps_linked
-/
import DocStore.Proofs.Adapter.Tenancy
import DocStore.Proofs.Dict.Order
import DocStore.Proofs.Memory.Rewriting

namespace DocStore

open Exchange

/-! ### Ends -/

/-- A value that names a document by its identifier. -/
def Json.NamesDocument (value : Json) : Prop :=
  ∃ text id, value = .str text ∧ DocumentId.read text = .ok id

/-- The attributes of an edge that name its ends. -/
def edgeEnds : List String :=
  ["_from", "_to"]

/-- Ends are none of the attributes that the store gives to a document. -/
theorem not_own_of_mem_edgeEnds {side : String} (isEnd : side ∈ edgeEnds) :
    side ∉ ["_key", "_id", "_rev"] := by
  simp only [edgeEnds, List.mem_cons, List.not_mem_nil, or_false] at isEnd
  rcases isEnd with rfl | rfl <;> decide

/-- An edge: both of its ends name documents. -/
def Document.Linked (d : Document) : Prop :=
  ∀ side ∈ edgeEnds, (d.value side).NamesDocument

/-- Changes that put only names of documents in the place of ends. -/
def Relinks (changes : Dict Json) : Prop :=
  ∀ member ∈ changes.entries, member.1 ∈ edgeEnds → member.2.NamesDocument

/-- A changed edge is an edge. -/
theorem Document.Linked.changed {d : Document} (linked : d.Linked) {body : Json}
    (relinks : ∀ changes, body = .obj changes → Relinks changes) (revision : String) :
    Document.Linked (StoredCollection.changed d revision body) := by
  intro side isEnd
  unfold StoredCollection.changed
  split
  · next changes =>
      have notRevision : side ≠ "_rev" := by
        rintro rfl
        exact not_own_of_mem_edgeEnds isEnd (by decide)
      rw [Document.value, Dict.get?_insert_of_ne _ _ notRevision]
      rcases Dict.get?_insertAll_cases d changes.entries side with kept | ⟨value, member, is⟩
      · rw [show (d.merge changes).get? side = _ from kept]
        exact linked side isEnd
      · rw [show (d.merge changes).get? side = _ from is]
        exact relinks changes rfl (side, value) member isEnd
  · exact linked side isEnd

/-- The document of a row of an entity of edges is an edge. -/
theorem Entity.linked_toDocument {e : Entity} {fields document : Row} (edges : e.kind = .edge)
    (is : e.toDocument fields = .ok document) : Document.Linked document := by
  obtain ⟨given, _, rest⟩ := exceptBind_eq_ok_iff.mp is
  obtain ⟨_, checked, same⟩ := exceptBind_eq_ok_iff.mp rest
  cases same
  have ends : ∀ side, e.checkEnd document side = .ok () →
      (Document.value document side).NamesDocument := by
    intro side valid
    unfold Entity.checkEnd at valid
    split at valid
    · cases valid
    · next text found =>
        split at valid
        · next id read =>
            obtain ⟨value, held, isText⟩ := Option.bind_eq_some_iff.mp found
            rw [Document.value, held]
            exact ⟨text, id, Json.text?_eq_some_iff.mp isText, read⟩
        · cases valid
  rw [Entity.checkEnds, edges] at checked
  obtain ⟨_, start, finish⟩ := exceptBind_eq_ok_iff.mp checked
  exact List.forall_mem_cons.mpr ⟨ends "_from" start,
    List.forall_mem_singleton.mpr (ends "_to" finish)⟩

/-! ### Requests -/

/-- What is asked for keeps the edges of a collection: only edges are inserted, and ends are
overwritten by ends only. -/
def Route.KeepsEnds (collection : String) (body : Json) : Route → Prop
  | .createCollection => True
  | .insertDocument name => name = collection →
      ∀ fields, body = .obj fields → Document.Linked fields
  | .changeDocument name _ => name = collection →
      ∀ changes, body = .obj changes → Relinks changes
  | .removeDocument _ _ => True
  | _ => False

def Request.KeepsEnds (collection : String) (r : Request) : Prop :=
  ∀ route, Route.of? r = some route → route.KeepsEnds collection (r.body.getD .null)

namespace Store

/-- All documents of a collection of a database are edges. -/
def Linked (s : Store) (database collection : String) : Prop :=
  ∀ documents, s.documentsOf database collection = some documents →
    ∀ d ∈ documents, Document.Linked d

variable {s s' : Store} {r : Request} {database collection : String}

theorem Linked.of_same (linked : s.Linked database collection) (same : SameData s s') :
    s'.Linked database collection := by
  intro documents stored
  rw [same.documentsOf_eq] at stored
  exact linked documents stored

theorem Linked.documents_of (linked : s.Linked database collection) {c : StoredCollection}
    (stored : (s.database database).collections.get? collection = some c) :
    ∀ d ∈ c.documents, Document.Linked d :=
  linked c.documents (by rw [documentsOf, Database.documentsOf, stored, Option.map_some])

/-- A write to a collection keeps edges if it leaves only edges in that collection. -/
theorem Linked.wrote (linked : s.Linked database collection) {other name : String}
    {c : StoredCollection} (wrote : s.Wrote other name c s')
    (edges : (other, name) = (database, collection) → ∀ d ∈ c.documents, Document.Linked d) :
    s'.Linked database collection := by
  intro documents stored
  by_cases here : (other, name) = (database, collection)
  · cases here
    rw [documentsOf, Database.documentsOf, wrote.stored, Option.map_some] at stored
    cases stored
    exact edges rfl
  · rw [wrote.others database collection (Ne.symm here)] at stored
    exact linked documents stored

theorem mem_replaceFirstDocument {p : Document → Bool} {new d : Document}
    {documents : List Document} (member : d ∈ replaceFirstDocument p new documents) :
    d = new ∨ d ∈ documents := by
  induction documents with
  | nil => cases member
  | cons first rest inductionHypothesis =>
      rw [replaceFirstDocument] at member
      split at member
      · exact (List.mem_cons.mp member).imp_right (List.mem_cons_of_mem _)
      · rcases List.mem_cons.mp member with rfl | later
        · exact Or.inr List.mem_cons_self
        · exact (inductionHypothesis later).imp_right (List.mem_cons_of_mem _)

/-- What keeps the edges of a collection keeps them when it is done. -/
theorem Linked.perform {body : Json} {route : Route} (linked : s.Linked database collection)
    (keeps : route.KeepsEnds collection body) :
    (s.perform r body route).2.Linked database collection := by
  -- Only four kinds of requests keep ends: all others are ruled out by `keeps`.
  cases route with
  | createCollection =>
      change (s.serveChange (s.databaseOf r) (·.createCollection body)).2.Linked _ _
      rcases serveChange_cases s (s.databaseOf r) (·.createCollection body) with
        ⟨_, failed⟩ | ⟨_, db, created, put⟩
      · rw [failed]
        exact linked
      · rw [put]
        obtain ⟨_, name, _, _, _, _, _, rfl⟩ := Database.createCollection_eq_ok_iff.mp created
        exact linked.wrote (wrote_putCollection (SameData.refl s) (r := r) [] (SameData.refl _))
          fun _ _ member => absurd member List.not_mem_nil
  | insertDocument name =>
      rcases insertDocument_wrote s r name body with same | ⟨fields, c, d, is, stored, given, wrote⟩
      · exact linked.of_same same
      · refine linked.wrote wrote fun here => ?_
        cases here
        refine List.forall_mem_append.mpr ⟨linked.documents_of stored,
          List.forall_mem_singleton.mpr fun side isEnd => ?_⟩
        -- The store adds a key, an identifier and a revision, and leaves the ends.
        rw [given side (not_own_of_mem_edgeEnds isEnd)]
        exact keeps rfl fields is side isEnd
  | changeDocument name key =>
      rcases changeDocument_wrote s r name key body with same |
        ⟨c, d, revision, stored, found, wrote⟩
      · exact linked.of_same same
      · refine linked.wrote wrote fun here => ?_
        cases here
        have edges := linked.documents_of stored
        intro other member
        rcases mem_replaceFirstDocument member with rfl | old
        · exact (edges d (List.mem_of_find?_eq_some found)).changed (keeps rfl) revision
        · exact edges other old
  | removeDocument name key =>
      rcases removeDocument_wrote s r name key with same | ⟨c, stored, wrote⟩
      · exact linked.of_same same
      · refine linked.wrote wrote fun here => ?_
        cases here
        exact fun d member => linked.documents_of stored d (List.mem_of_mem_eraseP member)
  | _ => exact keeps.elim

/-- A request that keeps the edges of a collection keeps them when it is answered. -/
theorem Linked.answer (linked : s.Linked database collection) (keeps : r.KeepsEnds collection) :
    (Store.server.answer s r).2.Linked database collection := by
  have noted := linked.of_same (sameData_noteRequest s r)
  rcases answer_cases s r with ⟨_, refused⟩ | ⟨route, routed, _, answered⟩
  · rw [refused]
    exact noted
  · rw [answered]
    exact noted.perform (keeps route routed)

end Store

namespace Request

variable {r : Request} {collection : String}

/-- A request to create a collection writes no documents. -/
theorem keepsEnds_create (posts : r.method = .post) (path : r.path = "collection") :
    r.KeepsEnds collection := by
  intro route routed
  rw [Route.of?_post "collection" posts path (by decide)] at routed
  cases routed
  exact trivial

/-- A request at the path of documents inserts, changes or removes one. -/
theorem keepsEnds_document {rest : List String} {t : Option Transaction}
    (cut : Text.splitAt '/' r.path = "document" :: rest) (writes : r.method ≠ .get)
    (inserts : r.method = .post → ∀ fields, r.body.getD .null = .obj fields →
      Document.Linked fields)
    (changes : r.method = .patch → ∀ changes, r.body.getD .null = .obj changes →
      Relinks changes) : (r.inTransaction t).KeepsEnds collection := by
  intro route routed
  have shape := Route.of?_eq_some_iff.mp routed
  rw [method_inTransaction, path_inTransaction, cut] at shape
  rw [body_inTransaction]
  cases route <;> simp [Route.shapes] at shape
  case insertDocument => exact fun _ => inserts shape.1
  case showDocument => exact absurd shape.1 writes
  case changeDocument => exact fun _ => changes shape.1
  case removeDocument => exact trivial

end Request

namespace Adapter

/-! ### Calls -/

/-- A call that writes documents of an entity.  An update gives only names of documents as
ends. -/
def Call.Links (e : Entity) {α : Type} : Call α → Prop
  | insert own _ _ => own = e
  | insertAll own _ _ => own = e
  | update own _ fields _ => own = e ∧ Relinks (fields.erase e.primaryKey)
  | delete own _ _ => own = e
  | _ => False

/-- All that a client does are calls of a kind, outside of transactions of its own. -/
def Session.Only (p : ∀ {β : Type}, Call β → Prop) {α : Type} : Session α → Prop
  | finish _ => True
  | call c next => p c ∧ ∀ outcome, (next outcome).Only p
  | transaction _ _ _ => False

variable {a : Adapter} {e : Entity} {t : Option Transaction}

theorem asks_insert_keepsEnds (edges : e.kind = .edge) (fields : Row) :
    (a.insert e fields t).Asks (Request.KeepsEnds e.collection) := by
  apply asks_insert_of
  · intro document is
    apply asks_request
    refine Request.keepsEnds_document
      (Route.segments_append "document" e.collection (by decide)) ?_ ?_ ?_
    · rintro ⟨⟩
    · intro _ members given
      cases given
      exact Entity.linked_toDocument edges is
    · rintro ⟨⟩
  · exact asks_createCollectionOf_of fun r posts path => Request.keepsEnds_create posts path

theorem asks_update_keepsEnds {fields : Row} (relinks : Relinks (fields.erase e.primaryKey))
    (id : String) : (a.update e id fields t).Asks (Request.KeepsEnds e.collection) := by
  apply asks_bind (asks_ofExcept _)
  intro key
  apply asks_bind
  · apply asks_request
    refine Request.keepsEnds_document (Route.segments_document e.collection key) ?_ ?_ ?_
    · rintro ⟨⟩
    · rintro ⟨⟩
    · intro _ changes given
      cases given
      exact fun member listed => relinks member (List.mem_of_mem_filter listed)
  · exact fun _ => asks_pure _

theorem asks_delete_keepsEnds (a : Adapter) (e : Entity) (id : String) (t : Option Transaction) :
    (a.delete e id t).Asks (Request.KeepsEnds e.collection) := by
  apply asks_bind (asks_ofExcept _)
  intro key
  apply asks_command
  refine Request.keepsEnds_document (Route.segments_document e.collection key) ?_ ?_ ?_
  all_goals rintro ⟨⟩

/-- A call that writes edges of an entity keeps the edges of its collection. -/
theorem asks_keepsEnds {α : Type} {c : Call α} (edges : e.kind = .edge) (links : c.Links e) :
    (c.perform a).Asks (Request.KeepsEnds e.collection) := by
  cases c with
  | insert own fields t =>
      cases links
      exact asks_insert_keepsEnds edges fields
  | insertAll own rows t =>
      cases links
      -- Rows are inserted one by one.
      exact asks_forEach fun fields _ => asks_insert_keepsEnds edges fields
  | update own id fields t =>
      obtain ⟨rfl, relinks⟩ := links
      exact asks_update_keepsEnds relinks id
  | delete own id t =>
      cases links
      exact asks_delete_keepsEnds a e id t
  | _ => exact links.elim

theorem Session.asks_keepsEnds {α : Type} {session : Session α} (edges : e.kind = .edge)
    (links : session.Only (Call.Links e)) :
    (session.perform a).Asks (Request.KeepsEnds e.collection) := by
  induction session with
  | finish outcome => exact asks_ofExcept outcome
  | call c next inductionHypothesis =>
      apply asks_bind (asks_attempt (Adapter.asks_keepsEnds edges links.1))
      exact fun outcome => inductionHypothesis outcome (links.2 outcome)
  | transaction => exact links.elim

/-- Whatever a client writes to a collection of edges, one call after the other, its documents
are edges in the end, if they are at the start: there may be none. -/
theorem Session.keeps_linked {α : Type} {session : Session α} {s : Store} {database : String}
    (edges : e.kind = .edge) (links : session.Only (Call.Links e))
    (start : s.Linked database e.collection) :
    ((session.perform a).runOn Store.server s).state.Linked database e.collection :=
  (session.asks_keepsEnds edges links).keeps (I := fun s : Store => s.Linked database e.collection)
    (fun _ _ linked keeps => linked.answer keeps) start

/-- Who follows whom. -/
def followsEntity : Entity :=
  (Entity.edge "Follows" "follows").withFields ["id", "_from", "_to"]

/-- A store with an empty collection of edges. -/
def followsStore : Store :=
  { databases := ⟨[("_system", { collections := ⟨[("follows",
      { properties := ⟨[("type", .int 3)]⟩ })]⟩ })]⟩ }

/-- Ann follows Bob. -/
def annToBob : Row :=
  ⟨[("_from", .str "users/ann"), ("_to", .str "users/bob"), ("id", .str "e")]⟩

/-- Ann follows Bob, and then Eve in his place. -/
def followsSession : Session Unit :=
  .call (.insert followsEntity annToBob none) fun _ =>
    .call (.update followsEntity "e" ⟨[("_to", .str "users/eve")]⟩ none) fun _ =>
      .finish (.ok ())

theorem keeps_linked_of_followsSession :
    ((followsSession.perform {}).runOn Store.server followsStore).state.Linked "_system"
        "follows" ∧
      (((followsSession.perform {}).runOn Store.server followsStore).state.documents none
        "follows").map (·.value "_to") = [.str "users/eve"] := by
  have names : Relinks (Dict.erase (⟨[("_to", .str "users/eve")]⟩ : Row) "id") := by
    intro member listed _
    cases List.mem_singleton.mp listed
    exact ⟨"users/eve", ⟨"users", "eve"⟩, rfl, rfl⟩
  have links : followsSession.Only (Call.Links followsEntity) :=
    ⟨rfl, fun _ => ⟨⟨rfl, names⟩, fun _ => trivial⟩⟩
  have start : followsStore.Linked "_system" followsEntity.collection := by
    intro documents stored
    cases stored
    exact fun d member => absurd member List.not_mem_nil
  exact ⟨Session.keeps_linked rfl links start, rfl⟩

/-- An update may put any text in the place of an end. -/
theorem unlinked_by_update :
    ∃ s' s'', (({} : Adapter).insert followsEntity annToBob none).Ends Store.server followsStore
        (.ok annToBob) s' ∧
      (({} : Adapter).update followsEntity "e" ⟨[("_from", .str "nowhere")]⟩ none).Ends
        Store.server s' (.ok (annToBob.insert "_from" (.str "nowhere"))) s'' ∧
      (s''.documents none "follows").map (·.value "_from") = [.str "nowhere"] ∧
      DocumentId.read "nowhere" = .error (.notTwoParts "nowhere") :=
  ⟨_, _, ⟨rfl, rfl⟩, ⟨rfl, rfl⟩, rfl, rfl⟩

end Adapter

end DocStore
