/-
Module: DocStore.Proofs.Memory.Guarded
Purpose: requests that spare a collection, and what they keep: its documents, and an open
  transaction without notes about it.
Main exports:
  Request.Spares, Route.harmless_of_head, Store.Guarded, Store.Guarded.answer
-/
import DocStore.Proofs.Exchange.Asked
import DocStore.Proofs.Memory.Paging
import DocStore.Proofs.Memory.Untouched

namespace DocStore

/-- Whether a request leaves a collection of a database alone, whatever the store
holds: it neither begins nor ends a transaction, and the collection is not among its
targets, or else it belongs to no transaction and is addressed to another database. -/
def Request.Spares (home database name : String) (r : Request) : Prop :=
  ∀ route, Route.of? r = some route → route.isTransactional = false ∧
    (name ∉ route.targets (r.body.getD .null) ∨
      r.transaction = none ∧ r.database.getD home ≠ database)

/-! ### Routes without targets -/

namespace Route

/-- Requests outside of collections, documents, queries and transactions have no
targets. -/
theorem harmless_of_head {r : Request} {head : String} {rest : List String} {route : Route}
    (cut : Text.splitAt '/' r.path = head :: rest)
    (apart : head ∉ ["collection", "document", "transaction"])
    (later : head = "cursor" → rest ≠ []) (routed : Route.of? r = some route) (body : Json) :
    route.isTransactional = false ∧ route.targets body = [] := by
  simp only [List.mem_cons, List.not_mem_nil, or_false, not_or] at apart
  obtain ⟨noCollection, noDocument, noTransaction⟩ := apart
  have shape := of?_eq_some_iff.mp routed
  rw [cut] at shape
  cases route <;> first | exact ⟨rfl, rfl⟩ | simp_all [shapes]

/-- Requests to read have no targets. -/
theorem harmless_of_get {r : Request} {route : Route} (reads : r.method = .get)
    (routed : Route.of? r = some route) (body : Json) :
    route.isTransactional = false ∧ route.targets body = [] := by
  have shape := of?_eq_some_iff.mp routed
  rw [reads] at shape
  cases route <;> first | exact ⟨rfl, rfl⟩ | simp [shapes] at shape

end Route

namespace Request

variable {home database name : String}

theorem spares_of_harmless {r : Request}
    (harmless : ∀ route, Route.of? r = some route →
      route.isTransactional = false ∧ route.targets (r.body.getD .null) = []) :
    r.Spares home database name := by
  intro route routed
  obtain ⟨within, none⟩ := harmless route routed
  refine ⟨within, Or.inl ?_⟩
  rw [none]
  exact List.not_mem_nil

/-- Requests about indexes, views and analyzers spare all collections. -/
theorem Apart.spares {r : Request} (apart : r.Apart) : r.Spares home database name := by
  obtain ⟨head, rest, cut, other⟩ := apart
  apply spares_of_harmless
  intro route routed
  apply Route.harmless_of_head cut _ _ routed
  · intro member
    apply other
    simp only [List.mem_cons, List.not_mem_nil, or_false] at member
    rcases member with rfl | rfl | rfl <;> simp
  · rintro rfl
    exact absurd (by simp) other

theorem spares_of_get {r : Request} (reads : r.method = .get) : r.Spares home database name :=
  spares_of_harmless fun _ routed => Route.harmless_of_get reads routed _

/-- The documents that a query is to remove are those of the collection that it reads. -/
theorem removes_of_mem_removalTargets {aql : String} {bindVars : Dict Json}
    (member : name ∈ removalTargets (.obj ⟨[("bindVars", .obj bindVars), ("query", .str aql)]⟩)) :
    ∃ q, Statement.read? aql bindVars = some q ∧ q.effect = .removal ∧ q.collection = name := by
  unfold removalTargets at member
  split at member
  · cases member
  · next given isText =>
      obtain rfl : aql = given := Option.some.inj isText
      split at member
      · cases member
      · next q read =>
          split at member
          · next removes => exact ⟨q, read, removes, (List.mem_singleton.mp member).symm⟩
          · cases member

/-- The start of a query spares a collection that the query does not remove documents
of. -/
theorem spares_start {c : CursorRead} {aql : String} {bindVars : Dict Json}
    (position : c.position = .start aql bindVars)
    (spared : ∀ q, Statement.read? aql bindVars = some q → q.effect = .removal →
      q.collection ≠ name) : c.request.Spares home database name := by
  intro route routed
  rw [Store.route_of_start position, Option.some.injEq] at routed
  subst routed
  refine ⟨rfl, Or.inl fun member => ?_⟩
  have body : c.request.body =
      some (.obj ⟨[("bindVars", .obj bindVars), ("query", .str aql)]⟩) := by
    rcases c with ⟨_, transaction, _, _⟩
    cases position
    cases transaction <;> rfl
  rw [body] at member
  obtain ⟨q, read, removes, same⟩ := removes_of_mem_removalTargets member
  exact spared q read removes same

theorem spares_page {c : CursorRead} {id : String} (position : c.position = .page id) :
    c.request.Spares home database name := by
  have path : c.request.path = "cursor" ++ "/" ++ id := by
    rcases c with ⟨_, transaction, _, _⟩
    cases position
    cases transaction <;> rfl
  have cut := Route.segments_append "cursor" id (by decide)
  rw [← path] at cut
  apply spares_of_harmless
  intro route routed
  apply Route.harmless_of_head cut (by decide) _ routed
  exact fun _ => Text.splitAt_ne_nil '/' id

end Request

namespace Store

/-- The documents of a collection are as given. -/
structure Holds (home database name : String) (documents : List Document) (s : Store) :
    Prop where
  home_eq : s.home = home
  batch : 0 < s.batchSize
  documents_eq : s.documentsOf database name = some documents

theorem Holds.of_same {home database name : String} {documents : List Document} {s s' : Store}
    (holds : s.Holds home database name documents) (same : SameData s s') :
    s'.Holds home database name documents where
  home_eq := same.home_eq.trans holds.home_eq
  batch := by
    rw [same.batchSize_eq]
    exact holds.batch
  documents_eq := by
    rw [same.documentsOf_eq]
    exact holds.documents_eq

/-- Moreover the transaction of a handle, if there is one, is open, may write to the
collection, and has no notes about it. -/
structure Guarded (home database name : String) (documents : List Document)
    (t : Option Transaction) (s : Store) : Prop extends Holds home database name documents s where
  opened : ∀ handle ∈ t, ∃ o, s.transactions.get? handle.id = some o ∧ o.database = database ∧
    o.write.contains name = true ∧ ∀ u ∈ o.undo, u.collection ≠ name

theorem Holds.guarded_none {home database name : String} {documents : List Document} {s : Store}
    (holds : s.Holds home database name documents) :
    s.Guarded home database name documents none :=
  { holds with opened := fun _ member => by cases member }

namespace Guarded

variable {home database name : String} {documents : List Document} {t : Option Transaction}
  {s : Store}

theorem isOpen (guarded : s.Guarded home database name documents t) : s.Opened t := by
  intro handle member
  obtain ⟨o, found, _⟩ := guarded.opened handle member
  rw [Dict.contains_eq, found]
  rfl

theorem of_same {s' : Store} (guarded : s.Guarded home database name documents t)
    (same : SameData s s') : s'.Guarded home database name documents t :=
  { guarded.toHolds.of_same same with
    opened := fun handle member => by
      rw [same.transactions_eq]
      exact guarded.opened handle member }

/-- The transaction may write to the collection. -/
theorem permits {r : Request} (guarded : s.Guarded home database name documents t)
    (inside : r.transaction = t.map (·.id)) : s.permitWrite r name = .ok () := by
  unfold permitWrite
  rw [inside]
  cases t with
  | none => rfl
  | some handle =>
      obtain ⟨o, found, _, declared, _⟩ := guarded.opened handle rfl
      simp only [Option.map_some, Option.bind_some, found, declared, if_true]

/-- After a write to the collection the transaction is still open. -/
theorem wrote (guarded : s.Guarded home database name documents t) (r : Request)
    (c : StoredCollection) (undos : List Undo) :
    ((s.putCollection database name c).noteUndos r undos).Holds home database name c.documents ∧
      ((s.putCollection database name c).noteUndos r undos).Opened t := by
  have onward := onward_noteUndos (s.putCollection database name c) r undos
  refine ⟨⟨onward.home_eq.trans guarded.home_eq, ?_, ?_⟩, fun handle member => ?_⟩
  · rw [onward.batchSize_eq]
    exact guarded.batch
  · rw [documentsOf_noteUndos, putCollection, documentsOf, database_putDatabase_self]
    simp [Database.documentsOf, Database.putCollection]
  · obtain ⟨o, found, _⟩ := guarded.opened handle member
    have kept : (s.putCollection database name c).transactions.get? handle.id = some o := found
    rw [Dict.contains_eq, transaction_noteUndos, kept]
    split <;> rfl

theorem perform {r : Request} {body : Json} {route : Route}
    (guarded : s.Guarded home database name documents t) (within : route.isTransactional = false)
    (spared : name ∉ route.targets body ∨
      r.transaction = none ∧ r.database.getD home ≠ database) :
    (s.perform r body route).2.Guarded home database name documents t where
  home_eq := (onward_perform s r body route).home_eq.trans guarded.home_eq
  batch := by
    rw [(onward_perform s r body route).batchSize_eq]
    exact guarded.batch
  documents_eq := by
    rw [documentsOf_perform within, guarded.documents_eq]
    apply spared.imp_right
    rintro ⟨_, elsewhere⟩ same
    apply elsewhere
    rw [same, databaseOf, guarded.home_eq]
  opened handle member := by
    obtain ⟨o, found, inDatabase, declared, others⟩ := guarded.opened handle member
    obtain ⟨noted, about, after⟩ :=
      transaction_perform s r body within handle.id
    refine ⟨{ o with undo := noted ++ o.undo }, ?_, inDatabase, declared, ?_⟩
    · rw [after, found]
      rfl
    · intro u inUndo
      rcases List.mem_append.mp inUndo with isNoted | isOld
      · obtain ⟨own, listed⟩ := about u isNoted
        rcases spared with absent | ⟨outside, _⟩
        · rintro rfl
          exact absent listed
        · rw [outside] at own
          cases own
      · exact others u isOld

/-- A request that spares the collection keeps it guarded. -/
theorem answer {r : Request} (guarded : s.Guarded home database name documents t)
    (spares : r.Spares home database name) :
    (Store.server.answer s r).2.Guarded home database name documents t := by
  have noted := guarded.of_same (sameData_noteRequest s r)
  rcases answer_cases s r with ⟨_, refused⟩ | ⟨route, routed, _, answered⟩
  · rw [refused]
    exact noted
  · rw [answered]
    obtain ⟨within, spared⟩ := spares route routed
    exact noted.perform within spared

/-- What spares a collection request by request keeps it guarded. -/
theorem runOn {α : Type} {x : Exchange α} (guarded : s.Guarded home database name documents t)
    (asks : x.Asks (Request.Spares home database name)) :
    (x.runOn Store.server s).state.Guarded home database name documents t :=
  asks.keeps (fun _ _ kept spares => kept.answer spares) guarded

end Guarded

theorem onward_runOn {α : Type} (x : Exchange α) (s : Store) :
    Onward s (x.runOn Store.server s).state := by
  have asks : x.Asks fun _ => True := x.asks_true
  exact asks.keeps (fun s₁ r kept _ => kept.trans (onward_answer s₁ r)) (Onward.refl s)

end Store

end DocStore
