/-
Module: DocStore.Proofs.Adapter.Transaction
Purpose: transactions of an adapter among the requests of other clients: one that fails leaves
  no trace in the documents.
Main exports:
  Adapter.Work, Adapter.Work.perform, Request.Own, Adapter.Work.asks_perform,
  Adapter.failed_transaction_restores
-/
import DocStore.Adapter.Basic
import DocStore.Proofs.Exchange.Among
import DocStore.Proofs.Memory.Revocable

namespace DocStore

open Exchange

/-! ### What is done in a transaction -/

namespace Adapter

/-- What a client does in a transaction: writes and queries one after the other, each chosen
by the outcomes of those before it, and an outcome in the end. -/
inductive Work (α : Type) where
  | finish (outcome : Except Error α)
  | insert (e : Entity) (fields : Row) (next : Except Error Row → Work α)
  | update (e : Entity) (id : String) (fields : Row) (next : Except Error Row → Work α)
  | delete (e : Entity) (id : String) (next : Except Error Unit → Work α)
  | execute (query : Query) (operation : Operation) (next : Except Error (List Row) → Work α)

/-- Do the work in a transaction. -/
def Work.perform {α : Type} (a : Adapter) (t : Transaction) : Work α → Exchange α
  | finish outcome => .ofExcept outcome
  | insert e fields next => do
      let outcome ← (a.insert e fields (some t)).attempt
      (next outcome).perform a t
  | update e id fields next => do
      let outcome ← (a.update e id fields (some t)).attempt
      (next outcome).perform a t
  | delete e id next => do
      let outcome ← (a.delete e id (some t)).attempt
      (next outcome).perform a t
  | execute query operation next => do
      let outcome ← (a.execute query operation (some t)).attempt
      (next outcome).perform a t

end Adapter

/-! ### The requests that it makes -/

namespace Route

/-- Requests about documents and cursors define nothing and end no transaction. -/
theorem documental_of_head {r : Request} {head : String} {rest : List String} {route : Route}
    (cut : Text.splitAt '/' r.path = head :: rest) (about : head = "document" ∨ head = "cursor")
    (routed : Route.of? r = some route) (body : Json) :
    route.change? r body = none ∧ route.isTransactional = false := by
  have shape := of?_eq_some_iff.mp routed
  rw [cut] at shape
  rcases about with rfl | rfl
  all_goals cases route <;> first | exact ⟨rfl, rfl⟩ | simp [shapes] at shape

theorem method_of_changeDocument {r : Request} {collection key : String}
    (routed : Route.of? r = some (.changeDocument collection key)) : r.method = .patch := by
  have shape := of?_eq_some_iff.mp routed
  simp only [shapes, List.mem_singleton, Prod.mk.injEq] at shape
  exact shape.1

end Route

namespace Request

/-- A request that is part of a transaction: one in it, or one that creates a collection. -/
def Own (t : Transaction) (r : Request) : Prop :=
  r.Within t ∨ r.Creates

variable {t : Transaction} {r : Request}

/-- A request about documents or cursors that is attached to a transaction. -/
theorem within_inTransaction {head : String} {rest : List String}
    (cut : Text.splitAt '/' r.path = head :: rest) (about : head = "document" ∨ head = "cursor")
    (tenant : r.database = t.database)
    (unkeyed : r.method = .patch → ((r.body.getD .null).members?.getD {}).get? "_key" = none) :
    (r.inTransaction (some t)).Within t where
  inside := rfl
  addressed := by
    rw [← tenant]
    exact database_inTransaction r (some t) fun handle member => by
      cases member
      exact tenant.symm
  documental route routed := by
    rw [← path_inTransaction r (some t)] at cut
    exact Route.documental_of_head cut about routed _
  unkeyed collection key routed := by
    have patches := Route.method_of_changeDocument routed
    rw [method_inTransaction] at patches
    rw [body_inTransaction]
    exact unkeyed patches

end Request

namespace Adapter

variable {a : Adapter} {e : Entity}

/-- A collection is created by one request. -/
theorem asks_createCollectionOf_of {p : Request → Prop}
    (creates : ∀ r : Request, r.method = .post → r.path = "collection" → p r) :
    (a.createCollectionOf e).Asks p := by
  apply asks_bind
  · apply asks_bind (asks_ofSchema _)
    intro _
    apply asks_tolerant
    apply asks_ofSchema_bind
    exact fun body _ => asks_command (creates _ rfl rfl)
  · exact fun _ => asks_pure ()

/-- An insertion posts the document of its row, and may create the collection. -/
theorem asks_insert_of {p : Request → Prop} {fields : Row} {t : Option Transaction}
    (posts : ∀ document, e.toDocument fields = .ok document → (a.postDocument e document t).Asks p)
    (creates : (a.createCollectionOf e).Asks p) : (a.insert e fields t).Asks p := by
  apply asks_ofExcept_bind
  intro document is
  apply asks_bind
  · apply asks_bind (asks_attempt (posts document is))
    intro outcome
    cases outcome with
    | ok => exact asks_pure _
    | error error =>
        dsimp only
        split
        · exact asks_bind creates fun _ => posts document is
        · exact asks_fail error
  · intro created
    split
    · exact asks_fail _
    · exact asks_pure _

variable {t : Transaction}

theorem asks_postDocument (within : t.database = a.database) (e : Entity) (document : Row) :
    (a.postDocument e document (some t)).Asks (Request.Own t) := by
  apply asks_request
  left
  exact Request.within_inTransaction (Route.segments_append "document" e.collection (by decide))
    (Or.inl rfl) within.symm nofun

theorem asks_createCollectionOf (e : Entity) : (a.createCollectionOf e).Asks (Request.Own t) := by
  apply asks_createCollectionOf_of
  intro r posts path
  right
  intro route routed
  rw [Route.of?_post "collection" posts path (by decide)] at routed
  cases routed
  rfl

theorem asks_insert (within : t.database = a.database) (e : Entity) (fields : Row) :
    (a.insert e fields (some t)).Asks (Request.Own t) :=
  asks_insert_of (fun document _ => asks_postDocument within e document)
    (asks_createCollectionOf e)

/-- The key of a document is left out of its changes. -/
theorem asks_update (within : t.database = a.database) (e : Entity) (id : String) (fields : Row) :
    (a.update e id fields (some t)).Asks (Request.Own t) := by
  apply asks_bind (asks_ofExcept _)
  intro key
  apply asks_bind
  · apply asks_request
    left
    refine Request.within_inTransaction (Route.segments_document e.collection key) (Or.inl rfl)
      within.symm fun _ => ?_
    exact Dict.get?_erase_self _ _
  · exact fun _ => asks_pure _

theorem asks_delete (within : t.database = a.database) (e : Entity) (id : String) :
    (a.delete e id (some t)).Asks (Request.Own t) := by
  apply asks_bind (asks_ofExcept _)
  intro key
  apply asks_command
  left
  exact Request.within_inTransaction (Route.segments_document e.collection key) (Or.inl rfl)
    within.symm nofun

theorem asks_execute (within : t.database = a.database) (query : Query) (operation : Operation) :
    (a.execute query operation (some t)).Asks (Request.Own t) := by
  apply asks_bind (asks_ofExcept _)
  intro compiled
  apply asks_bind
  · apply asks_attempt
    apply asks_runCursor
    constructor
    · left
      have plain : '/' ∉ "cursor".toList := by decide
      exact Request.within_inTransaction (Text.splitAt_of_notMem plain) (Or.inr rfl) within.symm
        nofun
    · intro id
      left
      exact Request.within_inTransaction (Route.segments_append "cursor" id (by decide))
        (Or.inr rfl) within.symm nofun
  · intro outcome
    apply asks_bind (asks_ofExcept _)
    exact fun rows => asks_ofExcept _

/-- All requests of the work are part of the transaction. -/
theorem Work.asks_perform {α : Type} (within : t.database = a.database) (work : Work α) :
    (work.perform a t).Asks (Request.Own t) := by
  induction work with
  | finish outcome => exact asks_ofExcept outcome
  | insert e fields next inductionHypothesis =>
      exact asks_bind (asks_attempt (asks_insert within e fields)) inductionHypothesis
  | update e id fields next inductionHypothesis =>
      exact asks_bind (asks_attempt (asks_update within e id fields)) inductionHypothesis
  | delete e id next inductionHypothesis =>
      exact asks_bind (asks_attempt (asks_delete within e id)) inductionHypothesis
  | execute query operation next inductionHypothesis =>
      exact asks_bind (asks_attempt (asks_execute within query operation)) inductionHypothesis

end Adapter

/-! ### Among the requests of others -/

namespace Store

/-- All requests of others are foreign to the transaction that was begun at the start. -/
def Undisturbed (start : Store) (database : Option String) (write : List String)
    (events : List (Event Store)) : Prop :=
  ∀ event ∈ events, event.own = false → event.before.Foreign (database.getD start.home) write
    (Transaction.next start database).id event.request

/-- No own request changes documents of a collection that the transaction did not
declare. -/
def Confined (start : Store) (database : Option String) (write : List String)
    (events : List (Event Store)) : Prop :=
  ∀ event ∈ events, event.own = true → ∀ other name,
    (other = database.getD start.home → name ∉ write) →
      (event.after Store.server).documents (some other) name =
        event.before.documents (some other) name

variable {start s s' : Store} {database : Option String} {write : List String}
  {events : List (Event Store)}

theorem Undisturbed.of_sublist {part : List (Event Store)}
    (undisturbed : Undisturbed start database write events) (sub : part.Sublist events) :
    Undisturbed start database write part :=
  fun event member => undisturbed event (sub.mem member)

theorem Confined.append {more : List (Event Store)} (first : Confined start database write events)
    (second : Confined start database write more) :
    Confined start database write (events ++ more) := by
  intro event member
  rcases List.mem_append.mp member with inFirst | inSecond
  · exact first event inFirst
  · exact second event inSecond

theorem confined_of_waits (waits : Waits Store.server s events s') :
    Confined start database write events := by
  intro event member own
  rw [waits.own_eq_false event member] at own
  cases own

theorem Revocable.waits (revocable : Revocable start database write s)
    (undisturbed : Undisturbed start database write events)
    (waits : Waits Store.server s events s') : Revocable start database write s' :=
  waits.keeps (fun event member others kept => kept.foreign (undisturbed event member others))
    revocable

theorem Restored.waits (restored : Restored start database write s)
    (undisturbed : Undisturbed start database write events)
    (waits : Waits Store.server s events s') : Restored start database write s' :=
  waits.keeps (fun event member others kept => kept.foreign (undisturbed event member others))
    restored

/-- The requests of an operation in the transaction keep the way back, and are confined. -/
theorem Revocable.among {α : Type} {x : Exchange α} {outcome : Except Error α}
    (revocable : Revocable start database write s)
    (asks : x.Asks (Request.Own (Transaction.next start database)))
    (undisturbed : Undisturbed start database write events)
    (run : x.Among Store.server s events outcome s') :
    Revocable start database write s' ∧ Confined start database write events := by
  obtain ⟨last, each⟩ := asks.keepsAmong run
    (fun _ _ kept own => own.elim kept.within kept.creates)
    (fun event member others kept => kept.foreign (undisturbed event member others)) revocable
  refine ⟨last, fun event member isOwn other name undeclared => ?_⟩
  obtain ⟨before, own⟩ := each event member isOwn
  exact before.documents_eq own undeclared

end Store

namespace Transaction

open Store

variable {start s s' : Store} {database : Option String} {write : List String}
  {events : List (Event Store)}

/-- Beginning a transaction sends one request, and always succeeds. -/
theorem among_begin {outcome : Except Error Transaction}
    (begins : ∀ event ∈ events.head?, event.own = true)
    (run : (Transaction.begin database write []).Among Store.server s events outcome s') :
    ∃ later, events = ⟨true, s, beginRequest database write []⟩ :: later ∧
      outcome = .ok (next s database) ∧
      (Store.server.answer s (beginRequest database write [])).2 =
        s.begun (beginRequest database write []) write ∧
      Waits Store.server (s.begun (beginRequest database write []) write) later s' := by
  obtain ⟨earlier, middle, later, split, waiting, rfl, state, after⟩ := among_begins run
  -- Nobody else comes before the first event.
  cases earlier with
  | cons other more =>
      have isOwn := begins other (by simp [split])
      rw [waiting.own_eq_false other List.mem_cons_self] at isOwn
      cases isOwn
  | nil =>
      cases waiting
      exact ⟨later, split, rfl, state, after⟩

/-- An abort takes back what the transaction did. -/
theorem among_abort {outcome : Except Error Unit} (revocable : Revocable start database write s)
    (undisturbed : Undisturbed start database write events)
    (run : (next start database).abort.Among Store.server s events outcome s') :
    Restored start database write s' ∧ Confined start database write events := by
  obtain ⟨earlier, middle, later, rfl, waiting, ends, after⟩ :=
    among_single rfl (fun _ => ⟨_, rfl⟩) run
  have still := revocable.waits
    (undisturbed.of_sublist (List.sublist_append_left earlier _)) waiting
  obtain ⟨o, found, restored, others⟩ := still.aborted (next start database).abortRequest
  obtain ⟨_, state⟩ := ends.unique (ends_abort (slash_notMem_next start database) found)
  rw [state] at after
  have rest : later.Sublist (earlier ++ ⟨true, middle, (next start database).abortRequest⟩ ::
      later) :=
    (List.sublist_cons_self _ later).trans (List.sublist_append_right earlier _)
  refine ⟨restored.waits (undisturbed.of_sublist rest) after,
    (confined_of_waits waiting).append ?_⟩
  intro event member isOwn other name undeclared
  rcases List.mem_cons.mp member with rfl | inLater
  · have aborted : (Store.server.answer middle (next start database).abortRequest).2 =
        middle.aborted (next start database).abortRequest (next start database).id o := state
    change ((Store.server.answer middle (next start database).abortRequest).2).documents _ _ = _
    rw [aborted, documents_eq_documentsOf, others other name undeclared,
      ← documents_eq_documentsOf]
  · exact confined_of_waits after event inLater isOwn other name undeclared

/-- An open transaction is not prevented from being committed. -/
theorem among_commit {outcome : Except Error Unit} (revocable : Revocable start database write s)
    (undisturbed : Undisturbed start database write events)
    (run : (next start database).commit.Among Store.server s events outcome s') :
    outcome = .ok () := by
  obtain ⟨earlier, middle, later, rfl, waiting, ends, _⟩ :=
    among_single rfl (fun _ => ⟨_, rfl⟩) run
  have still := revocable.waits
    (undisturbed.of_sublist (List.sublist_append_left earlier _)) waiting
  obtain ⟨o, found, _⟩ := still.opened
  exact (ends.unique (ends_commit (slash_notMem_next start database) found)).1

/-- A transaction that ends with an error was aborted. -/
theorem among_finish {α : Type} {given : Except Error α} {e : Error}
    (revocable : Revocable start database write s)
    (undisturbed : Undisturbed start database write events)
    (run : ((next start database).finish given).Among Store.server s events (.error e) s') :
    Restored start database write s' ∧ Confined start database write events := by
  cases given with
  | ok value =>
      rcases among_bind run with ⟨_, _, first, second, _, last, rfl⟩ | ⟨failure, failed, _⟩
      · cases (among_done (.ok ()) last).1
      · cases among_commit revocable undisturbed failed
  | error failure =>
      obtain ⟨given, middle, first, second, aborts, last, rfl⟩ := among_attempt_bind run
      obtain ⟨restored, confined⟩ := among_abort revocable
        (undisturbed.of_sublist (List.sublist_append_left first second)) aborts
      have silently : ∀ {rest : Exchange α}, (rest.Asks fun _ => False) →
          rest.Among Store.server middle second (.error e) s' →
            Restored start database write s' ∧
              Confined start database write (first ++ second) := by
        intro rest silent ends
        obtain ⟨still, each⟩ := silent.keepsAmong ends (fun _ _ _ absurd => absurd.elim)
          (fun event member others kept => Restored.foreign kept
            (undisturbed event (List.mem_append_right first member) others)) restored
        refine ⟨still, confined.append ?_⟩
        intro event member isOwn
        exact (each event member isOwn).2.elim
      cases given with
      | ok => exact silently (asks_fail failure) last
      | error => exact silently (asks_bind (asks_report _) fun _ => asks_fail failure) last

end Transaction

namespace Adapter

open Store

/-- A transaction that fails leaves no trace.  Among any requests of others that are foreign
to it, every declared collection that was there at its begin holds the documents from then,
up to their order; and no request of the transaction changes documents of a collection that
it did not declare. -/
theorem failed_transaction_restores {α : Type} {a : Adapter} {write : List String}
    {work : Transaction → Work α} {s s' : Store} {first : Event Store}
    {events : List (Event Store)} {e : Error}
    (keys : ∀ database name documents, s.documentsOf database name = some documents →
      DistinctKeys documents)
    (run : (a.transaction write fun t => (work t).perform a t).Among Store.server s
      (first :: events) (.error e) s')
    (begins : first.own = true) (undisturbed : Undisturbed s a.database write events) :
    (∀ name ∈ write, ∀ before, s.documentsOf (a.database.getD s.home) name = some before →
      ∃ after, s'.documentsOf (a.database.getD s.home) name = some after ∧ after.Perm before) ∧
    Confined s a.database write (first :: events) := by
  have here : Revocable s a.database write
      (s.begun (Transaction.beginRequest a.database write []) write) :=
    revocable_begun fun name _ before stored => keys _ name before stored
  rcases among_bind run with ⟨t, s₁, beginning, rest, begun, following, split⟩ | ⟨_, failed, _⟩
  · have isFirst : ∀ event ∈ beginning.head?, event.own = true := by
      intro event member
      cases beginning with
      | nil => cases member
      | cons head tail =>
          cases member
          rw [← (List.cons.inj split).1]
          exact begins
    obtain ⟨waiting, rfl, is, state, waits⟩ := Transaction.among_begin isFirst begun
    cases is
    obtain ⟨rfl, rfl⟩ := List.cons.inj split
    have opened := here.waits (undisturbed.of_sublist (List.sublist_append_left waiting rest)) waits
    have during := undisturbed.of_sublist (List.sublist_append_right waiting rest)
    rcases among_bind following with
      ⟨given, s₂, middle, ending, attempted, finishing, rfl⟩ | ⟨_, failed, _⟩
    · obtain ⟨outcome, same, ran⟩ := among_attempt attempted
      cases same
      obtain ⟨worked, workConfined⟩ := opened.among (Work.asks_perform rfl _)
        (during.of_sublist (List.sublist_append_left middle ending)) ran
      obtain ⟨restored, endConfined⟩ := Transaction.among_finish worked
        (during.of_sublist (List.sublist_append_right middle ending)) finishing
      have beginConfined : Confined s a.database write
          [⟨true, s, Transaction.beginRequest a.database write []⟩] := by
        intro event member _ other name _
        cases List.mem_singleton.mp member
        change (Store.server.answer s _).2.documents _ _ = _
        rw [state]
        rfl
      exact ⟨restored.documents, beginConfined.append
        ((confined_of_waits waits).append (workConfined.append endConfined))⟩
    · obtain ⟨_, same, _⟩ := among_attempt failed
      cases same
  · obtain ⟨_, _, is, _⟩ := Transaction.among_begin (by simpa using begins) failed
    cases is

/-- A store with an empty collection and one with a single document. -/
def sampleStore : Store :=
  { databases := ⟨[("_system", { collections := ⟨[("logs", { properties := {} }),
      ("users", { properties := {}, documents := [⟨[("_key", .str "eve")]⟩] })]⟩ })]⟩ }

/-- A document is removed and another one inserted, and then the work fails. -/
def sampleWork : Work Unit :=
  .delete (.document "User" "users") "eve" fun _ =>
    .insert (.document "User" "users") ⟨[("id", .str "ada")]⟩ fun _ =>
      .finish (.error (.validation (.declared "changed my mind")))

/-- A request of someone else to insert a document elsewhere. -/
def sampleRequest : Request :=
  .post "document/logs" (.obj {})

theorem sampleRequest_foreign (s : Store) :
    s.Foreign "_system" ["users"] (Transaction.next sampleStore none).id sampleRequest := by
  have routed : Route.of? sampleRequest = some (.insertDocument "logs") := by rfl
  refine ⟨nofun, ?_, ?_⟩
  · intro route is
    rw [routed] at is
    cases is
    exact ⟨nofun, nofun⟩
  · intro name member
    left
    intro route is
    rw [routed] at is
    cases is
    cases List.mem_singleton.mp member
    exact Or.inl (by decide)

theorem sampleStore_keys {database name : String} {documents : List Document}
    (stored : sampleStore.documentsOf database name = some documents) :
    DistinctKeys documents := by
  have listed : documents = [] ∨ documents = [⟨[("_key", .str "eve")]⟩] := by
    simp only [sampleStore, documentsOf, Store.database, Database.documentsOf, Dict.get?,
      Dict.lookupEntry] at stored
    by_cases here : database = "_system"
    · rw [if_pos here, Option.getD_some] at stored
      simp only [Dict.lookupEntry] at stored
      split at stored
      · exact Or.inl (Option.some.inj stored).symm
      · split at stored
        · exact Or.inr (Option.some.inj stored).symm
        · cases stored
    · rw [if_neg here] at stored
      cases stored
  rcases listed with rfl | rfl
  · exact ⟨fun _ member => absurd member List.not_mem_nil, .nil⟩
  · constructor
    · intro d member
      cases List.mem_singleton.mp member
      exact ⟨"eve", rfl⟩
    · exact List.pairwise_singleton _ _

theorem failed_transaction_restores_of_sampleWork :
    ∃ first events s', (({} : Adapter).transaction ["users"] fun t =>
        sampleWork.perform {} t).Among Store.server sampleStore (first :: events)
          (.error (.validation (.declared "changed my mind"))) s' ∧
      Undisturbed sampleStore none ["users"] events ∧
      ∃ after, s'.documentsOf "_system" "users" = some after ∧
        after.Perm [⟨[("_key", .str "eve")]⟩] := by
  have exists_run : ∃ first events s', (({} : Adapter).transaction ["users"] fun t =>
        sampleWork.perform {} t).Among Store.server sampleStore (first :: events)
          (.error (.validation (.declared "changed my mind"))) s' ∧
      first.own = true ∧ ∀ event ∈ events, event.own = false → event.request = sampleRequest := by
    refine ⟨_, _, _, .send (.other sampleRequest (.send (.send (.send (.done _ _))))), rfl, ?_⟩
    intro event member others
    rcases member with _ | ⟨_, _ | ⟨_, _ | ⟨_, _ | ⟨_, none⟩⟩⟩⟩
    · rfl
    · cases others
    · cases others
    · cases others
    · cases none
  obtain ⟨first, events, s', run, begins, others⟩ := exists_run
  have undisturbed : Undisturbed sampleStore none ["users"] events := by
    intro event member isOther
    rw [others event member isOther]
    exact sampleRequest_foreign event.before
  obtain ⟨restored, _⟩ := Adapter.failed_transaction_restores
    (fun _ _ _ => sampleStore_keys) run begins undisturbed
  exact ⟨first, events, s', run, undisturbed, restored "users" (List.mem_singleton.mpr rfl) _ rfl⟩

end Adapter

end DocStore
