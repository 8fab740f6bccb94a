/-
Module: DocStore.Proofs.Memory.Tenancy
Purpose: operations that stay in one database: whatever they are answered, all other
  databases are left as they are.
Main exports:
  Request.StaysIn, Store.Tenanted, Store.Tenanted.answer, Exchange.StaysIn,
  Exchange.staysIn_withTransaction, Exchange.StaysIn.database_eq
-/
import DocStore.Proofs.Memory.Transactions

namespace DocStore

/-!
A request changes the database that it is addressed to and no other, with one
exception: the abort of a transaction takes writes back in the database that the
transaction was begun in.  So an operation stays in a database if all its requests
are addressed there, and if it aborts only transactions that it has begun there
itself.
-/

/-- The request changes at most the given database, whatever the store holds: it is
addressed there and is no abort, or it does not write at all. -/
def Request.StaysIn (home database : String) (r : Request) : Prop :=
  ∀ route, Route.of? r = some route →
    (r.database.getD home = database ∧ ∀ id, route ≠ .abortTransaction id) ∨
      (route.change? r (r.body.getD .null) = none ∧ route.isTransactional = false ∧
        route.targets (r.body.getD .null) = [])

namespace Request

variable {home database : String} {r : Request}

/-- Only requests about transactions can be aborts. -/
theorem staysIn_of_head {head : String} {rest : List String}
    (cut : Text.splitAt '/' r.path = head :: rest) (other : head ≠ "transaction")
    (addressed : r.database.getD home = database) : r.StaysIn home database := by
  intro route routed
  refine Or.inl ⟨addressed, fun id is => ?_⟩
  subst is
  have shape := Route.of?_eq_some_iff.mp routed
  rw [cut] at shape
  simp [Route.shapes, other] at shape

theorem staysIn_at (resource : String) (path : r.path = resource) (plain : '/' ∉ resource.toList)
    (other : resource ≠ "transaction") (addressed : r.database.getD home = database) :
    r.StaysIn home database := by
  have cut : Text.splitAt '/' r.path = [resource] := by
    rw [path]
    exact Text.splitAt_of_notMem plain
  exact staysIn_of_head cut other addressed

theorem staysIn_below (resource rest : String) (path : r.path = resource ++ "/" ++ rest)
    (plain : '/' ∉ resource.toList) (other : resource ≠ "transaction")
    (addressed : r.database.getD home = database) : r.StaysIn home database := by
  have cut : Text.splitAt '/' r.path = resource :: Text.splitAt '/' rest := by
    rw [path]
    exact Route.segments_append resource rest plain
  exact staysIn_of_head cut other addressed

/-- A request that is attached to a transaction of the database stays addressed there. -/
theorem addressed_inTransaction {tenant : Option String} {t : Option Transaction}
    (within : ∀ handle ∈ t, handle.database = none ∨ handle.database = tenant)
    (addressed : r.database = tenant) : (r.inTransaction t).database = tenant := by
  cases t with
  | none => exact addressed
  | some handle =>
      change handle.database.or r.database = tenant
      rcases within handle rfl with none | same
      · rw [none, Option.none_or, addressed]
      · rw [same, addressed, Option.or_self]

/-- A request about one document, attached to a transaction or not. -/
theorem staysIn_document {tenant : Option String} {t : Option Transaction}
    {collection key : String} (path : r.path = "document/" ++ collection ++ "/" ++ key)
    (within : ∀ handle ∈ t, handle.database = none ∨ handle.database = tenant)
    (given : r.database = tenant) (addressed : tenant.getD home = database) :
    (r.inTransaction t).StaysIn home database := by
  have cut := Route.segments_document collection key
  rw [← path, ← path_inTransaction r t] at cut
  apply staysIn_of_head cut (by decide)
  rw [addressed_inTransaction within given]
  exact addressed

/-- All requests that read a query stay where the query is sent. -/
theorem asks_staysIn {tenant : Option String} {t : Option Transaction} {aql : String}
    {bindVars : Dict Json}
    (within : ∀ handle ∈ t, handle.database = none ∨ handle.database = tenant)
    (addressed : tenant.getD home = database) :
    (CursorRead.start tenant aql bindVars t).Asks (Request.StaysIn home database) := by
  have there : ∀ r : Request, ((r.withDatabase tenant).inTransaction t).database.getD home =
      database := by
    intro r
    rw [addressed_inTransaction within rfl]
    exact addressed
  constructor
  · exact staysIn_at "cursor" (path_inTransaction _ t) (by decide) (by decide) (there _)
  · intro id
    exact staysIn_below "cursor" id (path_inTransaction _ t) (by decide) (by decide) (there _)

end Request

namespace Store

/-! ### Other databases -/

theorem DocumentStep.database_eq {s s' : Store} {r : Request} {body : Json}
    {targets : List String} (step : DocumentStep s r body targets s') {other : String}
    (different : other ≠ s.databaseOf r) : s'.database other = s.database other := by
  cases step with
  | idle same => exact same.database_eq other
  | wrote w listed permitted stored fits same =>
      rw [same.database_eq]
      simp only [Store.database, databases_noteUndos]
      exact database_putDatabase_of_ne s _ different

/-- A request that is no abort changes no database but the one that it is addressed to. -/
theorem database_perform {s : Store} {r : Request} {body : Json} {route : Route}
    (noAbort : ∀ id, route ≠ .abortTransaction id) {other : String}
    (different : other ≠ s.databaseOf r) :
    (s.perform r body route).2.database other = s.database other := by
  cases changes : route.change? r body with
  | some change =>
      rw [perform_of_change changes]
      rcases serveChange_cases s (s.databaseOf r) change with ⟨_, failed⟩ | ⟨_, db, _, put⟩
      · rw [failed]
      · rw [put]
        exact database_putDatabase_of_ne s db different
  | none =>
      cases within : route.isTransactional with
      | false => exact (documentStep_perform changes within).database_eq different
      | true =>
          cases route with
          | beginTransaction => rfl
          | commitTransaction id =>
              change (s.commitTransaction id).2.database other = _
              unfold commitTransaction
              split <;> rfl
          | abortTransaction id => exact absurd rfl (noAbort id)
          | _ => cases within

/-- A transaction that is open after a request is one that was open in the same
database, or one that the request has begun. -/
theorem transaction_database_perform {s : Store} {r : Request} {body : Json} {route : Route}
    (noAbort : ∀ id, route ≠ .abortTransaction id) {id : String} {o : OpenTransaction}
    (found : (s.perform r body route).2.transactions.get? id = some o) :
    o.database = s.databaseOf r ∨
      ∃ before, s.transactions.get? id = some before ∧ o.database = before.database := by
  cases within : route.isTransactional with
  | false =>
      obtain ⟨noted, _, after⟩ := transaction_perform s r body within id
      rw [after] at found
      obtain ⟨before, was, rfl⟩ := Option.map_eq_some_iff.mp found
      exact Or.inr ⟨before, was, rfl⟩
  | true =>
      cases route with
      | beginTransaction =>
          change (s.transactions.insert (hexName (s.names + 1)) _).get? id = some o at found
          rw [Dict.get?_insert] at found
          split at found
          · cases found
            exact Or.inl rfl
          · exact Or.inr ⟨o, found, rfl⟩
      | commitTransaction ended =>
          change (s.commitTransaction ended).2.transactions.get? id = some o at found
          unfold commitTransaction at found
          split at found
          · exact Or.inr ⟨o, found, rfl⟩
          · simp only [Dict.get?_erase] at found
            split at found
            · cases found
            · exact Or.inr ⟨o, found, rfl⟩
      | abortTransaction ended => exact absurd rfl (noAbort ended)
      | _ => cases within

/-! ### The invariant -/

/-- The store has changed in the given database only, and the transactions of the
given names are there if they are open. -/
structure Tenanted (start : Store) (database : String) (ids : List String) (s : Store) : Prop where
  home_eq : s.home = start.home
  elsewhere : ∀ other, other ≠ database → s.database other = start.database other
  owned : ∀ id ∈ ids, ∀ o, s.transactions.get? id = some o → o.database = database

namespace Tenanted

variable {start s s' : Store} {database : String} {ids : List String}

theorem refl (s : Store) (database : String) : Tenanted s database [] s where
  home_eq := rfl
  elsewhere _ _ := rfl
  owned _ member := absurd member List.not_mem_nil

theorem mono {fewer : List String} (tenanted : Tenanted start database ids s)
    (sub : fewer ⊆ ids) : Tenanted start database fewer s :=
  { tenanted with owned := fun id member => tenanted.owned id (sub member) }

theorem of_same (tenanted : Tenanted start database ids s) (same : SameData s s') :
    Tenanted start database ids s' where
  home_eq := same.home_eq.trans tenanted.home_eq
  elsewhere other different := (same.database_eq other).trans (tenanted.elsewhere other different)
  owned := by
    rw [same.transactions_eq]
    exact tenanted.owned

theorem perform (tenanted : Tenanted start database ids s) {r : Request} {body : Json}
    {route : Route} (addressed : r.database.getD start.home = database)
    (noAbort : ∀ id, route ≠ .abortTransaction id) :
    Tenanted start database ids (s.perform r body route).2 := by
  have here : s.databaseOf r = database := by
    rw [databaseOf, tenanted.home_eq]
    exact addressed
  constructor
  · exact (onward_perform s r body route).home_eq.trans tenanted.home_eq
  · intro other different
    rw [database_perform noAbort (here ▸ different)]
    exact tenanted.elsewhere other different
  · intro id member o found
    rcases transaction_database_perform noAbort found with own | ⟨before, was, same⟩
    · exact own.trans here
    · exact same.trans (tenanted.owned id member before was)

/-- A request that stays in the database keeps the others as they are. -/
theorem answer (tenanted : Tenanted start database ids s) {r : Request}
    (stays : r.StaysIn start.home database) :
    Tenanted start database ids (Store.server.answer s r).2 := by
  have noted := tenanted.of_same (sameData_noteRequest s r)
  rcases answer_cases s r with ⟨_, refused⟩ | ⟨route, routed, _, answered⟩
  · rw [refused]
    exact noted
  · rw [answered]
    rcases stays route routed with ⟨addressed, noAbort⟩ | ⟨noChange, within, untargeted⟩
    · exact noted.perform addressed noAbort
    · have step := documentStep_perform (s := s.noteRequest r) noChange within
      rw [untargeted] at step
      exact noted.of_same step.same_of_nil

/-! ### Transactions of its own -/

theorem begun (tenanted : Tenanted start database ids s) {tenant : Option String}
    (addressed : tenant.getD start.home = database) (write : List String) :
    Tenanted start database ((Transaction.next s tenant).id :: ids)
      (s.begun (Transaction.beginRequest tenant write []) write) := by
  have here : s.databaseOf (Transaction.beginRequest tenant write []) = database := by
    rw [databaseOf, tenanted.home_eq]
    exact addressed
  refine ⟨tenanted.home_eq, tenanted.elsewhere, fun id member o found => ?_⟩
  change (s.transactions.insert (hexName (s.names + 1)) _).get? id = some o at found
  rw [Dict.get?_insert] at found
  split at found
  · cases found
    exact here
  · next other =>
      rcases List.mem_cons.mp member with same | old
      · exact absurd same other
      · exact tenanted.owned id old o found

/-- The abort of an own transaction, whether it is still open or not. -/
theorem answer_abort (tenanted : Tenanted start database ids s) {t : Transaction}
    (plain : '/' ∉ t.id.toList) (own : t.id ∈ ids) :
    Tenanted start database ids (Store.server.answer s t.abortRequest).2 := by
  have noted := tenanted.of_same (sameData_noteRequest s t.abortRequest)
  rcases answer_cases s t.abortRequest with ⟨_, refused⟩ | ⟨route, routed, _, answered⟩
  · rw [refused]
    exact noted
  · rw [Transaction.route_abortRequest plain, Option.some.injEq] at routed
    subst routed
    rw [answered]
    change Tenanted start database ids ((s.noteRequest t.abortRequest).abortTransaction t.id).2
    unfold abortTransaction
    split
    · exact noted
    · next o found =>
        have here := noted.owned t.id own o found
        refine ⟨noted.home_eq, fun other different => ?_, fun id member p stillOpen => ?_⟩
        · rw [← noted.elsewhere other different]
          exact database_putDatabase_of_ne _ _ (here ▸ different)
        · change ((s.noteRequest t.abortRequest).transactions.erase t.id).get? id = some p
            at stillOpen
          rw [Dict.get?_erase] at stillOpen
          split at stillOpen
          · cases stillOpen
          · exact noted.owned id member p stillOpen

end Tenanted

end Store

/-! ### Operations -/

namespace Exchange

open Store

variable {α β : Type} {home database : String}

/-- What a first part and then every second part keep, the sequence keeps. -/
theorem state_bind {σ : Type} {server : Server σ} {I : σ → Prop} {s : σ} {x : Exchange α}
    {f : α → Exchange β} (first : I (x.runOn server s).state)
    (second : ∀ a, I ((f a).runOn server (x.runOn server s).state).state) :
    I ((x >>= f).runOn server s).state := by
  rw [runOn_bind]
  cases (x.runOn server s).outcome with
  | ok a => exact second a
  | error e => exact first

/-- The operation stays in a database: however it is answered, it leaves all others as
they are, and no transaction moves there. -/
def StaysIn (home database : String) (x : Exchange α) : Prop :=
  ∀ (start s : Store) (ids : List String), start.home = home →
    Tenanted start database ids s → Tenanted start database ids (x.runOn Store.server s).state

theorem staysIn_of_asks {x : Exchange α} (asks : x.Asks (Request.StaysIn home database)) :
    x.StaysIn home database := by
  rintro start s ids rfl tenanted
  exact asks.keeps (fun _ _ kept stays => kept.answer stays) tenanted

theorem staysIn_done (outcome : Except Error α) :
    (Exchange.done outcome).StaysIn home database :=
  fun _ _ _ _ tenanted => tenanted

theorem staysIn_bind {x : Exchange α} {f : α → Exchange β} (first : x.StaysIn home database)
    (second : ∀ a, (f a).StaysIn home database) : (x >>= f).StaysIn home database := by
  intro start s ids atHome tenanted
  have reached := first start s ids atHome tenanted
  exact state_bind reached fun a => second a start _ ids atHome reached

theorem staysIn_attempt {x : Exchange α} (stays : x.StaysIn home database) :
    x.attempt.StaysIn home database := by
  intro start s ids atHome tenanted
  rw [runOn_attempt]
  exact stays start s ids atHome tenanted

/-- An operation that goes on after an attempt, whatever its outcome. -/
theorem staysIn_attempt_bind {x : Exchange α} {f : Except Error α → Exchange β}
    (first : x.StaysIn home database) (second : ∀ outcome, (f outcome).StaysIn home database) :
    (x.attempt >>= f).StaysIn home database :=
  staysIn_bind (staysIn_attempt first) second

/-! ### Transactions -/

/-- The end of an own transaction, after any outcome. -/
theorem tenanted_finish {start s : Store} {ids : List String} {t : Transaction}
    (plain : '/' ∉ t.id.toList) (addressed : t.database.getD start.home = database)
    (own : t.id ∈ ids) (outcome : Except Error α) (tenanted : Tenanted start database ids s) :
    Tenanted start database ids ((t.finish outcome).runOn Store.server s).state := by
  cases outcome with
  | ok value =>
      have commits : t.commit.Asks (Request.StaysIn start.home database) := by
        apply asks_command
        intro route routed
        rw [← Transaction.commitRequest, Transaction.route_commitRequest plain] at routed
        cases routed
        exact Or.inl ⟨addressed, nofun⟩
      have ended := staysIn_of_asks commits start s ids rfl tenanted
      exact state_bind ended fun _ => ended
  | error e =>
      have aborted : Tenanted start database ids (t.abort.attempt.runOn Store.server s).state := by
        rw [runOn_attempt]
        exact tenanted.answer_abort plain own
      refine state_bind aborted fun outcome => ?_
      cases outcome with
      | ok => exact aborted
      | error _ => exact aborted

/-- An operation in a transaction of its own stays in a database if the transaction is
begun there, and what is done in it stays there. -/
theorem staysIn_withTransaction {tenant : Option String} {operation : Transaction → Exchange α}
    (addressed : tenant.getD home = database)
    (inside : ∀ t, t.database = tenant → (operation t).StaysIn home database)
    (write : List String) : (withTransaction tenant write operation).StaysIn home database := by
  rintro start s ids rfl tenanted
  obtain ⟨t, s₁, ⟨value, state⟩, within, plain, begun⟩ : ∃ t s₁,
      (Transaction.begin tenant write []).Ends Store.server s (.ok t) s₁ ∧ t.database = tenant ∧
        '/' ∉ t.id.toList ∧ Tenanted start database (t.id :: ids) s₁ :=
    ⟨_, _, Transaction.ends_begin s tenant write [], rfl, slash_notMem_hexName _,
      tenanted.begun addressed write⟩
  have done := staysIn_attempt (inside t within) start s₁ (t.id :: ids) rfl begun
  have ran : Tenanted start database (t.id :: ids)
      ((withTransaction tenant write operation).runOn Store.server s).state := by
    rw [withTransaction, runOn_bind, value, state]
    exact state_bind done fun outcome =>
      tenanted_finish plain (within ▸ addressed) List.mem_cons_self outcome done
  exact ran.mono fun _ member => List.mem_cons_of_mem _ member

/-- What stays in a database leaves all others as they are. -/
theorem StaysIn.database_eq {x : Exchange α} {s : Store} (stays : x.StaysIn s.home database)
    {other : String} (different : other ≠ database) :
    (x.runOn Store.server s).state.database other = s.database other :=
  (stays s s [] rfl (Tenanted.refl s database)).elsewhere other different

end Exchange

end DocStore
