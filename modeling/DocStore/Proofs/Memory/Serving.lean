/-
Module: DocStore.Proofs.Memory.Serving
Purpose: how the store in memory answers a request once its route is known, and the parts
  of the store that bookkeeping leaves alone.
Main exports:
  Response.result_refusal, Response.result_answered, Store.SameData, Store.answer_of_route,
  Store.ends_command_refused, Store.ends_command_answered, Store.Opened
-/
import DocStore.Memory.Store
import DocStore.Proofs.Exchange.Run

namespace DocStore

namespace Response

theorem result_refusal (f : Refusal) :
    f.response.result = .error (.store f.status f.number f.message) := by
  have fits : f.number ≤ Text.signedLimit := by
    cases f <;> simp [Refusal.number, StoreError.documentNotFound, StoreError.dataSourceNotFound,
      StoreError.duplicateName, StoreError.uniqueConstraintViolated, StoreError.indexNotFound,
      Text.signedLimit]
  rw [result, f.isSuccess_response]
  simp [Refusal.response, Json.field, Json.get?, Dict.get?, Dict.lookupEntry, Json.int,
    Json.signed?, Json.text?, fits]

/-- A response with the status of a success whose body reports no error. -/
theorem result_answered {status : Nat} {body : Json} (success : 200 ≤ status ∧ status < 300)
    (clean : (body.field "error").bool? ≠ some true) :
    (answered status body).result = .ok body := by
  have succeeds : (answered status body).isSuccess = true := by
    simp [isSuccess, answered, success, clean]
  rw [result, succeeds]
  rfl

/-- An answer with a single member that is not about errors. -/
theorem result_single {status : Nat} {key : String} (value : Json)
    (success : 200 ≤ status ∧ status < 300) (other : "error" ≠ key) :
    (answered status (.obj ⟨[(key, value)]⟩)).result = .ok (.obj ⟨[(key, value)]⟩) := by
  apply result_answered success
  simp [Json.field, Json.get?, Dict.get?, Dict.lookupEntry, other, Json.bool?]

/-- The value of a successful response is its body. -/
theorem result_eq_ok {response : Response} {body : Json} (ok : response.result = .ok body) :
    response.isSuccess = true ∧ body = response.body := by
  unfold result at ok
  split at ok
  · next success => exact ⟨success, (Except.ok.inj ok).symm⟩
  · cases ok

end Response

namespace Request

variable (r : Request) (t : Option Transaction)

@[simp] theorem method_inTransaction : (r.inTransaction t).method = r.method := by
  cases t <;> rfl

@[simp] theorem path_inTransaction : (r.inTransaction t).path = r.path := by
  cases t <;> rfl

@[simp] theorem body_inTransaction : (r.inTransaction t).body = r.body := by
  cases t <;> rfl

theorem transaction_inTransaction (outside : r.transaction = none) :
    (r.inTransaction t).transaction = t.map (·.id) := by
  cases t with
  | none => exact outside
  | some handle => rfl

/-- A transaction of the same database does not change where a request goes. -/
theorem database_inTransaction (within : ∀ handle ∈ t, handle.database = r.database) :
    (r.inTransaction t).database = r.database := by
  cases t with
  | none => rfl
  | some handle =>
      change handle.database.or r.database = r.database
      rw [within handle rfl]
      exact Option.or_self

end Request

namespace Store

/-- The second store differs from the first at most in its cursors, in what it has
noted, and in further names and revisions that it has given. -/
structure SameData (s s' : Store) : Prop where
  home_eq : s'.home = s.home
  batchSize_eq : s'.batchSize = s.batchSize
  databases_eq : s'.databases = s.databases
  transactions_eq : s'.transactions = s.transactions
  names_le : s.names ≤ s'.names

namespace SameData

theorem refl (s : Store) : SameData s s := ⟨rfl, rfl, rfl, rfl, Nat.le_refl _⟩

theorem trans {s₁ s₂ s₃ : Store} (first : SameData s₁ s₂) (second : SameData s₂ s₃) :
    SameData s₁ s₃ :=
  ⟨second.home_eq.trans first.home_eq, second.batchSize_eq.trans first.batchSize_eq,
    second.databases_eq.trans first.databases_eq,
    second.transactions_eq.trans first.transactions_eq, Nat.le_trans first.names_le second.names_le⟩

theorem database_eq {s s' : Store} (same : SameData s s') (name : String) :
    s'.database name = s.database name := by
  simp [Store.database, same.databases_eq]

theorem databaseOf_eq {s s' : Store} (same : SameData s s') (r : Request) :
    s'.databaseOf r = s.databaseOf r := by
  simp [Store.databaseOf, same.home_eq]

theorem knowsTransaction_eq {s s' : Store} (same : SameData s s') (r : Request) :
    s'.knowsTransaction r = s.knowsTransaction r := by
  simp [Store.knowsTransaction, same.transactions_eq]

theorem permitWrite_eq {s s' : Store} (same : SameData s s') (r : Request) (collection : String) :
    s'.permitWrite r collection = s.permitWrite r collection := by
  simp [Store.permitWrite, same.transactions_eq]

end SameData

theorem sameData_noteRequest (s : Store) (r : Request) : SameData s (s.noteRequest r) :=
  ⟨rfl, rfl, rfl, rfl, Nat.le_refl _⟩

theorem sameData_takeName (s : Store) : SameData s s.takeName.2 :=
  ⟨rfl, rfl, rfl, rfl, Nat.le_succ _⟩

theorem sameData_takeRevision (s : Store) : SameData s s.takeRevision.2 :=
  ⟨rfl, rfl, rfl, rfl, Nat.le_refl _⟩

/-! ### Databases of a store -/

@[simp] theorem database_putDatabase_self (s : Store) (name : String) (db : Database) :
    (s.putDatabase name db).database name = db := by
  simp [database, putDatabase]

theorem database_putDatabase_of_ne (s : Store) {name other : String} (db : Database)
    (different : other ≠ name) : (s.putDatabase name db).database other = s.database other := by
  simp [database, putDatabase, Dict.get?_insert_of_ne _ _ different]

/-! ### Serving -/

theorem serve_of_route {s : Store} {r : Request} {route : Route}
    (known : s.knowsTransaction r = .ok ()) (routed : Route.of? r = some route) :
    s.serve r = s.perform r (r.body.getD .null) route := by
  simp [serve, known, routed]

/-- The answer to a request with a route, outside of transactions or in an open
one. -/
theorem answer_of_route {s : Store} {r : Request} {route : Route}
    (known : s.knowsTransaction r = .ok ()) (routed : Route.of? r = some route) :
    Store.server.answer s r =
      (.answered (responseTo ((s.noteRequest r).perform r (r.body.getD .null) route).1),
        ((s.noteRequest r).perform r (r.body.getD .null) route).2) := by
  have noted : (s.noteRequest r).knowsTransaction r = .ok () :=
    ((sameData_noteRequest s r).knowsTransaction_eq r).trans known
  change answer s r = _
  rw [answer, serve_of_route noted routed]

/-- The answer to a request of a transaction that the store does not know. -/
theorem answer_of_unknown {s : Store} {r : Request} {refusal : Refusal}
    (unknown : s.knowsTransaction r = .error refusal) :
    Store.server.answer s r = (.answered refusal.response, s.noteRequest r) := by
  have noted : (s.noteRequest r).knowsTransaction r = .error refusal :=
    ((sameData_noteRequest s r).knowsTransaction_eq r).trans unknown
  change answer s r = _
  simp only [answer, serve, noted]
  rfl

/-- A command that is refused ends with the error of the refusal. -/
theorem ends_command_refused {s s' : Store} {r : Request} {refusal : Refusal}
    (refused : Store.server.answer s r = (.answered refusal.response, s')) :
    (Exchange.command r).Ends Store.server s
      (.error (.store refusal.status refusal.number refusal.message)) s' := by
  rw [Exchange.ends_command_iff, refused]
  refine ⟨?_, rfl⟩
  change _ = Except.map _ refusal.response.result
  rw [Response.result_refusal]
  rfl

/-- A command that is answered with a success ends well. -/
theorem ends_command_answered {s s' : Store} {r : Request} {response : Response} {body : Json}
    (answers : Store.server.answer s r = (.answered response, s'))
    (success : response.result = .ok body) :
    (Exchange.command r).Ends Store.server s (.ok ()) s' := by
  rw [Exchange.ends_command_iff, answers]
  refine ⟨?_, rfl⟩
  change _ = Except.map _ response.result
  rw [success]
  rfl

theorem knowsTransaction_none {s : Store} {r : Request} (outside : r.transaction = none) :
    s.knowsTransaction r = .ok () := by
  simp [knowsTransaction, outside]

/-- Whether the transaction of a handle, if there is one, is open. -/
def Opened (s : Store) (t : Option Transaction) : Prop :=
  ∀ handle ∈ t, s.transactions.contains handle.id = true

theorem Opened.knows {s : Store} {t : Option Transaction} (opened : s.Opened t) {r : Request}
    (inside : r.transaction = t.map (·.id)) : s.knowsTransaction r = .ok () := by
  cases t with
  | none => exact knowsTransaction_none inside
  | some handle =>
      have isOpen := opened handle rfl
      rw [Option.map_some] at inside
      simp [knowsTransaction, inside, isOpen]

theorem Opened.of_sameData {s s' : Store} {t : Option Transaction} (opened : s.Opened t)
    (same : SameData s s') : s'.Opened t := fun handle member => by
  rw [same.transactions_eq]
  exact opened handle member

theorem opened_none (s : Store) : s.Opened none := fun _ member => by cases member

/-- A request that is served belongs to no transaction or to an open one. -/
theorem opened_of_knows {s : Store} {r : Request} {t : Option Transaction}
    (inside : r.transaction = t.map (·.id)) (known : s.knowsTransaction r = .ok ()) :
    s.Opened t := by
  intro handle member
  cases member
  rw [Option.map_some] at inside
  simp only [knowsTransaction, inside] at known
  split at known
  · next isOpen => exact isOpen
  · cases known

/-- The database that a request goes to: that of its transaction, the one that it is
addressed to, or the home database. -/
def target (s : Store) (database : Option String) (t : Option Transaction) : String :=
  ((t.bind (·.database)).or database).getD s.home

theorem databaseOf_inTransaction (s : Store) (r : Request) (t : Option Transaction) :
    s.databaseOf (r.inTransaction t) = s.target r.database t := by
  cases t <;> rfl

end Store

end DocStore
