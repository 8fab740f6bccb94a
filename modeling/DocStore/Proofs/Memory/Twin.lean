/-
Module: DocStore.Proofs.Memory.Twin
Purpose: stores that an operation cannot tell apart: they hold the same, but gave other names
  and noted other requests; and operations that do the same in such stores, each in a
  transaction of its own.
Main exports:
  Store.Twin, Request.Twin, Store.Twin.insertDocument, Store.Twin.removeDocument,
  Store.Twin.runQuery, Exchange.Twins, Exchange.twins_of_asks, Exchange.twins_runCursor,
  Exchange.twins_withTransaction
-/
import DocStore.Proofs.Memory.Definitions
import DocStore.Proofs.Memory.Transactions

namespace DocStore

/-! ### Requests -/

/-- Two requests that differ at most in the transaction that they belong to. -/
structure Request.Twin (h h' : Option Transaction) (r r' : Request) : Prop where
  method_eq : r'.method = r.method
  path_eq : r'.path = r.path
  body_eq : r'.body = r.body
  database_eq : r'.database = r.database
  inside : r.transaction = h.map (·.id)
  insideAlso : r'.transaction = h'.map (·.id)

namespace Request

variable {h h' : Option Transaction}

/-- A request is put into either of two transactions of one database. -/
theorem twin_inTransaction (paired : h'.map (·.database) = h.map (·.database)) {r : Request}
    (outside : r.transaction = none) : Twin h h' (r.inTransaction h) (r.inTransaction h') where
  method_eq := by rw [method_inTransaction, method_inTransaction]
  path_eq := by rw [path_inTransaction, path_inTransaction]
  body_eq := by rw [body_inTransaction, body_inTransaction]
  database_eq := by
    cases h with
    | none =>
        cases h' with
        | none => rfl
        | some other => cases paired
    | some one =>
        cases h' with
        | none => cases paired
        | some other =>
            have same : other.database = one.database := Option.some.inj paired
            change other.database.or r.database = one.database.or r.database
            rw [same]
  inside := transaction_inTransaction _ _ outside
  insideAlso := transaction_inTransaction _ _ outside

theorem Twin.route_eq {r r' : Request} (requests : Twin h h' r r') :
    Route.of? r' = Route.of? r := by
  rw [Route.of?, Route.of?, requests.method_eq, requests.path_eq]

end Request

namespace Store

/-- The open transaction of a handle, if there is one. -/
def openedBy (s : Store) (h : Option Transaction) : Option OpenTransaction :=
  h.bind fun t => s.transactions.get? t.id

/-- Two stores, each seen from a transaction of its own or from outside of all: they hold the
same, and the transactions may write the same and have the same notes. -/
structure Twin (h h' : Option Transaction) (s t : Store) : Prop where
  home_eq : t.home = s.home
  batchSize_eq : t.batchSize = s.batchSize
  batch : 0 < s.batchSize
  databases_eq : t.databases = s.databases
  revisions_eq : t.revisions = s.revisions
  paired : h'.map (·.database) = h.map (·.database)
  openedBy_eq : t.openedBy h' = s.openedBy h
  isOpen : s.Opened h
  isOpenAlso : t.Opened h'

/-- What serving requests of twin stores leads to: the same outcome, and twin stores. -/
def TwinServed {α : Type} (h h' : Option Transaction) (one other : Served α) : Prop :=
  other.1 = one.1 ∧ Twin h h' one.2 other.2

theorem opened_of_openedBy {s s₁ : Store} {h : Option Transaction} (opened : s.Opened h)
    (kept : (s₁.openedBy h).isSome = (s.openedBy h).isSome) : s₁.Opened h := by
  rintro handle ⟨⟩
  have before := opened handle rfl
  rw [Dict.contains_eq] at before ⊢
  exact kept.trans before

/-- What a request may write is up to the transaction that it belongs to. -/
theorem permitWrite_eq_openedBy (s : Store) {r : Request} {h : Option Transaction}
    (inside : r.transaction = h.map (·.id)) (collection : String) :
    s.permitWrite r collection =
      match s.openedBy h with
      | none => .ok ()
      | some o =>
          if o.write.contains collection then .ok () else .error (.undeclared collection) := by
  unfold permitWrite
  rw [inside]
  cases h <;> rfl

theorem openedBy_noteUndos (s : Store) {r : Request} {h : Option Transaction}
    (inside : r.transaction = h.map (·.id)) (undos : List Undo) :
    (s.noteUndos r undos).openedBy h =
      (s.openedBy h).map fun o => { o with undo := undos.reverse ++ o.undo } := by
  cases h with
  | none => rfl
  | some handle =>
      change (s.noteUndos r undos).transactions.get? handle.id = _
      rw [transaction_noteUndos, inside, Option.map_some, if_pos rfl]
      rfl

theorem revisions_noteUndos (s : Store) (r : Request) (undos : List Undo) :
    (s.noteUndos r undos).revisions = s.revisions := by
  rw [noteUndos_eq]

namespace Twin

variable {h h' : Option Transaction} {s t : Store} {r r' : Request}

theorem refl_none {s : Store} (batch : 0 < s.batchSize) : Twin none none s s where
  home_eq := rfl
  batchSize_eq := rfl
  batch := batch
  databases_eq := rfl
  revisions_eq := rfl
  paired := rfl
  openedBy_eq := rfl
  isOpen := s.opened_none
  isOpenAlso := s.opened_none

/-- Stores that differ from twin stores in names, cursors and notes only are twins. -/
theorem of_same (twin : Twin h h' s t) {s₁ t₁ : Store} (same : SameData s s₁)
    (sameAlso : SameData t t₁) (revisions : t₁.revisions = s₁.revisions) : Twin h h' s₁ t₁ where
  home_eq := by rw [sameAlso.home_eq, twin.home_eq, same.home_eq]
  batchSize_eq := by rw [sameAlso.batchSize_eq, twin.batchSize_eq, same.batchSize_eq]
  batch := same.batchSize_eq ▸ twin.batch
  databases_eq := by rw [sameAlso.databases_eq, twin.databases_eq, same.databases_eq]
  revisions_eq := revisions
  paired := twin.paired
  openedBy_eq := by
    have kept := twin.openedBy_eq
    simp only [openedBy, sameAlso.transactions_eq, same.transactions_eq] at kept ⊢
    exact kept
  isOpen := twin.isOpen.of_sameData same
  isOpenAlso := twin.isOpenAlso.of_sameData sameAlso

theorem noteRequest (twin : Twin h h' s t) (r r' : Request) :
    Twin h h' (s.noteRequest r) (t.noteRequest r') :=
  twin.of_same (sameData_noteRequest s r) (sameData_noteRequest t r') twin.revisions_eq

theorem database_eq (twin : Twin h h' s t) (name : String) : t.database name = s.database name := by
  rw [Store.database, twin.databases_eq, Store.database]

theorem databaseOf_eq (twin : Twin h h' s t) (database : r'.database = r.database) :
    t.databaseOf r' = s.databaseOf r := by
  rw [databaseOf, twin.home_eq, database, databaseOf]

theorem permitWrite_eq (twin : Twin h h' s t) (requests : Request.Twin h h' r r')
    (collection : String) : t.permitWrite r' collection = s.permitWrite r collection := by
  rw [permitWrite_eq_openedBy t requests.insideAlso, twin.openedBy_eq,
    permitWrite_eq_openedBy s requests.inside]

theorem takeRevision (twin : Twin h h' s t) :
    t.takeRevision.1 = s.takeRevision.1 ∧ Twin h h' s.takeRevision.2 t.takeRevision.2 := by
  refine ⟨?_, twin.of_same (sameData_takeRevision s) (sameData_takeRevision t) ?_⟩
  · simp only [Store.takeRevision, twin.revisions_eq]
  · simp only [Store.takeRevision, twin.revisions_eq]

theorem putDatabase (twin : Twin h h' s t) (name : String) (db : Database) :
    Twin h h' (s.putDatabase name db) (t.putDatabase name db) :=
  { twin with databases_eq := by simp only [Store.putDatabase, twin.databases_eq] }

theorem putCollection (twin : Twin h h' s t) (database name : String) (c : StoredCollection) :
    Twin h h' (s.putCollection database name c) (t.putCollection database name c) := by
  rw [Store.putCollection, Store.putCollection, twin.database_eq]
  exact twin.putDatabase _ _

theorem noteUndos (twin : Twin h h' s t) (requests : Request.Twin h h' r r')
    (undos : List Undo) : Twin h h' (s.noteUndos r undos) (t.noteUndos r' undos) where
  home_eq := by
    rw [(onward_noteUndos t r' undos).home_eq, twin.home_eq, (onward_noteUndos s r undos).home_eq]
  batchSize_eq := by
    rw [(onward_noteUndos t r' undos).batchSize_eq, twin.batchSize_eq,
      (onward_noteUndos s r undos).batchSize_eq]
  batch := (onward_noteUndos s r undos).batchSize_eq ▸ twin.batch
  databases_eq := by rw [databases_noteUndos, databases_noteUndos, twin.databases_eq]
  revisions_eq := by rw [revisions_noteUndos, revisions_noteUndos, twin.revisions_eq]
  paired := twin.paired
  openedBy_eq := by
    rw [openedBy_noteUndos t requests.insideAlso, openedBy_noteUndos s requests.inside,
      twin.openedBy_eq]
  isOpen := opened_of_openedBy twin.isOpen
    (by rw [openedBy_noteUndos s requests.inside, Option.isSome_map])
  isOpenAlso := opened_of_openedBy twin.isOpenAlso
    (by rw [openedBy_noteUndos t requests.insideAlso, Option.isSome_map])

/-! ### Documents -/

theorem showDocument (twin : Twin h h' s t) (database : r'.database = r.database)
    (collection key : String) :
    TwinServed h h' (s.showDocument r collection key) (t.showDocument r' collection key) := by
  unfold Store.showDocument findDocument
  rw [twin.databaseOf_eq database, twin.database_eq]
  split <;> exact ⟨rfl, twin⟩

/-- A document with a key of its own is inserted alike. -/
theorem insertDocument (twin : Twin h h' s t) (requests : Request.Twin h h' r r')
    (collection : String) {fields : Dict Json} {key : String}
    (keyed : Document.value fields "_key" = .str key) :
    TwinServed h h' (s.insertDocument r collection (.obj fields))
      (t.insertDocument r' collection (.obj fields)) := by
  obtain ⟨revision, taken⟩ := twin.takeRevision
  have given : ∀ u : Store, u.keyFor fields = (key, u) := by
    intro u
    rw [keyFor, keyed]
    rfl
  simp only [Store.insertDocument, Database.objectBody, twin.permitWrite_eq requests,
    twin.databaseOf_eq requests.database_eq, taken.database_eq, revision]
  cases s.permitWrite r collection with
  | error refusal => exact ⟨rfl, twin⟩
  | ok =>
      dsimp only
      cases (s.takeRevision.2.database (s.databaseOf r)).collection collection with
      | error refusal => exact ⟨rfl, taken⟩
      | ok c =>
          simp only [given]
          cases c.insertDocument collection key s.takeRevision.1 fields with
          | error refusal => exact ⟨rfl, taken⟩
          | ok inserted =>
              exact ⟨rfl, (taken.putCollection _ _ _).noteUndos requests
                [.remove collection key]⟩

theorem removeDocument (twin : Twin h h' s t) (requests : Request.Twin h h' r r')
    (collection key : String) :
    TwinServed h h' (s.removeDocument r collection key) (t.removeDocument r' collection key) := by
  simp only [Store.removeDocument, findDocument, twin.permitWrite_eq requests,
    twin.databaseOf_eq requests.database_eq, twin.database_eq]
  split
  · exact ⟨rfl, twin⟩
  · split
    · exact ⟨rfl, twin⟩
    · next old _ =>
        exact ⟨rfl, (twin.putCollection _ _ _).noteUndos requests [.restore collection old]⟩

/-! ### Queries -/

theorem runStatement (twin : Twin h h' s t) (requests : Request.Twin h h' r r') (aql : String)
    (q : Statement) :
    TwinServed h h' (s.runStatement r aql q) (t.runStatement r' aql q) := by
  simp only [Store.runStatement, twin.permitWrite_eq requests,
    twin.databaseOf_eq requests.database_eq, twin.database_eq]
  split
  · exact ⟨rfl, twin⟩
  · exact ⟨rfl, twin⟩
  · next c _ _ =>
      cases q.effect with
      | reading => exact ⟨rfl, twin⟩
      | update => exact ⟨rfl, twin⟩
      | removal =>
          refine ⟨rfl, ?_⟩
          dsimp only
          rw [removeFound_eq, removeFound_eq, twin.databaseOf_eq requests.database_eq]
          exact (twin.putCollection _ _ _).noteUndos requests _

theorem runQuery (twin : Twin h h' s t) (requests : Request.Twin h h' r r') (aql : String)
    (bindVars : Dict Json) :
    TwinServed h h' (s.runQuery r aql bindVars) (t.runQuery r' aql bindVars) := by
  unfold Store.runQuery
  split
  · exact ⟨rfl, twin⟩
  · exact twin.runStatement requests aql _

/-! ### Transactions -/

theorem begun {s t : Store} (twin : Twin none none s t) (database : Option String)
    (write : List String) :
    Twin (some (Transaction.next s database)) (some (Transaction.next t database))
      (s.begun (Transaction.beginRequest database write []) write)
      (t.begun (Transaction.beginRequest database write []) write) where
  home_eq := twin.home_eq
  batchSize_eq := twin.batchSize_eq
  batch := twin.batch
  databases_eq := twin.databases_eq
  revisions_eq := twin.revisions_eq
  paired := rfl
  openedBy_eq := by
    simp only [openedBy, Option.bind_some, Store.begun, Transaction.next, Dict.get?_insert_self,
      twin.databaseOf_eq rfl]
  isOpen := by
    rintro handle ⟨⟩
    rw [Dict.contains_eq, Store.begun, Transaction.next, Dict.get?_insert_self]
    rfl
  isOpenAlso := by
    rintro handle ⟨⟩
    rw [Dict.contains_eq, Store.begun, Transaction.next, Dict.get?_insert_self]
    rfl

theorem committed (twin : Twin h h' s t) (r r' : Request) (id id' : String) :
    Twin none none (s.committed r id) (t.committed r' id') where
  home_eq := twin.home_eq
  batchSize_eq := twin.batchSize_eq
  batch := twin.batch
  databases_eq := twin.databases_eq
  revisions_eq := twin.revisions_eq
  paired := rfl
  openedBy_eq := rfl
  isOpen := opened_none _
  isOpenAlso := opened_none _

theorem aborted (twin : Twin h h' s t) (r r' : Request) (id id' : String) (o : OpenTransaction) :
    Twin none none (s.aborted r id o) (t.aborted r' id' o) where
  home_eq := twin.home_eq
  batchSize_eq := twin.batchSize_eq
  batch := twin.batch
  databases_eq := by
    simp only [Store.aborted, Store.putDatabase, Store.noteRequest, twin.databases_eq,
      twin.database_eq]
  revisions_eq := twin.revisions_eq
  paired := rfl
  openedBy_eq := rfl
  isOpen := opened_none _
  isOpenAlso := opened_none _

end Twin

/-! ### Answers -/

/-- Requests for one route that are served alike are answered alike. -/
theorem Twin.answer {h h' : Option Transaction} {s t : Store} {r r' : Request} {route : Route}
    (twin : Twin h h' s t) (requests : Request.Twin h h' r r') (routed : Route.of? r = some route)
    (served : Twin h h' (s.noteRequest r) (t.noteRequest r') →
      TwinServed h h' ((s.noteRequest r).perform r (r.body.getD .null) route)
        ((t.noteRequest r').perform r' (r.body.getD .null) route)) :
    (Store.server.answer t r').1 = (Store.server.answer s r).1 ∧
      Twin h h' (Store.server.answer s r).2 (Store.server.answer t r').2 := by
  obtain ⟨same, after⟩ := served (twin.noteRequest r r')
  rw [answer_of_route (twin.isOpen.knows requests.inside) routed,
    answer_of_route (twin.isOpenAlso.knows requests.insideAlso)
      (requests.route_eq.trans routed), requests.body_eq, same]
  exact ⟨rfl, after⟩

end Store

/-- Whether a request concerns definitions, or shows a document, outside of transactions. -/
def Request.Definitional (r : Request) : Prop :=
  r.transaction = none ∧ ∀ route, Route.of? r = some route →
    (∃ change, route.change? r (r.body.getD .null) = some change) ∨
      ∃ collection key, route = .showDocument collection key

theorem Store.Twin.answer_definitional {h h' : Option Transaction} {s t : Store} {r : Request}
    (twin : Store.Twin h h' s t) (definitional : r.Definitional) :
    (Store.server.answer t r).1 = (Store.server.answer s r).1 ∧
      Store.Twin h h' (Store.server.answer s r).2 (Store.server.answer t r).2 := by
  obtain ⟨outside, concerns⟩ := definitional
  have noted := twin.noteRequest r r
  cases routed : Route.of? r with
  | none =>
      rw [Store.answer_of_noRoute outside routed, Store.answer_of_noRoute outside routed]
      exact ⟨rfl, noted⟩
  | some route =>
      rw [Store.answer_of_route (Store.knowsTransaction_none outside) routed,
        Store.answer_of_route (Store.knowsTransaction_none outside) routed]
      rcases concerns route routed with ⟨change, is⟩ | ⟨collection, key, rfl⟩
      · rw [Store.perform_of_change is, Store.perform_of_change is, Store.serveChange,
          Store.serveChange, noted.databaseOf_eq rfl, noted.database_eq]
        split
        · exact ⟨rfl, noted.putDatabase _ _⟩
        · exact ⟨rfl, noted⟩
      · obtain ⟨same, after⟩ := noted.showDocument (r := r) rfl collection key
        rw [Store.perform, Store.perform, same]
        exact ⟨rfl, after⟩

/-! ### Revisions -/

/-- Whether a request for the route gives a revision. -/
def Route.revises : Route → Bool
  | insertDocument _ => true
  | changeDocument .. => true
  | _ => false

namespace Store

theorem revisions_page (s : Store) (rows : List Json) (batch : Nat) :
    (s.page rows batch).2.revisions = s.revisions := by
  unfold page
  split <;> rfl

theorem revisions_runQuery (s : Store) (r : Request) (aql : String) (bindVars : Dict Json) :
    (s.runQuery r aql bindVars).2.revisions = s.revisions := by
  unfold runQuery
  split
  · rfl
  · next q _ =>
      cases effect : q.effect with
      | removal =>
          simp only [runStatement, effect, if_true]
          split
          · rfl
          · rfl
          · rw [removeFound_eq, revisions_noteUndos]
            rfl
      | _ =>
          simp only [runStatement, effect]
          split <;> rfl

theorem revisions_perform (s : Store) (r : Request) (body : Json) {route : Route}
    (unrevised : route.revises = false) : (s.perform r body route).2.revisions = s.revisions := by
  cases changes : route.change? r body with
  | some change =>
      rw [perform_of_change changes]
      rcases serveChange_cases s (s.databaseOf r) change with ⟨_, failed⟩ | ⟨_, _, _, put⟩
      · rw [failed]
      · rw [put]
        rfl
  | none =>
      cases route with
      | insertDocument => cases unrevised
      | changeDocument => cases unrevised
      | showDocument collection key =>
          simp only [perform, showDocument]
          split <;> rfl
      | removeDocument collection key =>
          simp only [perform, removeDocument]
          split
          · rfl
          · split
            · rfl
            · exact revisions_noteUndos _ r [_]
      | openCursor =>
          simp only [perform, openCursor]
          split
          · rfl
          · next aql _ =>
              have ran := revisions_runQuery { s with queries := s.queries ++ [aql] } r aql
                ((body.field "bindVars").members?.getD {})
              split
              · next served =>
                  rw [served] at ran
                  exact ran
              · next served =>
                  rw [served] at ran
                  rw [revisions_page]
                  exact ran
      | readCursor id =>
          simp only [perform, readCursor]
          split
          · rfl
          · rw [revisions_page]
      | beginTransaction => rfl
      | commitTransaction id =>
          simp only [perform, commitTransaction]
          split <;> rfl
      | abortTransaction id =>
          simp only [perform, abortTransaction]
          split <;> rfl
      | _ => cases changes

/-- What gives no revision leaves their number. -/
theorem revisions_answer {s : Store} {r : Request}
    (unrevised : ∀ route, Route.of? r = some route → route.revises = false) :
    (Store.server.answer s r).2.revisions = s.revisions := by
  rcases answer_cases s r with ⟨_, refused⟩ | ⟨route, routed, _, answered⟩
  · rw [refused]
    rfl
  · rw [answered, revisions_perform _ _ _ (unrevised route routed)]
    rfl

/-- The reading of a query gives no revision. -/
theorem revisions_runCursor {s s' : Store} {database : Option String} {aql : String}
    {bindVars : Dict Json} {h : Option Transaction} {outcome : Except Error (List Json)}
    (ends : (Exchange.runCursor database aql bindVars h).Ends Store.server s outcome s') :
    s'.revisions = s.revisions := by
  have asks : (Exchange.runCursor database aql bindVars h).Asks fun r =>
      ∀ route, Route.of? r = some route → route.revises = false := by
    apply Exchange.asks_runCursor
    refine ⟨fun route routed => ?_, fun id route routed => ?_⟩
    · rw [route_of_start rfl] at routed
      cases routed
      rfl
    · obtain ⟨name, rfl⟩ := eq_of_route_page rfl routed
      rfl
  exact asks.keeps_of_ends (I := fun s₁ => s₁.revisions = s.revisions)
    (fun _ _ kept unrevised => (revisions_answer unrevised).trans kept) ends rfl

end Store

/-! ### Operations -/

namespace Exchange

variable {α β : Type} {h h' : Option Transaction}

/-- Two operations that lead twin stores to the same outcome, and to twin stores again. -/
def Twins (h h' : Option Transaction) (x y : Exchange α) : Prop :=
  ∀ s t, Store.Twin h h' s t → ∀ outcome s', x.Ends Store.server s outcome s' →
    ∃ t', y.Ends Store.server t outcome t' ∧ Store.Twin h h' s' t'

theorem twins_done (outcome : Except Error α) : Twins h h' (.done outcome) (.done outcome) := by
  intro s t twin _ _ ends
  obtain ⟨rfl, rfl⟩ := ends_done_iff.mp ends
  exact ⟨t, ends_done_iff.mpr ⟨rfl, rfl⟩, twin⟩

theorem twins_bind {x y : Exchange α} {f g : α → Exchange β} (first : Twins h h' x y)
    (second : ∀ a, Twins h h' (f a) (g a)) : Twins h h' (x >>= f) (y >>= g) := by
  intro s t twin outcome s' ends
  rcases ends_bind_iff.mp ends with ⟨a, s₁, ran, later⟩ | ⟨e, failed, rfl⟩
  · obtain ⟨t₁, also, twin₁⟩ := first s t twin _ _ ran
    obtain ⟨t', rest, twin'⟩ := second a s₁ t₁ twin₁ _ _ later
    exact ⟨t', also.bind rest, twin'⟩
  · obtain ⟨t', also, twin'⟩ := first s t twin _ _ failed
    exact ⟨t', also.bind_error, twin'⟩

theorem twins_attempt {x y : Exchange α} (both : Twins h h' x y) :
    Twins h h' x.attempt y.attempt := by
  intro s t twin outcome s' ends
  obtain ⟨given, rfl, ran⟩ := ends_attempt_iff.mp ends
  obtain ⟨t', also, twin'⟩ := both s t twin _ _ ran
  exact ⟨t', ends_attempt_iff.mpr ⟨given, rfl, also⟩, twin'⟩

theorem twins_command {r r' : Request}
    (answers : ∀ s t, Store.Twin h h' s t →
      (Store.server.answer t r').1 = (Store.server.answer s r).1 ∧
        Store.Twin h h' (Store.server.answer s r).2 (Store.server.answer t r').2) :
    Twins h h' (command r) (command r') := by
  intro s t twin outcome s' ends
  obtain ⟨rfl, rfl⟩ := ends_command_iff.mp ends
  obtain ⟨same, after⟩ := answers s t twin
  exact ⟨_, ends_command_iff.mpr ⟨by rw [same], rfl⟩, after⟩

/-- What concerns definitions only does not depend on transactions. -/
theorem twins_of_asks {x : Exchange α} (asks : x.Asks Request.Definitional) :
    Twins h h' x x := by
  intro s t twin outcome s' ends
  induction x generalizing s t with
  | done given => exact twins_done given s t twin outcome s' ends
  | send request next inductionHypothesis =>
      obtain ⟨same, after⟩ := twin.answer_definitional asks.1
      have later : (next (Store.server.answer s request).1).Ends Store.server
        (Store.server.answer s request).2 outcome s' := ends
      obtain ⟨t', rest, twin'⟩ := inductionHypothesis _ (asks.2 _) _ _ after later
      rw [← same] at rest
      exact ⟨t', rest, twin'⟩
  | drain cursor next =>
      -- A page of no name is the request of a cursor, not of a definition.
      have page := Store.route_of_page (c := { cursor with position := .page "" }) rfl (by simp)
      rcases (asks.1.2 "").2 _ page with ⟨change, is⟩ | ⟨collection, key, is⟩ <;> cases is
  | warn warning next inductionHypothesis => exact inductionHypothesis asks s t twin ends

/-- A query is answered alike. -/
theorem twins_runCursor (database : Option String) (aql : String) (bindVars : Dict Json) :
    Twins h h' (runCursor database aql bindVars h) (runCursor database aql bindVars h') := by
  intro s t twin outcome s' ends
  let r := Store.startRequest database aql bindVars h
  let r' := Store.startRequest database aql bindVars h'
  have requests : Request.Twin h h' r r' := Request.twin_inTransaction twin.paired rfl
  have noted : Store.Twin h h' (s.noteQuery r aql) (t.noteQuery r' aql) :=
    twin.of_same (Store.sameData_noteQuery s r aql) (Store.sameData_noteQuery t r' aql)
      twin.revisions_eq
  obtain ⟨same, after⟩ := noted.runQuery requests aql bindVars
  rcases served : (s.noteQuery r aql).runQuery r aql bindVars with ⟨given, s₁⟩
  rcases servedAlso : (t.noteQuery r' aql).runQuery r' aql bindVars with ⟨result, t₁⟩
  rw [served, servedAlso] at same after
  subst same
  have sizes : ∀ {u u₁ : Store} {r : Request},
      (u.noteQuery r aql).runQuery r aql bindVars = (result, u₁) → u₁.batchSize = u.batchSize := by
    intro u u₁ r ran
    have step := Store.runQuery_step (u.noteQuery r aql) r aql bindVars .null
    rw [ran] at step
    exact step.onward.batchSize_eq
  cases result with
  | error refusal =>
      obtain ⟨rfl, rfl⟩ := ends.unique (Store.ends_runCursor_error twin.isOpen served)
      exact ⟨t₁, Store.ends_runCursor_error twin.isOpenAlso servedAlso, after⟩
  | ok rows =>
      obtain ⟨_, ran, kept⟩ := Store.ends_runCursor_ok twin.isOpen twin.batch served
        (sizes served) after.isOpen
      obtain ⟨rfl, rfl⟩ := ends.unique ran
      obtain ⟨t', ranAlso, keptAlso⟩ := Store.ends_runCursor_ok twin.isOpenAlso
        (twin.batchSize_eq ▸ twin.batch) servedAlso (sizes servedAlso) after.isOpenAlso
      refine ⟨t', ranAlso, after.of_same kept keptAlso ?_⟩
      rw [Store.revisions_runCursor ranAlso, Store.revisions_runCursor ran, twin.revisions_eq]

/-- What is done alike in two transactions is done alike in transactions of its own. -/
theorem twins_withTransaction (database : Option String) (write : List String)
    {operation : Transaction → Exchange α}
    (inside : ∀ one other, one.database = database → other.database = database →
      Twins (some one) (some other) (operation one) (operation other)) :
    Twins none none (withTransaction database write operation)
      (withTransaction database write operation) := by
  intro s t twin outcome s' ends
  obtain ⟨given, s₁, ran⟩ := exists_ends Store.server
    (s.begun (Transaction.beginRequest database write []) write)
    (operation (Transaction.next s database))
  obtain ⟨t₁, ranAlso, after⟩ := inside _ _ rfl rfl _ _ (twin.begun database write) _ _ ran
  cases given with
  | ok a =>
      obtain ⟨rfl, rfl⟩ := ends.unique (ends_withTransaction_ok ran after.isOpen)
      exact ⟨_, ends_withTransaction_ok ranAlso after.isOpenAlso, after.committed _ _ _ _⟩
  | error e =>
      obtain ⟨o, found⟩ := Option.isSome_iff_exists.mp (after.isOpen _ rfl)
      have foundAlso := after.openedBy_eq.trans found
      obtain ⟨rfl, rfl⟩ := ends.unique (ends_withTransaction_error ran found)
      exact ⟨_, ends_withTransaction_error ranAlso foundAlso, after.aborted _ _ _ _ o⟩

end Exchange

end DocStore
