/-
Module: DocStore.Proofs.Memory.Refusing
Purpose: a request that is answered with an error leaves all databases as they are.  Every
  route checks before it writes, but for one: a query that removes documents and returns
  something unsupported is refused after the removal.
Main exports:
  Request.RemovesUnread, Store.Atomic, Store.atomic_perform, Store.answer_error_databases
-/
import DocStore.Proofs.Memory.Untouched

namespace DocStore

/-- The query of a cursor removes what it finds, and returns something that is not
supported. -/
def Json.RemovesUnread (body : Json) : Prop :=
  ∃ aql q, (body.field "query").text? = some aql ∧
    Statement.read? aql ((body.field "bindVars").members?.getD {}) = some q ∧
    q.effect = .removal ∧ q.ending = .unsupported

/-- The request opens a cursor with a query that removes what it finds, and returns
something that is not supported. -/
def Request.RemovesUnread (r : Request) : Prop :=
  Route.of? r = some .openCursor ∧ (r.body.getD .null).RemovesUnread

namespace Route

/-- A change of definitions is answered with the status of a success. -/
theorem change?_status {r : Request} {body : Json} {route : Route} {change : Database → Change}
    (is : route.change? r body = some change) {db db' : Database} {response : Response}
    (changed : change db = .ok (response, db')) : response.status < 300 := by
  have made : ∀ {status : Nat} (answer : Json), status ≤ 201 →
      (answered status answer).status < 300 :=
    fun _ small => Nat.lt_of_le_of_lt small (by decide)
  cases route <;> cases is
  case createCollection =>
    obtain ⟨_, _, _, _, _, _, rfl, _⟩ := Database.createCollection_eq_ok_iff.mp changed
    exact made _ (by decide)
  case changeCollection =>
    obtain ⟨_, _, rfl, _⟩ := Database.changeCollection_eq_ok_iff.mp changed
    exact made _ (by decide)
  case renameCollection =>
    obtain ⟨_, _, _, _, _, rfl, _⟩ := Database.renameCollection_eq_ok_iff.mp changed
    exact made _ (by decide)
  case createIndex =>
    obtain ⟨_, _, _, _, _, _, _, rfl, _⟩ := Database.createIndex_eq_ok_iff.mp changed
    exact made _ (by decide)
  case listIndexes =>
    obtain ⟨_, _, _, _, rfl, _⟩ := Database.listIndexes_eq_ok_iff.mp changed
    exact made _ (by decide)
  case dropIndex =>
    obtain ⟨_, _, _, rfl, _⟩ := Database.dropIndex_eq_ok_iff.mp changed
    exact made _ (by decide)
  case createView =>
    obtain ⟨_, _, _, _, _, rfl, _⟩ := Database.createView_eq_ok_iff.mp changed
    exact made _ (by decide)
  case renameView =>
    obtain ⟨_, _, _, _, _, rfl, _⟩ := Database.renameView_eq_ok_iff.mp changed
    exact made _ (by decide)
  case createAnalyzer =>
    obtain ⟨_, _, _, rfl, _⟩ := Database.createAnalyzer_eq_ok_iff.mp changed
    exact made _ (by decide)
  -- What is left checks one name and then shows, changes or drops what stands there.
  all_goals
    obtain ⟨_, _, rest⟩ := exceptBind_eq_ok_iff.mp changed
    cases rest
    exact made _ (by decide)

end Route

namespace Store

/-- Serving is all or nothing: a refusal leaves the databases, and what is done is
answered with the status of a success. -/
inductive Atomic (s : Store) : Served Response → Prop where
  | refused (refusal : Refusal) {s' : Store} (same : s'.databases = s.databases) :
      Atomic s (.error refusal, s')
  | granted {response : Response} {s' : Store} (success : response.status < 300) :
      Atomic s (.ok response, s')

/-- A status of at least 400 is that of a refusal. -/
theorem Atomic.databases_eq {s : Store} {served : Served Response} (atomic : s.Atomic served)
    (isError : 400 ≤ (responseTo served.1).status) : served.2.databases = s.databases := by
  cases atomic with
  | refused refusal same => exact same
  | granted success =>
      simp only [responseTo] at isError
      omega

/-! ### Definitions and documents -/

theorem atomic_serveChange {s : Store} {r : Request} {body : Json} {route : Route}
    {change : Database → Change} (is : route.change? r body = some change) (database : String) :
    s.Atomic (s.serveChange database change) := by
  rcases serveChange_cases s database change with ⟨refusal, failed⟩ | ⟨response, db, changed, put⟩
  · rw [failed]
    exact .refused refusal rfl
  · rw [put]
    exact .granted (Route.change?_status is changed)

theorem atomic_insertDocument (s : Store) (r : Request) (collection : String) (body : Json) :
    s.Atomic (s.insertDocument r collection body) := by
  unfold insertDocument
  split
  · exact .refused _ rfl
  · exact .refused _ rfl
  · next fields _ _ =>
      dsimp only
      split
      · exact .refused _ rfl
      · next c _ =>
          split
          · exact .refused _ (sameData_keyFor s.takeRevision.2 fields).databases_eq
          · exact .granted (by simp [answered])

theorem atomic_showDocument (s : Store) (r : Request) (collection key : String) :
    s.Atomic (s.showDocument r collection key) := by
  unfold showDocument
  split
  · exact .granted (by simp [answered])
  · exact .refused _ rfl

theorem atomic_changeDocument (s : Store) (r : Request) (collection key : String) (body : Json) :
    s.Atomic (s.changeDocument r collection key body) := by
  unfold changeDocument
  split
  · exact .refused _ rfl
  · dsimp only
    split
    · exact .refused _ rfl
    · exact .granted (by simp [answered])

theorem atomic_removeDocument (s : Store) (r : Request) (collection key : String) :
    s.Atomic (s.removeDocument r collection key) := by
  unfold removeDocument
  split
  · exact .refused _ rfl
  · dsimp only
    split
    · exact .refused _ rfl
    · exact .granted (by simp [answered])

/-! ### Cursors -/

/-- Pages are handed out without checks, whatever was done before. -/
theorem atomic_page (s s₁ : Store) (rows : List Json) (batch : Nat) :
    s.Atomic (s₁.page rows batch) := by
  unfold page
  split
  · exact .granted (by simp [answered])
  · exact .granted (by simp [answered])

theorem atomic_readCursor (s : Store) (id : String) : s.Atomic (s.readCursor id) := by
  unfold readCursor
  split
  · exact .refused _ rfl
  · exact atomic_page s _ _ _

/-- What a query returns is refused only if it is not supported. -/
theorem Statement.ending_of_rows_error {q : Statement} {aql : String} {found : List Document}
    {refusal : Refusal} (refused : q.rows aql found = .error refusal) :
    q.ending = .unsupported := by
  unfold Statement.rows at refused
  cases ending : q.ending with
  | unsupported => rfl
  | _ =>
      rw [ending] at refused
      cases refused

/-- A query that is refused leaves the databases, unless it is refused after its
removal. -/
theorem databases_runStatement {s s' : Store} {r : Request} {aql : String} {q : Statement}
    {refusal : Refusal} (readable : ¬(q.effect = .removal ∧ q.ending = .unsupported))
    (refused : s.runStatement r aql q = (.error refusal, s')) : s'.databases = s.databases := by
  have step := runStatement_step s r aql q .null
  rw [refused] at step
  cases effect : q.effect with
  | removal =>
      simp only [runStatement, effect, if_true] at refused
      split at refused
      · cases refused
        rfl
      · cases refused
        rfl
      · next c _ _ =>
          have rows : q.rows aql (q.found c.documents) = .error refusal :=
            congrArg Prod.fst refused
          exact absurd ⟨effect, Statement.ending_of_rows_error rows⟩ readable
  | _ =>
      rw [effect, if_neg (by simp)] at step
      cases step with
      | idle same => exact same.databases_eq
      | wrote w listed => cases listed

/-- A removal that returns something unsupported is refused when the documents are
gone. -/
theorem openCursor_unread {s : Store} {r : Request} {body : Json} {aql : String} {q : Statement}
    {c : StoredCollection} (query : (body.field "query").text? = some aql)
    (read : Statement.read? aql ((body.field "bindVars").members?.getD {}) = some q)
    (removes : q.effect = .removal) (unread : q.ending = .unsupported)
    (permitted : s.permitWrite r q.collection = .ok ())
    (stored : (s.database (s.databaseOf r)).collections.get? q.collection = some c) :
    s.openCursor r body =
      (.error (.unsupportedQuery aql),
        { s with queries := s.queries ++ [aql] }.removeFound r q.collection c
          (q.found c.documents)) := by
  have ran : Store.runStatement { s with queries := s.queries ++ [aql] } r aql q = _ :=
    runStatement_removal removes permitted stored
  simp only [openCursor, query, runQuery, read, ran, Statement.rows, unread]

theorem atomic_openCursor (s : Store) (r : Request) {body : Json}
    (readable : ¬body.RemovesUnread) : s.Atomic (s.openCursor r body) := by
  unfold openCursor
  split
  · exact .refused _ rfl
  · next aql query =>
      dsimp only
      split
      · next refusal s₁ ran =>
          refine .refused refusal ?_
          unfold runQuery at ran
          split at ran
          · cases ran
            rfl
          · next q read =>
              have checked := databases_runStatement
                (fun unread => readable ⟨aql, q, query, read, unread⟩) ran
              exact checked
      · exact atomic_page s _ _ _

/-! ### Transactions and all routes -/

theorem atomic_commitTransaction (s : Store) (id : String) :
    s.Atomic (s.commitTransaction id) := by
  unfold commitTransaction
  split
  · exact .refused _ rfl
  · exact .granted (by simp [transactionAnswer, answered])

theorem atomic_abortTransaction (s : Store) (id : String) :
    s.Atomic (s.abortTransaction id) := by
  unfold abortTransaction
  split
  · exact .refused _ rfl
  · exact .granted (by simp [transactionAnswer, answered])

theorem atomic_perform (s : Store) (r : Request) {body : Json} {route : Route}
    (readable : route = .openCursor → ¬body.RemovesUnread) :
    s.Atomic (s.perform r body route) := by
  cases changes : route.change? r body with
  | some change =>
      rw [perform_of_change changes]
      exact atomic_serveChange changes _
  | none =>
      cases route with
      | insertDocument collection => exact atomic_insertDocument s r collection body
      | showDocument collection key => exact atomic_showDocument s r collection key
      | changeDocument collection key => exact atomic_changeDocument s r collection key body
      | removeDocument collection key => exact atomic_removeDocument s r collection key
      | openCursor => exact atomic_openCursor s r (readable rfl)
      | readCursor id => exact atomic_readCursor s id
      | beginTransaction => exact .granted (by simp [transactionAnswer, answered])
      | commitTransaction id => exact atomic_commitTransaction s id
      | abortTransaction id => exact atomic_abortTransaction s id
      | _ => cases changes

/-- A request that is answered with an error leaves every database as it is, unless it
asks to remove documents and to return something unsupported. -/
theorem answer_error_databases {s s' : Store} {r : Request} {response : Response}
    (readable : ¬r.RemovesUnread)
    (answers : Store.server.answer s r = (.answered response, s'))
    (isError : 400 ≤ response.status) : s'.databases = s.databases := by
  rcases answer_cases s r with ⟨refusal, refused⟩ | ⟨route, routed, _, answered⟩
  · rw [refused] at answers
    cases answers
    rfl
  · rw [answered] at answers
    cases answers
    have atomic : (s.noteRequest r).Atomic
        ((s.noteRequest r).perform r (r.body.getD .null) route) :=
      atomic_perform _ r fun opens unread => readable ⟨opens ▸ routed, unread⟩
    exact atomic.databases_eq isError

end Store

/-! ### A removal that is refused too late -/

/-- A user in a store. -/
def annDocument : Document :=
  ⟨[("_key", .str "ann")]⟩

/-- A store with one user. -/
def annStore : Store :=
  { databases := ⟨[("_system", { collections := ⟨[("users",
      { properties := {}, documents := [annDocument] })]⟩ })]⟩ }

/-- A request to open a cursor. -/
def cursorRequest (aql : String) : Request :=
  .post "cursor" (.obj ⟨[("query", .str aql)]⟩)

/-- A removal from a collection that is not there is refused. -/
theorem answer_error_databases_of_noOrders :
    ¬(cursorRequest "FOR u0 IN `orders` REMOVE u0 IN `orders`").RemovesUnread ∧
      ∃ response s', Store.server.answer annStore
          (cursorRequest "FOR u0 IN `orders` REMOVE u0 IN `orders`") = (.answered response, s') ∧
        response.status = 404 ∧ s'.databases = annStore.databases := by
  have readable : ¬(cursorRequest "FOR u0 IN `orders` REMOVE u0 IN `orders`").RemovesUnread := by
    rintro ⟨_, aql, q, given, read, _, unread⟩
    cases given
    cases read
    cases unread
  have answers : Store.server.answer annStore
      (cursorRequest "FOR u0 IN `orders` REMOVE u0 IN `orders`") =
        (.answered (Refusal.noSource "orders").response, _) := rfl
  have isError : (Refusal.noSource "orders").response.status = 404 := rfl
  refine ⟨readable, _, _, answers, isError, ?_⟩
  exact Store.answer_error_databases readable answers (isError ▸ by decide)

/-- A removal that asks for the documents as they were, where the store gives only
fields. -/
def removalOfUsers : String :=
  "FOR u0 IN `users` REMOVE u0 IN `users` RETURN OLD"

theorem read?_removalOfUsers : Statement.read? removalOfUsers {} =
    some { collection := "users", filters := [], sorts := [], window := none,
           effect := .removal, ending := .unsupported } := by
  have cut : Text.splitOnce? " RETURN ".toList removalOfUsers.toList =
      some ("FOR u0 IN `users` REMOVE u0 IN `users`".toList, "OLD".toList) := rfl
  have uncounted : Text.containsPattern " COLLECT WITH COUNT INTO ".toList
      removalOfUsers.toList = false := rfl
  have kept : Statement.dropDistinct "OLD".toList = "OLD".toList := by
    rw [Statement.dropDistinct]
    rfl
  have unread : Statement.readProjection? "u0".toList "OLD".toList = none := by
    rw [Statement.readProjection?, kept]
    rfl
  have ending : Statement.readEnding "u0".toList removalOfUsers.toList = .unsupported := by
    simp only [Statement.readEnding, uncounted, cut, unread]
    rfl
  rw [← ending]
  rfl

/-- The documents of a removal are gone when the store refuses to return them. -/
theorem refused_after_removal :
    ¬∀ (s s' : Store) (r : Request) (response : Response),
      Store.server.answer s r = (.answered response, s') → 400 ≤ response.status →
        s'.databases = s.databases := by
  intro unchanged
  have found : Statement.found ⟨"users", [], [], none, .removal, .unsupported⟩ [annDocument] =
      [annDocument] :=
    Statement.found_singleton rfl rfl
  have opens : (annStore.noteRequest (cursorRequest removalOfUsers)).openCursor
      (cursorRequest removalOfUsers) ((cursorRequest removalOfUsers).body.getD .null) = _ :=
    Store.openCursor_unread rfl read?_removalOfUsers rfl rfl rfl rfl
  have routed : Route.of? (cursorRequest removalOfUsers) = some .openCursor := rfl
  have answers := Store.answer_of_route (s := annStore) rfl routed
  simp only [Store.perform, opens, found] at answers
  have kept := unchanged _ _ _ _ answers (by decide)
  cases kept

end DocStore
