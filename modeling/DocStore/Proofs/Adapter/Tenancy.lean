/-
Module: DocStore.Proofs.Adapter.Tenancy
Purpose: an adapter stays in its database, with one exception: raw queries among its
  definitions are sent to the default database, where they may remove documents.
Main exports:
  Adapter.Call, Adapter.Session, Adapter.Session.perform, Adapter.Session.Careful,
  Adapter.staysIn_call, Adapter.Session.leaves_others
-/
import DocStore.Proofs.Adapter.Transaction
import DocStore.Proofs.Migration.Tenancy

namespace DocStore

open Exchange

variable {home database : String} {tenant : Option String}

namespace Request

/-- All requests that read a query which removes nothing write nothing, wherever they
are sent. -/
theorem asks_staysIn_of_reading {sentTo : Option String} {aql : String}
    (reads : ∀ q, Statement.read? aql {} = some q → q.effect ≠ .removal) :
    (CursorRead.start sentTo aql {} none).Asks (Request.StaysIn home database) := by
  constructor
  · intro route routed
    rw [Store.route_of_start rfl, Option.some.injEq] at routed
    subst routed
    refine Or.inr ⟨rfl, rfl, List.eq_nil_iff_forall_not_mem.mpr fun name member => ?_⟩
    obtain ⟨q, read, removes, _⟩ := removes_of_mem_removalTargets member
    exact reads q read removes
  · intro id route routed
    have cut := Route.segments_append "cursor" id (by decide)
    obtain ⟨undefining, within⟩ := Route.documental_of_head (r := CursorRead.request
      { CursorRead.start sentTo aql {} none with position := .page id }) cut (Or.inr rfl) routed
      .null
    obtain ⟨_, untargeted⟩ := Route.harmless_of_head (r := CursorRead.request
      { CursorRead.start sentTo aql {} none with position := .page id }) cut (by decide)
      (fun _ => Text.splitAt_ne_nil '/' id) routed .null
    exact Or.inr ⟨undefining, within, untargeted⟩

end Request

namespace Adapter

/-! ### What a client does -/

/-- One operation of an adapter, by the value that it has. -/
inductive Call : Type → Type where
  | insert (e : Entity) (fields : Row) (t : Option Transaction) : Call Row
  | insertAll (e : Entity) (rows : List Row) (t : Option Transaction) : Call (List Row)
  | update (e : Entity) (id : String) (fields : Row) (t : Option Transaction) : Call Row
  | delete (e : Entity) (id : String) (t : Option Transaction) : Call Unit
  | execute (query : Query) (operation : Operation) (t : Option Transaction) : Call (List Row)
  | define (command : Command) : Call Report
  | ensureView (view : View) (analyzers : List Analyzer) : Call Unit

/-- Do the operation. -/
def Call.perform (a : Adapter) {α : Type} : Call α → Exchange α
  | insert e fields t => a.insert e fields t
  | insertAll e rows t => a.insertAll e rows t
  | update e id fields t => a.update e id fields t
  | delete e id t => a.delete e id t
  | execute query operation t => a.execute query operation t
  | define command => a.define command
  | ensureView view analyzers => a.ensureView view analyzers

/-- What a client does with an adapter: operations one after the other, inside and
outside of transactions, each chosen by the outcomes of those before it. -/
inductive Session : Type → Type 1 where
  | finish {α : Type} (outcome : Except Error α) : Session α
  | call {α β : Type} (c : Call β) (next : Except Error β → Session α) : Session α
  | transaction {α β : Type} (write : List String) (body : Transaction → Session β)
      (next : Except Error β → Session α) : Session α

/-- Do all of it. -/
def Session.perform (a : Adapter) {α : Type} : Session α → Exchange α
  | finish outcome => .ofExcept outcome
  | call c next => do
      let outcome ← (c.perform a).attempt
      (next outcome).perform a
  | transaction write body next => do
      let outcome ← (a.transaction write fun t => (body t).perform a).attempt
      (next outcome).perform a

/-! ### Staying in a database -/

/-- The handle of a transaction, if there is one, is of the given database. -/
def Within (tenant : Option String) (t : Option Transaction) : Prop :=
  ∀ handle ∈ t, handle.database = none ∨ handle.database = tenant

/-- The objects and transactions of a call name no database or the given one, and a
raw query removes no documents. -/
def Call.Careful (tenant : Option String) {α : Type} : Call α → Prop
  | insert _ _ t => Within tenant t
  | insertAll _ _ t => Within tenant t
  | update _ _ _ t => Within tenant t
  | delete _ _ t => Within tenant t
  | execute _ _ t => Within tenant t
  | define command => command.NamesOnly tenant ∧
      ∀ aql, command = .execute aql → ∀ q, Statement.read? aql {} = some q → q.effect ≠ .removal
  | ensureView view analyzers => (view.tenant = none ∨ view.tenant = tenant) ∧
      ∀ analyzer ∈ analyzers, analyzer.tenant = none ∨ analyzer.tenant = tenant

/-- All calls of a session are careful, in transactions of the database too. -/
def Session.Careful (tenant : Option String) {α : Type} : Session α → Prop
  | finish _ => True
  | call c next => c.Careful tenant ∧ ∀ outcome, (next outcome).Careful tenant
  | transaction _ body next =>
      (∀ t, t.database = tenant → (body t).Careful tenant) ∧
        ∀ outcome, (next outcome).Careful tenant

variable {a : Adapter}

theorem asks_define_staysIn {command : Command} (names : command.NamesOnly a.database)
    (addressed : a.database.getD home = database)
    (harmless : ∀ aql, command = .execute aql → ∀ q, Statement.read? aql {} = some q →
      q.effect ≠ .removal) : (a.define command).Asks (Request.StaysIn home database) := by
  apply Command.asks_perform_staysIn
  · intro o member
    rw [names.tenant_eq member]
    exact addressed
  · intro aql queries
    apply Request.asks_staysIn_of_reading
    cases command <;> cases queries
    exact harmless aql rfl

/-- Definitions without raw queries. -/
theorem asks_ensure_staysIn {command : Command} {o : Definition} (about : command.objects = [o])
    (names : o.tenant = none ∨ o.tenant = a.database)
    (addressed : a.database.getD home = database) :
    (a.ensure command).Asks (Request.StaysIn home database) := by
  have defines : (a.define command).Asks (Request.StaysIn home database) := by
    apply asks_define_staysIn _ addressed
    · rintro aql rfl
      cases about
    · intro object member
      rw [about] at member
      cases List.mem_singleton.mp member
      exact names
  exact asks_bind defines fun _ => asks_pure ()

/-! ### Documents and queries -/

theorem asks_postDocument_staysIn {t : Option Transaction} (within : Within a.database t)
    (addressed : a.database.getD home = database) (e : Entity) (document : Row) :
    (a.postDocument e document t).Asks (Request.StaysIn home database) := by
  apply asks_request
  refine Request.staysIn_below "document" e.collection (Request.path_inTransaction _ t) (by decide)
    (by decide) ?_
  rw [Request.addressed_inTransaction within rfl]
  exact addressed

theorem asks_insert_staysIn {t : Option Transaction} (within : Within a.database t)
    (addressed : a.database.getD home = database) (e : Entity) (fields : Row) :
    (a.insert e fields t).Asks (Request.StaysIn home database) :=
  asks_insert_of (fun document _ => asks_postDocument_staysIn within addressed e document)
    (asks_ensure_staysIn rfl (Or.inl rfl) addressed)

theorem asks_forEach {α β : Type} {p : Request → Prop} {f : α → Exchange β} {elements : List α}
    (each : ∀ element ∈ elements, (f element).Asks p) : (Exchange.forEach f elements).Asks p := by
  induction elements with
  | nil => exact asks_pure _
  | cons first rest inductionHypothesis =>
      apply asks_bind (each first List.mem_cons_self)
      intro b
      apply asks_bind
      · exact inductionHypothesis fun later member => each later (List.mem_cons_of_mem _ member)
      · exact fun _ => asks_pure _

theorem asks_execute_staysIn {t : Option Transaction} (within : Within a.database t)
    (addressed : a.database.getD home = database) (query : Query) (operation : Operation) :
    (a.execute query operation t).Asks (Request.StaysIn home database) := by
  apply asks_bind (asks_ofExcept _)
  intro compiled
  apply asks_bind
  · exact asks_attempt (asks_runCursor (Request.asks_staysIn within addressed))
  · intro outcome
    apply asks_bind (asks_ofExcept _)
    exact fun rows => asks_ofExcept _

/-! ### Views -/

theorem addressed_or {declared : Option String} (names : declared = none ∨ declared = a.database)
    (addressed : a.database.getD home = database) :
    (declared.or a.database).getD home = database := by
  rcases names with rfl | rfl
  · rw [Option.none_or]
    exact addressed
  · rw [Option.or_self]
    exact addressed

theorem asks_ensureView_staysIn {view : View} {analyzers : List Analyzer}
    (viewNames : view.tenant = none ∨ view.tenant = a.database)
    (names : ∀ analyzer ∈ analyzers, analyzer.tenant = none ∨ analyzer.tenant = a.database)
    (addressed : a.database.getD home = database) :
    (a.ensureView view analyzers).Asks (Request.StaysIn home database) := by
  unfold ensureView
  split
  · exact asks_command (Request.staysIn_below "view" view.name rfl (by decide) (by decide)
      (addressed_or viewNames addressed))
  · apply asks_bind
    · apply asks_forEach
      intro analyzer member
      have own := names analyzer (List.mem_of_mem_filter member)
      apply asks_bind
      · apply asks_attempt
        exact asks_request (Request.staysIn_below "analyzer" analyzer.name rfl (by decide)
          (by decide) (addressed_or own addressed))
      · intro outcome
        cases outcome with
        | ok => exact asks_pure ()
        | error error =>
            dsimp only
            split
            · exact asks_ensure_staysIn rfl own addressed
            · exact asks_fail error
    · intro _
      apply asks_bind
      · apply asks_forEach
        exact fun name _ => asks_ensure_staysIn rfl viewNames addressed
      · exact fun _ => asks_ensure_staysIn rfl viewNames addressed

/-! ### Calls and sessions -/

/-- A careful call stays in the database of the adapter. -/
theorem asks_call {α : Type} {c : Call α} (careful : c.Careful a.database)
    (addressed : a.database.getD home = database) :
    (c.perform a).Asks (Request.StaysIn home database) := by
  cases c with
  | insert e fields t => exact asks_insert_staysIn careful addressed e fields
  | insertAll e rows t =>
      exact asks_forEach fun fields _ => asks_insert_staysIn careful addressed e fields
  | update e id fields t =>
      apply asks_bind (asks_ofExcept _)
      intro key
      exact asks_bind (asks_request (Request.staysIn_document rfl careful rfl addressed))
        fun _ => asks_pure _
  | delete e id t =>
      apply asks_bind (asks_ofExcept _)
      intro key
      exact asks_command (Request.staysIn_document rfl careful rfl addressed)
  | execute query operation t => exact asks_execute_staysIn careful addressed query operation
  | define command => exact asks_define_staysIn careful.1 addressed careful.2
  | ensureView view analyzers => exact asks_ensureView_staysIn careful.1 careful.2 addressed

theorem Session.staysIn_perform {α : Type} {session : Session α}
    (careful : session.Careful a.database) (addressed : a.database.getD home = database) :
    (session.perform a).StaysIn home database := by
  induction session with
  | finish outcome => exact staysIn_done outcome
  | call c next inductionHypothesis =>
      exact staysIn_attempt_bind (staysIn_of_asks (asks_call careful.1 addressed))
        fun outcome => inductionHypothesis outcome (careful.2 outcome)
  | transaction write body next bodyHypothesis inductionHypothesis =>
      apply staysIn_attempt_bind
      · exact staysIn_withTransaction addressed
          (fun t within => bodyHypothesis t (careful.1 t within)) write
      · exact fun outcome => inductionHypothesis outcome (careful.2 outcome)

/-- Whatever a careful client does with an adapter, and however it ends, all databases
but that of the adapter are left as they are. -/
theorem Session.leaves_others {α : Type} {session : Session α} {s : Store}
    (careful : session.Careful a.database) {other : String}
    (different : other ≠ a.database.getD s.home) :
    ((session.perform a).runOn Store.server s).state.database other = s.database other :=
  (session.staysIn_perform careful rfl).database_eq different

/-! ### Raw queries go to the default database -/

/-- A raw query among the definitions that removes documents removes them in the default
database, whatever the database of the adapter is. -/
theorem ends_define_removal {s : Store} {aql : String} {q : Statement} {c : StoredCollection}
    (a : Adapter) (batch : 0 < s.batchSize) (read : Statement.read? aql {} = some q)
    (removes : q.effect = .removal) (ending : q.ending = .nothing)
    (stored : (s.database s.home).collections.get? q.collection = some c) :
    ∃ s', (a.define (.execute aql)).Ends Store.server s (.ok (.queried 0)) s' ∧
      s'.database s.home =
        (s.database s.home).putCollection q.collection (c.removeAll (q.found c.documents)) := by
  have rows : q.rows aql (q.found c.documents) = .ok [] := by
    rw [Statement.rows, ending]
  have run : (s.noteQuery (Store.startRequest none aql {} none) aql).runQuery
      (Store.startRequest none aql {} none) aql {} =
        (.ok [], (s.noteQuery (Store.startRequest none aql {} none) aql).putCollection s.home
          q.collection (c.removeAll (q.found c.documents))) := by
    rw [Store.runQuery, read]
    dsimp only
    rw [Store.runStatement_removal removes rfl stored, rows, Store.removeFound_outside rfl]
    rfl
  obtain ⟨s', ends, same⟩ := Store.ends_runCursor_ok (Store.opened_none s) batch run rfl
    (Store.opened_none _)
  refine ⟨s', ends.bind (ends_pure_iff.mpr ⟨rfl, rfl⟩), ?_⟩
  rw [same.database_eq]
  exact Store.database_putDatabase_self _ _ _

/-- A store whose home database has a user, and another database none. -/
def twoTenantsStore : Store :=
  { databases := ⟨[("_system", { collections := ⟨[("users",
      { properties := {}, documents := [⟨[("_key", .str "ann")]⟩] })]⟩ }),
      ("blue", { collections := ⟨[("users", { properties := {} })]⟩ })]⟩ }

/-- An adapter of the database without users. -/
def blueAdapter : Adapter :=
  { settings := { tenant := some "blue", staticMode := false } }

/-- A user is inserted and deleted in a transaction that fails, the users are read by a raw
query, and a collection is dropped. -/
def blueSession : Session Unit :=
  .transaction ["users"]
    (fun t => .call (.insert (.document "User" "users") ⟨[("id", .str "ann")]⟩ (some t)) fun _ =>
      .call (.delete (.document "User" "users") "ann" (some t)) fun _ =>
        .finish (.error (.validation (.declared "changed my mind"))))
    fun (_ : Except Error Unit) =>
      .call (.define (.execute "FOR u0 IN `users` RETURN [ u0.`name` ]")) fun _ =>
        .call (.define (.drop (.collection { name := "users", tenant := some "blue" }))) fun _ =>
          .finish (.ok ())

theorem leaves_others_of_blueSession :
    blueSession.Careful blueAdapter.database ∧
      ((blueSession.perform blueAdapter).runOn Store.server twoTenantsStore).state.database
        "_system" = twoTenantsStore.database "_system" := by
  have reads : ∀ q, Statement.read? "FOR u0 IN `users` RETURN [ u0.`name` ]" {} = some q →
      q.effect ≠ .removal := by
    intro q read
    cases read
    exact nofun
  have careful : blueSession.Careful blueAdapter.database := by
    refine ⟨fun t within => ⟨?_, fun _ => ⟨?_, fun _ => trivial⟩⟩, fun _ =>
      ⟨⟨fun _ => nofun, ?_⟩, fun _ => ⟨⟨?_, fun _ => nofun⟩, fun _ => trivial⟩⟩⟩
    · rintro handle ⟨⟩
      exact Or.inr within
    · rintro handle ⟨⟩
      exact Or.inr within
    · rintro aql ⟨⟩
      exact reads
    · intro o member
      cases List.mem_singleton.mp member
      exact Or.inr rfl
  exact ⟨careful, Session.leaves_others careful (by decide)⟩

/-- A raw query that removes all users. -/
def purgeOfUsers : String :=
  "FOR u0 IN `users` REMOVE u0 IN `users`"

theorem read?_purgeOfUsers :
    Statement.read? purgeOfUsers {} = some ⟨"users", [], [], none, .removal, .nothing⟩ := by
  have ending : Statement.readEnding "u0".toList purgeOfUsers.toList = .nothing := by
    rfl
  rw [← ending]
  rfl

/-- The users of the default database are gone after a raw query of an adapter of another
one. -/
theorem raw_removal_leaves_tenant :
    ¬∀ (a : Adapter) (s : Store) (command : Command) (other : String),
      command.NamesOnly a.database → other ≠ a.database.getD s.home →
        ((a.define command).runOn Store.server s).state.database other = s.database other := by
  intro unchanged
  let ann : Document := ⟨[("_key", .str "ann")]⟩
  have stored : (twoTenantsStore.database twoTenantsStore.home).collections.get? "users" =
      some { properties := {}, documents := [ann] } := rfl
  obtain ⟨s', ⟨_, rfl⟩, removed⟩ := ends_define_removal blueAdapter (by decide)
    read?_purgeOfUsers rfl rfl stored
  have kept := unchanged blueAdapter twoTenantsStore (.execute purgeOfUsers) "_system"
    (fun _ => nofun) (by decide)
  rw [Statement.found_singleton rfl rfl] at removed
  have both := removed.symm.trans kept
  have users := congrArg (fun db : Database => (db.documentsOf "users").map List.length) both
  cases users

end Adapter

end DocStore
