/-
Module: DocStore.Proofs.Migration.Checking
Purpose: a command that a definition is refused for has sent nothing but requests to read, and
  has left all databases as they are.
Main exports:
  Exchange.ChecksFirst, Exchange.ChecksFirst.sent_reads, Store.sameDatabases_of_get,
  Command.checksFirst_perform, Command.refused_before_writes
-/
import DocStore.Proofs.Exchange.Replies
import DocStore.Proofs.Migration.Idempotence
import DocStore.Proofs.Migration.Ordering

namespace DocStore

/-!
A command can fail for what it is given, or for what it is answered.  Once it has sent a request
that may change something, the first kind of failure must be out of the question.  To read is no
such request: the columns of a collection are checked against its stored validation document.
-/

namespace Exchange

variable {σ α β : Type} {x : Exchange α} {f : α → Exchange β}

/-- After every request that may change something, and after every query, the operation can fail
only with what replies lead to. -/
def ChecksFirst : Exchange α → Prop
  | .done _ => True
  | .send request next => ∀ reply,
      request.method = .get ∧ (next reply).ChecksFirst ∨ (next reply).Fails Error.OfReply
  | .drain _ next =>
      ∀ rows, (∀ e, rows = .error e → e.OfReply) → (next rows).Fails Error.OfReply
  | .warn _ next => next.ChecksFirst

/-- What fails only with what replies lead to has nothing to check. -/
theorem Fails.checksFirst (fails : x.Fails Error.OfReply) : x.ChecksFirst := by
  induction x with
  | done => trivial
  | send request next _ => exact fun reply => Or.inr (fails reply)
  | drain cursor next _ => exact fails
  | warn warning next inductionHypothesis => exact inductionHypothesis fails

theorem checksFirst_bind (first : x.ChecksFirst) (second : ∀ a, (f a).Fails Error.OfReply) :
    (x >>= f).ChecksFirst := by
  rw [bind_eq]
  induction x with
  | done outcome =>
      cases outcome with
      | ok a => exact (second a).checksFirst
      | error e => trivial
  | send request next inductionHypothesis =>
      intro reply
      rcases first reply with ⟨reads, rest⟩ | fails
      · exact Or.inl ⟨reads, inductionHypothesis reply rest⟩
      · exact Or.inr (fails_bind fails second)
  | drain cursor next _ => exact fun rows read => fails_bind (first rows read) second
  | warn warning next inductionHypothesis => exact inductionHypothesis first

/-- A request to read may come before the checks. -/
theorem checksFirst_request_bind {r : Request} {g : Json → Exchange β} (reads : r.method = .get)
    (second : ∀ body, (g body).ChecksFirst) : (Exchange.request r >>= g).ChecksFirst := by
  intro reply
  refine Or.inl ⟨reads, ?_⟩
  change ((Exchange.done reply.result).bind g).ChecksFirst
  cases reply.result with
  | ok body => exact second body
  | error e => trivial

theorem checksFirst_ofSchema_bind {checked : Except SchemaFault α}
    (second : ∀ a, checked = .ok a → (f a).Fails Error.OfReply) :
    (Exchange.ofSchema checked >>= f).ChecksFirst := by
  cases checked with
  | ok a => exact (second a rfl).checksFirst
  | error fault => trivial

/-- An operation that ends with an error that no reply leads to has only read. -/
theorem ChecksFirst.sent_reads {server : Server σ} {s : σ} {e : Error} (checks : x.ChecksFirst)
    (own : ¬e.OfReply) (failed : (x.runOn server s).outcome = .error e) :
    ∀ r ∈ (x.runOn server s).sent, r.method = .get := by
  induction x generalizing s with
  | done => exact fun r member => absurd member List.not_mem_nil
  | send request next inductionHypothesis =>
      rcases checks (server.answer s request).1 with ⟨reads, rest⟩ | fails
      · exact List.forall_mem_cons.mpr ⟨reads, inductionHypothesis _ rest failed⟩
      · exact absurd (fails.of_ends ⟨failed, rfl⟩) own
  | drain cursor next _ =>
      have fails := checks (server.drain s cursor).outcome fun _ => Server.ofReply_of_drain
      exact absurd (fails.of_ends ⟨failed, rfl⟩) own
  | warn warning next inductionHypothesis => exact inductionHypothesis checks failed

end Exchange

open Exchange

/-! ### Requests to read -/

/-- A request to read changes no database. -/
theorem Route.unchanged_of_get {r : Request} {body : Json} {route : Route}
    {change : Database → Change} {db db' : Database} {response : Response}
    (reads : r.method = .get) (routed : Route.of? r = some route)
    (is : route.change? r body = some change) (made : change db = .ok (response, db')) :
    db' = db := by
  have shape := Route.of?_eq_some_iff.mp routed
  rw [reads] at shape
  cases route <;> cases is <;> simp only [Route.shapes, List.mem_cons] at shape
  case listIndexes =>
    obtain ⟨_, _, _, _, _, rfl⟩ := Database.listIndexes_eq_ok_iff.mp made
    rfl
  all_goals first
    | (obtain ⟨_, _, rest⟩ := exceptBind_eq_ok_iff.mp made; cases rest; rfl)
    | simp at shape

namespace Store

variable {s : Store}

theorem SameDatabases.of_same {s' : Store} (same : SameData s s') : s.SameDatabases s' :=
  ⟨same.home_eq, same.database_eq⟩

theorem sameDatabases_of_get {r : Request} (reads : r.method = .get) :
    s.SameDatabases (Store.server.answer s r).2 := by
  rcases answer_cases s r with ⟨_, refused⟩ | ⟨route, routed, _, answered⟩
  · rw [refused]
    exact .of_note s r
  · rw [answered]
    refine SameDatabases.trans (.of_note s r) ?_
    obtain ⟨within, targets⟩ := Route.harmless_of_get reads routed (r.body.getD .null)
    cases is : route.change? r (r.body.getD .null) with
    | none =>
        have step := documentStep_perform (s := s.noteRequest r) is within
        rw [targets] at step
        exact .of_same step.same_of_nil
    | some change =>
        rw [perform_of_change is]
        rcases serveChange_cases (s.noteRequest r) ((s.noteRequest r).databaseOf r) change with
          ⟨_, failed⟩ | ⟨response, db, made, put⟩
        · rw [failed]
          exact .refl _
        · rw [put, Route.unchanged_of_get reads routed is made]
          refine ⟨rfl, fun name => ?_⟩
          by_cases here : name = (s.noteRequest r).databaseOf r
          · rw [here, database_putDatabase_self]
          · exact database_putDatabase_of_ne _ _ here

end Store

/-! ### Commands -/

namespace Command

theorem checksFirst_perform (command : Command) (database : Option String)
    (transaction : Option Transaction) :
    (command.perform database transaction).ChecksFirst := by
  have requested (r : Request) : (Exchange.command r).Fails Error.OfReply :=
    fails_command (fun _ => id) r
  have creates {o : Definition} (valid : o.validate = .ok ()) : o.create.Fails Error.OfReply := by
    apply Definition.fails_create_of_body
    rintro c rfl
    obtain ⟨body, is, _⟩ := Definition.plain_of_validate valid
    exact ⟨body, is⟩
  cases command with
  | create o =>
      apply checksFirst_ofSchema_bind
      exact fun _ valid => fails_bind (creates valid) fun _ => fails_pure _
  | createIfNotExists o =>
      apply checksFirst_ofSchema_bind
      exact fun _ valid => fails_tolerant (creates valid)
  | drop o => exact (fails_bind o.fails_drop fun _ => fails_pure _).checksFirst
  | dropIfExists o => exact (fails_tolerant o.fails_drop).checksFirst
  | alterCollection c columns =>
      have altered : (c.alter columns).ChecksFirst := by
        apply checksFirst_request_bind rfl
        intro current
        exact checksFirst_ofSchema_bind fun _ _ => requested _
      exact checksFirst_bind altered fun _ => fails_pure _
  | alterView v changes =>
      have altered : (v.alter changes).ChecksFirst :=
        checksFirst_ofSchema_bind fun _ _ => requested _
      exact checksFirst_bind altered fun _ => fails_pure _
  | rename source target =>
      have renamed : (source.rename target).ChecksFirst :=
        checksFirst_ofSchema_bind fun _ _ => requested _
      exact checksFirst_bind renamed fun _ => fails_pure _
  | execute aql =>
      have queried := fails_runCursor (p := Error.OfReply) (fun _ => id) database aql {} transaction
      exact (fails_bind queried fun _ => fails_pure _).checksFirst

/-- Whoever answers, and whatever the command is about, a command that ends with a fault of a
definition has sent nothing but requests to read; the store in memory then has what it had in
all its databases. -/
theorem refused_before_writes (command : Command) (database : Option String)
    (transaction : Option Transaction) :
    (∀ (σ : Type) (server : Server σ) (s : σ) (fault : SchemaFault),
      let run := (command.perform database transaction).runOn server s
      run.outcome = .error (.schema fault) → ∀ r ∈ run.sent, r.method = .get) ∧
    ∀ (s : Store) (fault : SchemaFault),
      let run := (command.perform database transaction).runOn Store.server s
      run.outcome = .error (.schema fault) → s.SameDatabases run.state := by
  have own (fault : SchemaFault) : ¬Error.OfReply (.schema fault) := nofun
  have checks := command.checksFirst_perform database transaction
  refine ⟨fun σ server s fault failed => checks.sent_reads (own fault) failed, ?_⟩
  intro s fault run failed
  have reads := checks.sent_reads (own fault) failed
  rw [Exchange.runOn_state]
  refine Store.server.after_keeps (I := s.SameDatabases) ?_ reads (.refl s)
  exact fun _ r same getting => same.trans (Store.sameDatabases_of_get getting)

/-- A column of an unknown type is found out after the stored validation document was read. -/
theorem refused_before_writes_of_unknownType :
    let s := ({} : Store).answers [.post "collection" (.obj ⟨[("name", .str "users")]⟩)]
    let command := Command.alterCollection { name := "users" } [.add "age" (.primitive "whole") {}]
    let run := (command.perform none none).runOn Store.server s
    run.outcome = .error (.schema (.columnType "whole")) ∧
      run.sent.map (·.path) = ["collection/users/properties"] ∧
      (∀ r ∈ run.sent, r.method = .get) ∧ s.SameDatabases run.state := by
  intro s command run
  have failed : run.outcome = .error (.schema (.columnType "whole")) := rfl
  have refused := command.refused_before_writes none none
  exact ⟨failed, rfl, refused.1 Store Store.server s _ failed, refused.2 s _ failed⟩

end Command

end DocStore
