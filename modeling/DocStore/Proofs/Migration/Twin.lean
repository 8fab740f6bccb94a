/-
Module: DocStore.Proofs.Migration.Twin
Purpose: migrations do the same in stores that cannot be told apart, each in a transaction of
  its own.
Main exports:
  Command.twins_perform, Context.twins_issueAll, RunnerOptions.twins_record,
  RunnerOptions.twins_apply, RunnerOptions.advance, RunnerOptions.twins_runEach
-/
import DocStore.Proofs.Memory.Twin
import DocStore.Proofs.Migration.Noting

namespace DocStore

open Exchange Text

variable {h h' : Option Transaction}

/-! ### Requests about definitions -/

theorem Request.definitional_of_get {r : Request} (reads : r.method = .get)
    (outside : r.transaction = none) : r.Definitional := by
  refine ⟨outside, fun route routed => ?_⟩
  have shape := Route.of?_eq_some_iff.mp routed
  rw [reads] at shape
  cases route <;>
    first
    | exact Or.inl ⟨_, rfl⟩
    | exact Or.inr ⟨_, _, rfl⟩
    | simp [Route.shapes] at shape

theorem Request.Apart.definitional {r : Request} (apart : r.Apart)
    (outside : r.transaction = none) : r.Definitional := by
  obtain ⟨head, rest, cut, other⟩ := apart
  refine ⟨outside, fun route routed => ?_⟩
  have shape := Route.of?_eq_some_iff.mp routed
  rw [cut] at shape
  cases route <;> first | exact Or.inl ⟨_, rfl⟩ | simp_all [Route.shapes]

/-- A request for one route that changes definitions. -/
theorem Request.definitional_of_route {r : Request} (route : Route)
    (outside : r.transaction = none)
    (about : ∀ other, Route.of? r = some other → other = route)
    (changes : ∃ change, route.change? r (r.body.getD .null) = some change) : r.Definitional :=
  ⟨outside, fun other routed => Or.inl (about other routed ▸ changes)⟩

theorem Definition.Sends.definitional {o : Definition} {r : Request} (sends : o.Sends r)
    (outside : r.transaction = none) : r.Definitional := by
  cases sends with
  | reading reads => exact Request.definitional_of_get reads outside
  | @creation c body object is sent =>
      subst sent
      have routed : Route.of? ((Request.post "collection" body).withDatabase c.tenant) =
        some .createCollection := Route.of?_post "collection" rfl rfl (by decide)
      refine Request.definitional_of_route .createCollection outside ?_ ⟨_, rfl⟩
      exact fun other same => Option.some.inj (same.symm.trans routed)
  | @removal c object sent =>
      subst sent
      refine Request.definitional_of_route (.dropCollection c.name) outside ?_ ⟨_, rfl⟩
      exact fun other routed => Route.eq_of_delete_collection rfl rfl routed
  | elsewhere apart _ => exact apart.definitional outside

theorem Command.Sends.definitional {command : Command} {r : Request} (sends : command.Sends r)
    (noQuery : ∀ aql, command ≠ .execute aql) (outside : r.transaction = none) :
    r.Definitional := by
  cases command with
  | execute aql => exact absurd rfl (noQuery aql)
  | alterView v changes => exact Request.Apart.definitional sends outside
  | alterCollection c columns =>
      cases sends with
      | reading reads => exact Request.definitional_of_get reads outside
      | change about _ => exact Request.definitional_of_route _ outside about ⟨_, rfl⟩
  | rename source target =>
      cases sends with
      | collections _ _ _ about => exact Request.definitional_of_route _ outside about ⟨_, rfl⟩
      | elsewhere apart _ => exact apart.definitional outside
  | _ => exact Definition.Sends.definitional sends outside

/-! ### Commands and bodies -/

theorem Command.twins_perform (command : Command) (database : Option String) :
    Twins h h' (command.perform database h) (command.perform database h') := by
  have elsewhere : (∀ aql, command ≠ .execute aql) →
      (command.perform none none).Asks Request.Definitional := by
    intro noQuery
    refine ((command.asks_perform none none).and
      (command.asks_perform_inside none none)).mono ?_
    rintro r ⟨sends, outside⟩
    exact sends.definitional noQuery (or_self_iff.mp outside)
  cases command with
  | execute aql => exact twins_bind (twins_runCursor _ _ _) fun _ => twins_done _
  | _ => exact twins_of_asks (elsewhere nofun)

theorem Context.twins_issueAll (tenant : Option String) (failure : Option Error)
    (commands : List Command) :
    Twins h h' (({ tenant, transaction := h } : Context).issueAll failure commands)
      (({ tenant, transaction := h' } : Context).issueAll failure commands) := by
  induction commands with
  | nil => exact twins_done _
  | cons command rest inductionHypothesis =>
      refine twins_bind (twins_attempt (Command.twins_perform _ _)) fun outcome => ?_
      cases outcome with
      | ok report => exact twins_bind inductionHypothesis fun _ => twins_done _
      | error e => exact twins_done _

namespace RunnerOptions

variable {o : RunnerOptions} {d : Direction}

theorem twins_record (named : isPlainName o.collection = true) (version : Int) (d : Direction) :
    Twins h h' (o.record version d h) (o.record version d h') := by
  cases d with
  | up =>
      change Twins h h' (command (o.upRequest version h)) (command (o.upRequest version h'))
      refine twins_command fun s t twin => ?_
      have requests : Request.Twin h h' (o.upRequest version h) (o.upRequest version h') :=
        Request.twin_inTransaction twin.paired rfl
      refine twin.answer requests (route_upRequest named) fun noted => ?_
      have body : (o.upRequest version h).body.getD .null = .obj (row version) := by
        rw [upRequest, Request.body_inTransaction]
        rfl
      rw [body]
      exact noted.insertDocument requests o.collection
        (rfl : Document.value (row version) "_key" = .str (toString version))
  | down =>
      change Twins h h' (command (o.downRequest version h)) (command (o.downRequest version h'))
      refine twins_command fun s t twin => ?_
      have requests : Request.Twin h h' (o.downRequest version h) (o.downRequest version h') :=
        Request.twin_inTransaction twin.paired rfl
      exact twin.answer requests (route_downRequest named) fun noted =>
        noted.removeDocument requests o.collection (toString version)

theorem twins_runBody (named : isPlainName o.collection = true) (e : Entry) (d : Direction) :
    Twins h h' (o.runBody e d h) (o.runBody e d h') := by
  refine twins_bind (twins_done _) fun script => ?_
  refine twins_bind (Context.twins_issueAll _ _ _) fun progress => ?_
  exact twins_bind (twins_done _) fun _ => twins_record named _ _

/-- A migration does the same in stores that cannot be told apart. -/
theorem twins_apply (named : isPlainName o.collection = true) (e : Entry) (d : Direction) :
    Twins none none (o.apply e d) (o.apply e d) := by
  unfold apply
  split
  · exact twins_runBody named e d
  · exact twins_withTransaction _ _ fun _ _ _ _ => twins_runBody named e d

/-! ### Runs -/

/-- Run one migration of a run, given the versions that are applied then. -/
def advance (o : RunnerOptions) (d : Direction) (applied : List Int) (e : Entry) :
    Exchange Unit :=
  match d with
  | .up => do
      o.demandOrder e applied
      o.apply e .up
  | .down => o.apply e .down

theorem runEach_cons (o : RunnerOptions) (d : Direction) (applied : List Int) (e : Entry)
    (rest : List Entry) :
    o.runEach d applied (e :: rest) =
      o.advance d applied e >>= fun _ => o.runEach d (d.recordedAfter applied e.version) rest := by
  cases d with
  | up =>
      simp only [runEach, runOne, advance, bind_assoc]
      rfl
  | down =>
      simp only [runEach, runOne, advance, bind_assoc]
      rfl

/-- The order of versions asks only which versions are applied. -/
theorem checkOrder_congr {applied others : List Int} (same : ∀ v, v ∈ applied ↔ v ∈ others)
    (e : Entry) : checkOrder e applied = checkOrder e others := by
  have latest : applied.max? = others.max? := by
    apply Option.ext
    intro v
    simp only [List.max?_eq_some_iff, same]
  rw [checkOrder, checkOrder, latest]

theorem twins_advance (named : isPlainName o.collection = true) {applied others : List Int}
    (same : ∀ v, v ∈ applied ↔ v ∈ others) (e : Entry) :
    Twins none none (o.advance d applied e) (o.advance d others e) := by
  cases d with
  | up =>
      have demands : o.demandOrder e applied = o.demandOrder e others := by
        rw [demandOrder, demandOrder, checkOrder_congr same]
      rw [advance, advance, demands]
      refine twins_bind (twins_of_asks ?_) fun _ => twins_apply named e .up
      unfold demandOrder
      split
      · exact asks_pure ()
      · split
        · exact asks_fail _
        · exact asks_report _
  | down => exact twins_apply named e .down

/-- Migrations do the same in stores that cannot be told apart, if the same versions are
applied there. -/
theorem twins_runEach (named : isPlainName o.collection = true) (pending : List Entry)
    {applied others : List Int} (same : ∀ v, v ∈ applied ↔ v ∈ others) :
    Twins none none (o.runEach d applied pending) (o.runEach d others pending) := by
  induction pending generalizing applied others with
  | nil => exact twins_done _
  | cons e rest inductionHypothesis =>
      rw [runEach_cons, runEach_cons]
      refine twins_bind (twins_advance named same e) fun _ => inductionHypothesis fun v => ?_
      rw [Direction.mem_recordedAfter, Direction.mem_recordedAfter, same]

end RunnerOptions

end DocStore
