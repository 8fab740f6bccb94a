/-
Module: DocStore.Proofs.Migration.Reached
Purpose: the stores that definitions and documents lead to from an empty one, and what holds
  of all of them.
Main exports:
  Command.Defines, Command.Sends.orderly, Store.Reached, Store.Reached.regular
-/
import DocStore.Proofs.Memory.Regular
import DocStore.Proofs.Migration.Requests

namespace DocStore

/-! ### Commands are orderly -/

namespace Request

/-- Only requests to collections and changes of views can be disorderly. -/
theorem Apart.orderly {r : Request} (apart : r.Apart) (unpatched : r.method ≠ .patch) :
    r.Orderly := by
  obtain ⟨head, rest, cut, other⟩ := apart
  simp only [List.mem_cons, not_or] at other
  intro route routed
  have shape := Route.of?_eq_some_iff.mp routed
  rw [cut] at shape
  cases route <;> first | trivial | simp_all [Route.shapes]

theorem orderly_of_get {r : Request} (reads : r.method = .get) : r.Orderly := by
  intro route routed
  have shape := Route.of?_eq_some_iff.mp routed
  rw [reads] at shape
  cases route <;> trivial

theorem orderly_of_delete {r : Request} (deletes : r.method = .delete) : r.Orderly := by
  intro route routed
  have shape := Route.of?_eq_some_iff.mp routed
  rw [deletes] at shape
  cases route <;> trivial

end Request

theorem Definition.Sends.orderly {o : Definition} {r : Request} (sends : o.Sends r) :
    r.Orderly := by
  cases sends with
  | reading reads => exact Request.orderly_of_get reads
  | @creation c body object is sent =>
      subst object sent
      intro route routed
      rw [Route.of?_post "collection" rfl rfl (by decide)] at routed
      cases routed
      intro name named
      change body.field "name" = .str name at named
      rw [Collection.name_of_body is] at named
      cases named
      exact Collection.plain_of_body is
  | removal object sent =>
      subst sent
      exact Request.orderly_of_delete rfl
  | elsewhere apart unpatched => exact apart.orderly unpatched

theorem Definition.Renames.orderly {source target : Definition} {r : Request}
    (renames : source.Renames target r) : r.Orderly := by
  cases renames with
  | elsewhere apart unpatched => exact apart.orderly unpatched
  | @collections c d isSource isTarget valid about body =>
      subst isTarget
      intro route routed
      cases about route routed
      rw [body]
      intro name named
      cases named
      obtain ⟨_, _, plain⟩ := plain_of_validate valid
      exact plain

theorem Collection.Alters.orderly {c : Collection} {r : Request} (alters : c.Alters r) :
    r.Orderly := by
  cases alters with
  | reading reads => exact Request.orderly_of_get reads
  | change about body =>
      intro route routed
      cases about route routed
      rw [body]
      rfl

namespace Command

/-- Whether a command creates, drops or renames an object, or changes the columns of a
collection. -/
def Defines : Command → Prop
  | alterView .. => False
  | execute _ => False
  | _ => True

theorem Sends.orderly {command : Command} {r : Request} (sends : command.Sends r)
    (defines : command.Defines) : r.Orderly := by
  cases command with
  | alterCollection c columns => exact Collection.Alters.orderly sends
  | rename source target => exact Definition.Renames.orderly sends
  | alterView v changes => cases defines
  | execute aql => cases defines
  | _ => exact Definition.Sends.orderly sends

/-- A command that defines keeps a store regular, however it ends. -/
theorem Defines.regular {command : Command} (defines : command.Defines)
    {tenant : Option String} {transaction : Option Transaction} {s s' : Store}
    {outcome : Except Error Report}
    (ends : (command.perform tenant transaction).Ends Store.server s outcome s')
    (regular : s.Regular) : s'.Regular := by
  apply (asks_perform command tenant transaction).keeps_of_ends _ ends regular
  intro _ _ kept sends
  exact kept.answer (Sends.orderly sends defines)

end Command

/-! ### Reached stores -/

namespace Store

/-- The stores that are reached from an empty one: by commands that define objects,
however they end, and by requests that concern documents, queries or transactions. -/
inductive Reached : Store → Prop where
  | empty (home : String) (batchSize : Nat) : Reached { home, batchSize }
  | defined {s : Store} (reached : Reached s) {command : Command} (defines : command.Defines)
      (tenant : Option String) (transaction : Option Transaction) :
      Reached ((command.perform tenant transaction).runOn Store.server s).state
  | documents {s : Store} (reached : Reached s) {r : Request}
      (about : ∀ route, Route.of? r = some route →
        route.change? r (r.body.getD .null) = none) : Reached (Store.server.answer s r).2

theorem Reached.regular {s : Store} (reached : s.Reached) : s.Regular := by
  induction reached with
  | empty home batchSize => exact fun name => Database.Regular.empty
  | defined _ defines _ _ inductionHypothesis =>
      exact defines.regular ⟨rfl, rfl⟩ inductionHypothesis
  | documents _ about inductionHypothesis =>
      apply inductionHypothesis.answer
      intro route routed
      have none := about route routed
      cases route <;> trivial

end Store

end DocStore
