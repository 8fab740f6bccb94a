/-
Module: DocStore.Proofs.Migration.Sparing
Purpose: migrations that spare a collection: none of their commands is about it, and none of
  their queries removes documents of it, so no request of theirs touches it.
Main exports:
  Command.Spares, Script.Spares, Migration.Spares, Context.asks_run,
  Migration.Spares.of_body
-/
import DocStore.Migration.Runner
import DocStore.Proofs.Memory.Guarded
import DocStore.Proofs.Migration.Inverting
import DocStore.Proofs.Migration.Requests

namespace DocStore

variable {home database name : String}

open Exchange

/-! ### Objects -/

namespace Definition

/-- Whether the object is the collection of a name in a database. -/
def IsCollection (home database name : String) : Definition → Prop
  | collection c => c.tenant.getD home = database ∧ c.name = name
  | _ => False

/-- A request that is only about a collection other than that of the name. -/
theorem spares_collection {c : Collection} {r : Request}
    (other : ¬ (collection c).IsCollection home database name) (outside : r.transaction = none)
    (tenant : r.database = c.tenant)
    (about : ∀ route, Route.of? r = some route → route.isTransactional = false ∧
      route.targets (r.body.getD .null) = [c.name]) : r.Spares home database name := by
  intro route routed
  obtain ⟨within, targets⟩ := about route routed
  refine ⟨within, ?_⟩
  rw [targets, tenant]
  by_cases named : c.name = name
  · exact Or.inr ⟨outside, fun here => other ⟨here, named⟩⟩
  · exact Or.inl fun member => named (List.mem_singleton.mp member).symm

theorem Sends.spares {o : Definition} {r : Request} (sends : o.Sends r)
    (other : ¬ o.IsCollection home database name) : r.Spares home database name := by
  cases sends with
  | reading reads => exact Request.spares_of_get reads
  | @creation c body object is sent =>
      subst object sent
      apply spares_collection other rfl rfl
      intro route routed
      rw [Route.of?_post "collection" rfl rfl (by decide)] at routed
      cases routed
      refine ⟨rfl, ?_⟩
      change (body.field "name").text?.toList = [c.name]
      rw [Collection.name_of_body is]
      rfl
  | removal object sent =>
      subst object sent
      apply spares_collection other rfl rfl
      intro route routed
      cases Route.eq_of_delete_collection rfl rfl routed
      exact ⟨rfl, rfl⟩
  | elsewhere apart _ => exact apart.spares

theorem Renames.spares {source target : Definition} {r : Request}
    (renames : source.Renames target r) (sourceOther : ¬ source.IsCollection home database name)
    (targetOther : ¬ target.IsCollection home database name) :
    r.Spares home database name := by
  cases renames with
  | elsewhere apart _ => exact apart.spares
  | @collections c d isSource isTarget _ about body tenant together outside =>
      subst isSource isTarget
      intro route routed
      cases about route routed
      refine ⟨rfl, ?_⟩
      by_cases here : c.tenant.getD home = database
      · left
        have sourceUnlike : name ≠ c.name := fun same => sourceOther ⟨here, same.symm⟩
        have targetUnlike : name ≠ d.name := by
          intro same
          apply targetOther
          exact ⟨(congrArg (·.getD home) together).symm.trans here, same.symm⟩
        rw [body]
        change name ∉ [c.name, d.name]
        simp [sourceUnlike, targetUnlike]
      · right
        rw [tenant]
        exact ⟨outside, here⟩

end Definition

/-- A change of the columns of a collection leaves its documents as they are. -/
theorem Collection.Alters.spares {c : Collection} {r : Request} (alters : c.Alters r) :
    r.Spares home database name := by
  cases alters with
  | reading reads => exact Request.spares_of_get reads
  | change about _ =>
      apply Request.spares_of_harmless
      intro route routed
      cases about route routed
      exact ⟨rfl, rfl⟩

/-! ### Commands -/

namespace Command

/-- Whether a command leaves the collection of a name in a database alone: it does
not create, drop or rename it, and is no query that removes documents of it. -/
def Spares (home database name : String) : Command → Prop
  | create o => ¬ o.IsCollection home database name
  | createIfNotExists o => ¬ o.IsCollection home database name
  | drop o => ¬ o.IsCollection home database name
  | dropIfExists o => ¬ o.IsCollection home database name
  | alterCollection .. => True
  | alterView .. => True
  | rename source target =>
      ¬ source.IsCollection home database name ∧ ¬ target.IsCollection home database name
  | execute aql =>
      ∀ q, Statement.read? aql {} = some q → q.effect = .removal → q.collection ≠ name

theorem Sends.spares {command : Command} {r : Request} (sends : command.Sends r)
    (spares : command.Spares home database name) : r.Spares home database name := by
  cases command with
  | alterCollection c columns => exact Collection.Alters.spares sends
  | alterView v changes => exact Request.Apart.spares sends
  | rename source target => exact Definition.Renames.spares sends spares.1 spares.2
  | execute aql =>
      cases sends with
      | start position sent => exact sent ▸ Request.spares_start position spares
      | page position sent => exact sent ▸ Request.spares_page position
  | _ => exact Definition.Sends.spares sends spares

/-- The inverse of a command is about the same objects. -/
theorem spares_reverse {command inverse : Command} (reversed : command.reverse = .ok inverse)
    (spares : command.Spares home database name) : inverse.Spares home database name := by
  cases command with
  | rename source target =>
      cases reversed
      exact ⟨spares.2, spares.1⟩
  | alterCollection c columns =>
      obtain ⟨inverses, rfl⟩ := exists_of_reverse_alterCollection reversed
      trivial
  | alterView v changes => cases reversed
  | execute aql => cases reversed
  | _ =>
      cases reversed
      exact spares

end Command

/-! ### Bodies -/

/-- Whether all commands of a body leave a collection alone, in a database for objects
that declare none. -/
def Script.Spares (home database name : String) (tenant : Option String) (s : Script) : Prop :=
  ∀ command ∈ s.commands, (command.withDefaultTenant tenant).Spares home database name

theorem Context.asks_run {c : Context} {s : Script}
    (spares : s.Spares home database name c.tenant) :
    (c.run s).Asks (Request.Spares home database name) :=
  asks_run_of fun command member => (Command.asks_perform _ _ _).mono fun _ sends =>
    Command.Sends.spares sends (spares command member)

/-- Whether all bodies of a migration leave a collection alone. -/
structure Migration.Spares (home database name : String) (tenant : Option String)
    (m : Migration) : Prop where
  change : m.change.Spares home database name tenant
  up : ∀ s ∈ m.up, s.Spares home database name tenant
  down : ∀ s ∈ m.down, s.Spares home database name tenant

/-- What a migration does in either direction leaves the collection alone. -/
theorem Migration.Spares.of_body {m : Migration} {tenant : Option String}
    (spares : m.Spares home database name tenant) {d : Direction} {s : Script}
    (body : m.body d = .ok s) : s.Spares home database name tenant := by
  cases d with
  | up =>
      cases body
      cases own : m.up with
      | none => exact spares.change
      | some script => exact spares.up script own
  | down =>
      unfold Migration.body at body
      cases own : m.down with
      | some script =>
          simp only [own] at body
          cases body
          exact spares.down _ own
      | none =>
          simp only [own] at body
          refine Script.forall_mem_inverse (fun {command _} reversed own => ?_) body spares.change
          refine Command.spares_reverse ?_ own
          rw [command.reverse_withDefaultTenant, reversed]
          rfl

end DocStore
