/-
Module: DocStore.Proofs.Migration.Inverting
Purpose: the inverses of commands and of bodies.  To give the objects of a command a database and
  to invert the command can be done in either order, so that what is carried out to take a change
  back are the inverses of what was carried out to make it, in the same databases.
Main exports:
  Command.reverseAll_eq_ok_iff, Script.inverse_eq, Script.forall_mem_inverse,
  Command.reverse_withDefaultTenant, Context.carryOut, Context.revert_mirrors
-/
import DocStore.Migration.Script
import DocStore.Proofs.Fallible

namespace DocStore

/-! ### One by one -/

namespace Command

/-- The inverse of a change of columns changes columns of the same collection. -/
theorem exists_of_reverse_alterCollection {c : Collection} {columns : List ColumnOp}
    {inverse : Command} (reversed : (alterCollection c columns).reverse = .ok inverse) :
    ∃ inverses, inverse = alterCollection c inverses := by
  rw [reverse] at reversed
  obtain ⟨inverses, _, rfl⟩ := exceptMap_eq_ok_iff.mp reversed
  exact ⟨inverses, rfl⟩

/-- Commands are inverted one by one. -/
theorem reverseAll_eq_ok_iff {commands inverses : List Command} :
    reverseAll commands = .ok inverses ↔
      List.Forall₂ (fun command inverse => command.reverse = .ok inverse) commands inverses := by
  induction commands generalizing inverses with
  | nil =>
      rw [List.forall₂_nil_left_iff, reverseAll, Except.ok.injEq]
      exact eq_comm
  | cons command rest inductionHypothesis =>
      rw [List.forall₂_cons_left_iff, reverseAll, exceptBind_eq_ok_iff]
      constructor
      · rintro ⟨inverse, own, more⟩
        obtain ⟨others, later, same⟩ := exceptBind_eq_ok_iff.mp more
        exact ⟨inverse, others, own, inductionHypothesis.mp later, (Except.ok.inj same).symm⟩
      · rintro ⟨inverse, others, own, later, rfl⟩
        exact ⟨inverse, own, exceptBind_eq_ok_iff.mpr ⟨others, inductionHypothesis.mpr later, rfl⟩⟩

/-- Their inversion fails for the first of them that has no inverse. -/
theorem exists_of_reverseAll_eq_error {commands : List Command} {e : Error}
    (failed : reverseAll commands = .error e) :
    ∃ before command after, commands = before ++ command :: after ∧ command.reverse = .error e ∧
      ∀ other ∈ before, ∃ inverse, other.reverse = .ok inverse := by
  induction commands with
  | nil => cases failed
  | cons command rest inductionHypothesis =>
      rw [reverseAll] at failed
      cases own : command.reverse with
      | error given =>
          rw [own] at failed
          cases failed
          exact ⟨[], command, rest, rfl, own, fun _ absent => absurd absent List.not_mem_nil⟩
      | ok inverse =>
          rw [own] at failed
          cases all : reverseAll rest with
          | error given =>
              rw [all] at failed
              cases failed
              obtain ⟨before, failing, after, cut, none, others⟩ := inductionHypothesis all
              exact ⟨command :: before, failing, after, congrArg (command :: ·) cut, none,
                List.forall_mem_cons.mpr ⟨⟨inverse, own⟩, others⟩⟩
          | ok inverses =>
              rw [all] at failed
              cases failed

end Command

namespace Script

/-- A body that does not fail of its own is inverted command by command, from the last one on. -/
theorem inverse_eq {s : Script} (succeeds : s.failure = none) :
    s.inverse = (Command.reverseAll s.commands.reverse).map fun commands => { commands } := by
  rw [inverse, recorded, succeeds]
  change (Command.reverseAll s.commands.reverse >>= fun inverses => _) = _
  cases Command.reverseAll s.commands.reverse <;> rfl

theorem inverse_of_failure {s : Script} {e : Error} (fails : s.failure = some e) :
    s.inverse = .error e := by
  rw [inverse, recorded, fails]
  rfl

/-- What holds of all commands of a body, and of the inverse of a command with it, holds of all
commands of the inverse body. -/
theorem forall_mem_inverse {p : Command → Prop} {s inverse : Script}
    (keeps : ∀ {command reversed : Command}, command.reverse = .ok reversed → p command →
      p reversed)
    (inverts : s.inverse = .ok inverse) (all : ∀ command ∈ s.commands, p command) :
    ∀ command ∈ inverse.commands, p command := by
  cases own : s.failure with
  | some e =>
      rw [inverse_of_failure own] at inverts
      cases inverts
  | none =>
      rw [inverse_eq own] at inverts
      obtain ⟨inverses, reversed, rfl⟩ := exceptMap_eq_ok_iff.mp inverts
      intro command member
      obtain ⟨original, inBody, is⟩ :=
        exists_left_of_forall₂ (Command.reverseAll_eq_ok_iff.mp reversed) member
      exact keeps is (all original (List.mem_reverse.mp inBody))

end Script

/-! ### Databases of objects -/

namespace Definition

theorem withDefaultTenant_idem (o : Definition) (tenant : Option String) :
    (o.withDefaultTenant tenant).withDefaultTenant tenant = o.withDefaultTenant tenant := by
  cases o <;> simp only [withDefaultTenant, Option.or_assoc, Option.or_self]

end Definition

namespace Command

theorem withDefaultTenant_idem (command : Command) (tenant : Option String) :
    (command.withDefaultTenant tenant).withDefaultTenant tenant =
      command.withDefaultTenant tenant := by
  cases command <;>
    simp only [withDefaultTenant, Definition.withDefaultTenant_idem, Option.or_assoc,
      Option.or_self]

/-- A description says nothing of databases, also where an index is described by the name that
it is given by default. -/
theorem describe_withDefaultTenant (command : Command) (tenant : Option String) :
    (command.withDefaultTenant tenant).describe = command.describe := by
  cases command with
  | alterCollection c columns => rfl
  | alterView v changes => rfl
  | execute aql => rfl
  | rename source target => cases source <;> cases target <;> rfl
  | create o => cases o <;> rfl
  | createIfNotExists o => cases o <;> rfl
  | drop o => cases o <;> rfl
  | dropIfExists o => cases o <;> rfl

/-- Changes of columns are inverted alike in commands that are described alike. -/
theorem reverseColumns_congr {command other : Command}
    (alike : command.describe = other.describe) (ops : List ColumnOp) :
    command.reverseColumns ops = other.reverseColumns ops := by
  have failure (action : String) : command.irreversible action = other.irreversible action := by
    rw [irreversible, irreversible, alike]
  have each (op : ColumnOp) : command.reverseColumn op = other.reverseColumn op := by
    cases op <;> simp only [reverseColumn, failure]
  induction ops with
  | nil => rfl
  | cons op ops inductionHypothesis =>
      rw [reverseColumns, reverseColumns, each, inductionHypothesis]

/-- The inverse has the objects of the command, and so their databases; and a command without
inverse is refused in the same words in every database. -/
theorem reverse_withDefaultTenant (command : Command) (tenant : Option String) :
    (command.withDefaultTenant tenant).reverse =
      command.reverse.map (·.withDefaultTenant tenant) := by
  have alike := command.describe_withDefaultTenant tenant
  cases command with
  | alterCollection c columns =>
      rw [withDefaultTenant] at alike ⊢
      rw [reverse, reverse, reverseColumns_congr alike]
      cases reverseColumns (alterCollection c columns) columns.reverse <;> rfl
  | _ => rfl

theorem reverseAll_map_withDefaultTenant (commands : List Command) (tenant : Option String) :
    reverseAll (commands.map (·.withDefaultTenant tenant)) =
      (reverseAll commands).map fun inverses => inverses.map (·.withDefaultTenant tenant) := by
  induction commands with
  | nil => rfl
  | cons command rest inductionHypothesis =>
      rw [List.map_cons, reverseAll, reverseAll, reverse_withDefaultTenant, inductionHypothesis]
      cases command.reverse with
      | error e => rfl
      | ok inverse => cases reverseAll rest <;> rfl

end Command

/-! ### Bodies -/

/-- The commands of a body as they are carried out, in a database for objects that declare
none. -/
def Script.commandsIn (s : Script) (tenant : Option String) : List Command :=
  s.commands.map (·.withDefaultTenant tenant)

namespace Context

/-- Carry out commands as they stand, in order up to the first that fails; if none does, end
with the given failure. -/
def carryOut (c : Context) (failure : Option Error) : List Command → Exchange Progress
  | [] => return { failure }
  | command :: rest => do
      match ← (command.perform c.tenant c.transaction).attempt with
      | .ok report => do
          let p ← c.carryOut failure rest
          return { p with log := report :: p.log }
      | .error e => return { failure := some e }

theorem issueAll_eq_carryOut (c : Context) (failure : Option Error) (commands : List Command) :
    c.issueAll failure commands =
      c.carryOut failure (commands.map (·.withDefaultTenant c.tenant)) := by
  induction commands with
  | nil => rfl
  | cons command rest inductionHypothesis =>
      rw [issueAll, List.map_cons, carryOut, inductionHypothesis]
      rfl

theorem run_eq_carryOut (c : Context) (s : Script) :
    c.run s = c.carryOut s.failure (s.commandsIn c.tenant) :=
  c.issueAll_eq_carryOut s.failure s.commands

/-- The commands that take a body back are inverted before they are given a database.  That
comes to inverting those that the body carries out. -/
theorem revert_eq_carryOut (c : Context) {s : Script} (succeeds : s.failure = none) :
    c.revert s = match Command.reverseAll (s.commandsIn c.tenant).reverse with
      | .ok inverses => c.carryOut none inverses
      | .error e => return { failure := some e } := by
  rw [revert, Script.inverse_eq succeeds, Script.commandsIn, ← List.map_reverse,
    Command.reverseAll_map_withDefaultTenant]
  cases Command.reverseAll s.commands.reverse with
  | ok inverses => exact c.run_eq_carryOut { commands := inverses }
  | error e => rfl

theorem revert_of_failure (c : Context) {s : Script} {e : Error} (fails : s.failure = some e) :
    c.revert s = pure { failure := some e } := by
  rw [revert, Script.inverse_of_failure fails]

/-- To fill in a database commutes with inverting a command, also where it has no inverse, and
to fill it in twice is to fill it in once.  So to take a change back is to carry out the inverses
of the commands that the change carries out, the last one first.  It is to carry out nothing if
the change fails of its own, or if one of these commands has no inverse: the failure is then that
of the last such command. -/
theorem revert_mirrors :
    (∀ (command : Command) (tenant : Option String),
      (command.withDefaultTenant tenant).reverse =
        command.reverse.map (·.withDefaultTenant tenant) ∧
      (command.withDefaultTenant tenant).withDefaultTenant tenant =
        command.withDefaultTenant tenant) ∧
    ∀ (c : Context) (s : Script),
      c.run s = c.carryOut s.failure (s.commandsIn c.tenant) ∧
      ((s.failure = none ∧ ∃ inverses,
          List.Forall₂ (fun command inverse => command.reverse = .ok inverse)
            (s.commandsIn c.tenant).reverse inverses ∧
          c.revert s = c.carryOut none inverses) ∨
        (s.failure = none ∧ ∃ e before command after,
          s.commandsIn c.tenant = before ++ command :: after ∧ command.reverse = .error e ∧
          (∀ later ∈ after, ∃ inverse, later.reverse = .ok inverse) ∧
          c.revert s = pure { failure := some e }) ∨
        ∃ e, s.failure = some e ∧ c.revert s = pure { failure := some e }) := by
  refine ⟨fun command tenant => ⟨command.reverse_withDefaultTenant tenant,
    command.withDefaultTenant_idem tenant⟩, fun c s => ⟨c.run_eq_carryOut s, ?_⟩⟩
  cases own : s.failure with
  | some e => exact Or.inr (Or.inr ⟨e, rfl, c.revert_of_failure own⟩)
  | none =>
      have reverted := c.revert_eq_carryOut own
      cases all : Command.reverseAll (s.commandsIn c.tenant).reverse with
      | ok inverses =>
          rw [all] at reverted
          exact Or.inl ⟨rfl, inverses, Command.reverseAll_eq_ok_iff.mp all, reverted⟩
      | error e =>
          rw [all] at reverted
          obtain ⟨before, command, after, cut, failed, others⟩ :=
            Command.exists_of_reverseAll_eq_error all
          refine Or.inr (Or.inl ⟨rfl, e, after.reverse, command, before.reverse, ?_, failed, ?_,
            reverted⟩)
          · simpa using congrArg List.reverse cut
          · exact fun later member => others later (List.mem_reverse.mp member)

end Context

end DocStore
