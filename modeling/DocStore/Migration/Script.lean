/-
Module: DocStore.Migration.Script
Purpose: what the body of a migration does: commands in order, and their inversion.
Main exports:
  Script, Script.inverse, Context, Context.run, Context.revert, Progress
-/
import DocStore.Migration.Execution

namespace DocStore

/-- What a body does: it issues commands in order, and may end with a failure of
its own. -/
structure Script where
  commands : List Command := []
  failure : Option Error := none

namespace Script

/-- The commands of a body, if it does not fail. -/
def recorded (s : Script) : Except Error (List Command) :=
  match s.failure with
  | none => .ok s.commands
  | some e => .error e

/-- The body that takes another one back: the inverse of every command, the last
one first.  There is none if one of the commands has no inverse. -/
def inverse (s : Script) : Except Error Script := do
  let commands ← s.recorded
  let inverses ← Command.reverseAll commands.reverse
  .ok { commands := inverses }

end Script

/-- Where a body runs: the database of objects that declare none, and the
transaction of its raw queries. -/
structure Context where
  tenant : Option String := none
  transaction : Option Transaction := none

/-- How far a body got: the reports of the commands that succeeded, and why it
stopped early. -/
structure Progress where
  log : List Report := []
  failure : Option Error := none

namespace Progress

/-- The outcome without the reports. -/
def outcome (p : Progress) : Except Error Unit :=
  match p.failure with
  | none => .ok ()
  | some e => .error e

end Progress

namespace Context

/-- Run one command. -/
def issue (c : Context) (command : Command) : Exchange Report :=
  (command.withDefaultTenant c.tenant).perform c.tenant c.transaction

/-- Run commands in order up to the first that fails; if none does, end with the
given failure. -/
def issueAll (c : Context) (failure : Option Error) : List Command → Exchange Progress
  | [] => return { failure }
  | command :: rest => do
      match ← (c.issue command).attempt with
      | .ok report => do
          let p ← c.issueAll failure rest
          return { p with log := report :: p.log }
      | .error e => return { failure := some e }

/-- Run a body. -/
def run (c : Context) (s : Script) : Exchange Progress :=
  c.issueAll s.failure s.commands

/-- Take back what a body does.  Nothing runs unless all of it can be taken
back. -/
def revert (c : Context) (s : Script) : Exchange Progress :=
  match s.inverse with
  | .ok inverse => c.run inverse
  | .error e => return { failure := some e }

end Context

end DocStore
