/-
Module: DocStore.Migration.Basic
Purpose: migrations with their bodies, and entries that name them by version.
Main exports:
  Direction, Migration, Migration.body, Entry, Entry.inspect
-/
import DocStore.Migration.Script

namespace DocStore

/-- Whether migrations are applied or taken back. -/
inductive Direction where
  | up
  | down
deriving DecidableEq, Repr

/-- A migration.  It is applied by `up` or else by `change`, and taken back by
`down` or else by the inverse of `change`. -/
structure Migration where
  change : Script := {}
  up : Option Script := none
  down : Option Script := none
  /-- Whether it runs outside of a transaction. -/
  disableTransaction : Bool := false
  /-- The collections that its queries write to. -/
  writeCollections : List String := []

/-- What a migration does in a direction. -/
def Migration.body (m : Migration) : Direction → Except Error Script
  | .up => .ok (m.up.getD m.change)
  | .down =>
      match m.down with
      | some script => .ok script
      | none => m.change.inverse

/-- A migration with its version and name. -/
structure Entry where
  version : Int
  name : String
  migration : Migration

/-- The version and the name of an entry, for display. -/
def Entry.inspect (e : Entry) : String :=
  "MigrationEntry \x7b version: " ++ toString e.version ++ ", name: " ++ Text.inspect e.name ++
    ", .. \x7d"

end DocStore
