/-
Module: DocStore.Migration.File
Purpose: migrations declared as JSON files, and the names of these files.
Main exports:
  MigrationFile, MigrationFile.toJson, MigrationFile.read?, MigrationFile.parse?,
  MigrationFile.skeleton, parseFileName?, fileName
-/
import DocStore.Migration.Basic
import DocStore.Json.Parser

namespace DocStore

/-- A declared migration. -/
structure MigrationFile where
  change : List Command := []
  up : Option (List Command) := none
  down : Option (List Command) := none
  disableTransaction : Bool := false
  writeCollections : List String := []

namespace MigrationFile

/-- The migration that is declared. -/
def migration (f : MigrationFile) : Migration where
  change := { commands := f.change }
  up := f.up.map fun commands => { commands }
  down := f.down.map fun commands => { commands }
  disableTransaction := f.disableTransaction
  writeCollections := f.writeCollections

/-- The JSON form of commands. -/
def commandsJson (commands : List Command) : Json :=
  .arr (commands.map Command.toJson)

/-- The members of the JSON form. -/
def members (f : MigrationFile) : List (String × Json) :=
  [("change", commandsJson f.change), ("disable_transaction", .bool f.disableTransaction)] ++
    optionalMember "down" f.down commandsJson ++
    optionalMember "up" f.up commandsJson ++
    (if f.writeCollections.isEmpty then []
      else [("write_collections", .texts f.writeCollections)])

/-- The JSON form. -/
def toJson (f : MigrationFile) : Json :=
  .obj ⟨f.members⟩

/-- The fields of the JSON form. -/
def fieldNames : List String :=
  ["change", "up", "down", "disable_transaction", "write_collections"]

/-- What is kept of the text of a file. -/
def outline : Json.Outline :=
  let commands := Json.Outline.each Command.outline
  .record fieldNames [("change", commands), ("up", commands), ("down", commands)]

/-- Read the JSON form. -/
def read? (reading : Reading) (j : Json) : Option MigrationFile := do
  let commands := Json.readList? (Command.read? reading)
  let r ← Record.read? fieldNames j
  let change ← r.defaulted? "change" [] commands
  let up ← r.optional? "up" commands
  let down ← r.optional? "down" commands
  let disableTransaction ← r.defaulted? "disable_transaction" false Json.readBool?
  let writeCollections ← r.defaulted? "write_collections" [] (Json.readList? Json.readText?)
  some { change, up, down, disableTransaction, writeCollections }

/-- Read the text of a file. -/
def parse? (text : String) : Option MigrationFile :=
  (Json.parseAs? outline text).bind (read? .text)

/-- The text of a file that declares nothing yet. -/
def skeleton : String :=
  ({} : MigrationFile).toJson.renderIndented ++ "\n"

end MigrationFile

/-! ### File names -/

/-- The version and the name in a file name such as `20240101120000_create_users.json`. -/
def parseFileName? (name : String) : Option (Int × String) := do
  let stem ← Text.dropTrailing? ".json".toList name.toList
  let (digits, rest) ← Text.splitOnce? ['_'] stem
  let version ← (Text.unsigned? digits).filter (· ≤ Text.signedLimit)
  if rest.isEmpty then none else some (version, String.ofList rest)

/-- Whether a name is made of lower-case ASCII letters, digits and underscores. -/
def isMigrationName (name : String) : Bool :=
  !name.isEmpty && name.toList.all fun c => c.isLower || c.isDigit || c == '_'

/-- The file name of a new migration. -/
def fileName (version : Int) (name : String) : Except Error String :=
  if isMigrationName name then .ok (toString version ++ "_" ++ name ++ ".json")
  else .error (.validation (.migrationName name))

end DocStore
