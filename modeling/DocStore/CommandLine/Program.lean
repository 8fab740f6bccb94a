/-
Module: DocStore.CommandLine.Program
Purpose: what a call of the program does and prints.
Main exports:
  ProgramOutput, StoreAction.run, newMigration, timeStamp, Invocation.runIn
-/
import DocStore.CommandLine.Arguments
import DocStore.CommandLine.FileTree
import DocStore.Exchange.Server

namespace DocStore

/-- Why a call fails. -/
inductive ProgramFault where
  | failed (error : Error)
  | alreadyExists (path : String)
  | blocked (fault : PathFault)

/-- The wording of a fault; what is behind the failure of a file comes after it. -/
def ProgramFault.message : ProgramFault → String
  | failed error =>
      match error with
      | .file fault => error.message ++ "\n\nCaused by:\n    " ++ fault.message
      | _ => error.message
  | alreadyExists path => path ++ " already exists"
  | blocked fault => fault.message

/-- What a call prints, and why it fails if it does. -/
structure ProgramOutput where
  text : String := ""
  fault : Option ProgramFault := none

namespace ProgramOutput

/-- What a call prints about its failure. -/
def errorText (o : ProgramOutput) : String :=
  match o.fault with
  | none => ""
  | some fault => "Error: " ++ fault.message ++ "\n"

/-- The status that a call ends with. -/
def exitCode (o : ProgramOutput) : Nat :=
  if o.fault.isSome then 1 else 0

end ProgramOutput

/-- The status after wrong usage. -/
def usageExitCode : Nat := 2

/-- What the program says of its version. -/
def versionText : String := "aqueduct 0.1.0\n"

/-- What the program says of its use. -/
def usageText : String :=
  "usage: aqueduct [options] migrate|rollback|status|gen-migration NAME\n"

/-! ### Actions on a store -/

/-- The name of the first entry with a version. -/
def nameOfVersion (entries : List Entry) (version : Int) : String :=
  match entries.find? fun e => e.version == version with
  | some e => e.name
  | none => ""

/-- The lines about the versions that ran. -/
def ranText (entries : List Entry) (verb : String) (ran : List Int) : String :=
  if ran.isEmpty then "nothing to do\n"
  else String.join (ran.map fun version =>
    verb ++ " " ++ toString version ++ " " ++ nameOfVersion entries version ++ "\n")

/-- A text with spaces behind it up to a width. -/
def padded (width : Nat) (text : String) : String :=
  text ++ String.ofList (List.replicate (width - text.length) ' ')

/-- The lines above a status. -/
def statusHeader : String :=
  "\n" ++ padded 10 "Status" ++ padded 18 "Migration ID" ++ "Migration Name\n" ++
    String.ofList (List.replicate 50 '-') ++ "\n"

/-- A line of a status. -/
def StatusLine.text (l : StatusLine) : String :=
  "  " ++ padded 8 (if l.applied then "up" else "down") ++ padded 18 (toString l.version) ++
    l.name.getD "** FILE NOT FOUND **" ++ "\n"

/-- The text of a status. -/
def statusText (lines : List StatusLine) : String :=
  statusHeader ++ String.join (lines.map StatusLine.text) ++ "\n"

/-- What is printed about an outcome, if that is printed only in the end. -/
def reported {α : Type} (onFailure : String) (wording : α → String) :
    Except Error α → ProgramOutput
  | .ok value => { text := wording value }
  | .error e => { text := onFailure, fault := some (.failed e) }

/-- Do what is to be done with a store. -/
def StoreAction.run (o : RunnerOptions) (entries : List Entry) :
    StoreAction → Exchange ProgramOutput
  | .migrate strategy strict => do
      let options := { o with strictOrder := o.strictOrder || strict }
      let outcome ← (options.migrate entries .up strategy).attempt
      return reported "" (ranText entries "migrated") outcome
  | .rollback strategy => do
      let outcome ← (o.migrate entries .down strategy).attempt
      return reported "" (ranText entries "reverted") outcome
  | .status => do
      let outcome ← (o.status entries).attempt
      return reported statusHeader statusText outcome

/-! ### New migration files -/

/-- A file that is to be written: its directory and its path. -/
structure NewFile where
  directory : String
  path : String

/-- The file of a new migration, in the first of the directories. -/
def newMigration (settings : AdapterSettings) (now : Int) (name : String) :
    Except Error NewFile := do
  let file ← fileName now name
  let directory := settings.paths.headD ""
  .ok { directory, path := joinPath directory file }

/-- What is printed about a new file. -/
def NewFile.text (f : NewFile) : String :=
  "* creating " ++ f.path ++ "\n"

/-- The civil date of a day, counted from the first of March of the year 0: year,
month and day. -/
def civilDate (day : Nat) : Nat × Nat × Nat :=
  let era := day / 146097
  let dayOfEra := day % 146097
  let yearOfEra := (dayOfEra - dayOfEra / 1460 + dayOfEra / 36524 - dayOfEra / 146096) / 365
  let dayOfYear := dayOfEra - (365 * yearOfEra + yearOfEra / 4 - yearOfEra / 100)
  let shifted := (5 * dayOfYear + 2) / 153
  let dayOfMonth := dayOfYear - (153 * shifted + 2) / 5 + 1
  let month := if shifted < 10 then shifted + 3 else shifted - 9
  let year := yearOfEra + era * 400 + (if month ≤ 2 then 1 else 0)
  (year, month, dayOfMonth)

/-- A moment, in seconds since the start of 1970, as year, month, day, hour, minute
and second in one number of fourteen digits. -/
def timeStamp (seconds : Nat) : Nat :=
  let (year, month, day) := civilDate (seconds / 86400 + 719468)
  let second := seconds % 86400
  ((((year * 100 + month) * 100 + day) * 100 + second / 3600) * 100 + second / 60 % 60) * 100 +
    second % 60

example : timeStamp 1709210096 = 20240229123456 := by decide

/-! ### Calls -/

/-- A store, the files around it, and what a call printed. -/
structure ProgramRun (σ : Type) where
  output : ProgramOutput
  state : σ
  files : FileSystem

namespace Invocation

/-- Write a new migration file. -/
def generateIn (settings : AdapterSettings) (files : FileSystem) (now : Int) (name : String) :
    ProgramOutput × FileSystem :=
  match newMigration settings now name with
  | .error e => ({ fault := some (.failed e) }, files)
  | .ok file =>
      if (files.find? file.path).isSome then
        ({ fault := some (.alreadyExists file.path) }, files)
      else
        match files.makeDirectory file.directory with
        | .error fault => ({ fault := some (.blocked fault) }, files)
        | .ok made =>
            ({ text := file.text }, made.write file.path MigrationFile.skeleton.toUTF8)

/-- Run a call against a server and files in memory, at a moment given by its time
stamp. -/
def runIn {σ : Type} (i : Invocation) (server : HttpSettings → Server σ) (state : σ)
    (files : FileSystem) (now : Int) : ProgramRun σ :=
  match i.action with
  | .generate name =>
      let (output, files) := generateIn i.settings files now name
      { output, state, files }
  | .store action =>
      match discover (i.settings.paths.filterMap files.directory?) with
      | .error e => { output := { fault := some (.failed e) }, state, files }
      | .ok entries =>
          let run := (action.run i.settings.runnerOptions entries).runOn (server i.http) state
          let output := match run.outcome with
            | .ok output => output
            | .error e => { fault := some (.failed e) }
          { output, state := run.state, files }

end Invocation

end DocStore
