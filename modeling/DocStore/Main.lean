/-
Module: DocStore.Main
Purpose: the program: arguments, variables, files and a store over the network.
Main exports:
  main
-/
import DocStore.CommandLine.Program
import DocStore.Http.Message
import Std.Async.DNS
import Std.Async.TCP
import Std.Time

namespace DocStore.Main

open Std.Async Std.Net

/-! ### The store -/

/-- All bytes up to the end of a connection. -/
partial def receiveAll (client : TCP.Socket.Client) (received : ByteArray) : Async ByteArray := do
  match ← client.recv? 65536 with
  | none => return received
  | some bytes => receiveAll client (received ++ bytes)

/-- The socket address of an address of the network. -/
def socketAddress (ip : IPAddr) (port : Nat) : SocketAddress :=
  match ip with
  | .v4 a => .v4 ⟨a, port.toUInt16⟩
  | .v6 a => .v6 ⟨a, port.toUInt16⟩

/-- The bytes that a server sends back. -/
def converse (server : ServerAddress) (text : String) : Async ByteArray := do
  let found ← DNS.getAddrInfo server.host "" (some .ipv4)
  match found[0]? with
  | none => throw (IO.userError ("no address for " ++ server.host))
  | some ip =>
    let client ← TCP.Socket.Client.mk
    client.connect (socketAddress ip server.port)
    client.send text.toUTF8
    receiveAll client ByteArray.empty

/-- Wait for a task up to a moment of the clock. -/
partial def awaitUntil {α : Type} (task : Task (Except IO.Error α)) (deadline : Nat) : IO α := do
  if ← IO.hasFinished task then IO.ofExcept task.get
  else if deadline ≤ (← IO.monoMsNow) then throw (IO.userError "operation timed out")
  else
    IO.sleep 5
    awaitUntil task deadline

/-- Run an action, but no longer than a number of milliseconds. -/
def within {α : Type} (timeout : Option Nat) (action : IO α) : IO α := do
  match timeout with
  | none => action
  | some limit =>
    let deadline := (← IO.monoMsNow) + limit
    awaitUntil (← IO.asTask action) deadline

/-- Ask the store. -/
def ask (settings : HttpSettings) (r : Request) : IO Reply := do
  let context := r.method.word ++ " " ++ r.fullPath settings.database
  let lost (message : String) : Reply := .lost (.lost context message)
  match ServerAddress.ofUrl? (settings.url r) with
  | none => return lost "unsupported address"
  | some server =>
    try
      let bytes ← within settings.timeout
        (converse server ((settings.wire r).text server)).block
      match WireReply.ofBytes? bytes.toList with
      | some reply => return settings.receive r reply
      | none => return lost "malformed response"
    catch e => return lost (toString e)

/-- Read all rows of a cursor. -/
partial def drain (settings : HttpSettings) (cursor : CursorRead) :
    IO (Except Error (List Json)) := do
  match cursor.receive (← ask settings cursor.request) with
  | .finished result => return result
  | .more next => drain settings next

/-- Run an operation against the store. -/
def perform {α : Type} (settings : HttpSettings) : Exchange α → IO (Except Error α)
  | .done outcome => return outcome
  | .send r next => do
    let reply ← ask settings r
    perform settings (next reply)
  | .drain cursor next => do
    let rows ← drain settings cursor
    perform settings (next rows)
  | .warn warning next => do
    IO.eprintln warning.text
    perform settings next

/-! ### Files -/

/-- The items of the directory at a path, if there is one. -/
def directoryAt? (path : String) : IO (Option Directory) := do
  let place := (← IO.currentDir) / path
  if path.isEmpty || !(← place.isDir) then return none
  let items ← (← place.readDir).toList.mapM fun entry => do
    if ← entry.path.isDir then return (entry.fileName, DirectoryItem.directory)
    else return (entry.fileName, DirectoryItem.file (← IO.FS.readBinFile entry.path))
  return some { path, items }

/-- Write a new migration file. -/
def generate (settings : AdapterSettings) (name : String) : IO ProgramOutput := do
  let now ← Std.Time.Timestamp.now
  match newMigration settings (timeStamp now.toSecondsSinceUnixEpoch.val.toNat) name with
  | .error e => return { fault := some (.failed e) }
  | .ok file =>
    let directory := (← IO.currentDir) / file.directory
    let place := (← IO.currentDir) / file.path
    if ← place.pathExists then return { fault := some (.alreadyExists file.path) }
    IO.FS.createDirAll directory
    IO.FS.writeFile place MigrationFile.skeleton
    return { text := file.text }

/-! ### Calls -/

/-- The settings with a password that is asked for, if that is wanted. -/
def withPassword (i : Invocation) : IO HttpSettings := do
  if i.askPassword then
    IO.eprint ("Password for " ++ i.http.username.getD "" ++ ": ")
    let line ← (← IO.getStdin).getLine
    return { i.http with password := some line.trimAsciiEnd.toString }
  else return i.http

/-- Run a call. -/
def run (i : Invocation) : IO ProgramOutput := do
  match i.action with
  | .generate name => generate i.settings name
  | .store action =>
    let directories ← i.settings.paths.mapM directoryAt?
    match discover (directories.filterMap id) with
    | .error e => return { fault := some (.failed e) }
    | .ok entries =>
      let settings ← withPassword i
      match ← perform settings (action.run i.settings.runnerOptions entries) with
      | .ok output => return output
      | .error e => return { fault := some (.failed e) }

/-- The variables that the program reads, as far as they are set. -/
def environment : IO (Dict String) := do
  let names := AdapterSettings.variableNames ++ HttpSettings.variableNames
  let found ← names.filterMapM fun name => do
    return (← IO.getEnv name).map fun value => (name, value)
  return .ofList found

end DocStore.Main

open DocStore in
/-- Run the program on its arguments. -/
def main (arguments : List String) : IO UInt32 := do
  match Invocation.read arguments (← Main.environment) with
  | .error .versionWanted =>
    IO.print versionText
    return 0
  | .error .helpWanted =>
    IO.print usageText
    return 0
  | .error .wrongUsage =>
    IO.eprint usageText
    return usageExitCode.toUInt32
  | .ok i =>
    let output ← Main.run i
    IO.print output.text
    IO.eprint output.errorText
    return output.exitCode.toUInt32
