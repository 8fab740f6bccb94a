/-
Module: DocStore.Migration.Directory
Purpose: finding the migrations declared in directories.
Main exports:
  Directory, joinPath, discover
-/
import DocStore.Migration.File

namespace DocStore

/-- What a name in a directory stands for. -/
inductive DirectoryItem where
  | file (content : ByteArray)
  | directory

/-- A directory: its path, and what is in it. -/
structure Directory where
  path : String
  items : List (String × DirectoryItem)

/-- The path of a name in a directory. -/
def joinPath (directory name : String) : String :=
  if directory.isEmpty || directory.endsWith "/" then directory ++ name
  else directory ++ "/" ++ name

/-- A file that is named like a migration. -/
structure MigrationSource where
  version : Int
  name : String
  path : String
  content : ByteArray

namespace MigrationSource

/-- The migration file that an item of a directory is, if its name and kind are
right. -/
def of? (directory : String) (item : String × DirectoryItem) : Option MigrationSource :=
  match parseFileName? item.1, item.2 with
  | some (version, name), .file content =>
      some { version, name, path := joinPath directory item.1, content }
  | _, _ => none

/-- Read a migration file. -/
def load (s : MigrationSource) : Except Error MigrationFile :=
  match String.fromUTF8? s.content with
  | none => .error (.file .notText)
  | some text =>
      match MigrationFile.parse? text with
      | none => .error (.validation (.migrationFile s.path))
      | some file => .ok file

/-- The entry that a migration file gives. -/
def entry (s : MigrationSource) : Except Error Entry := do
  let file ← s.load
  .ok { version := s.version, name := s.name, migration := file.migration }

end MigrationSource

/-- The migrations in directories, by ascending version.  Other files are passed
over. -/
def discover (directories : List Directory) : Except Error (List Entry) :=
  let sources := directories.flatMap fun d => d.items.filterMap (MigrationSource.of? d.path)
  (sources.mergeSort fun a b => a.version ≤ b.version).mapM MigrationSource.entry

end DocStore
