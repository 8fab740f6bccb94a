/-
Module: DocStore.CommandLine.FileTree
Purpose: a tree of files in memory, under a root that is also the working directory.
Main exports:
  FileTree, FileSystem, FileSystem.directory?, FileSystem.makeDirectory, FileSystem.write
-/
import DocStore.Migration.Directory

namespace DocStore

/-- A file, or a directory with what its names stand for. -/
inductive FileTree where
  | file (content : ByteArray)
  | directory (items : Dict FileTree)

/-- Why a directory cannot be made. -/
inductive PathFault where
  /-- A file has its name. -/
  | fileExists
  /-- A file stands where a directory would have to be. -/
  | notDirectory
deriving DecidableEq, Repr

/-- The wording of a path fault. -/
def PathFault.message : PathFault → String
  | fileExists => "File exists (os error 17)"
  | notDirectory => "Not a directory (os error 20)"

namespace FileTree

/-- What is at a place below a tree. -/
def find? : FileTree → List String → Option FileTree
  | tree, [] => some tree
  | file _, _ :: _ => none
  | directory items, name :: rest =>
      match items.get? name with
      | none => none
      | some tree => tree.find? rest
termination_by _ names => names.length

/-- The tree with a directory at a place, which may be there already. -/
def makeDirectory : FileTree → List String → Except PathFault FileTree
  | directory items, [] => .ok (directory items)
  | file _, [] => .error .fileExists
  | file _, _ :: _ => .error .notDirectory
  | directory items, name :: rest => do
      let below := (items.get? name).getD (directory {})
      let made ← below.makeDirectory rest
      .ok (directory (items.insert name made))
termination_by _ names => names.length

/-- The tree with a file at a place whose directory is there. -/
def write (content : ByteArray) : FileTree → List String → FileTree
  | directory items, [name] => directory (items.insert name (file content))
  | directory items, name :: rest =>
      match items.get? name with
      | none => directory items
      | some tree => directory (items.insert name (tree.write content rest))
  | tree, _ => tree
termination_by _ names => names.length

end FileTree

/-- A tree of files under the path of its root. -/
structure FileSystem where
  root : String
  tree : FileTree

namespace FileSystem

/-- One step from a place, given with its last name first. -/
def step (place : List String) (name : String) : List String :=
  if name = "" ∨ name = "." then place
  else if name = ".." then place.tail
  else name :: place

/-- The place of a path below the root; a path that is not absolute starts there. -/
def place? (fs : FileSystem) (path : String) : Option (List String) :=
  let below (text : String) : List String := ((Text.splitAt '/' text).foldl step []).reverse
  match Text.dropLeading? fs.root.toList path.toList with
  | some [] => some []
  | some ('/' :: rest) => some (below (String.ofList rest))
  | _ => if path.startsWith "/" then none else some (below path)

/-- What is at a path; an empty path is nowhere. -/
def find? (fs : FileSystem) (path : String) : Option FileTree :=
  if path.isEmpty then none else (fs.place? path).bind fs.tree.find?

/-- An item of a directory as it looks from the directory. -/
def itemOf : FileTree → DirectoryItem
  | .file content => .file content
  | .directory _ => .directory

/-- The tree of directories that stand beside each other, with nothing in the
directories in them. -/
def treeOf (directories : List (String × List (String × DirectoryItem))) : FileTree :=
  let treeOfItem : DirectoryItem → FileTree
    | .file content => .file content
    | .directory => .directory {}
  .directory (.ofList (directories.map fun d =>
    (d.1, .directory (.ofList (d.2.map fun item => (item.1, treeOfItem item.2))))))

/-- The directory at a path. -/
def directory? (fs : FileSystem) (path : String) : Option Directory :=
  match fs.find? path with
  | some (.directory items) =>
      some { path, items := items.entries.map fun item => (item.1, itemOf item.2) }
  | _ => none

/-- The file system with a directory at a path. -/
def makeDirectory (fs : FileSystem) (path : String) : Except PathFault FileSystem :=
  match fs.place? path with
  | none => .ok fs
  | some names => (fs.tree.makeDirectory names).map fun tree => { fs with tree }

/-- The file system with a file at a path. -/
def write (fs : FileSystem) (path : String) (content : ByteArray) : FileSystem :=
  match fs.place? path with
  | none => fs
  | some names => { fs with tree := fs.tree.write content names }

/-- The files of a directory with their contents, in the order of their names. -/
def files (fs : FileSystem) (path : String) : List (String × ByteArray) :=
  match fs.find? path with
  | some (.directory items) =>
      items.entries.filterMap fun item =>
        match item.2 with
        | .file content => some (item.1, content)
        | .directory _ => none
  | _ => []

end FileSystem

end DocStore
