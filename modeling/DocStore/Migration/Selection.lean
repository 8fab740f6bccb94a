/-
Module: DocStore.Migration.Selection
Purpose: which migrations are to run, in which order, and which are known or recorded.
Main exports:
  Strategy, selectPending, checkDuplicates, checkOrder, StatusLine, statusLines
-/
import DocStore.Migration.Basic

namespace DocStore

/-- How far to go. -/
inductive Strategy where
  | all
  | step (count : Nat)
  /-- As far as a version, which is included. -/
  | through (version : Int)
  /-- As far as a version, which is not included. -/
  | shortOf (version : Int)
deriving DecidableEq, Repr

namespace Direction

/-- Whether a version lies on the way to a target, which is included. -/
def reaches (d : Direction) (target version : Int) : Bool :=
  match d with
  | up => version ≤ target
  | down => target ≤ version

/-- Whether a version lies on the way to a target, which is not included. -/
def approaches (d : Direction) (target version : Int) : Bool :=
  match d with
  | up => version < target
  | down => target < version

/-- Whether a version can go in a direction: up if it is not recorded, down if it
is. -/
def isOpen (d : Direction) (applied : List Int) (version : Int) : Bool :=
  match d with
  | up => !applied.contains version
  | down => applied.contains version

/-- Entries in the order of a direction: by ascending version, or the reverse of
that.  Equal versions stay in order going up. -/
def arrange (d : Direction) (entries : List Entry) : List Entry :=
  let ascending := entries.mergeSort fun a b => a.version ≤ b.version
  match d with
  | up => ascending
  | down => ascending.reverse

end Direction

/-- The part of the candidates that a strategy takes. -/
def Strategy.take (s : Strategy) (d : Direction) (candidates : List Entry) : List Entry :=
  match s with
  | all => candidates
  | step count => candidates.take count
  | through target => candidates.takeWhile fun e => d.reaches target e.version
  | shortOf target => candidates.takeWhile fun e => d.approaches target e.version

/-- The entries that are to run, in order. -/
def selectPending (entries : List Entry) (applied : List Int) (d : Direction) (s : Strategy) :
    List Entry :=
  s.take d (d.arrange (entries.filter fun e => d.isOpen applied e.version))

/-- Check entries against the versions and names before them. -/
def checkDuplicatesAfter (versions : List Int) (names : List String) :
    List Entry → Except OrderFault Unit
  | [] => .ok ()
  | e :: rest =>
      if versions.contains e.version then .error (.repeatedVersion e.version)
      else if names.contains e.name then .error (.repeatedName e.name)
      else checkDuplicatesAfter (e.version :: versions) (e.name :: names) rest

/-- No version and no name may occur twice. -/
def checkDuplicates (entries : List Entry) : Except OrderFault Unit :=
  checkDuplicatesAfter [] [] entries

/-- An entry that is to be applied should be newer than all recorded ones. -/
def checkOrder (e : Entry) (applied : List Int) : Except OrderFault Unit :=
  match applied.max? with
  | none => .ok ()
  | some latest =>
      if latest < e.version then .ok () else .error (.outdated e.version e.name latest)

/-! ### Status -/

/-- What is known of a version.  A recorded version without an entry has no
name. -/
structure StatusLine where
  applied : Bool
  version : Int
  name : Option String
deriving DecidableEq, Repr

/-- The lines for all entries and for all recorded versions without one, by
ascending version. -/
def statusLines (entries : List Entry) (applied : List Int) : List StatusLine :=
  let known := entries.map fun e => ⟨applied.contains e.version, e.version, some e.name⟩
  let unknown := (applied.filter fun v => !entries.any fun e => e.version == v).map fun v =>
    ⟨true, v, none⟩
  (known ++ unknown).mergeSort fun a b => a.version ≤ b.version

end DocStore
