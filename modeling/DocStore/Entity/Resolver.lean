/-
Module: DocStore.Entity.Resolver
Purpose: choosing the concrete type of a field map in a polymorphic association.
Main exports:
  Candidate, resolveType
-/
import DocStore.Error

namespace DocStore

/-- A type and the fields that a field map must have to be of that type. -/
structure Candidate where
  tag : String
  required : List String
deriving DecidableEq, Repr

namespace Candidate

/-- Whether every required field is among the keys. -/
def matchesKeys (c : Candidate) (keys : List String) : Bool :=
  c.required.all keys.contains

end Candidate

/-- The first declared candidate whose required fields are all present, even if a
later one would match as well. -/
def resolveType (candidates : List Candidate) (keys : List String) : Except Error String :=
  match candidates.find? (·.matchesKeys keys) with
  | some candidate => .ok candidate.tag
  | none => .error (.validation (.noType (Dict.ofList (keys.map fun key => (key, ()))).keys))

end DocStore
