/-
Module: DocStore.DocumentId
Purpose: two-part document identifiers, a collection and a key around a slash.
Main exports:
  DocumentId, DocumentId.text, DocumentId.parse?, DocumentId.read, DocumentId.keyOf
-/

namespace DocStore

/-- A document by its collection and its key in it. -/
structure DocumentId where
  collection : String
  key : String
deriving DecidableEq, Repr

/-- What is wrong with a document identifier. -/
inductive IdFault where
  | notTwoParts (text : String)
  | emptyKey (text : String)
deriving DecidableEq, Repr

/-- The wording of a fault. -/
def IdFault.message : IdFault → String
  | notTwoParts text => "expected `<collection>/<key>`, got `" ++ text ++ "`"
  | emptyKey text => "empty document key `" ++ text ++ "`"

namespace DocumentId

/-- The written form. -/
def text (id : DocumentId) : String :=
  id.collection ++ "/" ++ id.key

/-- A part of an identifier is not empty and holds no slash. -/
def isPart (s : List Char) : Bool :=
  !s.isEmpty && !s.contains '/'

/-- The two parts around the first slash, if both are parts. -/
def parse? (s : String) : Option DocumentId :=
  let chars := s.toList
  match chars.dropWhile (· != '/') with
  | [] => none
  | _ :: key =>
      let collection := chars.takeWhile (· != '/')
      if isPart collection && isPart key then
        some ⟨String.ofList collection, String.ofList key⟩
      else none

/-- The two parts of an identifier. -/
def read (s : String) : Except IdFault DocumentId :=
  match parse? s with
  | some id => .ok id
  | none => .error (.notTwoParts s)

/-- The key of an identifier, or the text itself when it is a key alone. -/
def keyOf (s : String) : Except IdFault String :=
  if s.toList.contains '/' then (read s).map DocumentId.key
  else if isPart s.toList then .ok s
  else .error (.emptyKey s)

end DocumentId

end DocStore
