/-
Module: DocStore.Entity.Basic
Purpose: entity types, the collections they live in, and names of edge collections.
Main exports:
  CollectionKind, Entity, Entity.withFields, Entity.withPrimaryKey, edgeCollectionName
-/
import DocStore.Json.Record

namespace DocStore

/-- What a collection holds: documents, or edges between documents. -/
inductive CollectionKind where
  | document
  | edge
deriving DecidableEq, Repr, Inhabited

namespace CollectionKind

/-- The number of a kind in the store's interface. -/
def typeCode : CollectionKind → Nat
  | document => 2
  | edge => 3

/-- The word for a kind. -/
def word : CollectionKind → String
  | document => "document"
  | edge => "edge"

/-- The kinds by their words. -/
def words : List (String × CollectionKind) :=
  [document, edge].map fun kind => (kind.word, kind)

end CollectionKind

/-- An entity type: the collection it is stored in and the fields it carries. -/
structure Entity where
  name : String
  collection : String
  kind : CollectionKind := .document
  primaryKey : String := "id"
  fields : List String
deriving DecidableEq, Repr

namespace Entity

/-- An entity stored as documents, with its primary key as the only field. -/
def document (name collection : String) : Entity :=
  { name, collection, fields := ["id"] }

/-- An entity stored as edges, with its primary key and its two ends as fields. -/
def edge (name collection : String) : Entity :=
  { name, collection, kind := .edge, fields := ["id", "_from", "_to"] }

/-- Append a field unless it is there. -/
def addField (fields : List String) (field : String) : List String :=
  if fields.contains field then fields else fields ++ [field]

/-- Append the fields that are not there yet. -/
def withFields (e : Entity) (fields : List String) : Entity :=
  { e with fields := fields.foldl addField e.fields }

/-- Replace the first occurrence of `old`. -/
def replaceFirst (old new : String) : List String → List String
  | [] => []
  | field :: rest => if field = old then new :: rest else field :: replaceFirst old new rest

/-- Name another primary key.  It takes the place of the old one among the
fields, or the first place if neither is a field. -/
def withPrimaryKey (e : Entity) (key : String) : Entity :=
  { e with
    primaryKey := key
    fields :=
      if e.fields.contains e.primaryKey then replaceFirst e.primaryKey key e.fields
      else if e.fields.contains key then e.fields
      else key :: e.fields }

/-- The JSON form. -/
def toJson (e : Entity) : Json :=
  .obj ⟨[("collection", .str e.collection), ("fields", .texts e.fields),
    ("kind", .str e.kind.word), ("name", .str e.name), ("primary_key", .str e.primaryKey)]⟩

/-- Read the JSON form. -/
def read? (reading : Reading) (j : Json) : Option Entity := do
  let r ← Record.read? ["name", "collection", "kind", "primary_key", "fields"] j
  let name ← r.required? "name" Json.readText?
  let collection ← r.required? "collection" Json.readText?
  let kind ← r.defaulted? "kind" .document (Choice.plain? CollectionKind.words reading)
  let primaryKey ← r.defaulted? "primary_key" "id" Json.readText?
  let fields ← r.required? "fields" (Json.readList? Json.readText?)
  some { name, collection, kind, primaryKey, fields }

end Entity

/-- The lower-case form of one character of a name, with an underscore before an
upper-case letter that is not the first and in the place of a separator. -/
def snakeChar (first : Bool) (c : Char) : List Char :=
  if c.isUpper then if first then [c.toLower] else ['_', c.toLower]
  else if c = '.' ∨ c = ':' then ['_']
  else [c]

/-- A type name in lower case with underscores. -/
def snakeCase (name : String) : String :=
  match name.toList with
  | [] => ""
  | c :: rest => String.ofList (snakeChar true c ++ rest.flatMap (snakeChar false))

/-- The name of the edge collection between two entity types.  It does not depend
on their order. -/
def edgeCollectionName (a b : String) : String :=
  if a ≤ b then snakeCase a ++ "_" ++ snakeCase b else snakeCase b ++ "_" ++ snakeCase a

end DocStore
