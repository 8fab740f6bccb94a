/-
Module: DocStore.Definition.Basic
Purpose: the four kinds of database objects under one type.
Main exports:
  Definition, Definition.name, Definition.tenant, Definition.validate, Definition.toJson,
  Definition.read?
-/
import DocStore.Definition.Analyzer
import DocStore.Definition.Index
import DocStore.Definition.View

namespace DocStore

/-- The definition of a database object. -/
inductive Definition where
  | collection (c : Collection)
  | index (i : Index)
  | view (v : View)
  | analyzer (a : Analyzer)

namespace Definition

/-- The word for the kind of object. -/
def kindWord : Definition → String
  | collection _ => "collection"
  | index _ => "index"
  | view _ => "view"
  | analyzer _ => "analyzer"

/-- The words for the kinds of objects. -/
def kindWords : List String :=
  ["collection", "index", "view", "analyzer"]

/-- The name of the object. -/
def name : Definition → String
  | collection c => c.name
  | index i => i.indexName
  | view v => v.name
  | analyzer a => a.name

/-- The database that the object is declared to live in. -/
def tenant : Definition → Option String
  | collection c => c.tenant
  | index i => i.tenant
  | view v => v.tenant
  | analyzer a => a.tenant

/-- Give the object a database unless it declares one. -/
def withDefaultTenant (tenant : Option String) : Definition → Definition
  | collection c => .collection { c with tenant := c.tenant.or tenant }
  | index i => .index { i with tenant := i.tenant.or tenant }
  | view v => .view { v with tenant := v.tenant.or tenant }
  | analyzer a => .analyzer { a with tenant := a.tenant.or tenant }

/-- The checks before any request is made. -/
def validate : Definition → Except SchemaFault Unit
  | collection c => c.body.map fun _ => ()
  | index i => i.validate
  | view v => v.validate
  | analyzer a => a.validate

/-- The body of the request that creates the object. -/
def body : Definition → Except SchemaFault Json
  | collection c => c.body
  | index i => .ok i.body
  | view v => .ok v.body
  | analyzer a => .ok a.body

/-- The JSON form without the kind. -/
def bareJson : Definition → Json
  | collection c => c.toJson
  | index i => i.toJson
  | view v => v.toJson
  | analyzer a => a.toJson

/-- The JSON form, with the kind as a tag. -/
def toJson (d : Definition) : Json :=
  match d.bareJson with
  | .obj members => .obj (members.insert "object" (.str d.kindWord))
  | other => other

/-- Read the JSON form. -/
def read? (reading : Reading) (j : Json) : Option Definition := do
  let (kind, body) ← Choice.tagged? "object" kindWords reading j
  if kind = "collection" then (Collection.read? .held body).map .collection
  else if kind = "index" then (Index.read? .held body).map .index
  else if kind = "view" then (View.read? .held body).map .view
  else (Analyzer.read? .held body).map .analyzer

end Definition

end DocStore
