/-
Module: DocStore.Definition.Validation
Purpose: the validation document of a collection, made by applying column changes.
Main exports:
  ObjectRule, ColumnType.schema, ColumnOp.applyAll, generateSchema
-/
import DocStore.Definition.Column
import DocStore.Definition.Fault

namespace DocStore

/-!
A collection's validation document has the form

`{"rule": {"type": "object", "properties": …, "required": …}, "level": "strict"}`

with an optional `message`.  Column changes are applied in order to the properties
and to the list of required ones.
-/

/-- The properties of an object, and the names of those it must have. -/
structure ObjectRule where
  properties : Dict Json := {}
  required : List String := []

namespace ObjectRule

/-- Set a property.  It is required, as the last one, unless it may be null. -/
def put (r : ObjectRule) (name : String) (schema : Json) (nullable : Bool) : ObjectRule :=
  let others := r.required.filter (· != name)
  { properties := r.properties.insert name schema
    required := if nullable then others else others ++ [name] }

/-- Remove a property. -/
def drop (r : ObjectRule) (name : String) : ObjectRule :=
  { properties := r.properties.erase name
    required := r.required.filter (· != name) }

/-- Move a property to another name, over one that is there.  It keeps its place
among the required ones. -/
def rename (r : ObjectRule) (source target : String) : ObjectRule :=
  { properties :=
      match r.properties.get? source with
      | none => r.properties
      | some schema => (r.properties.erase source).insert target schema
    required := r.required.map fun name => if name = source then target else name }

/-- The JSON form under a given `type`.  An empty list of required properties is
left out. -/
def toJson (r : ObjectRule) (type : Json) : Json :=
  if r.required.isEmpty then .obj ⟨[("properties", .obj r.properties), ("type", type)]⟩
  else .obj ⟨[("properties", .obj r.properties), ("required", .texts r.required),
    ("type", type)]⟩

/-- The rule of a validation document; what is not of the expected form counts as
empty. -/
def ofJson (rule : Json) : ObjectRule :=
  { properties := ((rule.field "properties").members?).getD {}
    required := (((rule.field "required").items?).getD []).filterMap Json.text? }

end ObjectRule

/-- The `type` keyword of a column. -/
def typeKeyword (type : String) (nullable : Bool) : Json :=
  if nullable then .arr [.str type, .str "null"] else .str type

/-- The schema types of the primitive column types. -/
def primitiveTypes : List (String × String) :=
  [("string", "string"), ("text", "string"), ("uuid", "string"), ("binary_id", "string"),
   ("binary", "string"), ("date", "string"), ("time", "string"), ("naive_datetime", "string"),
   ("utc_datetime", "string"), ("utc_datetime_usec", "string"), ("integer", "integer"),
   ("id", "integer"), ("number", "number"), ("float", "number"), ("decimal", "number"),
   ("boolean", "boolean"), ("object", "object"), ("map", "object"), ("array", "array")]

/-- The schema type of a primitive column type. -/
def primitiveType (name : String) : Except SchemaFault String :=
  match Dict.lookupEntry name primitiveTypes with
  | some type => .ok type
  | none => .error (.columnType name)

/-- The schema type of a value; null has none. -/
def valueType : Json → Except SchemaFault String
  | .str _ => .ok "string"
  | .bool _ => .ok "boolean"
  | .num (.integer _) => .ok "integer"
  | .num (.real _) => .ok "number"
  | .arr _ => .ok "array"
  | .obj _ => .ok "object"
  | .null => .error .nullConstant

/-- Whether a schema type is one of numbers. -/
def isNumeric (type : String) : Bool :=
  type == "integer" || type == "number"

/-- The schema type of two values together.  Integers and numbers mix. -/
def mixTypes (first second : String) : Except SchemaFault String :=
  if first = second then .ok first
  else if isNumeric first && isNumeric second then .ok "number"
  else .error (.mixedEnum first second)

/-- The schema type of a value of type `found` together with further values. -/
def enumTypeFrom (found : String) : List Json → Except SchemaFault String
  | [] => .ok found
  | value :: rest => do
      let type ← valueType value
      let mixed ← mixTypes found type
      enumTypeFrom mixed rest

/-- The schema type of the values of an enumeration. -/
def enumType : List Json → Except SchemaFault String
  | [] => .error .emptyEnum
  | value :: rest => do
      let type ← valueType value
      enumTypeFrom type rest

/-- A schema with further keywords, which win over those that are there. -/
def withKeywords (extra : Dict Json) : Json → Json
  | .obj members => .obj (members.merge extra)
  | other => other

mutual

/-- The schema of a column. -/
def ColumnType.schema (options : ColumnOptions) : ColumnType → Except SchemaFault Json
  | .primitive name => do
      let type ← primitiveType name
      .ok (withKeywords options.extra (.obj ⟨[("type", typeKeyword type options.nullable)]⟩))
  | .enumeration values => do
      let type ← enumType values
      .ok (withKeywords options.extra
        (.obj ⟨[("enum", .arr values), ("type", typeKeyword type options.nullable)]⟩))
  | .constant value => do
      let type ← valueType value
      .ok (withKeywords options.extra
        (.obj ⟨[("const", value), ("type", typeKeyword type true)]⟩))
  | .arrayOf items => do
      let schema ← items.schema {}
      .ok (withKeywords options.extra
        (.obj ⟨[("items", schema), ("type", typeKeyword "array" options.nullable)]⟩))
  | .object columns => do
      let rule ← ColumnOp.applyAll columns {}
      .ok (withKeywords options.extra (rule.toJson (typeKeyword "object" options.nullable)))

/-- The rule after a change. -/
def ColumnOp.apply (rule : ObjectRule) : ColumnOp → Except SchemaFault ObjectRule
  | .add name type options => do
      let schema ← type.schema options
      .ok (rule.put name schema options.nullable)
  | .modify name type options => do
      let schema ← type.schema options
      .ok (rule.put name schema options.nullable)
  | .remove name => .ok (rule.drop name)
  | .rename source target => .ok (rule.rename source target)

/-- The rule after changes in order. -/
def ColumnOp.applyAll : List ColumnOp → ObjectRule → Except SchemaFault ObjectRule
  | [], rule => .ok rule
  | op :: ops, rule => do
      let next ← op.apply rule
      ColumnOp.applyAll ops next

end

/-- How strictly documents are checked unless a document says so. -/
def defaultLevel : String := "strict"

/-- The validation document after changes to an existing one, or to an empty one.
It keeps the level and the message. -/
def generateSchema (ops : List ColumnOp) (existing : Option Json) : Except SchemaFault Json := do
  let document := existing.getD .null
  let rule ← ColumnOp.applyAll ops (.ofJson (document.field "rule"))
  let level := (document.get? "level").getD (.str defaultLevel)
  let body := rule.toJson (.str "object")
  match document.get? "message" with
  | none => .ok (.obj ⟨[("level", level), ("rule", body)]⟩)
  | some message => .ok (.obj ⟨[("level", level), ("message", message), ("rule", body)]⟩)

end DocStore
