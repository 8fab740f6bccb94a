/-
Module: DocStore.Definition.Fault
Purpose: what can be wrong with a definition of a database object, and its wording.
Main exports:
  IndexFault, SchemaFault, SchemaFault.message
-/
import DocStore.Definition.AnalyzerKind
import DocStore.Json.Printer

namespace DocStore

/-- What can be wrong with an index. -/
inductive IndexFault where
  | fieldNames
  | noExpiry
  | severalFields
  | geoFields
  | unwantedExpiry
deriving DecidableEq, Repr

/-- The wording of an index fault. -/
def IndexFault.message : IndexFault → String
  | fieldNames => "fields must be non-empty names"
  | noExpiry => "ttl indexes need expire_after"
  | severalFields => "exactly one field is required"
  | geoFields => "geo indexes take one or two fields"
  | unwantedExpiry => "expire_after is only valid for ttl indexes"

/-- What can be wrong with a definition. -/
inductive SchemaFault where
  | columnType (name : String)
  | nullConstant
  | mixedEnum (first second : String)
  | emptyEnum
  | collectionName (name : String)
  | index (collection : String) (fault : IndexFault)
  | storeValues (path mode : String)
  | emptyAnalyzer (path : String)
  | viewName
  | unnamedLink (view : String)
  | emptyStored (view : String)
  | compression (word : String)
  | analyzerProperty (key : String) (kind : AnalyzerKind)
  | missingProperty (key : String) (kind : AnalyzerKind)
  | propertyValue (key : String) (value : Json)
  | nestedAnalyzer (value : Json)
  | nestedPipeline
  | nestedProperties (value : Json)
  | analyzerName (name : String)
  | renameAcross (name : String) (source target : Option String)
  | renameKind (kind : String)
  | renameInto (source target : String)

/-- The wording of a fault. -/
def SchemaFault.message : SchemaFault → String
  | columnType name => "unknown column type `" ++ name ++ "`"
  | nullConstant => "null is not a valid constant or enum value"
  | mixedEnum first second => "enum values mix " ++ first ++ " and " ++ second
  | emptyEnum => "enum without values"
  | collectionName name => "invalid collection name `" ++ name ++ "`"
  | index collection fault => "index on `" ++ collection ++ "`: " ++ fault.message
  | storeValues path mode =>
      "link `" ++ path ++ "`: storeValues must be `none` or `id`, got `" ++ mode ++ "`"
  | emptyAnalyzer path => "link `" ++ path ++ "` names an empty analyzer"
  | viewName => "view name is empty"
  | unnamedLink view => "view `" ++ view ++ "` links an unnamed collection"
  | emptyStored view => "view `" ++ view ++ "` declares stored values without fields"
  | compression word => "unknown stored value compression `" ++ word ++ "`"
  | analyzerProperty key kind =>
      "property `" ++ key ++ "` is not valid for " ++ kind.name ++ " analyzers"
  | missingProperty key kind => kind.name ++ " analyzer requires property `" ++ key ++ "`"
  | propertyValue key value =>
      "analyzer property `" ++ key ++ "` has an invalid value: " ++ value.render
  | nestedAnalyzer value => "invalid nested analyzer definition: " ++ value.render
  | nestedPipeline => "pipeline analyzers cannot be nested"
  | nestedProperties value =>
      "nested analyzer properties must be an object, got " ++ value.render
  | analyzerName name => "invalid analyzer name `" ++ name ++ "`"
  | renameAcross name source target =>
      "cannot rename `" ++ name ++ "` across prefixes (" ++ Text.inspectOption source ++ " -> " ++
        Text.inspectOption target ++ ")"
  | renameKind kind => kind ++ "s cannot be renamed"
  | renameInto source target => "cannot rename a " ++ source ++ " into a " ++ target

end DocStore
