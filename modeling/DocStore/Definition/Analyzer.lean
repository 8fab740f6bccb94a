/-
Module: DocStore.Definition.Analyzer
Purpose: definitions of text analyzers, the properties each kind takes, and their JSON form.
Main exports:
  Feature, Shape, PropertyRule, AnalyzerKind.rules, SubAnalyzer, Analyzer, Analyzer.validate
-/
import DocStore.Definition.Collection

namespace DocStore

/-- What an analyzer records about tokens. -/
inductive Feature where
  | frequency
  | norm
  | position
deriving DecidableEq, Repr, Inhabited

namespace Feature

/-- All features in their order. -/
def all : List Feature :=
  [frequency, norm, position]

/-- The word for a feature. -/
def word : Feature → String
  | frequency => "frequency"
  | norm => "norm"
  | position => "position"

/-- The features by their words. -/
def words : List (String × Feature) :=
  all.map fun feature => (feature.word, feature)

end Feature

/-- What the value of a property must be. -/
inductive Shape where
  | text
  | flag
  | count
  | number
  | texts
  | oneOf (words : List String)
  | object
  /-- A nested definition. -/
  | analyzer
  /-- A list of nested definitions, not empty. -/
  | pipeline
deriving DecidableEq, Repr

/-- A property that a kind of analyzer takes. -/
structure PropertyRule where
  key : String
  shape : Shape
  required : Bool
deriving DecidableEq, Repr

/-- The words for letter cases. -/
def caseWords : Shape :=
  .oneOf ["lower", "upper", "none"]

/-- The words for what is taken of a shape on the globe. -/
def geoWords : Shape :=
  .oneOf ["shape", "centroid", "point"]

/-- The properties that each kind takes. -/
def AnalyzerKind.rules : AnalyzerKind → List PropertyRule
  | identity => []
  | delimiter => [⟨"delimiter", .text, true⟩]
  | multiDelimiter => [⟨"delimiters", .texts, true⟩]
  | stem => [⟨"locale", .text, true⟩]
  | norm => [⟨"locale", .text, true⟩, ⟨"accent", .flag, false⟩, ⟨"case", caseWords, false⟩]
  | ngram => [⟨"min", .count, true⟩, ⟨"max", .count, true⟩, ⟨"preserveOriginal", .flag, true⟩,
      ⟨"startMarker", .text, false⟩, ⟨"endMarker", .text, false⟩,
      ⟨"streamType", .oneOf ["binary", "utf8"], false⟩]
  | text => [⟨"locale", .text, true⟩, ⟨"accent", .flag, false⟩, ⟨"case", caseWords, false⟩,
      ⟨"stemming", .flag, false⟩, ⟨"edgeNgram", .object, false⟩, ⟨"stopwords", .texts, false⟩,
      ⟨"stopwordsPath", .text, false⟩]
  | aql => [⟨"queryString", .text, true⟩, ⟨"collapsePositions", .flag, false⟩,
      ⟨"keepNull", .flag, false⟩, ⟨"batchSize", .count, false⟩, ⟨"memoryLimit", .count, false⟩,
      ⟨"returnType", .oneOf ["string", "number", "bool"], false⟩]
  | pipeline => [⟨"pipeline", .pipeline, true⟩]
  | stopwords => [⟨"stopwords", .texts, true⟩, ⟨"hex", .flag, false⟩]
  | collation => [⟨"locale", .text, true⟩]
  | segmentation => [⟨"break", .oneOf ["all", "alpha", "graphic"], false⟩,
      ⟨"case", caseWords, false⟩]
  | minhash => [⟨"analyzer", .analyzer, true⟩, ⟨"numHashes", .count, true⟩]
  | classification => [⟨"model_location", .text, true⟩, ⟨"top_k", .count, false⟩,
      ⟨"threshold", .number, false⟩]
  | nearestNeighbors => [⟨"model_location", .text, true⟩, ⟨"top_k", .count, false⟩]
  | geojson => [⟨"type", geoWords, false⟩, ⟨"options", .object, false⟩, ⟨"legacy", .flag, false⟩]
  | geoS2 => [⟨"format", .oneOf ["latLngDouble", "latLngInt", "s2Point"], false⟩,
      ⟨"type", geoWords, false⟩, ⟨"options", .object, false⟩]
  | geopoint => [⟨"latitude", .texts, false⟩, ⟨"longitude", .texts, false⟩,
      ⟨"options", .object, false⟩]
  | wildcard => [⟨"ngramSize", .count, true⟩, ⟨"analyzer", .analyzer, false⟩]

/-- Whether a kind takes a property. -/
def AnalyzerKind.takes (kind : AnalyzerKind) (key : String) : Bool :=
  kind.rules.any fun rule => rule.key == key

/-- Whether a value has a shape, of the shapes without nested definitions. -/
def Shape.accepts (value : Json) : Shape → Bool
  | .text => value.isText
  | .flag => value.bool?.isSome
  | .count => value.natural?.isSome
  | .number => value.isNumber
  | .texts =>
      match value.items? with
      | some items => items.all Json.isText
      | none => false
  | .oneOf words =>
      match value.text? with
      | some word => words.contains word
      | none => false
  | .object => value.members?.isSome
  | .analyzer => true
  | .pipeline =>
      match value.items? with
      | some items => !items.isEmpty
      | none => false

/-- A member is smaller than the members together. -/
theorem Dict.size_le_of_get? {d : Dict Json} {key : String} {value : Json}
    (h : d.get? key = some value) : value.size ≤ Json.sizeMembers d.entries :=
  Json.size_le_of_mem_members (Record.mem_of_lookupEntry h)

/-- A member of an object is smaller than the object. -/
theorem Json.size_lt_of_field {j value : Json} {key : String} (h : j.get? key = some value) :
    value.size < j.size := by
  cases j with
  | obj members =>
      have hle := Dict.size_le_of_get? (d := members) h
      cases members
      simp only [Json.size] at hle ⊢
      omega
  | _ => cases h

mutual

/-- Check the properties of an analyzer.  `nested` holds of an analyzer inside
another one. -/
def checkProperties (nested : Bool) (kind : AnalyzerKind) (properties : Dict Json) :
    Except SchemaFault Unit :=
  match properties.keys.find? fun key => !kind.takes key with
  | some key => .error (.analyzerProperty key kind)
  | none => checkRules nested kind properties kind.rules
termination_by (4 * Json.sizeMembers properties.entries + 3, 0)

/-- Check the properties against rules in order. -/
def checkRules (nested : Bool) (kind : AnalyzerKind) (properties : Dict Json)
    (rules : List PropertyRule) : Except SchemaFault Unit :=
  match rules with
  | [] => .ok ()
  | rule :: rest =>
      match hv : properties.get? rule.key with
      | none =>
          if rule.required then .error (.missingProperty rule.key kind)
          else checkRules nested kind properties rest
      | some value =>
          have : value.size ≤ Json.sizeMembers properties.entries := Dict.size_le_of_get? hv
          match checkShape nested rule.key value rule.shape with
          | .error fault => .error fault
          | .ok () => checkRules nested kind properties rest
termination_by (4 * Json.sizeMembers properties.entries + 2, rules.length)

/-- Check the value of a property. -/
def checkShape (nested : Bool) (key : String) (value : Json) (shape : Shape) :
    Except SchemaFault Unit :=
  if shape.accepts value then
    match shape, value with
    | .analyzer, value => checkNested nested value
    | .pipeline, .arr steps =>
        have : Json.sizeItems steps < (Json.arr steps).size := by simp [Json.size]
        checkSteps steps
    | _, _ => .ok ()
  else .error (.propertyValue key value)
termination_by (4 * value.size + 1, 0)

/-- Check the steps of a pipeline. -/
def checkSteps (steps : List Json) : Except SchemaFault Unit :=
  match steps with
  | [] => .ok ()
  | step :: rest =>
      match checkNested true step with
      | .error fault => .error fault
      | .ok () => checkSteps rest
termination_by (4 * Json.sizeItems steps + 2, 0)
decreasing_by
  all_goals
    have := step.size_pos
    apply Prod.Lex.left
    simp only [Json.sizeItems]
    omega

/-- Check a nested definition; inside another one it is no pipeline. -/
def checkNested (nested : Bool) (value : Json) : Except SchemaFault Unit :=
  match Choice.plain? AnalyzerKind.words .value (value.field "type") with
  | none => .error (.nestedAnalyzer value)
  | some kind =>
      if nested && kind == .pipeline then .error .nestedPipeline
      else
        match hp : value.get? "properties" with
        | none => checkProperties true kind {}
        | some .null => checkProperties true kind {}
        | some (.obj properties) =>
            have : Json.sizeMembers properties.entries + 1 < value.size := by
              simpa [Json.size] using Json.size_lt_of_field hp
            checkProperties true kind properties
        | some other => .error (.nestedProperties other)
termination_by (4 * value.size, 0)
decreasing_by
  all_goals
    have := value.size_pos
    have : Json.sizeMembers [] = 0 := rfl
    apply Prod.Lex.left
    omega

end

/-- An analyzer inside another one. -/
structure SubAnalyzer where
  kind : AnalyzerKind
  properties : Dict Json := {}

/-- The JSON form of a nested definition. -/
def SubAnalyzer.toJson (s : SubAnalyzer) : Json :=
  .obj ⟨[("properties", .obj s.properties), ("type", .str s.kind.word)]⟩

/-- An analyzer as it is to be. -/
structure Analyzer where
  name : String
  kind : AnalyzerKind
  properties : Dict Json := {}
  features : List Feature := []
  tenant : Option String := none

namespace Analyzer

/-- An analyzer that passes its tokens through steps. -/
def ofSteps (name : String) (steps : List SubAnalyzer) : Analyzer :=
  { name, kind := .pipeline
    properties := ⟨[("pipeline", .arr (steps.map SubAnalyzer.toJson))]⟩ }

/-- An analyzer that hashes the tokens of another one. -/
def minhashOf (name : String) (base : SubAnalyzer) (hashes : Nat) : Analyzer :=
  { name, kind := .minhash
    properties := ⟨[("analyzer", base.toJson), ("numHashes", .int hashes)]⟩ }

/-- Name the features, in their order and each once. -/
def withFeatures (a : Analyzer) (features : List Feature) : Analyzer :=
  { a with features := Feature.all.filter features.contains }

/-- Whether a name can be that of an analyzer. -/
def isName (name : String) : Bool :=
  !name.isEmpty && !Text.containsPattern [':', ':'] name.toList

/-- Check a definition. -/
def validate (a : Analyzer) : Except SchemaFault Unit :=
  if isName a.name then checkProperties false a.kind a.properties
  else .error (.analyzerName a.name)

/-- The features as a JSON array. -/
def featuresJson (a : Analyzer) : Json :=
  .texts (a.features.map Feature.word)

/-- The body of the request that creates the analyzer. -/
def body (a : Analyzer) : Json :=
  .obj ⟨[("features", a.featuresJson), ("name", .str a.name), ("properties", .obj a.properties),
    ("type", .str a.kind.word)]⟩

/-- The members of the JSON form. -/
def members (a : Analyzer) : List (String × Json) :=
  [("features", a.featuresJson), ("name", .str a.name)] ++
    optionalMember "prefix" a.tenant .str ++
    [("properties", .obj a.properties), ("type", .str a.kind.word)]

/-- The JSON form. -/
def toJson (a : Analyzer) : Json :=
  .obj ⟨a.members⟩

/-- Read the JSON form. -/
def read? (reading : Reading) (j : Json) : Option Analyzer := do
  let r ← Record.read? ["name", "type", "properties", "features", "prefix"] j
  let name ← r.required? "name" Json.readText?
  let kind ← r.required? "type" (Choice.plain? AnalyzerKind.words reading)
  let properties ← r.defaulted? "properties" {} (Json.readDict? Json.readAny?)
  let features ← r.defaulted? "features" []
    (Json.readList? (Choice.plain? Feature.words reading))
  let tenant ← r.optional? "prefix" Json.readText?
  some { name, kind, properties, features, tenant }

end Analyzer

end DocStore
