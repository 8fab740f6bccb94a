/-
Module: DocStore.Proofs.Definition.Analyzer
Purpose: what the check of an analyzer says of one level of its definition.
Main exports:
  SubAnalyzer.read?, Shape.Fits, SubAnalyzer.Holds, SubAnalyzer.Proper, SubAnalyzer.Passes,
  SubAnalyzer.passes_iff, SubAnalyzer.size_lt_of_holds, Analyzer.isName_iff
-/
import DocStore.Definition.Analyzer
import DocStore.Proofs.Dict
import DocStore.Proofs.Text.Occurrence
import Mathlib.Logic.Basic

namespace DocStore

/-!
An analyzer can have definitions of other analyzers among its properties, as the one whose tokens
it takes or as the steps of a pipeline.  The check goes down through all of them.  What it says of
one level is put together here: the properties of the analyzer are proper for its kind, and each
analyzer directly inside of it passes the check in turn.
-/

/-! ### One level of a definition -/

/-- The analyzer that a nested definition describes: its kind by its name, and its properties,
none if they are missing or null. -/
def SubAnalyzer.read? (value : Json) : Option SubAnalyzer := do
  let kind ← Choice.plain? AnalyzerKind.words .value (value.field "type")
  match value.field "properties" with
  | .null => some { kind }
  | .obj properties => some { kind, properties }
  | _ => none

/-- A value has a shape. -/
def Shape.Fits (value : Json) : Shape → Prop
  | .text => ∃ word, value = .str word
  | .flag => ∃ truth, value = .bool truth
  | .count => ∃ n : Nat, value = .int n
  | .number => ∃ n, value = .num n
  | .texts => ∃ words, value = .texts words
  | .oneOf words => ∃ word ∈ words, value = .str word
  | .object => ∃ members, value = .obj members
  | .analyzer => ∃ s, SubAnalyzer.read? value = some s
  | .pipeline => ∃ steps, value = .arr steps ∧ steps ≠ [] ∧
      ∀ step ∈ steps, ∃ s, SubAnalyzer.read? step = some s

/-- A value of a shape is the definition of an analyzer, or has it as one of its steps. -/
def Shape.Gives (value : Json) (inner : SubAnalyzer) : Shape → Prop
  | .analyzer => SubAnalyzer.read? value = some inner
  | .pipeline => ∃ steps, value = .arr steps ∧ ∃ step ∈ steps, SubAnalyzer.read? step = some inner
  | _ => False

namespace SubAnalyzer

/-- An analyzer is defined directly inside another one, in one of its properties. -/
def Holds (outer inner : SubAnalyzer) : Prop :=
  ∃ rule ∈ outer.kind.rules, ∃ value, outer.properties.get? rule.key = some value ∧
    rule.shape.Gives value inner

/-- The properties of an analyzer are among those that its kind takes, with all that it requires,
and have the shapes of these. -/
structure Proper (s : SubAnalyzer) : Prop where
  taken : ∀ key, s.properties.contains key = true → ∃ rule ∈ s.kind.rules, rule.key = key
  required : ∀ rule ∈ s.kind.rules, rule.required = true → s.properties.contains rule.key = true
  shaped : ∀ rule ∈ s.kind.rules, ∀ value, s.properties.get? rule.key = some value →
    rule.shape.Fits value

/-- The properties of an analyzer pass the check, inside another analyzer or not. -/
def Passes (nested : Bool) (s : SubAnalyzer) : Prop :=
  checkProperties nested s.kind s.properties = .ok ()

end SubAnalyzer

variable {nested : Bool} {value : Json} {s inner outer : SubAnalyzer}

theorem SubAnalyzer.read?_eq_some_iff : SubAnalyzer.read? value = some s ↔
    Choice.plain? AnalyzerKind.words .value (value.field "type") = some s.kind ∧
      (value.field "properties" = .null ∧ s.properties = {} ∨
        value.field "properties" = .obj s.properties) := by
  obtain ⟨kind, properties⟩ := s
  rw [SubAnalyzer.read?]
  cases Choice.plain? AnalyzerKind.words .value (value.field "type") with
  | none => simp
  | some kind => cases value.field "properties" <;> simp [eq_comm]

/-! ### The check of one level -/

/-- A nested definition passes if it describes an analyzer that passes, and no pipeline inside
another analyzer. -/
theorem checkNested_eq_ok_iff : checkNested nested value = .ok () ↔
    ∃ s, SubAnalyzer.read? value = some s ∧ s.Passes true ∧
      (nested = true → s.kind ≠ .pipeline) := by
  rw [checkNested]
  cases named : Choice.plain? AnalyzerKind.words .value (value.field "type") with
  | none => simp [SubAnalyzer.read?, named]
  | some kind =>
      dsimp only
      split
      · next refused =>
          have isPipeline : nested = true ∧ kind = .pipeline := by simpa using refused
          simp only [reduceCtorEq, false_iff, not_exists, not_and]
          intro s is _ unnested
          have known := (SubAnalyzer.read?_eq_some_iff.mp is).1
          rw [named, isPipeline.2, Option.some.injEq] at known
          exact unnested isPipeline.1 known.symm
      · next allowed =>
          have unnested : nested = true → kind ≠ .pipeline := by
            intro isNested isPipeline
            exact allowed (by simp [isNested, isPipeline])
          rw [SubAnalyzer.read?, named]
          split
          · next absent => simpa [Json.field, absent, SubAnalyzer.Passes] using fun _ => unnested
          · next found => simpa [Json.field, found, SubAnalyzer.Passes] using fun _ => unnested
          · next members found =>
              simpa [Json.field, found, SubAnalyzer.Passes] using fun _ => unnested
          · next other notNull notObject found =>
              cases other <;> simp [Json.field, found] at notNull notObject ⊢

theorem checkSteps_eq_ok_iff {steps : List Json} :
    checkSteps steps = .ok () ↔ ∀ step ∈ steps, checkNested true step = .ok () := by
  induction steps with
  | nil =>
      rw [checkSteps]
      simp
  | cons step rest inductionHypothesis =>
      rw [checkSteps, List.forall_mem_cons]
      cases checkNested true step with
      | error fault => simp
      | ok _ => simpa using inductionHypothesis

theorem Json.natural?_isSome_iff : value.natural?.isSome = true ↔ ∃ n : Nat, value = .int n := by
  constructor
  · intro isNatural
    cases value with
    | num number =>
        cases number with
        | integer i =>
            cases i with
            | ofNat n => exact ⟨n, rfl⟩
            | negSucc n => cases isNatural
        | real x => cases isNatural
    | _ => cases isNatural
  · rintro ⟨n, rfl⟩
    simp [int, natural?]

/-- Values that are all texts are the values of a list of texts. -/
theorem Json.all_isText_iff {items : List Json} :
    items.all isText = true ↔ ∃ words : List String, items = words.map .str := by
  constructor
  · intro areTexts
    induction items with
    | nil => exact ⟨[], rfl⟩
    | cons item rest inductionHypothesis =>
        rw [List.all_cons, Bool.and_eq_true] at areTexts
        obtain ⟨word, isWord⟩ := Option.isSome_iff_exists.mp areTexts.1
        obtain ⟨words, rfl⟩ := inductionHypothesis areTexts.2
        cases item with
        | str own => exact ⟨own :: words, rfl⟩
        | _ => cases isWord
  · rintro ⟨words, rfl⟩
    simp [isText, text?]

/-- Of the shapes without nested definitions exactly the values that have them are accepted. -/
theorem Shape.accepts_eq_true_iff {shape : Shape} (noAnalyzer : shape ≠ .analyzer)
    (noPipeline : shape ≠ .pipeline) : shape.accepts value = true ↔ shape.Fits value := by
  cases shape with
  | text => cases value <;> simp [accepts, Fits, Json.isText, Json.text?]
  | flag => cases value <;> simp [accepts, Fits, Json.bool?]
  | count => exact Json.natural?_isSome_iff
  | number => cases value <;> simp [accepts, Fits, Json.isNumber]
  | texts =>
      cases value with
      | arr items => simp [accepts, Fits, Json.items?, Json.texts, ← Json.all_isText_iff]
      | _ => simp [accepts, Fits, Json.items?, Json.texts]
  | oneOf words => cases value <;> simp [accepts, Fits, Json.text?]
  | object => cases value <;> simp [accepts, Fits, Json.members?]
  | analyzer => exact absurd rfl noAnalyzer
  | pipeline => exact absurd rfl noPipeline

theorem Shape.not_gives {shape : Shape} (noAnalyzer : shape ≠ .analyzer)
    (noPipeline : shape ≠ .pipeline) : ¬ shape.Gives value inner := by
  cases shape <;> simp_all [Gives]

/-- The value of a property passes if it has the shape of the property, and each analyzer that it
defines passes.  This is no pipeline below another analyzer, nor as a step. -/
theorem checkShape_eq_ok_iff {key : String} {shape : Shape} :
    checkShape nested key value shape = .ok () ↔ shape.Fits value ∧
      ∀ inner, shape.Gives value inner → inner.Passes true ∧
        (nested = true ∨ shape = .pipeline → inner.kind ≠ .pipeline) := by
  by_cases isAnalyzer : shape = .analyzer
  · subst isAnalyzer
    rw [checkShape]
    simp only [Shape.accepts, if_true, checkNested_eq_ok_iff, Shape.Fits, Shape.Gives,
      reduceCtorEq, or_false]
    constructor
    · rintro ⟨s, is, passes⟩
      refine ⟨⟨s, is⟩, fun inner isInner => ?_⟩
      obtain rfl := Option.some.inj (is.symm.trans isInner)
      exact passes
    · rintro ⟨⟨s, is⟩, each⟩
      exact ⟨s, is, each s is⟩
  by_cases isPipeline : shape = .pipeline
  · subst isPipeline
    cases value with
    | arr steps =>
        rw [checkShape]
        by_cases empty : steps = []
        · simp [empty, Shape.accepts, Json.items?, Shape.Fits]
        · have accepted : Shape.pipeline.accepts (.arr steps) = true := by
            simp [Shape.accepts, Json.items?, empty]
          simp only [accepted, if_true, checkSteps_eq_ok_iff, checkNested_eq_ok_iff]
          constructor
          · intro each
            refine ⟨⟨steps, rfl, empty, fun step member => ?_⟩, ?_⟩
            · obtain ⟨s, is, _⟩ := each step member
              exact ⟨s, is⟩
            · rintro inner ⟨_, ⟨⟩, step, member, isInner⟩
              obtain ⟨s, is, passes, unnested⟩ := each step member
              obtain rfl := Option.some.inj (is.symm.trans isInner)
              exact ⟨passes, fun _ => unnested trivial⟩
          · rintro ⟨⟨_, ⟨⟩, _, read⟩, each⟩ step member
            obtain ⟨s, is⟩ := read step member
            obtain ⟨passes, unnested⟩ := each s ⟨steps, rfl, step, member, is⟩
            exact ⟨s, is, passes, fun _ => unnested (.inr trivial)⟩
    | _ => simp [checkShape, Shape.accepts, Json.items?, Shape.Fits]
  · have plain : shape.accepts value = true ↔ shape.Fits value :=
      Shape.accepts_eq_true_iff isAnalyzer isPipeline
    have noInner : ∀ inner, ¬ shape.Gives value inner := fun _ =>
      Shape.not_gives isAnalyzer isPipeline
    rw [checkShape]
    · rw [← plain]
      by_cases accepted : shape.accepts value = true <;> simp [accepted, noInner]
    · exact isAnalyzer
    · exact fun _ same _ => isPipeline same

theorem checkRules_eq_ok_iff {kind : AnalyzerKind} {properties : Dict Json}
    {rules : List PropertyRule} : checkRules nested kind properties rules = .ok () ↔
      ∀ rule ∈ rules, (rule.required = true → properties.contains rule.key = true) ∧
        ∀ value, properties.get? rule.key = some value →
          checkShape nested rule.key value rule.shape = .ok () := by
  induction rules with
  | nil =>
      rw [checkRules]
      simp
  | cons rule rest inductionHypothesis =>
      rw [checkRules, List.forall_mem_cons, ← inductionHypothesis]
      split
      · next absent =>
          cases required : rule.required <;> simp [Dict.contains, absent]
      · next value found =>
          cases checked : checkShape nested rule.key value rule.shape with
          | error fault => simp [Dict.contains, found, checked]
          | ok _ => simp [Dict.contains, found, checked]

/-- The property for the steps of a pipeline is that of the pipelines. -/
theorem AnalyzerKind.shape_eq_pipeline_iff {kind : AnalyzerKind} {rule : PropertyRule}
    (member : rule ∈ kind.rules) : rule.shape = .pipeline ↔ kind = .pipeline := by
  have each : ∀ kind : AnalyzerKind, ∀ rule ∈ kind.rules,
      (rule.shape = .pipeline ↔ kind = .pipeline) := by
    intro kind
    cases kind <;> decide
  exact each kind rule member

namespace SubAnalyzer

/-- All that the check of one level says: the analyzer is proper, and each one directly inside of
it passes as a nested one.  A pipeline is refused below another analyzer that is nested, and as a
step. -/
theorem passes_iff : s.Passes nested ↔ s.Proper ∧ ∀ inner, s.Holds inner →
    inner.Passes true ∧ (nested = true ∨ s.kind = .pipeline → inner.kind ≠ .pipeline) := by
  have keys : (s.properties.keys.find? fun key => !s.kind.takes key) = none ↔
      ∀ key, s.properties.contains key = true → ∃ rule ∈ s.kind.rules, rule.key = key := by
    simp [List.find?_eq_none, Dict.mem_keys_iff, AnalyzerKind.takes]
  have checked : s.Passes nested ↔
      (∀ key, s.properties.contains key = true → ∃ rule ∈ s.kind.rules, rule.key = key) ∧
        checkRules nested s.kind s.properties s.kind.rules = .ok () := by
    rw [← keys, Passes, checkProperties]
    split
    · next found => simp [found]
    · next none => simp [none]
  rw [checked, checkRules_eq_ok_iff]
  constructor
  · rintro ⟨taken, each⟩
    refine ⟨⟨taken, fun rule member => (each rule member).1, ?_⟩, ?_⟩
    · intro rule member value given
      exact (checkShape_eq_ok_iff.mp ((each rule member).2 value given)).1
    · rintro inner ⟨rule, member, value, given, gives⟩
      rw [← AnalyzerKind.shape_eq_pipeline_iff member]
      exact (checkShape_eq_ok_iff.mp ((each rule member).2 value given)).2 inner gives
  · rintro ⟨proper, each⟩
    refine ⟨proper.taken, fun rule member => ⟨proper.required rule member, ?_⟩⟩
    intro value given
    refine checkShape_eq_ok_iff.mpr ⟨proper.shaped rule member value given, ?_⟩
    intro inner gives
    rw [AnalyzerKind.shape_eq_pipeline_iff member]
    exact each inner ⟨rule, member, value, given, gives⟩

/-! ### Definitions inside definitions -/

/-- The properties of a nested definition are smaller than the definition. -/
theorem size_lt_of_read? (is : read? value = some inner) :
    Json.sizeMembers inner.properties.entries < value.size := by
  obtain ⟨_, ⟨_, none⟩ | given⟩ := read?_eq_some_iff.mp is
  · rw [none]
    exact value.size_pos
  · have found : value.get? "properties" = some (.obj inner.properties) := by
      cases found : value.get? "properties" <;> simp [Json.field, found] at given ⊢
      exact given
    have whole : (Json.obj inner.properties).size =
        Json.sizeMembers inner.properties.entries + 1 := by
      cases inner.properties
      rfl
    have smaller := Json.size_lt_of_field found
    omega

theorem size_lt_of_gives {shape : Shape} (gives : shape.Gives value inner) :
    Json.sizeMembers inner.properties.entries < value.size := by
  cases shape with
  | analyzer => exact size_lt_of_read? gives
  | pipeline =>
      obtain ⟨steps, rfl, step, member, is⟩ := gives
      have smaller := size_lt_of_read? is
      have among := Json.size_lt_of_mem member
      rw [Json.size]
      omega
  | _ => exact gives.elim

/-- Definitions cannot be nested for ever. -/
theorem size_lt_of_holds (holds : outer.Holds inner) :
    Json.sizeMembers inner.properties.entries < Json.sizeMembers outer.properties.entries := by
  obtain ⟨rule, _, value, given, gives⟩ := holds
  exact Nat.lt_of_lt_of_le (size_lt_of_gives gives) (Dict.size_le_of_get? given)

end SubAnalyzer

/-! ### Names -/

/-- The name of an analyzer is not empty, and has no `::` in it. -/
theorem Analyzer.isName_iff {name : String} :
    isName name = true ↔ name ≠ "" ∧ ¬ [':', ':'] <:+: name.toList := by
  rw [isName, Bool.and_eq_true, Bool.not_eq_true', Bool.not_eq_true', ← Bool.not_eq_true,
    ← Bool.not_eq_true, String.isEmpty_iff, Text.containsPattern_iff_isInfix (by decide)]

end DocStore
