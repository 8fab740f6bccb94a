/-
Module: DocStore.Proofs.Definition.Nesting
Purpose: analyzers that pass the check are sound at every depth, and the sound ones pass unless a
  pipeline lies too deep in them.
Main exports:
  SubAnalyzer.Sound, SubAnalyzer.Flat, SubAnalyzer.passes_nested_iff,
  SubAnalyzer.passes_outermost_iff, Analyzer.sound_of_validate,
  Analyzer.validate_eq_ok_iff_of_sound
-/
import DocStore.Proofs.Definition.Analyzer
import DocStore.Proofs.Definition.RoundTrip
import Mathlib.Logic.Relation

namespace DocStore

/-!
A pipeline may not stand inside of another one, at whatever depth.  The check remembers on its way
down only whether it is inside of some analyzer.  So nothing that it accepts breaks the rule, but
it also refuses a pipeline that has other analyzers above it and no pipeline among them.  Directly
inside of the outermost analyzer, where nothing is remembered yet, it lets a pipeline pass.
-/

namespace SubAnalyzer

open Relation

variable {s t inner : SubAnalyzer}

/-- An analyzer and all that are defined inside of it, at whatever depth, are proper, and no
pipeline is defined inside of a pipeline. -/
structure Sound (s : SubAnalyzer) : Prop where
  proper : ∀ t, ReflTransGen Holds s t → t.Proper
  unnested : ∀ outer inner, ReflTransGen Holds s outer → outer.kind = .pipeline →
    TransGen Holds outer inner → inner.kind ≠ .pipeline

/-- No pipeline is defined inside of an analyzer, at whatever depth. -/
def Flat (s : SubAnalyzer) : Prop :=
  ∀ inner, TransGen Holds s inner → inner.kind ≠ .pipeline

/-! ### Every depth -/

/-- Inside of an analyzer that passes as a nested one all analyzers do. -/
theorem Passes.within (passes : s.Passes true) (below : ReflTransGen Holds s t) :
    t.Passes true := by
  induction below with
  | refl => exact passes
  | tail _ holds inductionHypothesis => exact ((passes_iff.mp inductionHypothesis).2 _ holds).1

theorem Passes.flat (passes : s.Passes true) : s.Flat := by
  intro inner below
  obtain ⟨outer, within, holds⟩ := TransGen.tail'_iff.mp below
  exact ((passes_iff.mp (passes.within within)).2 inner holds).2 (.inl rfl)

/-- What is proper at every depth and has no pipeline inside passes as a nested analyzer. -/
theorem passes_of_flat (proper : ∀ t, ReflTransGen Holds s t → t.Proper) (flat : s.Flat) :
    s.Passes true := by
  -- The definitions inside are smaller than the one that they are in.
  induction size : Json.sizeMembers s.properties.entries using Nat.strong_induction_on
    generalizing s with
  | _ n inductionHypothesis =>
      subst size
      refine passes_iff.mpr ⟨proper s .refl, fun inner holds => ⟨?_, fun _ => ?_⟩⟩
      · exact inductionHypothesis _ (size_lt_of_holds holds)
          (fun _ below => proper _ (.head holds below))
          (fun _ below => flat _ (.head holds below)) rfl
      · exact flat inner (.single holds)

/-- A nested analyzer passes exactly if it is proper at every depth and has no pipeline inside. -/
theorem passes_nested_iff :
    s.Passes true ↔ (∀ t, ReflTransGen Holds s t → t.Proper) ∧ s.Flat :=
  ⟨fun passes => ⟨fun _ below => (passes_iff.mp (passes.within below)).1, passes.flat⟩,
    fun sound => passes_of_flat sound.1 sound.2⟩

/-- The outermost analyzer passes exactly if it is sound and no pipeline lies deeper in it than
directly inside. -/
theorem passes_outermost_iff :
    s.Passes false ↔ s.Sound ∧ ∀ inner, s.Holds inner → inner.Flat := by
  constructor
  · intro passes
    obtain ⟨proper, each⟩ := passes_iff.mp passes
    have below : ∀ inner, s.Holds inner →
        (∀ t, ReflTransGen Holds inner t → t.Proper) ∧ inner.Flat := fun inner holds =>
      passes_nested_iff.mp (each inner holds).1
    refine ⟨⟨fun t within => ?_, fun outer inner within isPipeline beneath => ?_⟩,
      fun inner holds => (below inner holds).2⟩
    · rcases within.cases_head with rfl | ⟨inner, holds, within⟩
      · exact proper
      · exact (below inner holds).1 t within
    · rcases within.cases_head with rfl | ⟨first, holds, within⟩
      · obtain ⟨first, holds, within⟩ := TransGen.head'_iff.mp beneath
        rcases reflTransGen_iff_eq_or_transGen.mp within with rfl | deeper
        · exact (each _ holds).2 (.inr isPipeline)
        · exact (below first holds).2 inner deeper
      · exact (below first holds).2 inner (TransGen.trans_right within beneath)
  · rintro ⟨sound, flat⟩
    refine passes_iff.mpr ⟨sound.proper s .refl, fun inner holds => ⟨?_, ?_⟩⟩
    · exact passes_of_flat (fun t within => sound.proper t (.head holds within))
        (flat inner holds)
    · intro refused
      have isPipeline : s.kind = .pipeline := refused.resolve_left Bool.false_ne_true
      exact sound.unnested s inner .refl isPipeline (.single holds)

/-- An analyzer that is no pipeline is sound if it is proper and those directly inside are
sound. -/
theorem sound_of_inner (proper : s.Proper) (noPipeline : s.kind ≠ .pipeline)
    (each : ∀ inner, s.Holds inner → inner.Sound) : s.Sound := by
  refine ⟨fun t within => ?_, fun outer inner within isPipeline beneath => ?_⟩
  · rcases within.cases_head with rfl | ⟨first, holds, within⟩
    · exact proper
    · exact (each first holds).proper t within
  · rcases within.cases_head with rfl | ⟨first, holds, within⟩
    · exact absurd isPipeline noPipeline
    · exact (each first holds).unnested outer inner within isPipeline beneath

/-! ### Analyzers that hash tokens -/

theorem read?_toJson (s : SubAnalyzer) : read? s.toJson = some s := by
  have named : Choice.plain? AnalyzerKind.words .value (s.toJson.field "type") = some s.kind :=
    AnalyzerKind.plain?_word s.kind .value
  exact read?_eq_some_iff.mpr ⟨named, .inr rfl⟩

/-- An analyzer that hashes the tokens of another one. -/
def hashing (base : SubAnalyzer) (hashes : Nat) : SubAnalyzer where
  kind := .minhash
  properties := ⟨[("analyzer", base.toJson), ("numHashes", .int hashes)]⟩

variable {base : SubAnalyzer} {hashes : Nat}

theorem holds_hashing_iff : (hashing base hashes).Holds inner ↔ inner = base := by
  simp [Holds, hashing, AnalyzerKind.rules, Shape.Gives, Dict.get?, Dict.lookupEntry,
    read?_toJson, eq_comm]

theorem proper_hashing : (hashing base hashes).Proper where
  taken := by
    intro key given
    have listed : key = "analyzer" ∨ key = "numHashes" := by
      simpa [hashing, Dict.keys] using Dict.mem_keys_iff.mpr given
    rcases listed with rfl | rfl <;> simp [hashing, AnalyzerKind.rules]
  required := by
    intro rule member _
    have listed : rule.key = "analyzer" ∨ rule.key = "numHashes" := by
      simp only [hashing, AnalyzerKind.rules, List.mem_cons, List.not_mem_nil, or_false] at member
      rcases member with rfl | rfl <;> simp
    rcases listed with same | same <;> rw [same] <;> rfl
  shaped := by
    intro rule member value given
    simp only [hashing, AnalyzerKind.rules, List.mem_cons, List.not_mem_nil, or_false] at member
    rcases member with rfl | rfl
    · cases given
      exact ⟨base, read?_toJson base⟩
    · cases given
      exact ⟨hashes, rfl⟩

/-- Hashing the tokens of a sound analyzer is sound. -/
theorem sound_hashing (sound : base.Sound) : (hashing base hashes).Sound :=
  sound_of_inner proper_hashing (by simp [hashing]) fun _ holds =>
    holds_hashing_iff.mp holds ▸ sound

theorem passes_hashing (sound : base.Sound) (flat : base.Flat) :
    (hashing base hashes).Passes false :=
  passes_outermost_iff.mpr ⟨sound_hashing sound, fun _ holds => holds_hashing_iff.mp holds ▸ flat⟩

end SubAnalyzer

namespace Analyzer

variable {a : Analyzer}

/-! ### Whole analyzers -/

/-- The outermost definition of an analyzer. -/
def outermost (a : Analyzer) : SubAnalyzer :=
  { kind := a.kind, properties := a.properties }

theorem validate_eq_ok_iff :
    a.validate = .ok () ↔ isName a.name = true ∧ a.outermost.Passes false := by
  rw [validate, SubAnalyzer.Passes, outermost]
  split
  · next named => simp [named]
  · next unnamed => simp [unnamed]

/-- A pipeline that cuts texts at commas and then stems the pieces. -/
def stemmedPieces : SubAnalyzer :=
  (ofSteps "pieces" [{ kind := .delimiter, properties := ⟨[("delimiter", .str ",")]⟩ },
    { kind := .stem, properties := ⟨[("locale", .str "en")]⟩ }]).outermost

theorem sound_stemmedPieces : stemmedPieces.Sound := by
  have passes : stemmedPieces.Passes false := by
    simp [SubAnalyzer.Passes, stemmedPieces, ofSteps, outermost, SubAnalyzer.toJson,
      checkProperties, checkRules, checkShape, checkSteps, checkNested, AnalyzerKind.takes,
      AnalyzerKind.rules, AnalyzerKind.plain?_word, Dict.keys, Dict.get?, Dict.lookupEntry,
      Shape.accepts, Json.items?, Json.isText, Json.text?, Json.field, Json.get?]
  exact (SubAnalyzer.passes_outermost_iff.mp passes).1

theorem flat_stemmedPieces : stemmedPieces.Flat := fun inner =>
  sound_stemmedPieces.unnested stemmedPieces inner .refl rfl

/-- An analyzer that is accepted is proper at every depth: kinds are known, properties are those
that the kind takes, none that it requires is missing, and each has its shape.  No pipeline
occurs anywhere inside of a pipeline. -/
theorem sound_of_validate (accepted : a.validate = .ok ()) : a.outermost.Sound :=
  (SubAnalyzer.passes_outermost_iff.mp (validate_eq_ok_iff.mp accepted).2).1

/-- An analyzer that hashes the pieces of a pipeline. -/
def hashedPieces : Analyzer :=
  minhashOf "once" stemmedPieces 2

/-- A pipeline is accepted directly inside of the outermost analyzer, and is proper there. -/
theorem sound_of_hashedPieces : hashedPieces.validate = .ok () ∧ stemmedPieces.Proper := by
  have named : isName "once" = true := by decide
  have accepted : hashedPieces.validate = .ok () := validate_eq_ok_iff.mpr
    ⟨named, SubAnalyzer.passes_hashing sound_stemmedPieces flat_stemmedPieces⟩
  have holds : hashedPieces.outermost.Holds stemmedPieces :=
    SubAnalyzer.holds_hashing_iff.mpr rfl
  exact ⟨accepted, (sound_of_validate accepted).proper stemmedPieces (.single holds)⟩

/-- A named analyzer that is sound at every depth is accepted exactly if no pipeline lies inside
of an analyzer that is itself nested. -/
theorem validate_eq_ok_iff_of_sound (nonempty : a.name ≠ "")
    (single : ¬ [':', ':'] <:+: a.name.toList) (sound : a.outermost.Sound) :
    a.validate = .ok () ↔ ∀ inner, a.outermost.Holds inner → inner.Flat := by
  rw [validate_eq_ok_iff, isName_iff, SubAnalyzer.passes_outermost_iff]
  exact ⟨fun accepted => accepted.2.2, fun flat => ⟨⟨nonempty, single⟩, sound, flat⟩⟩

theorem validate_of_hashedPieces :
    hashedPieces.name ≠ "" ∧ ¬ [':', ':'] <:+: hashedPieces.name.toList ∧
      hashedPieces.outermost.Sound ∧ hashedPieces.validate = .ok () := by
  have nonempty : hashedPieces.name ≠ "" := by decide
  have single : ¬ [':', ':'] <:+: hashedPieces.name.toList := by decide
  have sound : hashedPieces.outermost.Sound := SubAnalyzer.sound_hashing sound_stemmedPieces
  refine ⟨nonempty, single, sound, (validate_eq_ok_iff_of_sound nonempty single sound).mpr ?_⟩
  intro inner holds
  rw [SubAnalyzer.holds_hashing_iff.mp holds]
  exact flat_stemmedPieces

/-- An analyzer that hashes the hashes of the pieces of a pipeline. -/
def hashedTwice : Analyzer :=
  minhashOf "deep" (.hashing stemmedPieces 2) 2

/-- A sound analyzer that has a pipeline below two others, none of them a pipeline, is refused
all the same. -/
theorem pipeline_refused_of_hashedTwice :
    hashedTwice.name ≠ "" ∧ ¬ [':', ':'] <:+: hashedTwice.name.toList ∧
      hashedTwice.outermost.Sound ∧ hashedTwice.validate = .error .nestedPipeline := by
  have sound : hashedTwice.outermost.Sound :=
    SubAnalyzer.sound_hashing (SubAnalyzer.sound_hashing sound_stemmedPieces)
  have named : isName "deep" = true := by decide
  refine ⟨by decide, by decide, sound, ?_⟩
  simp [hashedTwice, validate, minhashOf, named, stemmedPieces, SubAnalyzer.hashing, ofSteps,
    outermost, SubAnalyzer.toJson, checkProperties, checkRules, checkShape, checkNested,
    AnalyzerKind.takes, AnalyzerKind.rules, AnalyzerKind.plain?_word, Dict.keys, Dict.get?,
    Dict.lookupEntry, Shape.accepts, Json.field, Json.get?]

end Analyzer

end DocStore
