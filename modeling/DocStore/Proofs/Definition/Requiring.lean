/-
Module: DocStore.Proofs.Definition.Requiring
Purpose: the required columns of an object are, each once, those that may not be null, as long
  as no column is renamed over a required one.
Main exports:
  ColumnOp.nullability, ColumnOp.Sparing, ObjectRule.Follows, ObjectRule.Follows.rename_iff,
  ColumnOp.Nested, ColumnOp.required_by_nullability
-/
import DocStore.Proofs.Definition.ObjectRule
import Mathlib.Data.List.Nodup
import Mathlib.Logic.Function.Basic

namespace DocStore

/-!
Whether a column may be null is said when it is added or modified.  It is written down twice: in
the schema of the column, which a rename moves along with it, and in the list of required columns,
where a rename replaces the name at its place.  The two agree until a column is renamed over one
that is required: its schema is gone then, but its name stays in the list.
-/

/-! ### What is said of columns -/

namespace ColumnOp

/-- What is said of each column after a change: whether it may be null, or nothing if there is
no such column.  A renamed column takes with it what was said of it. -/
def note (said : String → Option Bool) : ColumnOp → String → Option Bool
  | add name _ options => Function.update said name (some options.nullable)
  | modify name _ options => Function.update said name (some options.nullable)
  | remove name => Function.update said name none
  | rename source target =>
      match said source with
      | none => said
      | some nullable => Function.update (Function.update said source none) target (some nullable)

theorem note_rename_of_none {said : String → Option Bool} {source : String}
    (unknown : said source = none) (target : String) :
    note said (.rename source target) = said := by
  rw [note, unknown]

theorem note_rename_of_some {said : String → Option Bool} {source : String} {nullable : Bool}
    (known : said source = some nullable) (target key : String) :
    note said (.rename source target) key =
      if key = target then some nullable else if key = source then none else said key := by
  rw [note, known]
  simp only [Function.update_apply]

/-- Whether each column may be null, as changes of an object without columns last said of it. -/
def nullability (ops : List ColumnOp) : String → Option Bool :=
  ops.foldl note fun _ => none

/-- A change does not rename a column over another one that may not be null. -/
def Spares (said : String → Option Bool) : ColumnOp → Prop
  | rename source target =>
      (said source).isSome = true → source ≠ target → said target ≠ some false
  | _ => True

/-- None of some changes renames a column over one that may not be null at that moment. -/
def SparesFrom (said : String → Option Bool) : List ColumnOp → Prop
  | [] => True
  | op :: ops => op.Spares said ∧ SparesFrom (op.note said) ops

/-- Changes of an object without columns that rename no column over one that may not be null. -/
def Sparing (ops : List ColumnOp) : Prop :=
  SparesFrom (fun _ => none) ops

end ColumnOp

/-! ### Rules that follow what is said -/

/-- The properties of a rule are the columns that something is said of, and the required ones
are, each once, those that may not be null. -/
structure ObjectRule.Follows (r : ObjectRule) (said : String → Option Bool) : Prop where
  nodup : r.required.Nodup
  properties : ∀ name, r.properties.contains name = (said name).isSome
  required : ∀ name, name ∈ r.required ↔ said name = some false

namespace ObjectRule

variable {r : ObjectRule} {said : String → Option Bool} {source target : String}

theorem Follows.put (follows : r.Follows said) (name : String) (schema : Json) (nullable : Bool) :
    (r.put name schema nullable).Follows (Function.update said name (some nullable)) where
  nodup := by
    have others : (r.required.filter (· != name)).Nodup := follows.nodup.filter _
    cases nullable with
    | true => exact others
    | false =>
        refine others.append (List.nodup_singleton name) ?_
        simp
  properties := by
    intro key
    rw [Dict.contains, get?_put, Function.update_apply]
    by_cases same : key = name
    · simp [same]
    · rw [if_neg same, if_neg same]
      exact follows.properties key
  required := by
    intro key
    rw [mem_required_put, Function.update_apply]
    by_cases same : key = name
    · simp [same]
    · rw [if_neg same, if_neg same]
      exact follows.required key

theorem Follows.drop (follows : r.Follows said) (name : String) :
    (r.drop name).Follows (Function.update said name none) where
  nodup := follows.nodup.filter _
  properties := by
    intro key
    rw [Dict.contains, get?_drop, Function.update_apply]
    by_cases same : key = name
    · simp [same]
    · rw [if_neg same, if_neg same]
      exact follows.properties key
  required := by
    intro key
    rw [mem_required_drop, Function.update_apply, follows.required key]
    by_cases same : key = name <;> simp [same]

/-- Renaming a column that is not there changes nothing. -/
theorem rename_of_absent (absent : r.properties.get? source = none)
    (free : source ∉ r.required) (target : String) : r.rename source target = r := by
  have required : (r.rename source target).required = r.required := by
    refine (List.map_congr_left fun name member => ?_).trans (List.map_id _)
    rw [if_neg, id]
    rintro rfl
    exact free member
  obtain ⟨properties, names⟩ := r
  exact congrArg₂ ObjectRule.mk (properties_rename_of_absent absent target) required

theorem contains_rename {schema : Json} (found : r.properties.get? source = some schema)
    (target key : String) : (r.rename source target).properties.contains key =
      if key = target then true else if key = source then false
        else r.properties.contains key := by
  rw [Dict.contains, properties_rename_of_some found, Dict.get?_insert, Dict.get?_erase]
  split
  · rfl
  · split <;> rfl

/-- A name that is not required stays different from the others in the place of one of them. -/
theorem nodup_required_rename (nodup : r.required.Nodup)
    (free : source ≠ target → target ∉ r.required) : (r.rename source target).required.Nodup := by
  refine nodup.map_on fun a first b second same => ?_
  by_cases isSource : a = source <;> by_cases isSource' : b = source
  · exact isSource.trans isSource'.symm
  · rw [if_pos isSource, if_neg isSource'] at same
    exact absurd (same ▸ second) (free fun unmoved => isSource' (same.symm.trans unmoved.symm))
  · rw [if_neg isSource, if_pos isSource'] at same
    exact absurd (same ▸ first) (free fun unmoved => isSource (same.trans unmoved.symm))
  · rwa [if_neg isSource, if_neg isSource'] at same

theorem Follows.rename (follows : r.Follows said)
    (spares : (ColumnOp.rename source target).Spares said) :
    (r.rename source target).Follows (ColumnOp.note said (.rename source target)) := by
  have there := follows.properties source
  cases known : said source with
  | none =>
      have absent : r.properties.get? source = none := by
        simpa [known, Dict.contains] using there
      have free : source ∉ r.required := by simp [follows.required, known]
      rwa [rename_of_absent absent free, ColumnOp.note_rename_of_none known]
  | some nullable =>
      rw [known] at there
      obtain ⟨schema, found⟩ := Option.isSome_iff_exists.mp there
      have free : source ≠ target → said target ≠ some false := spares (by rw [known]; rfl)
      refine ⟨nodup_required_rename follows.nodup fun apart => ?_, fun key => ?_, fun key => ?_⟩
      · rw [follows.required]
        exact free apart
      · rw [contains_rename found, ColumnOp.note_rename_of_some known, follows.properties key]
        split
        · rfl
        · split <;> rfl
      · rw [mem_required_rename, ColumnOp.note_rename_of_some known, follows.required key,
          follows.required source, known]
        by_cases isTarget : key = target
        · subst isTarget
          have released : ¬ (said key = some false ∧ key ≠ source) :=
            fun required => free (Ne.symm required.2) required.1
          rw [or_iff_right released, if_pos rfl, and_iff_left rfl]
        · by_cases isSource : key = source
          · subst isSource
            simp [isTarget]
          · simp [isTarget, isSource]

/-- A column that is renamed over a required one stays required even if it may be null, and is
required twice if it may not. -/
theorem Follows.spares_of_rename (follows : r.Follows said)
    (renamed : (r.rename source target).Follows (ColumnOp.note said (.rename source target))) :
    (ColumnOp.rename source target).Spares said := by
  intro known apart taken
  obtain ⟨nullable, known⟩ := Option.isSome_iff_exists.mp known
  have isTarget := (follows.required target).mpr taken
  have listed : target ∈ (r.rename source target).required :=
    mem_required_rename.mpr (.inl ⟨isTarget, Ne.symm apart⟩)
  rw [renamed.required, ColumnOp.note_rename_of_some known, if_pos rfl] at listed
  have isSource := (follows.required source).mpr (known.trans listed)
  have once := List.inj_on_of_nodup_map renamed.nodup isSource isTarget
  rw [if_pos rfl, if_neg (Ne.symm apart)] at once
  exact apart (once rfl)

/-- A rename keeps the list of required columns right exactly if it does not take the place of a
required one. -/
theorem Follows.rename_iff (follows : r.Follows said) :
    (r.rename source target).Follows (ColumnOp.note said (.rename source target)) ↔
      (ColumnOp.rename source target).Spares said :=
  ⟨follows.spares_of_rename, follows.rename⟩

end ObjectRule

namespace ColumnOp

variable {op : ColumnOp} {ops : List ColumnOp} {rule next result : ObjectRule}
  {said : String → Option Bool}

theorem Changes.follows (changes : op.Changes rule next) (follows : rule.Follows said)
    (spares : op.Spares said) : next.Follows (op.note said) := by
  cases changes with
  | put typed _ => rcases typed with rfl | rfl <;> exact follows.put _ _ _
  | drop name => exact follows.drop name
  | rename source target => exact follows.rename spares

theorem applyAll_follows (applied : applyAll ops rule = .ok result) (follows : rule.Follows said)
    (spares : SparesFrom said ops) : result.Follows (ops.foldl note said) := by
  induction ops generalizing rule said with
  | nil =>
      cases applied
      exact follows
  | cons op rest inductionHypothesis =>
      obtain ⟨next, changes, later⟩ := applyAll_cons_eq_ok_iff.mp applied
      exact inductionHypothesis later (changes.follows follows spares.1) spares.2

theorem follows_empty : ObjectRule.Follows {} fun _ => none where
  nodup := List.nodup_nil
  properties := fun _ => rfl
  required := by simp

/-! ### Columns of nested objects -/

end ColumnOp

/-- The columns of the objects in a type, be they its values or items of arrays. -/
def ColumnType.columns? : ColumnType → Option (List ColumnOp)
  | .object columns => some columns
  | .arrayOf items => items.columns?
  | _ => none

namespace ColumnOp

variable {op : ColumnOp} {ops columns inner : List ColumnOp} {rule result : ObjectRule}
  {name : String} {type : ColumnType} {options : ColumnOptions} {schema : Json}

/-- Columns are those of an object at some depth in the types of others, or all of them. -/
inductive Nested (ops : List ColumnOp) : List ColumnOp → Prop where
  | whole : Nested ops ops
  | inside {columns inner : List ColumnOp} {op : ColumnOp} {name : String} {type : ColumnType}
      {options : ColumnOptions} (outer : Nested ops columns) (member : op ∈ columns)
      (typed : op = .add name type options ∨ op = .modify name type options)
      (holds : type.columns? = some inner) : Nested ops inner

/-- Changes that succeed have a schema for each type. -/
theorem exists_schema_of_mem (applied : applyAll ops rule = .ok result) (member : op ∈ ops)
    (typed : op = .add name type options ∨ op = .modify name type options) :
    ∃ schema, type.schema options = .ok schema := by
  induction ops generalizing rule with
  | nil => cases member
  | cons first rest inductionHypothesis =>
      obtain ⟨next, changes, later⟩ := applyAll_cons_eq_ok_iff.mp applied
      rcases List.mem_cons.mp member with rfl | among
      · obtain ⟨schema, is, _⟩ := changes.of_typed typed
        exact ⟨schema, is⟩
      · exact inductionHypothesis later among

/-- A type with a schema has rules for the objects in it. -/
theorem exists_applyAll_of_schema : (type : ColumnType) → {options : ColumnOptions} →
    {schema : Json} → type.schema options = .ok schema → type.columns? = some columns →
    ∃ rule, applyAll columns {} = .ok rule
  | .object _, _, _, is, holds => by
      cases holds
      rw [ColumnType.schema] at is
      obtain ⟨rule, applied, _⟩ := exceptBind_eq_ok_iff.mp is
      exact ⟨rule, applied⟩
  | .arrayOf items, _, _, is, holds => by
      rw [ColumnType.schema] at is
      obtain ⟨schema, isItems, _⟩ := exceptBind_eq_ok_iff.mp is
      exact exists_applyAll_of_schema items isItems holds

theorem Nested.exists_applyAll (nested : Nested ops columns)
    (applied : applyAll ops {} = .ok rule) : ∃ rule, applyAll columns {} = .ok rule := by
  induction nested with
  | whole => exact ⟨rule, applied⟩
  | inside _ member typed holds inductionHypothesis =>
      obtain ⟨outer, isOuter⟩ := inductionHypothesis
      obtain ⟨schema, is⟩ := exists_schema_of_mem isOuter member typed
      exact exists_applyAll_of_schema _ is holds

/-! ### Required columns -/

end ColumnOp

/-- The required columns of a rule are, each once, the properties whose definition, followed
through renames, was last said not to be null. -/
structure ObjectRule.RequiredBy (r : ObjectRule) (ops : List ColumnOp) : Prop where
  nodup : r.required.Nodup
  mem_iff : ∀ name, name ∈ r.required ↔
    r.properties.contains name = true ∧ ColumnOp.nullability ops name = some false

namespace ColumnOp

theorem requiredBy_of_applyAll (applied : applyAll ops {} = .ok rule) (sparing : Sparing ops) :
    rule.RequiredBy ops := by
  have follows : rule.Follows (nullability ops) := applyAll_follows applied follows_empty sparing
  refine ⟨follows.nodup, fun name => ?_⟩
  rw [follows.required, follows.properties]
  constructor
  · intro said
    exact ⟨by rw [said]; rfl, said⟩
  · exact And.right

/-- Changes of an object without columns that succeed lead to a rule for it, and for every
object among its columns to a rule that its schema consists of.  The required columns of each
of them are those that may not be null, as long as its own changes rename no column over a
required one. -/
theorem required_by_nullability (applied : applyAll ops {} = .ok rule) :
    (Sparing ops → rule.RequiredBy ops) ∧
      ∀ columns, Nested ops columns → ∃ inner, applyAll columns {} = .ok inner ∧
        (∀ options, (ColumnType.object columns).schema options = .ok
          (withKeywords options.extra (inner.toJson (typeKeyword "object" options.nullable)))) ∧
        (Sparing columns → inner.RequiredBy columns) := by
  refine ⟨requiredBy_of_applyAll applied, fun columns nested => ?_⟩
  obtain ⟨inner, isInner⟩ := nested.exists_applyAll applied
  refine ⟨inner, isInner, fun options => ?_, requiredBy_of_applyAll isInner⟩
  rw [ColumnType.schema, isInner]
  rfl

/-- The columns of an address, one of them renamed. -/
def addressColumns : List ColumnOp :=
  [.add "zip" (.primitive "text") .notNull, .add "city" (.primitive "text") {},
    .rename "zip" "code"]

/-- The columns of a person with addresses in an array.  One required column is renamed over a
column that may be null, another one to a new name. -/
def personColumns : List ColumnOp :=
  [.add "name" (.primitive "string") .notNull, .add "nick" (.primitive "string") {},
    .add "id" (.primitive "uuid") .notNull,
    .add "addresses" (.arrayOf (.object addressColumns)) {}, .rename "name" "nick",
    .modify "id" (.primitive "integer") .notNull, .rename "id" "key"]

theorem required_by_nullability_of_personColumns :
    ∃ rule, applyAll personColumns {} = .ok rule ∧ rule.required = ["nick", "key"] ∧
      rule.RequiredBy personColumns ∧ ∃ inner, applyAll addressColumns {} = .ok inner ∧
        inner.RequiredBy addressColumns := by
  have applied : applyAll personColumns {} = .ok _ := rfl
  have nested : Nested personColumns addressColumns :=
    .inside .whole (List.mem_of_getElem? (i := 3) rfl) (.inl rfl) rfl
  obtain ⟨outer, within⟩ := required_by_nullability applied
  obtain ⟨inner, isInner, _, required⟩ := within addressColumns nested
  have sparing : Sparing personColumns := by
    simp [personColumns, Sparing, SparesFrom, Spares, note, Function.update]
  have sparingInner : Sparing addressColumns := by
    simp [addressColumns, Sparing, SparesFrom, Spares, note, Function.update]
  exact ⟨_, applied, rfl, outer sparing, inner, isInner, required sparingInner⟩

/-- A column that is renamed over a required one is required twice, or although it may be
null. -/
theorem required_amiss_of_rename :
    (∃ rule, applyAll [.add "a" (.primitive "string") .notNull,
        .add "b" (.primitive "integer") .notNull, .rename "a" "b"] {} = .ok rule ∧
      ¬ rule.required.Nodup) ∧
    ∃ rule, applyAll [.add "a" (.primitive "string") {},
        .add "b" (.primitive "integer") .notNull, .rename "a" "b"] {} = .ok rule ∧
      "b" ∈ rule.required ∧ nullability [.add "a" (.primitive "string") {},
        .add "b" (.primitive "integer") .notNull, .rename "a" "b"] "b" = some true :=
  ⟨⟨_, rfl, by decide⟩, _, rfl, by decide, by decide⟩

end ColumnOp

end DocStore
