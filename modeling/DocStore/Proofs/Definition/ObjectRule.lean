/-
Module: DocStore.Proofs.Definition.ObjectRule
Purpose: what one change of a column does to the properties of an object and to the list of
  those that it must have.
Main exports:
  ColumnOp.Changes, ColumnOp.apply_eq_ok_iff, ColumnOp.Changes.of_typed,
  ColumnOp.applyAll_cons_eq_ok_iff, ObjectRule.mem_required_rename, ColumnOp.mentioned,
  ColumnOp.get?_applyAll_of_notMentioned, ColumnOp.filter_required_applyAll, ObjectRule.drop_put,
  ObjectRule.rename_rename, ColumnOp.applyAll_sorted
-/
import DocStore.Definition.Validation
import DocStore.Proofs.Dict.Order
import DocStore.Proofs.Fallible

namespace DocStore

/-! ### One change -/

/-- All that a change does to a rule: a new or modified column is put with the schema of its
type, a column is dropped, or one is renamed. -/
inductive ColumnOp.Changes (rule : ObjectRule) : ColumnOp → ObjectRule → Prop where
  | put {op : ColumnOp} {name : String} {type : ColumnType} {options : ColumnOptions}
      {schema : Json} (typed : op = .add name type options ∨ op = .modify name type options)
      (is : type.schema options = .ok schema) :
      Changes rule op (rule.put name schema options.nullable)
  | drop (name : String) : Changes rule (.remove name) (rule.drop name)
  | rename (source target : String) :
      Changes rule (.rename source target) (rule.rename source target)

namespace ColumnOp

variable {op : ColumnOp} {ops : List ColumnOp} {rule next result : ObjectRule}

theorem apply_eq_ok_iff : op.apply rule = .ok next ↔ op.Changes rule next := by
  constructor
  · intro is
    cases op with
    | add name type options =>
        rw [apply, exceptBind_eq_ok_iff] at is
        obtain ⟨schema, isSchema, same⟩ := is
        cases same
        exact .put (.inl rfl) isSchema
    | modify name type options =>
        rw [apply, exceptBind_eq_ok_iff] at is
        obtain ⟨schema, isSchema, same⟩ := is
        cases same
        exact .put (.inr rfl) isSchema
    | remove name =>
        rw [apply] at is
        cases is
        exact .drop name
    | rename source target =>
        rw [apply] at is
        cases is
        exact .rename source target
  · intro changes
    cases changes with
    | put typed is =>
        rcases typed with rfl | rfl <;>
        · rw [apply, is]
          rfl
    | drop name => rw [apply]
    | rename source target => rw [apply]

/-- A column that is added or modified is put with the schema that its type has. -/
theorem Changes.of_typed {name : String} {type : ColumnType} {options : ColumnOptions}
    (changes : op.Changes rule next)
    (typed : op = .add name type options ∨ op = .modify name type options) :
    ∃ schema, type.schema options = .ok schema ∧
      next = rule.put name schema options.nullable := by
  have is := apply_eq_ok_iff.mpr changes
  rcases typed with rfl | rfl <;>
  · obtain ⟨schema, isSchema, same⟩ := exceptBind_eq_ok_iff.mp is
    exact ⟨schema, isSchema, (Except.ok.inj same).symm⟩

theorem applyAll_cons_eq_ok_iff : applyAll (op :: ops) rule = .ok result ↔
    ∃ next, op.Changes rule next ∧ applyAll ops next = .ok result := by
  simp only [applyAll, exceptBind_eq_ok_iff, apply_eq_ok_iff]

/-- Whether a change can be made does not depend on what is changed. -/
theorem Changes.exists_of (changes : op.Changes rule next) (other : ObjectRule) :
    ∃ next, op.Changes other next := by
  cases changes with
  | put typed is => exact ⟨_, .put typed is⟩
  | drop name => exact ⟨_, .drop name⟩
  | rename source target => exact ⟨_, .rename source target⟩

theorem exists_applyAll_of (applied : applyAll ops rule = .ok result) (other : ObjectRule) :
    ∃ result, applyAll ops other = .ok result := by
  induction ops generalizing rule other with
  | nil => exact ⟨other, rfl⟩
  | cons op rest inductionHypothesis =>
      obtain ⟨next, changes, later⟩ := applyAll_cons_eq_ok_iff.mp applied
      obtain ⟨next', changes'⟩ := changes.exists_of other
      obtain ⟨result', later'⟩ := inductionHypothesis later next'
      exact ⟨result', applyAll_cons_eq_ok_iff.mpr ⟨next', changes', later'⟩⟩

end ColumnOp

/-! ### Properties and required names -/

namespace ObjectRule

variable {r : ObjectRule}

theorem get?_put (r : ObjectRule) (name : String) (schema : Json) (nullable : Bool)
    (key : String) : (r.put name schema nullable).properties.get? key =
      if key = name then some schema else r.properties.get? key :=
  Dict.get?_insert r.properties name key schema

theorem get?_drop (r : ObjectRule) (name key : String) :
    (r.drop name).properties.get? key =
      if key = name then none else r.properties.get? key :=
  Dict.get?_erase r.properties name key

/-- Renaming a column that is not there leaves all properties. -/
theorem properties_rename_of_absent {source : String} (absent : r.properties.get? source = none)
    (target : String) : (r.rename source target).properties = r.properties := by
  rw [rename, absent]

theorem properties_rename_of_some {source : String} {schema : Json}
    (found : r.properties.get? source = some schema) (target : String) :
    (r.rename source target).properties = (r.properties.erase source).insert target schema := by
  rw [rename, found]

theorem mem_required_put {name : String} {schema : Json} {nullable : Bool} {other : String} :
    other ∈ (r.put name schema nullable).required ↔
      if other = name then nullable = false else other ∈ r.required := by
  by_cases same : other = name <;> cases nullable <;> simp [put, same]

theorem mem_required_drop {name other : String} :
    other ∈ (r.drop name).required ↔ other ∈ r.required ∧ other ≠ name := by
  simp [drop]

theorem mem_required_rename {source target other : String} :
    other ∈ (r.rename source target).required ↔
      (other ∈ r.required ∧ other ≠ source) ∨ (source ∈ r.required ∧ other = target) := by
  simp only [rename, List.mem_map]
  constructor
  · rintro ⟨name, member, is⟩
    split at is
    · next same => exact .inr ⟨same ▸ member, is.symm⟩
    · next unlike => exact .inl ⟨is ▸ member, is ▸ unlike⟩
  · rintro (⟨member, unlike⟩ | ⟨member, rfl⟩)
    · exact ⟨other, member, if_neg unlike⟩
    · exact ⟨source, member, if_pos rfl⟩

variable {keep : String → Bool}

theorem filter_required_drop {name : String} (notKept : keep name = false) :
    (r.drop name).required.filter keep = r.required.filter keep := by
  rw [drop, List.filter_filter]
  refine List.filter_congr fun other _ => ?_
  by_cases same : other = name
  · simp [same, notKept]
  · simp [same]

theorem filter_required_put {name : String} (notKept : keep name = false) (schema : Json)
    (nullable : Bool) :
    (r.put name schema nullable).required.filter keep = r.required.filter keep := by
  have others : (r.drop name).required.filter keep = r.required.filter keep :=
    filter_required_drop notKept
  cases nullable with
  | true => exact others
  | false => simpa [put, drop, notKept] using others

theorem filter_required_rename {source target : String} (notSource : keep source = false)
    (notTarget : keep target = false) :
    (r.rename source target).required.filter keep = r.required.filter keep := by
  rw [rename]
  dsimp only
  induction r.required with
  | nil => rfl
  | cons first rest inductionHypothesis =>
      by_cases moves : first = source
      · simpa [moves, notSource, notTarget] using inductionHypothesis
      · cases kept : keep first <;> simpa [moves, kept] using inductionHypothesis

end ObjectRule

/-! ### Columns that are not mentioned -/

namespace ColumnOp

/-- The columns that a change mentions. -/
def names : ColumnOp → List String
  | add name _ _ => [name]
  | modify name _ _ => [name]
  | remove name => [name]
  | rename source target => [source, target]

/-- The columns that changes mention. -/
def mentioned (ops : List ColumnOp) : List String :=
  ops.flatMap names

variable {op : ColumnOp} {ops : List ColumnOp} {rule next result : ObjectRule} {key : String}

theorem names_of_typed {name : String} {type : ColumnType} {options : ColumnOptions}
    (typed : op = .add name type options ∨ op = .modify name type options) :
    op.names = [name] := by
  rcases typed with rfl | rfl <;> rfl

/-- A change leaves the properties that it does not mention. -/
theorem Changes.get?_of_notMem (changes : op.Changes rule next) (apart : key ∉ op.names) :
    next.properties.get? key = rule.properties.get? key := by
  cases changes with
  | put typed _ =>
      rw [names_of_typed typed, List.mem_singleton] at apart
      rw [ObjectRule.get?_put, if_neg apart]
  | drop name =>
      rw [names, List.mem_singleton] at apart
      rw [ObjectRule.get?_drop, if_neg apart]
  | rename source target =>
      rw [names, List.mem_pair, not_or] at apart
      cases found : rule.properties.get? source with
      | none => rw [ObjectRule.properties_rename_of_absent found]
      | some schema =>
          rw [ObjectRule.properties_rename_of_some found, Dict.get?_insert, Dict.get?_erase,
            if_neg apart.2, if_neg apart.1]

/-- A change leaves the required names that it does not mention, in their order. -/
theorem Changes.filter_required (changes : op.Changes rule next) {keep : String → Bool}
    (spares : ∀ name ∈ op.names, keep name = false) :
    next.required.filter keep = rule.required.filter keep := by
  cases changes with
  | @put _ name _ _ _ typed _ =>
      exact ObjectRule.filter_required_put (spares name (by simp [names_of_typed typed])) _ _
  | drop name => exact ObjectRule.filter_required_drop (spares name (by simp [names]))
  | rename source target =>
      exact ObjectRule.filter_required_rename (spares source (by simp [names]))
        (spares target (by simp [names]))

theorem mentioned_cons : mentioned (op :: ops) = op.names ++ mentioned ops :=
  List.flatMap_cons

theorem get?_applyAll_of_notMentioned (applied : applyAll ops rule = .ok result)
    (apart : key ∉ mentioned ops) : result.properties.get? key = rule.properties.get? key := by
  induction ops generalizing rule with
  | nil =>
      cases applied
      rfl
  | cons op rest inductionHypothesis =>
      obtain ⟨next, changes, later⟩ := applyAll_cons_eq_ok_iff.mp applied
      rw [mentioned_cons, List.mem_append, not_or] at apart
      calc
        result.properties.get? key = next.properties.get? key := inductionHypothesis later apart.2
        _ = rule.properties.get? key := changes.get?_of_notMem apart.1

theorem filter_required_applyAll (applied : applyAll ops rule = .ok result)
    {keep : String → Bool} (spares : ∀ name ∈ mentioned ops, keep name = false) :
    result.required.filter keep = rule.required.filter keep := by
  induction ops generalizing rule with
  | nil =>
      cases applied
      rfl
  | cons op rest inductionHypothesis =>
      obtain ⟨next, changes, later⟩ := applyAll_cons_eq_ok_iff.mp applied
      rw [mentioned_cons, List.forall_mem_append] at spares
      calc
        result.required.filter keep = next.required.filter keep :=
          inductionHypothesis later spares.2
        _ = rule.required.filter keep := changes.filter_required spares.1

end ColumnOp

namespace ObjectRule

variable {r : ObjectRule}

/-! ### Changes that are taken back -/

/-- There is no column of a name, and none is required. -/
structure Lacks (r : ObjectRule) (name : String) : Prop where
  absent : r.properties.get? name = none
  free : name ∉ r.required

/-- Dropping a new column leads back. -/
theorem drop_put {name : String} (lacks : r.Lacks name) (schema : Json) (nullable : Bool) :
    (r.put name schema nullable).drop name = r := by
  have kept : r.required.filter (· != name) = r.required :=
    List.filter_eq_self.mpr fun other member =>
      bne_iff_ne.mpr fun same => lacks.free (same ▸ member)
  have required : ((r.put name schema nullable).drop name).required = r.required := by
    cases nullable <;> simp [put, drop, kept]
  obtain ⟨properties, names⟩ := r
  exact congrArg₂ ObjectRule.mk (Dict.erase_insert lacks.absent schema) required

/-- Renaming a column back from a new name leads back, also to its place among the required
ones. -/
theorem rename_rename (sorted : r.properties.Sorted) {target : String} (lacks : r.Lacks target)
    (source : String) : (r.rename source target).rename target source = r := by
  have properties : ((r.rename source target).rename target source).properties =
      r.properties := by
    cases found : r.properties.get? source with
    | none =>
        have unchanged := properties_rename_of_absent found target
        have absent : (r.rename source target).properties.get? target = none := by
          rw [unchanged, lacks.absent]
        rw [properties_rename_of_absent absent, unchanged]
    | some schema =>
        have moved := properties_rename_of_some found target
        have there : (r.rename source target).properties.get? target = some schema := by
          rw [moved, Dict.get?_insert_self]
        have cleared : (r.properties.erase source).get? target = none := by
          rw [Dict.get?_erase, lacks.absent, ite_self]
        rw [properties_rename_of_some there, moved, Dict.erase_insert cleared,
          sorted.insert_erase found]
  have required : ((r.rename source target).rename target source).required = r.required := by
    simp only [rename, List.map_map]
    refine (List.map_congr_left fun name member => ?_).trans (List.map_id _)
    have other : name ≠ target := fun same => lacks.free (same ▸ member)
    by_cases moves : name = source
    · simp [moves]
    · simp [moves, other]
  obtain ⟨_, _⟩ := r
  exact congrArg₂ ObjectRule.mk properties required

/-! ### Properties in key order -/

theorem sorted_rename (sorted : r.properties.Sorted) (source target : String) :
    (r.rename source target).properties.Sorted := by
  cases found : r.properties.get? source with
  | none => rwa [properties_rename_of_absent found]
  | some schema =>
      rw [properties_rename_of_some found]
      exact (sorted.erase source).insert target schema

end ObjectRule

namespace ColumnOp

variable {op : ColumnOp} {ops : List ColumnOp} {rule next result : ObjectRule}

theorem Changes.sorted (changes : op.Changes rule next) (sorted : rule.properties.Sorted) :
    next.properties.Sorted := by
  cases changes with
  | put typed is => exact sorted.insert _ _
  | drop name => exact sorted.erase name
  | rename source target => exact ObjectRule.sorted_rename sorted source target

theorem applyAll_sorted (applied : applyAll ops rule = .ok result)
    (sorted : rule.properties.Sorted) : result.properties.Sorted := by
  induction ops generalizing rule with
  | nil =>
      cases applied
      exact sorted
  | cons op rest inductionHypothesis =>
      obtain ⟨next, changes, later⟩ := applyAll_cons_eq_ok_iff.mp applied
      exact inductionHypothesis later (changes.sorted sorted)

end ColumnOp

end DocStore
