/-
Module: DocStore.Proofs.Definition.Redeclaring
Purpose: columns that are declared or removed as they were before stay as they are, and the
  required ones keep their order.
Main exports:
  ColumnOp.lastRequired, ColumnOp.required_applyAll, ColumnOp.get?_applyAll_of_mem,
  ColumnOp.applyAll_again
-/
import DocStore.Proofs.Definition.ObjectRule

namespace DocStore.ColumnOp

/-!
A declaration takes its column out of the required ones and, unless it may be null, puts it
behind them.  So of several declarations of a column only the last one shows: in the properties
by its schema, and in the order of the required columns by its place.
-/

/-! ### Declared columns -/

/-- The column that a change declares or removes.  A rename does neither. -/
def column? : ColumnOp → Option String
  | add name _ _ => some name
  | modify name _ _ => some name
  | remove name => some name
  | rename _ _ => none

/-- The columns that changes declare or remove. -/
def columns (ops : List ColumnOp) : List String :=
  ops.filterMap column?

/-- The column that a change puts behind the required ones. -/
def required? : ColumnOp → Option String
  | add name _ options => if options.nullable then none else some name
  | modify name _ options => if options.nullable then none else some name
  | _ => none

/-- The columns whose last declaration says that they may not be null, in the order of these
declarations. -/
def lastRequired : List ColumnOp → List String
  | [] => []
  | op :: ops => op.required?.toList.filter (· ∉ columns ops) ++ lastRequired ops

variable {op : ColumnOp} {ops : List ColumnOp} {rule other next next' result result' : ObjectRule}
  {name key : String}

theorem exists_column (noRename : ∀ source target, op ≠ .rename source target) :
    ∃ name, op.column? = some name := by
  cases op with
  | add name _ _ => exact ⟨name, rfl⟩
  | modify name _ _ => exact ⟨name, rfl⟩
  | remove name => exact ⟨name, rfl⟩
  | rename source target => exact absurd rfl (noRename source target)

theorem column_of_typed {type : ColumnType} {options : ColumnOptions}
    (typed : op = .add name type options ∨ op = .modify name type options) :
    op.column? = some name := by
  rcases typed with rfl | rfl <;> rfl

/-- Of changes without renames the first one has a column, and the others are without renames. -/
theorem declares_cons (noRename : ∀ source target, .rename source target ∉ op :: ops) :
    (∃ name, op.column? = some name) ∧ ∀ source target, .rename source target ∉ ops :=
  ⟨exists_column fun source target same => noRename source target (same ▸ List.mem_cons_self),
    fun source target member => noRename source target (List.mem_cons_of_mem _ member)⟩

theorem names_of_column (named : op.column? = some name) : op.names = [name] := by
  cases op with
  | rename source target => cases named
  | _ =>
      cases named
      rfl

theorem columns_cons (named : op.column? = some name) :
    columns (op :: ops) = name :: columns ops :=
  List.filterMap_cons_some named

/-- Without renames the columns that changes mention are those that they declare or remove. -/
theorem mentioned_eq_columns (noRename : ∀ source target, .rename source target ∉ ops) :
    mentioned ops = columns ops := by
  induction ops with
  | nil => rfl
  | cons op rest inductionHypothesis =>
      obtain ⟨⟨name, named⟩, noRename⟩ := declares_cons noRename
      rw [mentioned_cons, columns_cons named, names_of_column named, inductionHypothesis noRename]
      rfl

theorem column_of_required (required : op.required? = some name) : op.column? = some name := by
  cases op with
  | add _ _ options | modify _ _ options =>
      rw [required?] at required
      split at required
      · cases required
      · exact required
  | remove _ | rename _ _ => cases required

theorem mem_columns_of_mem_lastRequired (member : name ∈ lastRequired ops) :
    name ∈ columns ops := by
  induction ops with
  | nil => cases member
  | cons op rest inductionHypothesis =>
      rw [columns, List.mem_filterMap]
      rcases List.mem_append.mp member with here | later
      · have required := Option.mem_toList.mp (List.mem_of_mem_filter here)
        exact ⟨op, List.mem_cons_self, column_of_required required⟩
      · obtain ⟨op', among, named⟩ := List.mem_filterMap.mp (inductionHypothesis later)
        exact ⟨op', List.mem_cons_of_mem _ among, named⟩

/-! ### One declaration -/

theorem Changes.required_eq (changes : op.Changes rule next) (named : op.column? = some name) :
    next.required = rule.required.filter (· != name) ++ op.required?.toList := by
  cases changes with
  | @put _ declared _ options _ typed _ =>
      have same : declared = name := Option.some.inj ((column_of_typed typed).symm.trans named)
      have required : op.required? = if options.nullable then none else some declared := by
        rcases typed with rfl | rfl <;> rfl
      subst same
      rw [required]
      cases nullable : options.nullable <;> simp [ObjectRule.put]
  | drop removed =>
      cases named
      simp [ObjectRule.drop, required?]
  | rename source target => cases named

/-- What a declaration makes of its column does not depend on what was there. -/
theorem Changes.get?_self (changes : op.Changes rule next) (changes' : op.Changes other next')
    (named : op.column? = some name) :
    next.properties.get? name = next'.properties.get? name := by
  cases changes with
  | put typed is =>
      obtain rfl := Option.some.inj ((column_of_typed typed).symm.trans named)
      obtain ⟨schema, is', rfl⟩ := changes'.of_typed typed
      rw [is] at is'
      cases is'
      rw [ObjectRule.get?_put, ObjectRule.get?_put, if_pos rfl, if_pos rfl]
  | drop removed =>
      cases named
      obtain rfl := Except.ok.inj (apply_eq_ok_iff.mpr changes')
      rw [ObjectRule.get?_drop, ObjectRule.get?_drop, if_pos rfl, if_pos rfl]
  | rename source target => cases named

/-! ### Declarations in a row -/

section

variable (noRename : ∀ source target, .rename source target ∉ ops)
include noRename

/-- The required columns after declarations: those of before that are not declared, and then
the last declared ones. -/
theorem required_applyAll (applied : applyAll ops rule = .ok result) :
    result.required = rule.required.filter (· ∉ columns ops) ++ lastRequired ops := by
  induction ops generalizing rule with
  | nil =>
      cases applied
      simp [columns, lastRequired]
  | cons op rest inductionHypothesis =>
      obtain ⟨next, changes, later⟩ := applyAll_cons_eq_ok_iff.mp applied
      obtain ⟨⟨name, named⟩, noRename⟩ := declares_cons noRename
      have others := inductionHypothesis noRename later
      rw [others, changes.required_eq named, List.filter_append, List.filter_filter,
        List.append_assoc, lastRequired, columns_cons named]
      congr 1
      apply List.filter_congr
      intro required _
      by_cases same : required = name <;> simp [same]

theorem get?_applyAll_of_notMem (applied : applyAll ops rule = .ok result)
    (untouched : key ∉ columns ops) : result.properties.get? key = rule.properties.get? key :=
  get?_applyAll_of_notMentioned applied (mentioned_eq_columns noRename ▸ untouched)

/-- A declared column is what its last declaration makes of it, whatever was there. -/
theorem get?_applyAll_of_mem (applied : applyAll ops rule = .ok result)
    (applied' : applyAll ops other = .ok result') (declared : key ∈ columns ops) :
    result.properties.get? key = result'.properties.get? key := by
  induction ops generalizing rule other with
  | nil => cases declared
  | cons op rest inductionHypothesis =>
      obtain ⟨next, changes, later⟩ := applyAll_cons_eq_ok_iff.mp applied
      obtain ⟨next', changes', later'⟩ := applyAll_cons_eq_ok_iff.mp applied'
      obtain ⟨⟨name, named⟩, noRename⟩ := declares_cons noRename
      by_cases again : key ∈ columns rest
      · exact inductionHypothesis noRename later later' again
      · rw [columns_cons named] at declared
        obtain rfl : key = name := (List.mem_cons.mp declared).resolve_right again
        calc
          result.properties.get? key = next.properties.get? key :=
            get?_applyAll_of_notMem noRename later again
          _ = next'.properties.get? key := changes.get?_self changes' named
          _ = result'.properties.get? key :=
            (get?_applyAll_of_notMem noRename later' again).symm

/-- Declarations and removals that are made once more succeed and change nothing, not even the
order of the required columns. -/
theorem applyAll_again (sorted : rule.properties.Sorted)
    (applied : applyAll ops rule = .ok result) : applyAll ops result = .ok result := by
  obtain ⟨again, applied'⟩ := exists_applyAll_of applied result
  have properties : again.properties = result.properties := by
    have ordered := applyAll_sorted applied sorted
    refine (applyAll_sorted applied' ordered).ext ordered fun key => ?_
    by_cases declared : key ∈ columns ops
    · exact get?_applyAll_of_mem noRename applied' applied declared
    · exact get?_applyAll_of_notMem noRename applied' declared
  have required : again.required = result.required := by
    -- Nothing but declared columns is left out, and all that were put behind are declared.
    have none : (lastRequired ops).filter (· ∉ columns ops) = [] :=
      List.filter_eq_nil_iff.mpr fun name member => by
        simpa using mem_columns_of_mem_lastRequired member
    rw [required_applyAll noRename applied', required_applyAll noRename applied,
      List.filter_append, none, List.append_nil, List.filter_filter]
    simp
  obtain ⟨_, _⟩ := again
  obtain ⟨_, _⟩ := result
  cases properties
  cases required
  exact applied'

end

/-- Columns that are declared several times, made required and not, and removed. -/
def repeatedColumns : List ColumnOp :=
  [.add "a" (.primitive "string") .notNull, .add "b" (.primitive "integer") .notNull,
    .remove "c", .modify "a" (.primitive "number") .notNull,
    .add "d" (.arrayOf (.primitive "id")) {},
    .add "c" (.object [.add "e" (.constant (.str "x")) .notNull]) .notNull, .remove "c"]

/-- The rule of a collection with a few columns. -/
def givenRule : ObjectRule where
  properties := .ofList [("b", .obj {}), ("c", .obj {}), ("f", .obj {})]
  required := ["c", "f", "b"]

theorem applyAll_again_of_repeatedColumns :
    ∃ result, applyAll repeatedColumns givenRule = .ok result ∧
      result.required = ["f", "b", "a"] ∧ applyAll repeatedColumns result = .ok result :=
  ⟨_, rfl, rfl, applyAll_again (by simp [repeatedColumns])
    (Dict.sorted_ofList _) rfl⟩

end DocStore.ColumnOp
