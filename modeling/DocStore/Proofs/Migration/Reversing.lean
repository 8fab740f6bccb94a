/-
Module: DocStore.Proofs.Migration.Reversing
Purpose: additions and renames of columns are taken back by their inverses, the last one first,
  to the same validation document.
Main exports:
  ColumnOp.Fresh, ColumnOp.Fresh.reverse, Command.reverse_restores
-/
import DocStore.Migration.Command
import DocStore.Proofs.Definition.ObjectRule
import DocStore.Proofs.Definition.Validation
import DocStore.Proofs.Json.Record

namespace DocStore

/-! ### Documents in normal form -/

theorem Json.ordered_field {j : Json} (ordered : j.Ordered) (key : String) :
    (j.field key).Ordered := by
  unfold field
  cases found : j.get? key with
  | none => trivial
  | some value =>
      cases j with
      | obj members =>
          exact membersOrdered_iff.mp ordered.2 _ (Dict.mem_of_lookupEntry_eq_some found)
      | _ => cases found

theorem ObjectRule.sorted_ofJson {rule : Json} (ordered : rule.Ordered) :
    (ObjectRule.ofJson rule).properties.Sorted := by
  have members := Json.ordered_field ordered "properties"
  unfold ofJson
  cases given : rule.field "properties" with
  | obj properties =>
      rw [given] at members
      exact members.1
  | _ => exact List.Pairwise.nil

/-- What is generated is the validation document of a rule. -/
theorem exists_rule_of_generateSchema {ops : List ColumnOp} {existing : Option Json}
    {document : Json} (made : generateSchema ops existing = .ok document)
    (ordered : ∀ given ∈ existing, given.Ordered) :
    ∃ level message rule, document = validationDocument level message rule ∧
      rule.properties.Sorted := by
  rw [generateSchema_eq] at made
  obtain ⟨rule, applied, rfl⟩ := exceptMap_eq_ok_iff.mp made
  refine ⟨_, _, rule, rfl, ColumnOp.applyAll_sorted applied (ObjectRule.sorted_ofJson ?_)⟩
  refine Json.ordered_field ?_ "rule"
  cases existing with
  | none => trivial
  | some given => exact ordered given rfl

/-! ### Columns added and renamed -/

namespace ColumnOp

/-- Changes that add columns and rename them, each to a name that is free when its turn comes:
no column is called so, and none of that name is required. -/
inductive Fresh : ObjectRule → List ColumnOp → Prop where
  | nil (rule : ObjectRule) : Fresh rule []
  | add {rule : ObjectRule} {name : String} {type : ColumnType} {options : ColumnOptions}
      {ops : List ColumnOp} (lacks : rule.Lacks name)
      (later : ∀ schema, type.schema options = .ok schema →
        Fresh (rule.put name schema options.nullable) ops) :
      Fresh rule (.add name type options :: ops)
  | rename {rule : ObjectRule} {source target : String} {ops : List ColumnOp}
      (lacks : rule.Lacks target) (later : Fresh (rule.rename source target) ops) :
      Fresh rule (.rename source target :: ops)

theorem reverseColumns_append_singleton {command : Command} {ops inverses : List ColumnOp}
    {op inverse : ColumnOp} (are : command.reverseColumns ops = .ok inverses)
    (is : command.reverseColumn op = .ok inverse) :
    command.reverseColumns (ops ++ [op]) = .ok (inverses ++ [inverse]) := by
  induction ops generalizing inverses with
  | nil =>
      cases are
      rw [List.nil_append, Command.reverseColumns, is]
      rfl
  | cons first rest inductionHypothesis =>
      obtain ⟨one, isOne, made⟩ := exceptBind_eq_ok_iff.mp are
      obtain ⟨others, areOthers, same⟩ := exceptBind_eq_ok_iff.mp made
      cases same
      rw [List.cons_append, Command.reverseColumns, isOne, inductionHypothesis areOthers]
      rfl

/-- The inverses of fresh changes lead back through the same rules. -/
theorem Fresh.reverse {ops : List ColumnOp} {rule result : ObjectRule} (fresh : Fresh rule ops)
    (sorted : rule.properties.Sorted) (applied : applyAll ops rule = .ok result)
    (command : Command) : ∃ inverses, command.reverseColumns ops.reverse = .ok inverses ∧
      applyAll inverses result = .ok rule := by
  induction fresh with
  | nil rule =>
      cases applied
      exact ⟨[], rfl, rfl⟩
  | @add rule name type options ops lacks _ inductionHypothesis =>
      obtain ⟨next, changes, rest⟩ := applyAll_cons_eq_ok_iff.mp applied
      obtain ⟨schema, is, rfl⟩ := changes.of_typed (.inl rfl)
      obtain ⟨inverses, areInverses, back⟩ :=
        inductionHypothesis schema is (sorted.insert _ _) rest
      refine ⟨inverses ++ [.remove name], ?_, ?_⟩
      · rw [List.reverse_cons]
        exact reverseColumns_append_singleton areInverses rfl
      · calc
          applyAll (inverses ++ [.remove name]) result
              = applyAll [.remove name] (rule.put name schema options.nullable) := by
            rw [applyAll_append, back]
            rfl
          _ = .ok rule := congrArg Except.ok (ObjectRule.drop_put lacks schema options.nullable)
  | @rename rule source target ops lacks _ inductionHypothesis =>
      obtain ⟨next, changes, rest⟩ := applyAll_cons_eq_ok_iff.mp applied
      obtain rfl := Except.ok.inj (apply_eq_ok_iff.mpr changes)
      obtain ⟨inverses, areInverses, back⟩ :=
        inductionHypothesis (ObjectRule.sorted_rename sorted source target) rest
      refine ⟨inverses ++ [.rename target source], ?_, ?_⟩
      · rw [List.reverse_cons]
        exact reverseColumns_append_singleton areInverses rfl
      · calc
          applyAll (inverses ++ [.rename target source]) result
              = applyAll [.rename target source] (rule.rename source target) := by
            rw [applyAll_append, back]
            rfl
          _ = .ok rule := congrArg Except.ok (ObjectRule.rename_rename sorted lacks source)

end ColumnOp

/-! ### Validation documents -/

/-- Columns that are added to a generated validation document, or renamed, under names that are
free are taken back by the inverse command: it has an inverse, and that leads from the altered
document to the very same one as before. -/
theorem Command.reverse_restores (c : Collection) {earlier ops : List ColumnOp}
    {base : Option Json} {before after : Json} (ordered : ∀ document ∈ base, document.Ordered)
    (made : generateSchema earlier base = .ok before)
    (fresh : ColumnOp.Fresh (.ofJson (before.field "rule")) ops)
    (altered : generateSchema ops (some before) = .ok after) :
    ∃ inverses, (alterCollection c ops).reverse = .ok (alterCollection c inverses) ∧
      generateSchema inverses (some after) = .ok before := by
  obtain ⟨level, message, rule, rfl, sorted⟩ := exists_rule_of_generateSchema made ordered
  rw [validationDocument.field_rule, ObjectRule.ofJson_toJson] at fresh
  rw [generateSchema_validationDocument] at altered
  obtain ⟨result, applied, rfl⟩ := exceptMap_eq_ok_iff.mp altered
  obtain ⟨inverses, areInverses, back⟩ :=
    fresh.reverse sorted applied (alterCollection c ops)
  refine ⟨inverses, ?_, ?_⟩
  · rw [reverse, areInverses]
    rfl
  · rw [generateSchema_validationDocument, back]
    rfl

/-- A validation document with a level and a message of its own. -/
def moderateDocument : Json :=
  Json.normalize (.obj ⟨[("level", .str "moderate"), ("message", .str "bad document"),
    ("rule", .obj ⟨[("properties", .obj ⟨[("age", .obj {}), ("name", .obj {})]⟩),
      ("required", .texts ["name", "age"])]⟩)]⟩)

/-- A required column is renamed at its place, a new one is required behind it and renamed, and
a column that is not there is renamed to another one that is not. -/
def freshColumns : List ColumnOp :=
  [.rename "name" "full_name", .add "tag" (.primitive "string") .notNull,
    .rename "tag" "label", .rename "nick" "alias", .add "name" (.primitive "text") {}]

/-- What is left of it after a column is removed and another one changed. -/
def narrowedDocument : Json :=
  validationDocument (.str "moderate") (some (.str "bad document"))
    { properties := .ofList [("name", .obj ⟨[("type", .str "string")]⟩)], required := ["name"] }

theorem reverse_restores_of_freshColumns :
    ∃ after inverses,
      generateSchema [.remove "age", .modify "name" (.primitive "string") .notNull]
        (some moderateDocument) = .ok narrowedDocument ∧
      generateSchema freshColumns (some narrowedDocument) = .ok after ∧
      (Command.alterCollection { name := "users" } freshColumns).reverse =
        .ok (.alterCollection { name := "users" } inverses) ∧
      generateSchema inverses (some after) = .ok narrowedDocument := by
  have made : generateSchema [.remove "age", .modify "name" (.primitive "string") .notNull]
      (some moderateDocument) = .ok narrowedDocument := rfl
  obtain ⟨after, altered⟩ : ∃ after,
      generateSchema freshColumns (some narrowedDocument) = .ok after := ⟨_, rfl⟩
  have fresh : ColumnOp.Fresh (.ofJson (narrowedDocument.field "rule")) freshColumns :=
    .rename ⟨rfl, (by decide : "full_name" ∉ ["name"])⟩
      (.add ⟨rfl, (by decide : "tag" ∉ ["full_name"])⟩ fun _ _ =>
        .rename ⟨rfl, (by decide : "label" ∉ ["full_name", "tag"])⟩
          (.rename ⟨rfl, (by decide : "alias" ∉ ["full_name", "label"])⟩
            (.add ⟨rfl, (by decide : "name" ∉ ["full_name", "label"])⟩ fun _ _ => .nil _)))
  have ordered : ∀ document ∈ some moderateDocument, document.Ordered := by
    rintro _ ⟨rfl⟩
    exact Json.ordered_normalize _
  obtain ⟨inverses, is, back⟩ :=
    Command.reverse_restores { name := "users" } ordered made fresh altered
  exact ⟨after, inverses, made, altered, is, back⟩

end DocStore
