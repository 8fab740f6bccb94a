/-
Module: DocStore.Proofs.Definition.Validation
Purpose: validation documents are read back as what they were made from, so that further
  column changes go on where earlier ones stopped.
Main exports:
  ObjectRule.ofJson_toJson, ColumnOp.applyAll_append, validationDocument,
  generateSchema_validationDocument, generateSchema_append
-/
import DocStore.Definition.Validation

namespace DocStore

theorem Json.filterMap_text?_map_str (names : List String) :
    (names.map Json.str).filterMap Json.text? = names := by
  rw [List.filterMap_map]
  exact List.filterMap_some

/-- A rule is read back from its JSON form, under whichever `type`. -/
theorem ObjectRule.ofJson_toJson (r : ObjectRule) (type : Json) :
    ObjectRule.ofJson (r.toJson type) = r := by
  obtain ⟨properties, required⟩ := r
  cases required with
  | nil => rfl
  | cons name rest =>
      have names : (((ObjectRule.toJson ⟨properties, name :: rest⟩ type).field
          "required").items?.getD []).filterMap Json.text? = name :: rest :=
        Json.filterMap_text?_map_str (name :: rest)
      unfold ObjectRule.ofJson
      rw [names]
      rfl

/-- Changes in a row are those up to any point, and then the others. -/
theorem ColumnOp.applyAll_append (first second : List ColumnOp) (rule : ObjectRule) :
    ColumnOp.applyAll (first ++ second) rule =
      ColumnOp.applyAll first rule >>= ColumnOp.applyAll second := by
  induction first generalizing rule with
  | nil => rfl
  | cons op rest inductionHypothesis =>
      simp only [List.cons_append, ColumnOp.applyAll]
      cases op.apply rule with
      | error fault => rfl
      | ok next => exact inductionHypothesis next

/-- The validation document of a rule, with its level and perhaps a message. -/
def validationDocument (level : Json) (message : Option Json) (rule : ObjectRule) : Json :=
  match message with
  | none => .obj ⟨[("level", level), ("rule", rule.toJson (.str "object"))]⟩
  | some text =>
      .obj ⟨[("level", level), ("message", text), ("rule", rule.toJson (.str "object"))]⟩

namespace validationDocument

variable (level : Json) (message : Option Json) (rule : ObjectRule)

theorem get?_level : (validationDocument level message rule).get? "level" = some level := by
  cases message <;> rfl

theorem get?_message : (validationDocument level message rule).get? "message" = message := by
  cases message <;> rfl

theorem field_rule :
    (validationDocument level message rule).field "rule" = rule.toJson (.str "object") := by
  cases message <;> rfl

theorem isNull_eq_false : (validationDocument level message rule).isNull = false := by
  cases message <;> rfl

end validationDocument

theorem generateSchema_eq (ops : List ColumnOp) (existing : Option Json) :
    generateSchema ops existing =
      (ColumnOp.applyAll ops (.ofJson ((existing.getD .null).field "rule"))).map
        (validationDocument (((existing.getD .null).get? "level").getD (.str defaultLevel))
          ((existing.getD .null).get? "message")) := by
  dsimp only [generateSchema]
  cases ColumnOp.applyAll ops (.ofJson ((existing.getD .null).field "rule")) with
  | error fault => rfl
  | ok rule => cases (existing.getD .null).get? "message" <;> rfl

/-- Changes to a validation document are those to its rule. -/
theorem generateSchema_validationDocument (ops : List ColumnOp) (level : Json)
    (message : Option Json) (rule : ObjectRule) :
    generateSchema ops (some (validationDocument level message rule)) =
      (ColumnOp.applyAll ops rule).map (validationDocument level message) := by
  rw [generateSchema_eq, Option.getD_some, validationDocument.field_rule,
    validationDocument.get?_level, validationDocument.get?_message, ObjectRule.ofJson_toJson,
    Option.getD_some]

/-- Changes to the document that earlier changes made are further changes to the document
before these, be it of whatever form. -/
theorem generateSchema_append (first second : List ColumnOp) (existing : Option Json) :
    generateSchema (first ++ second) existing =
      generateSchema first existing >>= fun document => generateSchema second (some document) := by
  rw [generateSchema_eq, generateSchema_eq first, ColumnOp.applyAll_append]
  cases ColumnOp.applyAll first (.ofJson ((existing.getD .null).field "rule")) with
  | error fault => rfl
  | ok rule => exact (generateSchema_validationDocument second _ _ rule).symm

/-- A generated document is not null. -/
theorem isNull_of_generateSchema {ops : List ColumnOp} {existing : Option Json} {document : Json}
    (made : generateSchema ops existing = .ok document) : document.isNull = false := by
  rw [generateSchema_eq] at made
  cases applied : ColumnOp.applyAll ops (.ofJson ((existing.getD .null).field "rule")) with
  | error fault =>
      rw [applied] at made
      cases made
  | ok rule =>
      rw [applied] at made
      cases made
      exact validationDocument.isNull_eq_false _ _ rule

end DocStore
