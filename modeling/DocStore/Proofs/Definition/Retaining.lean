/-
Module: DocStore.Proofs.Definition.Retaining
Purpose: what column changes leave of a validation document: all other columns, its level and its
  message, and nothing but these.
Main exports:
  Json.column?, Json.requiredColumns, ColumnOp.Retains, generateSchema_retains
-/
import DocStore.Proofs.Definition.ObjectRule
import DocStore.Proofs.Definition.Validation

namespace DocStore

/-!
Changes are made to the properties and to the required names that a document has.  The document
is then written anew in its one form,

`{"rule": {"type": "object", "properties": …, "required": …}, "level": …, "message": …}`

so a keyword of the rule that has no place in this form, as `additionalProperties`, is not carried
over.
-/

/-! ### Validation documents -/

/-- The schema of a column in a validation document. -/
def Json.column? (document : Json) (name : String) : Option Json :=
  ((document.field "rule").field "properties").get? name

/-- The names of the columns that a validation document requires. -/
def Json.requiredColumns (document : Json) : List String :=
  (ObjectRule.ofJson (document.field "rule")).required

/-- The document after changes has the columns that they do not mention as the existing one has
them, and its message and its level.  It consists of its rule and these, and its rule of the
columns. -/
structure ColumnOp.Retains (ops : List ColumnOp) (existing document : Json) : Prop where
  column : ∀ name, name ∉ mentioned ops → document.column? name = existing.column? name
  required : document.requiredColumns.filter (· ∉ mentioned ops) =
    existing.requiredColumns.filter (· ∉ mentioned ops)
  type : (document.field "rule").get? "type" = some (.str "object")
  level : document.get? "level" = some ((existing.get? "level").getD (.str defaultLevel))
  message : document.get? "message" = existing.get? "message"
  keyword : ∀ key, key ∉ ["type", "properties", "required"] →
    (document.field "rule").get? key = none
  key : ∀ key, key ∉ ["rule", "level", "message"] → document.get? key = none

/-- The properties that changes are made to are those of the document, if they are an object. -/
theorem ObjectRule.get?_ofJson (document : Json) (name : String) :
    (ObjectRule.ofJson (document.field "rule")).properties.get? name = document.column? name := by
  unfold ObjectRule.ofJson Json.column?
  cases (document.field "rule").field "properties" <;> rfl

namespace validationDocument

variable (level : Json) (message : Option Json) (rule : ObjectRule)

theorem column?_eq (name : String) :
    (validationDocument level message rule).column? name = rule.properties.get? name := by
  rw [← ObjectRule.get?_ofJson, field_rule, ObjectRule.ofJson_toJson]

theorem requiredColumns_eq :
    (validationDocument level message rule).requiredColumns = rule.required := by
  rw [Json.requiredColumns, field_rule, ObjectRule.ofJson_toJson]

theorem get?_type : ((validationDocument level message rule).field "rule").get? "type" =
    some (.str "object") := by
  rw [field_rule, ObjectRule.toJson]
  split <;> rfl

theorem get?_rule_eq_none {key : String} (other : key ∉ ["type", "properties", "required"]) :
    ((validationDocument level message rule).field "rule").get? key = none := by
  simp only [List.mem_cons, List.not_mem_nil, or_false, not_or] at other
  rw [field_rule, ObjectRule.toJson]
  split <;> simp [Json.get?, Dict.get?, Dict.lookupEntry, other]

theorem get?_eq_none {key : String} (other : key ∉ ["rule", "level", "message"]) :
    (validationDocument level message rule).get? key = none := by
  simp only [List.mem_cons, List.not_mem_nil, or_false, not_or] at other
  cases message <;>
    simp [validationDocument, Json.get?, Dict.get?, Dict.lookupEntry, other]

end validationDocument

/-- Changes to a validation document, of whatever form, that succeed leave all columns that they
do not mention, and the message and the level.  Other keys of the document and other keywords of
its rule are lost. -/
theorem generateSchema_retains {ops : List ColumnOp} {existing document : Json}
    (made : generateSchema ops (some existing) = .ok document) :
    ColumnOp.Retains ops existing document := by
  rw [generateSchema_eq, Option.getD_some, exceptMap_eq_ok_iff] at made
  obtain ⟨rule, applied, rfl⟩ := made
  refine ⟨fun name apart => ?_, ?_, ?_, ?_, ?_, fun key other => ?_, fun key other => ?_⟩
  · rw [validationDocument.column?_eq, ColumnOp.get?_applyAll_of_notMentioned applied apart,
      ObjectRule.get?_ofJson]
  · rw [validationDocument.requiredColumns_eq]
    exact ColumnOp.filter_required_applyAll applied fun name member => by simpa using member
  · exact validationDocument.get?_type _ _ rule
  · exact validationDocument.get?_level _ _ rule
  · exact validationDocument.get?_message _ _ rule
  · exact validationDocument.get?_rule_eq_none _ _ rule other
  · exact validationDocument.get?_eq_none _ _ rule other

/-- A validation document that allows no other columns, and has a key of its own. -/
def closedDocument : Json :=
  .obj ⟨[("level", .str "moderate"), ("message", .str "bad document"),
    ("rule", .obj ⟨[("additionalProperties", .bool false),
      ("properties", .obj ⟨[("name", .obj ⟨[("type", .str "string")]⟩),
        ("nick", .obj ⟨[("type", .str "string")]⟩)]⟩),
      ("required", .texts ["nick", "name"]), ("type", .str "object")]⟩),
    ("type", .str "json")]⟩

/-- Changes that rename one of the columns and add another one. -/
def aliasColumns : List ColumnOp :=
  [.rename "nick" "alias", .add "age" (.primitive "integer") .notNull]

theorem generateSchema_retains_of_closedDocument :
    ∃ document, generateSchema aliasColumns (some closedDocument) = .ok document ∧
      ColumnOp.Retains aliasColumns closedDocument document ∧
      document.column? "name" = some (.obj ⟨[("type", .str "string")]⟩) ∧
      document.get? "level" = some (.str "moderate") ∧
      document.get? "message" = some (.str "bad document") := by
  have made : generateSchema aliasColumns (some closedDocument) = .ok _ := rfl
  have retains := generateSchema_retains made
  exact ⟨_, made, retains, retains.column "name" (by decide), retains.level, retains.message⟩

/-- The keyword that allows no other columns is lost when columns are changed, and so is the key
of the document. -/
theorem keyword_lost_of_closedDocument :
    ∃ document, generateSchema aliasColumns (some closedDocument) = .ok document ∧
      (closedDocument.field "rule").get? "additionalProperties" = some (.bool false) ∧
      (document.field "rule").get? "additionalProperties" = none ∧
      closedDocument.get? "type" = some (.str "json") ∧ document.get? "type" = none :=
  ⟨_, rfl, rfl, rfl, rfl, rfl⟩

end DocStore
