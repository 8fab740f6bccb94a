/-
Module: DocStore.Proofs.Definition.Nullability
Purpose: the schema of a column accepts null as its options say, unless it lists its values.
Main exports:
  Json.AcceptsNull, ColumnType.listed?, ColumnOptions.Neutral, isNull_of_enumType,
  ColumnType.acceptsNull_schema
-/
import DocStore.Definition.Validation
import DocStore.Proofs.Dict
import DocStore.Proofs.Fallible

namespace DocStore

/-!
A schema says of the values of a column which types they have (`type`), which they are (`enum`),
and that they are all the same (`const`).  A value is accepted if every one of these keywords that
the schema has accepts it, so null has to pass each of them.  What a column may be is written into
`type` alone.  A list of values has no null in it, so a column that lists its values never accepts
null, not even where its `type` names that of null.
-/

/-! ### Reading a schema -/

/-- A schema accepts null: its `type` is that of null or names it among others, its `enum` lists
null, and its `const` is null, as far as it has these keywords. -/
structure Json.AcceptsNull (schema : Json) : Prop where
  type : ∀ type, schema.get? "type" = some type →
    type = .str "null" ∨ ∃ types, type = .arr types ∧ .str "null" ∈ types
  enum : ∀ values, schema.get? "enum" = some values → ∃ items, values = .arr items ∧ .null ∈ items
  const : ∀ value, schema.get? "const" = some value → value = .null

/-- The keywords that restrict the values of a column. -/
def valueKeywords : List String :=
  ["type", "enum", "const"]

/-- Further keywords of a column that leave the restrictions on its values as they are.  These
are all keywords such as `minLength`, and so also none at all. -/
def ColumnOptions.Neutral (o : ColumnOptions) : Prop :=
  ∀ key ∈ valueKeywords, o.extra.get? key = none

/-- The values that a column can have, if its type lists them. -/
def ColumnType.listed? : ColumnType → Option (List Json)
  | .enumeration values => some values
  | .constant value => some [value]
  | .primitive _ => none
  | .arrayOf _ => none
  | .object _ => none

variable {options : ColumnOptions} {schema other : Json} {name : String} {nullable : Bool}

/-- Whether null is accepted depends on the keywords for values only. -/
theorem Json.AcceptsNull.congr (accepts : schema.AcceptsNull)
    (same : ∀ key ∈ valueKeywords, other.get? key = schema.get? key) : other.AcceptsNull where
  type := by
    intro type found
    exact accepts.type type (same "type" (by simp [valueKeywords]) ▸ found)
  enum := by
    intro values found
    exact accepts.enum values (same "enum" (by simp [valueKeywords]) ▸ found)
  const := by
    intro value found
    exact accepts.const value (same "const" (by simp [valueKeywords]) ▸ found)

theorem ColumnOptions.neutral_of_none (noKeywords : options.extra = {}) : options.Neutral := by
  intro key _
  rw [noKeywords]
  rfl

theorem get?_withKeywords {extra : Dict Json} {key : String} (absent : extra.get? key = none)
    (schema : Json) : (withKeywords extra schema).get? key = schema.get? key := by
  cases schema with
  | obj members => exact Dict.get?_merge_of_none members absent
  | _ => rfl

theorem ColumnOptions.Neutral.acceptsNull_iff (neutral : options.Neutral) :
    (withKeywords options.extra schema).AcceptsNull ↔ schema.AcceptsNull :=
  ⟨fun accepts => accepts.congr fun key member =>
      (get?_withKeywords (neutral key member) schema).symm,
    fun accepts => accepts.congr fun key member => get?_withKeywords (neutral key member) schema⟩

/-- A schema that restricts values by their type alone accepts null if the `type` keyword says
so. -/
theorem acceptsNull_typed_iff (apart : name ≠ "null")
    (typed : schema.get? "type" = some (typeKeyword name nullable))
    (noEnum : schema.get? "enum" = none) (noConst : schema.get? "const" = none) :
    schema.AcceptsNull ↔ nullable = true := by
  constructor
  · intro accepts
    cases nullable with
    | true => rfl
    | false =>
        rcases accepts.type _ typed with same | ⟨types, same, _⟩
        · exact absurd (Json.str.inj same) apart
        · cases same
  · rintro rfl
    refine ⟨fun type found => ?_, fun values found => ?_, fun value found => ?_⟩
    · obtain rfl := Option.some.inj (typed.symm.trans found)
      exact .inr ⟨_, rfl, by simp⟩
    · rw [noEnum] at found
      cases found
    · rw [noConst] at found
      cases found

/-! ### Types and listed values -/

/-- No primitive type is that of null. -/
theorem ne_null_of_primitiveType {word : String} (is : primitiveType word = .ok name) :
    name ≠ "null" := by
  rw [primitiveType] at is
  split at is
  · next type found =>
      cases is
      have apart : ∀ entry ∈ primitiveTypes, entry.2 ≠ "null" := by decide
      exact apart _ (Dict.mem_of_lookupEntry_eq_some found)
  · cases is

theorem ne_null_of_valueType {value : Json} (is : valueType value = .ok name) :
    value ≠ .null := by
  rintro rfl
  cases is

theorem ne_null_of_enumTypeFrom {found : String} {values : List Json}
    (is : enumTypeFrom found values = .ok name) : ∀ value ∈ values, value ≠ .null := by
  induction values generalizing found with
  | nil => simp
  | cons first rest inductionHypothesis =>
      obtain ⟨type, isType, is⟩ := exceptBind_eq_ok_iff.mp is
      obtain ⟨mixed, _, others⟩ := exceptBind_eq_ok_iff.mp is
      exact List.forall_mem_cons.mpr ⟨ne_null_of_valueType isType, inductionHypothesis others⟩

/-- An enumeration that has a type does not list null. -/
theorem ne_null_of_enumType {values : List Json} (is : enumType values = .ok name) :
    ∀ value ∈ values, value ≠ .null := by
  cases values with
  | nil => cases is
  | cons first rest =>
      obtain ⟨type, isType, others⟩ := exceptBind_eq_ok_iff.mp is
      exact List.forall_mem_cons.mpr
        ⟨ne_null_of_valueType isType, ne_null_of_enumTypeFrom others⟩

/-! ### Columns -/

namespace ColumnType

variable {type : ColumnType} {values : List Json}

/-- A column that lists its values does not accept null. -/
theorem not_acceptsNull_of_listed (is : type.schema options = .ok schema)
    (neutral : options.Neutral) (listed : type.listed? = some values) : ¬ schema.AcceptsNull := by
  cases type with
  | enumeration items =>
      obtain ⟨name, isName, made⟩ := exceptBind_eq_ok_iff.mp is
      obtain rfl := Except.ok.inj made
      rw [neutral.acceptsNull_iff]
      intro accepts
      obtain ⟨_, same, member⟩ := accepts.enum (.arr items) rfl
      cases same
      exact ne_null_of_enumType isName .null member rfl
  | constant value =>
      obtain ⟨name, isName, made⟩ := exceptBind_eq_ok_iff.mp is
      obtain rfl := Except.ok.inj made
      rw [neutral.acceptsNull_iff]
      intro accepts
      exact ne_null_of_valueType isName (accepts.const value rfl)
  | _ => cases listed

/-- A column that does not list its values accepts null if its options say so. -/
theorem acceptsNull_iff_of_unlisted (is : type.schema options = .ok schema)
    (neutral : options.Neutral) (unlisted : type.listed? = none) :
    schema.AcceptsNull ↔ options.nullable = true := by
  cases type with
  | primitive word =>
      obtain ⟨name, isName, made⟩ := exceptBind_eq_ok_iff.mp is
      obtain rfl := Except.ok.inj made
      rw [neutral.acceptsNull_iff]
      exact acceptsNull_typed_iff (ne_null_of_primitiveType isName) rfl rfl rfl
  | arrayOf items =>
      rw [ColumnType.schema] at is
      obtain ⟨inner, _, made⟩ := exceptBind_eq_ok_iff.mp is
      obtain rfl := Except.ok.inj made
      rw [neutral.acceptsNull_iff]
      have apart : "array" ≠ "null" := by decide
      exact acceptsNull_typed_iff apart rfl rfl rfl
  | object columns =>
      rw [ColumnType.schema] at is
      obtain ⟨rule, _, made⟩ := exceptBind_eq_ok_iff.mp is
      obtain rfl := Except.ok.inj made
      rw [neutral.acceptsNull_iff]
      have keywords : ∀ type, (rule.toJson type).get? "type" = some type ∧
          (rule.toJson type).get? "enum" = none ∧ (rule.toJson type).get? "const" = none := by
        intro type
        rw [ObjectRule.toJson]
        split <;> exact ⟨rfl, rfl, rfl⟩
      obtain ⟨typed, noEnum, noConst⟩ := keywords (typeKeyword "object" options.nullable)
      exact acceptsNull_typed_iff (by decide) typed noEnum noConst
  | enumeration values => cases unlisted
  | constant value => cases unlisted

/-- The schema of a column, of whatever type and nesting, accepts null exactly if its options say
that it may be null and its type does not list its values. -/
theorem acceptsNull_schema (is : type.schema options = .ok schema) (neutral : options.Neutral) :
    schema.AcceptsNull ↔ options.nullable = true ∧ type.listed? = none := by
  cases listed : type.listed? with
  | none => simpa using acceptsNull_iff_of_unlisted is neutral listed
  | some values => simpa using not_acceptsNull_of_listed is neutral listed

/-- An array of objects, in which an enumeration and an integer are nested. -/
def marksType : ColumnType :=
  .arrayOf (.object [.add "grade" (.enumeration [.str "a", .str "b"]) .notNull,
    .add "points" (.primitive "integer") {}])

/-- Options of a column that may be null, with a keyword for the length of arrays. -/
def someMarks : ColumnOptions where
  extra := ⟨[("minItems", .int 1)]⟩

theorem acceptsNull_schema_of_marksType :
    (∃ schema, marksType.schema someMarks = .ok schema ∧ someMarks.Neutral ∧
      schema.AcceptsNull) ∧
    ∃ schema, marksType.schema .notNull = .ok schema ∧ ColumnOptions.notNull.Neutral ∧
      ¬ schema.AcceptsNull := by
  have is : marksType.schema someMarks = .ok _ := rfl
  have is' : marksType.schema .notNull = .ok _ := rfl
  have neutral : someMarks.Neutral := by
    simp [ColumnOptions.Neutral, valueKeywords, someMarks, Dict.get?, Dict.lookupEntry]
  have neutral' : ColumnOptions.notNull.Neutral := ColumnOptions.neutral_of_none rfl
  have possible := (acceptsNull_schema is neutral).mpr ⟨rfl, rfl⟩
  have required := mt (acceptsNull_schema is' neutral').mp (by simp [ColumnOptions.notNull])
  exact ⟨⟨_, is, neutral, possible⟩, _, is', neutral', required⟩

/-- An enumeration and a constant have schemas that do not accept null although the columns may
be null. -/
theorem null_refused_of_listed :
    (∃ schema, (enumeration [.str "male", .str "female"]).schema {} = .ok schema ∧
      ¬ (schema.AcceptsNull ↔ ColumnOptions.nullable {} = true)) ∧
    ∃ schema, (constant (.str "user")).schema {} = .ok schema ∧
      ¬ (schema.AcceptsNull ↔ ColumnOptions.nullable {} = true) := by
  have neutral : ColumnOptions.Neutral {} := ColumnOptions.neutral_of_none rfl
  have enumerated : (enumeration [.str "male", .str "female"]).schema {} = .ok _ := rfl
  have fixed : (constant (.str "user")).schema {} = .ok _ := rfl
  have refused := not_acceptsNull_of_listed enumerated neutral rfl
  have refused' := not_acceptsNull_of_listed fixed neutral rfl
  exact ⟨⟨_, enumerated, fun same => refused (same.mpr rfl)⟩,
    _, fixed, fun same => refused' (same.mpr rfl)⟩

end ColumnType

end DocStore
