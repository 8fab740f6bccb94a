/-
Module: DocStore.Proofs.Entity.Fields
Purpose: the fields of an entity type that is put together call by call: the primary key is
  always one of them, and exactly when one of them is listed twice.
Main exports:
  Entity.Edit, Entity.edits, Entity.Keyed, Entity.KeyTaken, Entity.fields_of_edits
-/
import DocStore.Entity.Basic
import Mathlib.Data.List.Induction
import Mathlib.Data.List.Nodup

namespace DocStore.Entity

/-- A call that changes the fields of an entity type: it appends fields, or names another
primary key. -/
inductive Edit where
  | fields (names : List String)
  | primaryKey (name : String)
deriving DecidableEq, Repr

/-- The entity type after a call. -/
def edit (e : Entity) : Edit → Entity
  | .fields names => e.withFields names
  | .primaryKey name => e.withPrimaryKey name

/-- The entity type after calls, one after the other. -/
def edits (e : Entity) (calls : List Edit) : Entity :=
  calls.foldl edit e

theorem edits_append (e : Entity) (first second : List Edit) :
    e.edits (first ++ second) = (e.edits first).edits second :=
  List.foldl_append

/-- A new entity type, of documents or of edges. -/
def ofKind : CollectionKind → String → String → Entity
  | .document => document
  | .edge => edge

/-- The fields beside the primary key. -/
def otherFields (e : Entity) : List String :=
  e.fields.erase e.primaryKey

/-!
The list of fields may have the primary key twice: a key that takes the place of the old one may
be the name of another field.  What every call keeps is said about the other fields therefore.
-/

/-- The primary key is a field, and the other fields are distinct. -/
structure Keyed (e : Entity) : Prop where
  key_mem : e.primaryKey ∈ e.fields
  others_nodup : e.otherFields.Nodup

variable {e : Entity}

theorem Keyed.perm (keyed : e.Keyed) : e.fields.Perm (e.primaryKey :: e.otherFields) :=
  List.perm_cons_erase keyed.key_mem

/-- The fields are distinct unless the primary key is among the others. -/
theorem Keyed.nodup_fields_iff (keyed : e.Keyed) :
    e.fields.Nodup ↔ e.primaryKey ∉ e.otherFields := by
  rw [keyed.perm.nodup_iff, List.nodup_cons]
  exact and_iff_left keyed.others_nodup

theorem keyed_ofKind (kind : CollectionKind) (name collection : String) :
    (ofKind kind name collection).Keyed := by
  cases kind with
  | document => exact ⟨(by decide : "id" ∈ ["id"]), (by decide : (["id"].erase "id").Nodup)⟩
  | edge =>
      exact ⟨(by decide : "id" ∈ ["id", "_from", "_to"]),
        (by decide : (["id", "_from", "_to"].erase "id").Nodup)⟩

theorem nodup_fields_ofKind (kind : CollectionKind) (name collection : String) :
    (ofKind kind name collection).fields.Nodup := by
  cases kind with
  | document => exact (by decide : ["id"].Nodup)
  | edge => exact (by decide : ["id", "_from", "_to"].Nodup)

/-! ### Appending fields -/

/-- What is appended is new. -/
theorem foldl_addField (fields names : List String) :
    ∃ added, names.foldl addField fields = fields ++ added ∧ added.Nodup ∧
      ∀ field ∈ added, field ∉ fields := by
  induction names generalizing fields with
  | nil => exact ⟨[], (List.append_nil fields).symm, List.nodup_nil, nofun⟩
  | cons name rest inductionHypothesis =>
      rw [List.foldl_cons, addField]
      split
      · exact inductionHypothesis fields
      · next absent =>
          obtain ⟨added, is, nodup, fresh⟩ := inductionHypothesis (fields ++ [name])
          have new : name ∉ fields := by simpa using absent
          have apart : name ∉ added := fun member => fresh name member (by simp)
          refine ⟨name :: added, by simp [is], List.nodup_cons.mpr ⟨apart, nodup⟩, ?_⟩
          refine List.forall_mem_cons.mpr ⟨new, fun field member inFields => ?_⟩
          exact fresh field member (List.mem_append_left _ inFields)

/-- The fields that are appended to the others are new. -/
theorem Keyed.withFields_cases (keyed : e.Keyed) (names : List String) :
    ∃ added, (e.withFields names).fields = e.fields ++ added ∧
      (e.withFields names).otherFields = e.otherFields ++ added ∧ added.Nodup ∧
      ∀ field ∈ added, field ∉ e.fields := by
  obtain ⟨added, is, nodup, fresh⟩ := foldl_addField e.fields names
  refine ⟨added, is, ?_, nodup, fresh⟩
  calc
    (e.withFields names).otherFields = (e.fields ++ added).erase e.primaryKey :=
      congrArg (List.erase · e.primaryKey) is
    _ = e.otherFields ++ added := List.erase_append_left _ keyed.key_mem

theorem Keyed.withFields (keyed : e.Keyed) (names : List String) :
    (e.withFields names).Keyed := by
  obtain ⟨added, fields, others, nodup, fresh⟩ := keyed.withFields_cases names
  constructor
  · rw [fields]
    exact List.mem_append_left _ keyed.key_mem
  · rw [others]
    refine List.nodup_append'.mpr ⟨keyed.others_nodup, nodup, fun field inOthers inAdded => ?_⟩
    exact fresh field inAdded (List.mem_of_mem_erase inOthers)

/-- To append fields neither makes a list with a repeated field nor mends it. -/
theorem Keyed.nodup_withFields_iff (keyed : e.Keyed) (names : List String) :
    (e.withFields names).fields.Nodup ↔ e.fields.Nodup := by
  obtain ⟨added, _, others, _, fresh⟩ := keyed.withFields_cases names
  have apart : e.primaryKey ∉ added := fun member => fresh _ member keyed.key_mem
  rw [(keyed.withFields names).nodup_fields_iff, keyed.nodup_fields_iff, others, List.mem_append]
  exact not_congr (or_iff_left apart)

/-! ### Naming the primary key -/

theorem perm_replaceFirst {old : String} {fields : List String} (member : old ∈ fields)
    (new : String) : (replaceFirst old new fields).Perm (new :: fields.erase old) := by
  induction fields with
  | nil => cases member
  | cons field rest inductionHypothesis =>
      rw [replaceFirst]
      split
      · next same => rw [same, List.erase_cons_head]
      · next different =>
          have later : old ∈ rest := List.mem_of_ne_of_mem (Ne.symm different) member
          rw [List.erase_cons_tail (by simpa using different)]
          exact ((inductionHypothesis later).cons field).trans (List.Perm.swap ..)

/-- The new key takes the place of the old one, and the other fields stay. -/
theorem Keyed.perm_withPrimaryKey (keyed : e.Keyed) (key : String) :
    (e.withPrimaryKey key).fields.Perm (key :: e.otherFields) := by
  have found : e.fields.contains e.primaryKey = true := by simpa using keyed.key_mem
  unfold withPrimaryKey
  rw [if_pos found]
  exact perm_replaceFirst keyed.key_mem key

theorem Keyed.perm_otherFields (keyed : e.Keyed) (key : String) :
    (e.withPrimaryKey key).otherFields.Perm e.otherFields := by
  have erased := (keyed.perm_withPrimaryKey key).erase key
  rwa [List.erase_cons_head] at erased

theorem Keyed.withPrimaryKey (keyed : e.Keyed) (key : String) : (e.withPrimaryKey key).Keyed where
  key_mem := (keyed.perm_withPrimaryKey key).mem_iff.mpr List.mem_cons_self
  others_nodup := (keyed.perm_otherFields key).nodup_iff.mpr keyed.others_nodup

/-- A new key keeps the fields distinct, or makes them so, unless it is the name of another
field. -/
theorem Keyed.nodup_withPrimaryKey_iff (keyed : e.Keyed) (key : String) :
    (e.withPrimaryKey key).fields.Nodup ↔ key ∉ e.otherFields := by
  rw [(keyed.withPrimaryKey key).nodup_fields_iff]
  exact not_congr (keyed.perm_otherFields key).mem_iff

/-! ### Calls one after the other -/

theorem Keyed.edit (keyed : e.Keyed) : ∀ call : Edit, (e.edit call).Keyed
  | .fields names => keyed.withFields names
  | .primaryKey name => keyed.withPrimaryKey name

theorem Keyed.edits (keyed : e.Keyed) (calls : List Edit) : (e.edits calls).Keyed := by
  induction calls generalizing e with
  | nil => exact keyed
  | cons call rest inductionHypothesis => exact inductionHypothesis (keyed.edit call)

/-- The last call that names a primary key takes the name of another field for it.  Calls that
append fields may follow. -/
def KeyTaken (e : Entity) (calls : List Edit) : Prop :=
  ∃ (before : List Edit) (key : String) (appended : List (List String)),
    calls = before ++ .primaryKey key :: appended.map .fields ∧
      key ∈ (e.edits before).otherFields

theorem not_keyTaken_nil : ¬ e.KeyTaken [] := by
  rintro ⟨before, key, appended, cut, _⟩
  simp at cut

theorem keyTaken_append_fields_iff (calls : List Edit) (names : List String) :
    e.KeyTaken (calls ++ [.fields names]) ↔ e.KeyTaken calls := by
  constructor
  · rintro ⟨before, key, appended, cut, taken⟩
    -- The last call appends fields, so it is one of those behind the key.
    rcases appended.eq_nil_or_concat' with rfl | ⟨front, last, rfl⟩
    · have same := (List.append_inj' cut rfl).2
      cases same
    · rw [List.map_append, ← List.cons_append, ← List.append_assoc] at cut
      exact ⟨before, key, front, (List.append_inj' cut rfl).1, taken⟩
  · rintro ⟨before, key, appended, rfl, taken⟩
    exact ⟨before, key, appended ++ [names], by simp, taken⟩

theorem keyTaken_append_primaryKey_iff (calls : List Edit) (key : String) :
    e.KeyTaken (calls ++ [.primaryKey key]) ↔ key ∈ (e.edits calls).otherFields := by
  constructor
  · rintro ⟨before, last, appended, cut, taken⟩
    rcases appended.eq_nil_or_concat' with rfl | ⟨front, names, rfl⟩
    · obtain ⟨rfl, same⟩ := List.append_inj' cut rfl
      cases same
      exact taken
    · rw [List.map_append, ← List.cons_append, ← List.append_assoc] at cut
      have same := (List.append_inj' cut rfl).2
      cases same
  · exact fun taken => ⟨calls, key, [], rfl, taken⟩

/-- However an entity type is put together, its primary key is one of its fields and the other
fields are distinct.  All its fields are distinct exactly if the last key that was named is not
taken from another field. -/
theorem fields_of_edits (kind : CollectionKind) (name collection : String) (calls : List Edit) :
    let made := (ofKind kind name collection).edits calls
    made.primaryKey ∈ made.fields ∧ made.otherFields.Nodup ∧
      (made.fields.Nodup ↔ ¬ (ofKind kind name collection).KeyTaken calls) := by
  have start := keyed_ofKind kind name collection
  refine ⟨(start.edits calls).key_mem, (start.edits calls).others_nodup, ?_⟩
  induction calls using List.reverseRecOn with
  | nil => exact iff_of_true (nodup_fields_ofKind kind name collection) not_keyTaken_nil
  | append_singleton calls call inductionHypothesis =>
      have keyed := start.edits calls
      rw [edits_append]
      cases call with
      | fields names =>
          rw [keyTaken_append_fields_iff, ← inductionHypothesis]
          exact keyed.nodup_withFields_iff names
      | primaryKey key =>
          rw [keyTaken_append_primaryKey_iff]
          exact keyed.nodup_withPrimaryKey_iff key

/-- A field that becomes the primary key is listed twice. -/
theorem not_nodup_of_key_taken :
    ¬ ((document "User" "users").edits [.fields ["name"], .primaryKey "name"]).fields.Nodup := by
  decide

end DocStore.Entity
