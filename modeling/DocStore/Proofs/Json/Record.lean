/-
Module: DocStore.Proofs.Json.Record
Purpose: JSON values and records in normal form are read back as what was written.
Main exports:
  Json.Ordered, Dict.Ordered, Json.normalize_of_ordered, Json.ordered_normalize,
  Json.readDict?_of_ordered, Record.read?_obj, Choice.tagged?_insert
-/
import DocStore.Definition.Collection
import DocStore.Proofs.Dict.Order
import DocStore.Proofs.Fallible

namespace DocStore

/-! ### Values in normal form -/

mutual

/-- The members of every object are in key order, each name once. -/
def Json.Ordered : Json → Prop
  | .arr items => Json.AllOrdered items
  | .obj ⟨members⟩ => (Dict.mk members).Sorted ∧ Json.MembersOrdered members
  | _ => True

/-- Every item of an array is in normal form. -/
def Json.AllOrdered : List Json → Prop
  | [] => True
  | item :: items => item.Ordered ∧ Json.AllOrdered items

/-- Every member of an object is in normal form. -/
def Json.MembersOrdered : List (String × Json) → Prop
  | [] => True
  | (_, value) :: members => value.Ordered ∧ Json.MembersOrdered members

end

/-- A map of values in normal form that is in key order itself. -/
def Dict.Ordered (d : Dict Json) : Prop :=
  d.Sorted ∧ Json.MembersOrdered d.entries

namespace Json

mutual

theorem normalize_of_ordered : (j : Json) → j.Ordered → j.normalize = j
  | .null, _ => rfl
  | .bool _, _ => rfl
  | .num _, _ => rfl
  | .str _, _ => rfl
  | .arr items, ordered => by rw [normalize, normalizeItems_of_ordered items ordered]
  | .obj ⟨members⟩, ordered => by
      rw [normalize, normalizeMembers_of_ordered members ordered.2]
      exact congrArg Json.obj ordered.1.ofList_entries

theorem normalizeItems_of_ordered : (items : List Json) → AllOrdered items →
    normalizeItems items = items
  | [], _ => rfl
  | item :: items, ordered => by
      rw [normalizeItems, normalize_of_ordered item ordered.1,
        normalizeItems_of_ordered items ordered.2]

theorem normalizeMembers_of_ordered : (members : List (String × Json)) → MembersOrdered members →
    normalizeMembers members = members
  | [], _ => rfl
  | (key, value) :: members, ordered => by
      rw [normalizeMembers, normalize_of_ordered value ordered.1,
        normalizeMembers_of_ordered members ordered.2]

end

theorem readAny?_of_ordered {j : Json} (ordered : j.Ordered) : j.readAny? = some j :=
  congrArg some (normalize_of_ordered j ordered)

theorem ordered_of_mem {items : List Json} (ordered : AllOrdered items) {item : Json}
    (member : item ∈ items) : item.Ordered := by
  induction items with
  | nil => cases member
  | cons first rest inductionHypothesis =>
      rcases List.mem_cons.mp member with rfl | later
      · exact ordered.1
      · exact inductionHypothesis ordered.2 later

/-! ### Normal forms -/

theorem membersOrdered_iff {members : List (String × Json)} :
    MembersOrdered members ↔ ∀ e ∈ members, e.2.Ordered := by
  induction members with
  | nil => simp [MembersOrdered]
  | cons e rest inductionHypothesis => simp [MembersOrdered, inductionHypothesis]

/-- Entries with values in normal form make a map in normal form. -/
theorem ordered_ofList {entries : List (String × Json)} (each : MembersOrdered entries) :
    (Dict.ofList entries).Ordered := by
  refine ⟨Dict.sorted_ofList entries, membersOrdered_iff.mpr fun e member => ?_⟩
  rcases Dict.mem_of_mem_insertAll member with none | given
  · cases none
  · exact membersOrdered_iff.mp each e given

mutual

/-- The normal form of a value is in normal form. -/
theorem ordered_normalize : (j : Json) → j.normalize.Ordered
  | .null => trivial
  | .bool _ => trivial
  | .num _ => trivial
  | .str _ => trivial
  | .arr items => allOrdered_normalizeItems items
  | .obj ⟨members⟩ => ordered_ofList (membersOrdered_normalizeMembers members)

theorem allOrdered_normalizeItems : (items : List Json) → AllOrdered (normalizeItems items)
  | [] => trivial
  | item :: items => ⟨ordered_normalize item, allOrdered_normalizeItems items⟩

theorem membersOrdered_normalizeMembers :
    (members : List (String × Json)) → MembersOrdered (normalizeMembers members)
  | [] => trivial
  | (_, value) :: members => ⟨ordered_normalize value, membersOrdered_normalizeMembers members⟩

end

theorem keys_normalizeMembers (members : List (String × Json)) :
    (normalizeMembers members).map Prod.fst = members.map Prod.fst := by
  induction members with
  | nil => rfl
  | cons e rest inductionHypothesis =>
      rw [normalizeMembers, List.map_cons, inductionHypothesis]
      rfl

/-! ### Reading what was written -/

theorem readList?_map {α : Type} {written : α → Json} {read : Json → Option α} {items : List α}
    (each : ∀ a ∈ items, read (written a) = some a) :
    readList? read (.arr (items.map written)) = some items := by
  have all : ∀ a ∈ items, read (written a) = some (id a) := each
  rw [readList?, mapM_map_eq_some all, List.map_id]

theorem readList?_texts (names : List String) :
    readList? readText? (texts names) = some names :=
  readList?_map fun _ _ => rfl

theorem readList?_any {items : List Json} (ordered : AllOrdered items) :
    readList? readAny? (.arr items) = some items := by
  have each : ∀ item ∈ items, readAny? (id item) = some item := fun item member =>
    readAny?_of_ordered (ordered_of_mem ordered member)
  have read := readList?_map each
  rwa [List.map_id] at read

/-- A map of any values is read in its normal form. -/
theorem readDict?_any (members : Dict Json) :
    readDict? readAny? (.obj members) = some (.ofList (normalizeMembers members.entries)) := by
  have each : ∀ entries : List (String × Json),
      (entries.mapM fun e => (readAny? e.2).map fun value => (e.1, value)) =
        some (normalizeMembers entries) := by
    intro entries
    induction entries with
    | nil => rfl
    | cons e rest inductionHypothesis =>
        rw [List.mapM_cons, inductionHypothesis]
        rfl
  rw [readDict?, each]
  rfl

/-- A map of values in normal form is read back as it is. -/
theorem readDict?_of_ordered {d : Dict Json} (ordered : d.Ordered) :
    readDict? readAny? (.obj d) = some d := by
  rw [readDict?_any, normalizeMembers_of_ordered d.entries ordered.2, ordered.1.ofList_entries]

end Json

theorem Dict.ordered_empty : (empty : Dict Json).Ordered :=
  ⟨List.Pairwise.nil, trivial⟩

/-! ### Members that can be left out -/

namespace Dict

variable {α : Type}

@[simp] theorem lookupEntry_append (key : String) (first second : List (String × α)) :
    lookupEntry key (first ++ second) =
      (lookupEntry key first).or (lookupEntry key second) := by
  induction first with
  | nil => rfl
  | cons e rest inductionHypothesis =>
      obtain ⟨k, v⟩ := e
      rw [List.cons_append, lookupEntry, lookupEntry]
      split
      · rfl
      · exact inductionHypothesis

@[simp] theorem get?_mk (key : String) (entries : List (String × α)) :
    (Dict.mk entries).get? key = lookupEntry key entries := rfl

@[simp] theorem lookupEntry_ite (key : String) (condition : Prop) [Decidable condition]
    (first second : List (String × α)) :
    lookupEntry key (if condition then first else second) =
      if condition then lookupEntry key first else lookupEntry key second := by
  split <;> rfl

end Dict

@[simp] theorem lookupEntry_optionalMember {α : Type} (name key : String) (value : Option α)
    (toJson : α → Json) :
    Dict.lookupEntry name (optionalMember key value toJson) =
      if name = key then value.map toJson else none := by
  cases value with
  | none => simp [optionalMember, Dict.lookupEntry]
  | some v => simp [optionalMember, Dict.lookupEntry]

@[simp] theorem lookupEntry_dictMember (name key : String) (members : Dict Json) :
    Dict.lookupEntry name (dictMember key members) =
      if name = key then (if members.isEmpty then none else some (.obj members)) else none := by
  unfold dictMember
  split <;> simp [Dict.lookupEntry]

theorem keys_optionalMember {α : Type} (key : String) (value : Option α) (toJson : α → Json) :
    ((optionalMember key value toJson).map Prod.fst).Sublist [key] := by
  cases value with
  | none => exact List.nil_sublist _
  | some v => exact List.Sublist.refl _

theorem keys_dictMember (key : String) (members : Dict Json) :
    ((dictMember key members).map Prod.fst).Sublist [key] := by
  unfold dictMember
  split
  · exact List.nil_sublist _
  · exact List.Sublist.refl _

theorem keys_unless (condition : Prop) [Decidable condition] (key : String) (value : Json) :
    ((if condition then [] else [(key, value)]).map Prod.fst).Sublist [key] := by
  split
  · exact List.nil_sublist _
  · exact List.Sublist.refl _

/-! ### Records -/

namespace Record

variable {α : Type} {r : Record} {name : String} {read : Json → Option α}

/-- An object that names no member twice is read as a record that gives its members. -/
theorem read?_obj (names : List String) (members : Dict Json)
    (nodup : (members.entries.map Prod.fst).Nodup) :
    ∃ r, read? names (.obj members) = some r ∧
      ∀ {name value}, name ∈ names → members.get? name = value → r.get? name = value := by
  have known : ((members.entries.filter fun entry => names.contains entry.1).map
      Prod.fst).Nodup := nodup.sublist (List.filter_sublist.map Prod.fst)
  refine ⟨⟨members.entries.filter fun entry => names.contains entry.1⟩, if_pos known, ?_⟩
  rintro name value member rfl
  have found := Dict.get?_filterKeys members names.contains name
  rwa [if_pos (List.contains_iff_mem.mpr member)] at found

theorem required?_eq {j : Json} {value : α} (given : r.get? name = some j)
    (isRead : read j = some value) : r.required? name read = some value := by
  rw [required?, given]
  exact isRead

theorem required?_text {text : String} (given : r.get? name = some (.str text)) :
    r.required? name Json.readText? = some text :=
  required?_eq given rfl

theorem required?_texts {names : List String} (given : r.get? name = some (.texts names)) :
    r.required? name (Json.readList? Json.readText?) = some names :=
  required?_eq given (Json.readList?_texts names)

theorem defaulted?_eq {j : Json} {value default : α} (given : r.get? name = some j)
    (isRead : read j = some value) : r.defaulted? name default read = some value := by
  rw [defaulted?, given]
  exact isRead

theorem defaulted?_bool {flag default : Bool} (given : r.get? name = some (.bool flag)) :
    r.defaulted? name default Json.readBool? = some flag :=
  defaulted?_eq given rfl

/-- A field that is left out when it has its default is read back. -/
theorem defaulted?_unless {j : Json} {value default : α} {isDefault : Bool}
    (given : r.get? name = if isDefault then none else some j)
    (same : isDefault = true → value = default) (isRead : read j = some value) :
    r.defaulted? name default read = some value := by
  cases isDefault with
  | false => exact defaulted?_eq given isRead
  | true =>
      rw [defaulted?, given, same rfl]
      rfl

/-- A map that is left out when it is empty is read back. -/
theorem defaulted?_dict {d : Dict Json}
    (given : r.get? name = if d.isEmpty then none else some (.obj d)) (ordered : d.Ordered) :
    r.defaulted? name {} (Json.readDict? Json.readAny?) = some d :=
  defaulted?_unless given (fun empty => congrArg Dict.mk (List.isEmpty_iff.mp empty))
    (Json.readDict?_of_ordered ordered)

/-- A field that is left out without a value is read back. -/
theorem optional?_eq {value : Option α} {written : α → Json}
    (given : r.get? name = value.map written) (visible : ∀ v, (written v).isNull = false)
    (isRead : ∀ v ∈ value, read (written v) = some v) : r.optional? name read = some value := by
  rw [optional?, defaulted?, given]
  cases value with
  | none => rfl
  | some v =>
      have shown := visible v
      have back := isRead v rfl
      dsimp only [Option.map_some]
      unfold Json.readOption?
      split
      · next same =>
          rw [same] at shown
          cases shown
      · rw [back]
        rfl

theorem optional?_text {text : Option String} (given : r.get? name = text.map .str) :
    r.optional? name Json.readText? = some text :=
  optional?_eq given (fun _ => rfl) (fun _ _ => rfl)

theorem optional?_bool {flag : Option Bool} (given : r.get? name = flag.map .bool) :
    r.optional? name Json.readBool? = some flag :=
  optional?_eq given (fun _ => rfl) (fun _ _ => rfl)

theorem optional?_natural {n : Option Nat} (given : r.get? name = n.map fun n => .int n) :
    r.optional? name Json.readNatural? = some n :=
  optional?_eq given (fun _ => rfl) fun n _ => by simp [Json.readNatural?, Json.natural?, Json.int]

end Record

/-! ### Choices and tags -/

namespace Choice

/-- A tag among members of other names is found, and those are left. -/
theorem tagged?_obj (key : String) (members : Dict Json) {tag : String} {tags : List String}
    (known : tags.contains tag = true)
    (single : members.entries.filter (fun entry => entry.1 == key) = [(key, .str tag)])
    (reading : Reading) :
    tagged? key tags reading (.obj members) = some (tag, .obj (members.erase key)) := by
  have isTag : tagOf? tags reading (.str tag) = some tag := by
    rw [tagOf?, if_pos known]
  rw [tagged?, single]
  dsimp only
  rw [isTag]
  rfl

/-- A tag put among members of other names is found, and the members are as before. -/
theorem tagged?_insert {key tag : String} {tags : List String} {members : Dict Json}
    (known : tags.contains tag = true) (absent : members.get? key = none) (reading : Reading) :
    tagged? key tags reading (.obj (members.insert key (.str tag))) =
      some (tag, .obj members) := by
  have single : (members.insert key (.str tag)).entries.filter (fun entry => entry.1 == key) =
      [(key, .str tag)] :=
    Dict.filter_eq_insertEntry ((Dict.lookupEntry_eq_none_iff key members.entries).mp absent)
  rw [tagged?_obj _ _ known single, Dict.erase_insert absent]

end Choice

end DocStore
