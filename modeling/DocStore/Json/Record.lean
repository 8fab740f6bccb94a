/-
Module: DocStore.Json.Record
Purpose: reading records, named choices and tagged choices out of JSON values.
Main exports:
  Record, Record.read?, Choice.plain?, Choice.single?, Choice.tagged?
-/
import DocStore.Json.Basic

namespace DocStore

/-!
A reader returns nothing for a value that it refuses.  The values may come
straight from a text, so an object can name a member twice and need not be in
order.

What stands below a tag is held back until the tag is known.  Such a value is
read a little more freely: a tag may be given by its position among the tags, and
a plain choice may carry an empty object.  The fields under the name of a choice
may be given by position, except in a value that was complete before it was read.
-/

/-- Where a value is read from: from the text of a document, from a complete
value, or from what was held back below a tag. -/
inductive Reading where
  | text
  | value
  | held
deriving DecidableEq, Repr

namespace Json

/-- A text. -/
def readText? (j : Json) : Option String :=
  j.text?

/-- A Boolean. -/
def readBool? (j : Json) : Option Bool :=
  j.bool?

/-- An integer that is not negative. -/
def readNatural? (j : Json) : Option Nat :=
  j.natural?

/-- An integer that a signed word of 64 bits can hold. -/
def readSigned? (j : Json) : Option Int :=
  j.signed?

/-- Any value, in its normal form. -/
def readAny? (j : Json) : Option Json :=
  some j.normalize

/-- An array, every item read the same way. -/
def readList? {α : Type} (read : Json → Option α) (j : Json) : Option (List α) :=
  match j with
  | .arr items => items.mapM read
  | _ => none

/-- An object, every member read the same way; the last of several members with
one name is kept. -/
def readDict? {α : Type} (read : Json → Option α) (j : Json) : Option (Dict α) :=
  match j with
  | .obj members =>
      (members.entries.mapM fun entry => (read entry.2).map fun value => (entry.1, value)).map
        Dict.ofList
  | _ => none

/-- Null, or a value read in the given way. -/
def readOption? {α : Type} (read : Json → Option α) (j : Json) : Option (Option α) :=
  match j with
  | .null => some none
  | value => (read value).map some

end Json

/-- The fields that a value gives for a record, by name. -/
structure Record where
  fields : List (String × Json)

namespace Record

/-- The fields of a record with the given field names.  An object gives them by
name, none of them twice, and its other members are ignored; an array gives them
by position and may end early. -/
def read? (names : List String) : Json → Option Record
  | .obj members =>
      let known := members.entries.filter fun entry => names.contains entry.1
      if (known.map Prod.fst).Nodup then some ⟨known⟩ else none
  | .arr items => if items.length ≤ names.length then some ⟨names.zip items⟩ else none
  | _ => none

/-- The value given for a field. -/
def get? (r : Record) (name : String) : Option Json :=
  Dict.lookupEntry name r.fields

/-- A field that must be given. -/
def required? {α : Type} (r : Record) (name : String) (read : Json → Option α) : Option α :=
  (r.get? name).bind read

/-- A field that has a value of its own when it is not given. -/
def defaulted? {α : Type} (r : Record) (name : String) (default : α)
    (read : Json → Option α) : Option α :=
  match r.get? name with
  | none => some default
  | some value => read value

/-- A field that may be missing or null. -/
def optional? {α : Type} (r : Record) (name : String) (read : Json → Option α) :
    Option (Option α) :=
  r.defaulted? name none (Json.readOption? read)

theorem mem_of_lookupEntry {α : Type} {key : String} {value : α} {l : List (String × α)}
    (h : Dict.lookupEntry key l = some value) : (key, value) ∈ l := by
  induction l with
  | nil => cases h
  | cons e rest ih =>
      obtain ⟨k, v⟩ := e
      rw [Dict.lookupEntry] at h
      split at h
      · next hk =>
          cases h
          subst hk
          exact List.mem_cons_self
      · exact List.mem_cons_of_mem _ (ih h)

/-- A field is smaller than the value that gives it. -/
theorem size_lt_of_get? {names : List String} {j value : Json} {r : Record} {name : String}
    (hread : read? names j = some r) (hget : r.get? name = some value) : value.size < j.size := by
  have hmem := mem_of_lookupEntry hget
  cases j with
  | obj members =>
      rw [read?] at hread
      split at hread
      · cases hread
        obtain ⟨entries⟩ := members
        have hle : value.size ≤ Json.sizeMembers entries :=
          Json.size_le_of_mem_members (List.mem_filter.1 hmem).1
        rw [Json.size]
        omega
      · cases hread
  | arr items =>
      rw [read?] at hread
      split at hread
      · cases hread
        have := Json.size_lt_of_mem (List.of_mem_zip hmem).2
        rw [Json.size]
        omega
      · cases hread
  | _ => cases hread

end Record

namespace Choice

/-- One of several named values: its name alone, or an object with its name and
nothing under it. -/
def plain? {α : Type} (options : List (String × α)) (reading : Reading) : Json → Option α
  | .str name => Dict.lookupEntry name options
  | .obj ⟨[(name, .null)]⟩ => Dict.lookupEntry name options
  | .obj ⟨[(name, .obj ⟨[]⟩)]⟩ =>
      match reading with
      | .held => Dict.lookupEntry name options
      | _ => none
  | _ => none

/-- The one member of an object. -/
def single? : Json → Option (String × Json)
  | .obj ⟨[member]⟩ => some member
  | _ => none

/-- The fields under the name of a choice. -/
def fields? (names : List String) (reading : Reading) (j : Json) : Option Record :=
  match reading, j with
  | .value, .arr _ => none
  | _, j => Record.read? names j

/-- The tag that a value names, among `tags`. -/
def tagOf? (tags : List String) (reading : Reading) (j : Json) : Option String :=
  match j, reading with
  | .str name, _ => if tags.contains name then some name else none
  | .num (.integer (.ofNat position)), .held => tags[position]?
  | _, _ => none

/-- The tag of a value and what is left of it: the one member of an object under
`key`, or the first item of an array. -/
def tagged? (key : String) (tags : List String) (reading : Reading) :
    Json → Option (String × Json)
  | .obj members =>
      match members.entries.filter (fun entry => entry.1 == key) with
      | [(_, tag)] => (tagOf? tags reading tag).map fun name => (name, .obj (members.erase key))
      | _ => none
  | .arr (tag :: items) => (tagOf? tags reading tag).map fun name => (name, .arr items)
  | _ => none

theorem sizeMembers_filter_le (keep : String × Json → Bool) (members : List (String × Json)) :
    Json.sizeMembers (members.filter keep) ≤ Json.sizeMembers members := by
  induction members with
  | nil => simp
  | cons member members ih =>
      obtain ⟨k, v⟩ := member
      rw [List.filter_cons]
      split
      · simpa [Json.sizeMembers] using ih
      · simp only [Json.sizeMembers]
        omega

/-- What is left below a tag is no larger than the tagged value. -/
theorem size_le_of_tagged? {key : String} {tags : List String} {reading : Reading} {j rest : Json}
    {name : String} (h : tagged? key tags reading j = some (name, rest)) : rest.size ≤ j.size := by
  cases j with
  | obj members =>
      rw [tagged?] at h
      split at h
      · obtain ⟨n, _, heq⟩ := Option.map_eq_some_iff.1 h
        cases heq
        have := sizeMembers_filter_le (fun e => e.1 != key) members.entries
        cases members
        simpa [Dict.erase, Json.size] using this
      · cases h
  | arr items =>
      cases items with
      | nil => cases h
      | cons tag items =>
          rw [tagged?] at h
          obtain ⟨n, _, heq⟩ := Option.map_eq_some_iff.1 h
          cases heq
          simp only [Json.size, Json.sizeItems]
          omega
  | _ => cases h

theorem size_lt_of_single? {j value : Json} {name : String} (h : single? j = some (name, value)) :
    value.size < j.size := by
  unfold single? at h
  split at h
  · cases h
    simp [Json.size, Json.sizeMembers]
  · cases h

end Choice

end DocStore
