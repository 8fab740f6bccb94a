/-
Module: DocStore.Proofs.Definition.ViewChange
Purpose: what changes make of a view: which changes leave it valid, and what it then sends
  under each name.
Main exports:
  ViewChange.Valid, View.validate_apply, View.apply_eq, View.Accumulates,
  View.Accumulates.get?_properties, View.Accumulates.get?_links
-/
import DocStore.Definition.View
import DocStore.Proofs.Dict.Order
import DocStore.Proofs.Fallible

namespace DocStore

/-! ### Valid changes -/

/-- Stored values of some fields, compressed in a way that is known. -/
def StoredValue.Valid (stored : StoredValue) : Prop :=
  stored.fields ≠ [] ∧ ∀ word, stored.compression = some word → word = "lz4" ∨ word = "none"

/-- A change that adds only what may be part of a view. -/
def ViewChange.Valid : ViewChange → Prop
  | addSort _ => True
  | addStore stored => stored.Valid
  | addLink collection link => collection ≠ "" ∧ link.validate collection = .ok ()

namespace View

theorem validateLinks_eq_ok_iff {view : String} {links : List (String × Link)} :
    validateLinks view links = .ok () ↔
      ∀ e ∈ links, e.1 ≠ "" ∧ e.2.validate e.1 = .ok () := by
  induction links with
  | nil => simp [validateLinks]
  | cons e rest inductionHypothesis =>
      obtain ⟨collection, link⟩ := e
      rw [validateLinks, List.forall_mem_cons, ← inductionHypothesis]
      split
      · next empty =>
          have unnamed : collection = "" := String.isEmpty_iff.mp empty
          simp [unnamed]
      · next nonempty =>
          have named : collection ≠ "" := fun same => nonempty (String.isEmpty_iff.mpr same)
          rw [exceptBind_eq_ok_iff]
          constructor
          · rintro ⟨_, valid, later⟩
            exact ⟨⟨named, valid⟩, later⟩
          · rintro ⟨⟨_, valid⟩, later⟩
            exact ⟨(), valid, later⟩

theorem validateStored_eq_ok_iff {view : String} {stored : List StoredValue} :
    validateStored view stored = .ok () ↔ ∀ s ∈ stored, s.Valid := by
  induction stored with
  | nil => simp [validateStored]
  | cons s rest inductionHypothesis =>
      obtain ⟨fields, compression⟩ := s
      rw [validateStored, List.forall_mem_cons, ← inductionHypothesis]
      unfold StoredValue.Valid
      cases fields with
      | nil => simp
      | cons first others =>
          cases compression with
          | none => simp
          | some word =>
              by_cases known : word = "lz4" ∨ word = "none"
              · have passes : ¬(word ≠ "lz4" ∧ word ≠ "none") := by
                  rintro ⟨first, second⟩
                  exact known.elim first second
                simp [known, passes]
              · have fails : word ≠ "lz4" ∧ word ≠ "none" := not_or.mp known
                simp [fails]

/-- A definition is valid if its parts are. -/
theorem validate_eq_ok_iff {v : View} :
    v.validate = .ok () ↔ v.name ≠ "" ∧
      (∀ e ∈ v.links.entries, e.1 ≠ "" ∧ e.2.validate e.1 = .ok ()) ∧
        ∀ s ∈ v.storedValues, s.Valid := by
  unfold validate
  split
  · next empty =>
      have unnamed : v.name = "" := String.isEmpty_iff.mp empty
      simp [unnamed]
  · next nonempty =>
      have named : v.name ≠ "" := fun same => nonempty (String.isEmpty_iff.mpr same)
      rw [exceptBind_eq_ok_iff, ← validateLinks_eq_ok_iff, ← validateStored_eq_ok_iff]
      constructor
      · rintro ⟨_, links, stored⟩
        exact ⟨named, links, stored⟩
      · rintro ⟨_, links, stored⟩
        exact ⟨(), links, stored⟩

/-- Valid changes leave a valid view. -/
theorem validate_apply {v : View} {changes : List ViewChange} (valid : v.validate = .ok ())
    (each : ∀ change ∈ changes, change.Valid) : (v.apply changes).validate = .ok () := by
  induction changes generalizing v with
  | nil => exact valid
  | cons change rest inductionHypothesis =>
      obtain ⟨first, later⟩ := List.forall_mem_cons.mp each
      refine inductionHypothesis ?_ later
      obtain ⟨named, links, stored⟩ := validate_eq_ok_iff.mp valid
      cases change with
      | addSort sort => exact validate_eq_ok_iff.mpr ⟨named, links, stored⟩
      | addStore added =>
          refine validate_eq_ok_iff.mpr ⟨named, links, List.forall_mem_append.mpr ⟨stored, ?_⟩⟩
          exact List.forall_mem_singleton.mpr first
      | addLink collection link =>
          refine validate_eq_ok_iff.mpr ⟨named, fun e member => ?_, stored⟩
          rcases Dict.mem_insertEntry member with rfl | old
          · exact first
          · exact links e old

/-! ### What changes add -/

variable {v : View} {first second changes : List ViewChange}

theorem apply_append (v : View) (first second : List ViewChange) :
    v.apply (first ++ second) = (v.apply first).apply second :=
  List.foldl_append

/-- The sorts that changes append. -/
def addedSorts (changes : List ViewChange) : List SortField :=
  changes.filterMap fun
    | .addSort sort => some sort
    | _ => none

/-- The stored values that changes append. -/
def addedStores (changes : List ViewChange) : List StoredValue :=
  changes.filterMap fun
    | .addStore stored => some stored
    | _ => none

/-- The links that changes set, a later one winning over an earlier one. -/
def addedLinks (changes : List ViewChange) : List (String × Link) :=
  changes.filterMap fun
    | .addLink collection link => some (collection, link)
    | _ => none

/-- A changed view has what it had, and what the changes add. -/
theorem apply_eq (v : View) (changes : List ViewChange) :
    v.apply changes =
      { v with
        links := v.links.insertAll (addedLinks changes)
        primarySort := v.primarySort ++ addedSorts changes
        storedValues := v.storedValues ++ addedStores changes } := by
  induction changes generalizing v with
  | nil => simp [apply, addedLinks, addedSorts, addedStores, Dict.insertAll]
  | cons change rest inductionHypothesis =>
      change (v.applyOne change).apply rest = _
      rw [inductionHypothesis]
      cases change <;>
        simp [applyOne, addedLinks, addedSorts, addedStores, Dict.insertAll]

@[simp] theorem options_apply (v : View) (changes : List ViewChange) :
    (v.apply changes).options = v.options := by
  rw [apply_eq]

end View

/-! ### What a view sends -/

/-- The JSON form of a list that is sent unless it is empty. -/
def listed {α : Type} (form : α → Json) (items : List α) (otherwise : Option Json) :
    Option Json :=
  if items.isEmpty then otherwise else some (.arr (items.map form))

/-- A list that is not sent is empty. -/
theorem eq_nil_of_listed {α : Type} {form : α → Json} {items : List α} {otherwise : Option Json}
    (absent : listed form items otherwise = none) : items = [] ∧ otherwise = none := by
  cases items with
  | nil => exact ⟨rfl, absent⟩
  | cons item rest => cases absent

/-- Two lists with the same items added, one after the other over what is there, are the second
of them, if it is sent at all. -/
theorem listed_append_or {α : Type} {form : α → Json} {before between : List α}
    (added : List α) {otherwise : Option Json}
    (kept : between = before ∨ listed form (before ++ added) otherwise = none)
    (stored : Option Json) :
    (listed form (before ++ added) otherwise).or
        ((listed form between otherwise).or stored) =
      (listed form (between ++ added) otherwise).or stored := by
  cases sent : listed form (before ++ added) otherwise with
  | some list =>
      rw [sent] at kept
      obtain rfl := kept.resolve_right (Option.some_ne_none list)
      rw [sent]
      rfl
  | none =>
      obtain ⟨empty, _⟩ := eq_nil_of_listed sent
      obtain ⟨_, rfl⟩ := List.append_eq_nil_iff.mp empty
      rw [List.append_nil]
      rfl

namespace Link

/-- The members of the JSON form of links. -/
def dictMembers (links : Dict Link) : Dict Json :=
  ⟨membersToJson links.entries⟩

theorem membersToJson_eq (links : List (String × Link)) :
    membersToJson links = links.map fun e => (e.1, e.2.toJson) := by
  induction links with
  | nil => rfl
  | cons e rest inductionHypothesis =>
      rw [List.map_cons, ← inductionHypothesis]
      rfl

theorem get?_dictMembers (links : Dict Link) (key : String) :
    (dictMembers links).get? key = (links.get? key).map toJson := by
  obtain ⟨entries⟩ := links
  change Dict.lookupEntry key (membersToJson entries) =
    (Dict.lookupEntry key entries).map toJson
  induction entries with
  | nil => rfl
  | cons e rest inductionHypothesis =>
      obtain ⟨name, link⟩ := e
      rw [membersToJson, Dict.lookupEntry, Dict.lookupEntry]
      split
      · rfl
      · exact inductionHypothesis

theorem sorted_dictMembers {links : Dict Link} (sorted : links.Sorted) :
    (dictMembers links).Sorted := by
  unfold Dict.Sorted dictMembers
  rw [membersToJson_eq]
  exact List.pairwise_map.mpr sorted

end Link

namespace View

variable {v : View} {first second : List ViewChange}

theorem get?_properties_links (v : View) :
    v.properties.get? "links" = some (.obj (Link.dictMembers v.links)) := by
  unfold properties
  split <;> split <;> simp [Dict.get?_insert, Link.dictToJson, Link.dictMembers]

theorem get?_properties_sorts (v : View) :
    v.properties.get? "primarySort" =
      listed SortField.toJson v.primarySort (v.options.get? "primarySort") := by
  unfold properties listed
  split <;> split <;> simp [Dict.get?_insert]

theorem get?_properties_stores (v : View) :
    v.properties.get? "storedValues" =
      listed StoredValue.toJson v.storedValues (v.options.get? "storedValues") := by
  unfold properties listed
  split <;> split <;> simp [Dict.get?_insert]

/-- Under all other names the options are sent. -/
theorem get?_properties_of_notMem {key : String}
    (other : key ∉ ["links", "primarySort", "storedValues"]) :
    v.properties.get? key = v.options.get? key := by
  simp only [List.mem_cons, List.not_mem_nil, or_false, not_or] at other
  unfold properties
  split <;> split <;> simp [Dict.get?_insert, other]

theorem sorted_properties (sorted : v.options.Sorted) : v.properties.Sorted := by
  have linked := sorted.insert "links" (Link.dictToJson v.links)
  unfold properties
  split <;> split
  · exact linked
  · exact linked.insert _ _
  · exact linked.insert _ _
  · exact (linked.insert _ _).insert _ _

/-- Whether nothing that a first alteration of a view adds is lost when a second one starts from
the same definition.  A list that the second one sends takes the place of the stored list, so
the first one must not have added to it; and the second one sends the links of the definition
again, so the first one must not have changed them, unless the second one does. -/
structure Accumulates (v : View) (first second : List ViewChange) : Prop where
  sorts : (v.apply first).primarySort = v.primarySort ∨
    (v.apply second).properties.get? "primarySort" = none
  stores : (v.apply first).storedValues = v.storedValues ∨
    (v.apply second).properties.get? "storedValues" = none
  links : ∀ collection, (v.apply first).links.get? collection = v.links.get? collection ∨
    v.links.get? collection = none ∨ ∃ link, .addLink collection link ∈ second

namespace Accumulates

/-- What is sent first and then second, over what is stored, is what is sent at once: all but the
links. -/
theorem get?_properties (accumulates : v.Accumulates first second) {key : String}
    (other : key ≠ "links") (stored : Option Json) :
    ((v.apply second).properties.get? key).or
        (((v.apply first).properties.get? key).or stored) =
      ((v.apply (first ++ second)).properties.get? key).or stored := by
  have sorts := accumulates.sorts
  have stores := accumulates.stores
  rw [apply_append, apply_eq (v.apply first)]
  rw [apply_eq v second] at sorts stores ⊢
  by_cases isSorts : key = "primarySort"
  · subst isSorts
    rw [get?_properties_sorts] at sorts
    simp only [get?_properties_sorts]
    rw [options_apply]
    exact listed_append_or _ sorts stored
  · by_cases isStores : key = "storedValues"
    · subst isStores
      rw [get?_properties_stores] at stores
      simp only [get?_properties_stores]
      rw [options_apply]
      exact listed_append_or _ stores stored
    · have neither : key ∉ ["links", "primarySort", "storedValues"] := by
        simp [other, isSorts, isStores]
      simp only [get?_properties_of_notMem neither]
      rw [options_apply]
      cases v.options.get? key <;> rfl

/-- The same of each link. -/
theorem get?_links (accumulates : v.Accumulates first second) (collection : String)
    (stored : Option Json) :
    ((Link.dictMembers (v.apply second).links).get? collection).or
        (((Link.dictMembers (v.apply first).links).get? collection).or stored) =
      ((Link.dictMembers (v.apply (first ++ second)).links).get? collection).or stored := by
  have links := accumulates.links collection
  simp only [Link.get?_dictMembers]
  rw [apply_append, apply_eq (v.apply first), apply_eq v second]
  simp only [Dict.get?_insertAll _ (addedLinks second)]
  cases added : (Dict.ofList (addedLinks second)).get? collection with
  | some link => rfl
  | none =>
      rcases links with same | absent | ⟨link, relinked⟩
      · rw [same]
        cases v.links.get? collection <;> rfl
      · rw [absent]
        rfl
      · -- A link that is set is found under its name.
        have listed : (collection, link) ∈ addedLinks second :=
          List.mem_filterMap.mpr ⟨_, relinked, rfl⟩
        exact absurd rfl (Dict.ne_of_get?_ofList_eq_none added _ listed)

end Accumulates

end View

end DocStore
