/-
Module: DocStore.Proofs.Definition.Column
Purpose: the JSON forms of columns and of changes to them are read back.
Main exports:
  ColumnOptions.WellFormed, ColumnType.WellFormed, ColumnOp.WellFormed,
  ColumnOptions.read?_toJson, ColumnType.read?_toJson, ColumnOp.read?_toJson
-/
import DocStore.Proofs.Json.Record

namespace DocStore

/-! ### Well-formed columns -/

/-- The keywords of a column are in normal form, and none of them is called like the flag
that stands beside them. -/
structure ColumnOptions.WellFormed (o : ColumnOptions) : Prop where
  ordered : o.extra.Ordered
  noNull : o.extra.get? "null" = none

mutual

/-- The values in a type are in normal form, and its columns are well formed. -/
def ColumnType.WellFormed : ColumnType → Prop
  | .primitive _ => True
  | .enumeration values => Json.AllOrdered values
  | .constant value => value.Ordered
  | .arrayOf items => items.WellFormed
  | .object columns => ColumnOp.AllWellFormed columns

/-- The type and the options of a change are well formed. -/
def ColumnOp.WellFormed : ColumnOp → Prop
  | .add _ type options => type.WellFormed ∧ options.WellFormed
  | .modify _ type options => type.WellFormed ∧ options.WellFormed
  | .remove _ => True
  | .rename _ _ => True

/-- Every change of a list is well formed. -/
def ColumnOp.AllWellFormed : List ColumnOp → Prop
  | [] => True
  | op :: ops => op.WellFormed ∧ ColumnOp.AllWellFormed ops

end

/-! ### Options -/

/-- The flag and the keywords, which do not hide it, are read back. -/
theorem ColumnOptions.read?_toJson {o : ColumnOptions} (wellFormed : o.WellFormed) :
    ColumnOptions.read? o.toJson = some o := by
  obtain ⟨nullable, extra⟩ := o
  obtain ⟨ordered, noNull⟩ := wellFormed
  have flag : Dict.Sorted (.ofList [("null", Json.bool nullable)]) := Dict.sorted_ofList _
  have sorted := flag.merge extra
  have found := Dict.get?_merge (.ofList [("null", Json.bool nullable)]) ordered.1
  have left : ((Dict.ofList [("null", Json.bool nullable)]).merge extra).erase "null" = extra := by
    refine (sorted.erase "null").ext ordered.1 fun key => ?_
    rw [Dict.get?_erase, found]
    split
    · next same => rw [same, noNull]
    · next other =>
        have absent : (Dict.ofList [("null", Json.bool nullable)]).get? key = none := by
          simp [Dict.ofList, Dict.insertAll, Dict.get?_insert, other]
        rw [absent, Option.or_none]
  obtain ⟨r, isRecord, given⟩ := Record.read?_obj ["null"] _ sorted.nodup_keys
  have flagged : r.get? "null" = some (.bool nullable) := by
    refine given (by decide) ?_
    rw [found, noNull]
    rfl
  have isFlag : r.defaulted? "null" true Json.readBool? = some nullable :=
    Record.defaulted?_bool flagged
  simp [toJson, read?, isRecord, isFlag, left, Json.readDict?_of_ordered ordered]

/-- The keywords that are read are never called like the flag. -/
theorem ColumnOptions.wellFormed_of_read? {j : Json} {o : ColumnOptions}
    (is : ColumnOptions.read? j = some o) : o.WellFormed := by
  cases j with
  | obj members =>
      simp only [read?, Json.readDict?_any, Option.bind_eq_bind, Option.bind_eq_some_iff] at is
      obtain ⟨r, _, nullable, _, extra, isExtra, made⟩ := is
      cases made
      cases isExtra
      refine ⟨Json.ordered_ofList (Json.membersOrdered_normalizeMembers _), ?_⟩
      apply Dict.get?_insertAll_of_forall_ne
      intro e member
      have key := List.mem_map_of_mem (f := Prod.fst) member
      rw [Json.keys_normalizeMembers] at key
      obtain ⟨given, kept, same⟩ := List.mem_map.mp key
      have other := (List.mem_filter.mp kept).2
      simp at other
      rw [← same]
      exact other
  | _ => cases is

/-! ### Types and changes -/

theorem ColumnType.read?_of_single {reading : Reading} {j value : Json} {name : String}
    (single : Choice.single? j = some (name, value)) :
    ColumnType.read? reading j =
      if name = "primitive" then value.readText?.map .primitive
      else if name = "enum" then (Json.readList? Json.readAny? value).map .enumeration
      else if name = "const" then value.readAny?.map .constant
      else if name = "array_of" then (ColumnType.read? reading value).map .arrayOf
      else if name = "object" then (ColumnOp.readList? reading value).map .object
      else none := by
  rw [ColumnType.read?]
  split
  · next missing =>
      rw [single] at missing
      cases missing
  · next found =>
      rw [single] at found
      cases found
      cases value <;> rfl

/-- A change under a tag for new or modified columns is read field by field. -/
theorem ColumnOp.read?_of_typed {reading : Reading} {j body value : Json} {tag : String}
    {r : Record} (tagged : Choice.tagged? "op" ColumnOp.tags reading j = some (tag, body))
    (typed : tag = "add" ∨ tag = "modify")
    (isRecord : Record.read? ["name", "type", "options"] body = some r)
    (given : r.get? "type" = some value) :
    ColumnOp.read? reading j = (do
      let name ← r.required? "name" Json.readText?
      let type ← ColumnType.read? .held value
      let options ← r.defaulted? "options" {} ColumnOptions.read?
      some (if tag = "add" then .add name type options else .modify name type options)) := by
  rw [ColumnOp.read?]
  split
  · next missing =>
      rw [tagged] at missing
      cases missing
  · next found =>
      rw [tagged] at found
      cases found
      rw [if_pos typed]
      split
      · next missing =>
          rw [isRecord] at missing
          cases missing
      · next found =>
          rw [isRecord] at found
          cases found
          split
          · next missing =>
              rw [given] at missing
              cases missing
          · next found =>
              rw [given] at found
              cases found
              rfl

/-- A change under another tag is read by that tag. -/
theorem ColumnOp.read?_of_untyped {reading : Reading} {j body : Json} {tag : String}
    (tagged : Choice.tagged? "op" ColumnOp.tags reading j = some (tag, body))
    (untyped : ¬ (tag = "add" ∨ tag = "modify")) :
    ColumnOp.read? reading j =
      if tag = "remove" then (do
        let r ← Record.read? ["name"] body
        let name ← r.required? "name" Json.readText?
        some (.remove name))
      else (do
        let r ← Record.read? ["from", "to"] body
        let source ← r.required? "from" Json.readText?
        let target ← r.required? "to" Json.readText?
        some (.rename source target)) := by
  rw [ColumnOp.read?]
  split
  · next missing =>
      rw [tagged] at missing
      cases missing
  · next found =>
      rw [tagged] at found
      cases found
      rw [if_neg untyped]

/-- The JSON form of a new or a modified column is read back if its type is. -/
theorem ColumnOp.read?_typed {tag name : String} {type : ColumnType} {options : ColumnOptions}
    (typed : tag = "add" ∨ tag = "modify") (wellFormed : options.WellFormed)
    (isType : ColumnType.read? .held type.toJson = some type) (reading : Reading) :
    ColumnOp.read? reading (.obj ⟨[("name", .str name), ("op", .str tag),
      ("options", options.toJson), ("type", type.toJson)]⟩) =
        some (if tag = "add" then .add name type options else .modify name type options) := by
  have known : ColumnOp.tags.contains tag = true := by
    rcases typed with rfl | rfl <;> decide
  have tagged : Choice.tagged? "op" ColumnOp.tags reading (.obj ⟨[("name", .str name),
      ("op", .str tag), ("options", options.toJson), ("type", type.toJson)]⟩) =
        some (tag, .obj ⟨[("name", .str name), ("options", options.toJson),
          ("type", type.toJson)]⟩) :=
    Choice.tagged?_obj "op" _ known rfl reading
  obtain ⟨r, isRecord, given⟩ := Record.read?_obj ["name", "type", "options"]
    ⟨[("name", .str name), ("options", options.toJson), ("type", type.toJson)]⟩
    (by decide : ["name", "options", "type"].Nodup)
  have isName : r.required? "name" Json.readText? = some name :=
    Record.required?_text (given (by decide) rfl)
  have areOptions : r.defaulted? "options" {} ColumnOptions.read? = some options :=
    Record.defaulted?_eq (given (by decide) rfl) (ColumnOptions.read?_toJson wellFormed)
  rw [ColumnOp.read?_of_typed tagged typed isRecord (given (by decide) rfl), isName, isType,
    areOptions]
  rfl

mutual

/-- The JSON form of a well-formed type is read back. -/
theorem ColumnType.read?_toJson : (type : ColumnType) → type.WellFormed → (reading : Reading) →
    ColumnType.read? reading type.toJson = some type
  | .primitive name, _, reading => by
      rw [ColumnType.toJson, ColumnType.read?_of_single rfl]
      simp [Json.readText?, Json.text?]
  | .enumeration values, wellFormed, reading => by
      rw [ColumnType.toJson, ColumnType.read?_of_single rfl]
      simp [Json.readList?_any wellFormed]
  | .constant value, wellFormed, reading => by
      rw [ColumnType.toJson, ColumnType.read?_of_single rfl]
      simp [Json.readAny?_of_ordered wellFormed]
  | .arrayOf items, wellFormed, reading => by
      rw [ColumnType.toJson, ColumnType.read?_of_single rfl]
      simp [ColumnType.read?_toJson items wellFormed reading]
  | .object columns, wellFormed, reading => by
      rw [ColumnType.toJson, ColumnType.read?_of_single rfl]
      simp [ColumnOp.readList?, ColumnOp.readAll?_listToJson columns wellFormed reading]

/-- The JSON form of a well-formed change is read back. -/
theorem ColumnOp.read?_toJson : (op : ColumnOp) → op.WellFormed → (reading : Reading) →
    ColumnOp.read? reading op.toJson = some op
  | .add name type options, wellFormed, reading =>
      ColumnOp.read?_typed (.inl rfl) wellFormed.2
        (ColumnType.read?_toJson type wellFormed.1 .held) reading
  | .modify name type options, wellFormed, reading =>
      ColumnOp.read?_typed (.inr rfl) wellFormed.2
        (ColumnType.read?_toJson type wellFormed.1 .held) reading
  | .remove name, _, reading => by
      have tagged : Choice.tagged? "op" ColumnOp.tags reading (ColumnOp.toJson (.remove name)) =
          some ("remove", .obj ⟨[("name", .str name)]⟩) :=
        Choice.tagged?_obj "op" _ (by decide) rfl reading
      obtain ⟨r, isRecord, given⟩ := Record.read?_obj ["name"] ⟨[("name", .str name)]⟩
        (by decide : ["name"].Nodup)
      have isName : r.required? "name" Json.readText? = some name :=
    Record.required?_text (given (by decide) rfl)
      rw [ColumnOp.read?_of_untyped tagged (by decide), if_pos rfl, isRecord]
      simp [isName]
  | .rename source target, _, reading => by
      have tagged : Choice.tagged? "op" ColumnOp.tags reading
          (ColumnOp.toJson (.rename source target)) =
            some ("rename", .obj ⟨[("from", .str source), ("to", .str target)]⟩) :=
        Choice.tagged?_obj "op" _ (by decide) rfl reading
      obtain ⟨r, isRecord, given⟩ := Record.read?_obj ["from", "to"]
        ⟨[("from", .str source), ("to", .str target)]⟩ (by decide : ["from", "to"].Nodup)
      have isSource : r.required? "from" Json.readText? = some source :=
        Record.required?_text (given (by decide) rfl)
      have isTarget : r.required? "to" Json.readText? = some target :=
        Record.required?_text (given (by decide) rfl)
      rw [ColumnOp.read?_of_untyped tagged (by decide), if_neg (by decide), isRecord]
      simp [isSource, isTarget]

/-- The JSON forms of well-formed changes are read back. -/
theorem ColumnOp.readAll?_listToJson : (ops : List ColumnOp) → ColumnOp.AllWellFormed ops →
    (reading : Reading) → ColumnOp.readAll? reading (ColumnOp.listToJson ops) = some ops
  | [], _, reading => by
      rw [ColumnOp.listToJson, ColumnOp.readAll?]
  | op :: ops, wellFormed, reading => by
      rw [ColumnOp.listToJson, ColumnOp.readAll?, ColumnOp.read?_toJson op wellFormed.1 reading,
        ColumnOp.readAll?_listToJson ops wellFormed.2 reading]
      rfl

end

theorem ColumnOp.readList?_listToJson {ops : List ColumnOp} (wellFormed : AllWellFormed ops)
    (reading : Reading) : ColumnOp.readList? reading (.arr (listToJson ops)) = some ops :=
  readAll?_listToJson ops wellFormed reading

end DocStore
