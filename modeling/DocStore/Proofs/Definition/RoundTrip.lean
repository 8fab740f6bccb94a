/-
Module: DocStore.Proofs.Definition.RoundTrip
Purpose: the JSON forms of collections, indexes, views and analyzers are read back.
Main exports:
  Definition.WellFormed, Definition.read?_toJson, ViewChange.read?_toJson
-/
import DocStore.Definition.Basic
import DocStore.Proofs.Definition.Column

namespace DocStore

/-! ### Words -/

theorem CollectionKind.plain?_word (kind : CollectionKind) (reading : Reading) :
    Choice.plain? words reading (.str kind.word) = some kind := by
  cases kind <;> rfl

theorem IndexKind.plain?_word (kind : IndexKind) (reading : Reading) :
    Choice.plain? words reading (.str kind.word) = some kind := by
  cases kind <;> rfl

theorem AnalyzerKind.plain?_word (kind : AnalyzerKind) (reading : Reading) :
    Choice.plain? words reading (.str kind.word) = some kind := by
  cases kind <;> rfl

theorem Feature.plain?_word (feature : Feature) (reading : Reading) :
    Choice.plain? words reading (.str feature.word) = some feature := by
  cases feature <;> rfl

theorem SortDirection.plain?_word (direction : SortDirection) (reading : Reading) :
    Choice.plain? words reading (.str direction.word) = some direction := by
  cases direction <;> rfl

/-! ### Collections -/

namespace Collection

/-- The columns and the options of a definition are well formed. -/
structure WellFormed (c : Collection) : Prop where
  columns : ColumnOp.AllWellFormed c.columns
  options : c.options.Ordered

theorem nodup_members (c : Collection) : (c.members.map Prod.fst).Nodup := by
  have all : ["columns", "name", "options", "prefix", "schema_level", "schema_message",
      "type"].Nodup := by decide
  refine List.Nodup.sublist ?_ all
  simp only [members, List.map_append]
  exact (((((keys_unless _ _ _).append (List.Sublist.refl ["name"])).append
    (keys_dictMember _ _)).append (keys_optionalMember _ _ _)).append
      (keys_optionalMember _ _ _)).append (keys_optionalMember _ _ _) |>.append
        (List.Sublist.refl ["type"])

theorem read?_toJson {c : Collection} (wellFormed : c.WellFormed) (reading : Reading) :
    read? reading c.toJson = some c := by
  obtain ⟨r, isRecord, given⟩ := Record.read?_obj fieldNames ⟨c.members⟩ c.nodup_members
  have isName : r.required? "name" Json.readText? = some c.name :=
    Record.required?_text (given (by decide) (by simp [members, Dict.lookupEntry]))
  have isKind : r.defaulted? "type" .document (Choice.plain? CollectionKind.words reading) =
      some c.kind :=
    Record.defaulted?_eq (given (by decide) (by simp [members, Dict.lookupEntry]))
      (c.kind.plain?_word reading)
  have areColumns : r.defaulted? "columns" [] (ColumnOp.readList? reading) = some c.columns :=
    Record.defaulted?_unless (given (by decide) (by simp [members, Dict.lookupEntry]))
      List.isEmpty_iff.mp (ColumnOp.readList?_listToJson wellFormed.columns reading)
  have isLevel : r.optional? "schema_level" Json.readText? = some c.schemaLevel :=
    Record.optional?_text (given (by decide) (by simp [members, Dict.lookupEntry]))
  have isMessage : r.optional? "schema_message" Json.readText? = some c.schemaMessage :=
    Record.optional?_text (given (by decide) (by simp [members, Dict.lookupEntry]))
  have areOptions : r.defaulted? "options" {} (Json.readDict? Json.readAny?) = some c.options :=
    Record.defaulted?_dict (given (by decide) (by simp [members, Dict.lookupEntry]))
      wellFormed.options
  have isTenant : r.optional? "prefix" Json.readText? = some c.tenant :=
    Record.optional?_text (given (by decide) (by simp [members, Dict.lookupEntry]))
  rw [toJson, read?, isRecord]
  simp [isName, isKind, areColumns, isLevel, isMessage, areOptions, isTenant]

end Collection

/-! ### Indexes -/

namespace Index

/-- The options of a definition are in normal form. -/
def WellFormed (i : Index) : Prop :=
  i.options.Ordered

/-- The fields of the JSON form. -/
def fieldNames : List String :=
  ["collection", "fields", "type", "name", "unique", "sparse", "expire_after", "options", "prefix"]

theorem nodup_members (i : Index) : (i.members.map Prod.fst).Nodup := by
  have all : ["collection", "expire_after", "fields", "name", "options", "prefix", "sparse",
      "type", "unique"].Nodup := by decide
  refine List.Nodup.sublist ?_ all
  simp only [members, List.map_append]
  exact ((((((List.Sublist.refl ["collection"]).append (keys_optionalMember _ _ _)).append
    (List.Sublist.refl ["fields"])).append (keys_optionalMember _ _ _)).append
      (keys_dictMember _ _)).append (keys_optionalMember _ _ _)).append
        (List.Sublist.refl ["sparse", "type", "unique"])

theorem read?_toJson {i : Index} (wellFormed : i.WellFormed) (reading : Reading) :
    read? reading i.toJson = some i := by
  obtain ⟨r, isRecord, given⟩ := Record.read?_obj fieldNames ⟨i.members⟩ i.nodup_members
  have isCollection : r.required? "collection" Json.readText? = some i.collection :=
    Record.required?_text (given (by decide) (by simp [members, Dict.lookupEntry]))
  have areFields : r.required? "fields" (Json.readList? Json.readText?) = some i.fields :=
    Record.required?_texts (given (by decide) (by simp [members, Dict.lookupEntry]))
  have isKind : r.defaulted? "type" .persistent (Choice.plain? IndexKind.words reading) =
      some i.kind :=
    Record.defaulted?_eq (given (by decide) (by simp [members, Dict.lookupEntry]))
      (i.kind.plain?_word reading)
  have isName : r.optional? "name" Json.readText? = some i.name :=
    Record.optional?_text (given (by decide) (by simp [members, Dict.lookupEntry]))
  have isUnique : r.defaulted? "unique" false Json.readBool? = some i.unique :=
    Record.defaulted?_bool (given (by decide) (by simp [members, Dict.lookupEntry]))
  have isSparse : r.defaulted? "sparse" false Json.readBool? = some i.sparse :=
    Record.defaulted?_bool (given (by decide) (by simp [members, Dict.lookupEntry]))
  have expires : r.optional? "expire_after" Json.readNatural? = some i.expireAfter :=
    Record.optional?_natural (given (by decide) (by simp [members, Dict.lookupEntry]))
  have areOptions : r.defaulted? "options" {} (Json.readDict? Json.readAny?) = some i.options :=
    Record.defaulted?_dict
      (given (by decide) (by simp [members, Dict.lookupEntry])) wellFormed
  have isTenant : r.optional? "prefix" Json.readText? = some i.tenant :=
    Record.optional?_text (given (by decide) (by simp [members, Dict.lookupEntry]))
  rw [toJson, read?, ← fieldNames, isRecord]
  simp [isCollection, areFields, isKind, isName, isUnique, isSparse, expires, areOptions, isTenant]

end Index

/-! ### Analyzers -/

namespace Analyzer

/-- The properties of a definition are in normal form. -/
def WellFormed (a : Analyzer) : Prop :=
  a.properties.Ordered

/-- The fields of the JSON form. -/
def fieldNames : List String :=
  ["name", "type", "properties", "features", "prefix"]

theorem nodup_members (a : Analyzer) : (a.members.map Prod.fst).Nodup := by
  have all : ["features", "name", "prefix", "properties", "type"].Nodup := by decide
  refine List.Nodup.sublist ?_ all
  simp only [members, List.map_append]
  exact ((List.Sublist.refl ["features", "name"]).append (keys_optionalMember _ _ _)).append
    (List.Sublist.refl ["properties", "type"])

theorem readList?_features (features : List Feature) (reading : Reading) :
    Json.readList? (Choice.plain? Feature.words reading) (.texts (features.map Feature.word)) =
      some features := by
  rw [Json.texts, List.map_map]
  exact Json.readList?_map fun feature _ => feature.plain?_word reading

theorem read?_toJson {a : Analyzer} (wellFormed : a.WellFormed) (reading : Reading) :
    read? reading a.toJson = some a := by
  obtain ⟨r, isRecord, given⟩ := Record.read?_obj fieldNames ⟨a.members⟩ a.nodup_members
  have isName : r.required? "name" Json.readText? = some a.name :=
    Record.required?_text (given (by decide) (by simp [members, Dict.lookupEntry]))
  have isKind : r.required? "type" (Choice.plain? AnalyzerKind.words reading) = some a.kind :=
    Record.required?_eq (given (by decide) (by simp [members, Dict.lookupEntry]))
      (a.kind.plain?_word reading)
  have areProperties : r.defaulted? "properties" {} (Json.readDict? Json.readAny?) =
      some a.properties :=
    Record.defaulted?_eq (given (by decide) (by simp [members, Dict.lookupEntry]))
      (Json.readDict?_of_ordered wellFormed)
  have areFeatures : r.defaulted? "features" []
      (Json.readList? (Choice.plain? Feature.words reading)) = some a.features :=
    Record.defaulted?_eq (given (by decide) (by simp [members, Dict.lookupEntry, featuresJson]))
      (readList?_features a.features reading)
  have isTenant : r.optional? "prefix" Json.readText? = some a.tenant :=
    Record.optional?_text (given (by decide) (by simp [members, Dict.lookupEntry]))
  rw [toJson, read?, ← fieldNames, isRecord]
  simp [isName, isKind, areProperties, areFeatures, isTenant]

end Analyzer

/-! ### Views -/

namespace SortField

theorem read?_toJson (s : SortField) (reading : Reading) : read? reading s.toJson = some s := by
  obtain ⟨r, isRecord, given⟩ := Record.read?_obj fieldNames ⟨s.members⟩
    (by decide : ["direction", "field"].Nodup)
  have isField : r.required? "field" Json.readText? = some s.field :=
    Record.required?_text (given (by decide) (by simp [members, Dict.lookupEntry]))
  have isDirection : r.defaulted? "direction" .asc (Choice.plain? SortDirection.words reading) =
      some s.direction :=
    Record.defaulted?_eq (given (by decide) (by simp [members, Dict.lookupEntry]))
      (s.direction.plain?_word reading)
  rw [toJson, read?, isRecord]
  simp [isField, isDirection]

end SortField

namespace StoredValue

theorem read?_toJson (s : StoredValue) : read? s.toJson = some s := by
  have nodup : ((optionalMember "compression" s.compression .str ++
      [("fields", Json.texts s.fields)]).map Prod.fst).Nodup := by
    refine List.Nodup.sublist ?_ (by decide : ["compression", "fields"].Nodup)
    rw [List.map_append]
    exact (keys_optionalMember _ _ _).append (List.Sublist.refl ["fields"])
  obtain ⟨r, isRecord, given⟩ := Record.read?_obj fieldNames ⟨_⟩ nodup
  have areFields : r.required? "fields" (Json.readList? Json.readText?) = some s.fields :=
    Record.required?_texts (given (by decide) (by simp [Dict.lookupEntry]))
  have isCompression : r.optional? "compression" Json.readText? = some s.compression :=
    Record.optional?_text (given (by decide) (by simp [Dict.lookupEntry]))
  rw [toJson, read?, isRecord]
  simp [areFields, isCompression]

end StoredValue

mutual

/-- The links of the fields below a link are in key order, each name once, at any depth. -/
def Link.WellFormed : Link → Prop
  | ⟨_, ⟨fields⟩, _, _, _⟩ => (Dict.mk fields).Sorted ∧ Link.AllWellFormed fields

/-- Every one of some named links is well formed. -/
def Link.AllWellFormed : List (String × Link) → Prop
  | [] => True
  | (_, link) :: rest => link.WellFormed ∧ Link.AllWellFormed rest

end

namespace Link

/-- The members of the JSON form. -/
def members (analyzers : List String) (fields : List (String × Link))
    (includeAllFields trackListPositions : Option Bool) (storeValues : Option String) :
    List (String × Json) :=
  (if analyzers.isEmpty then [] else [("analyzers", .texts analyzers)]) ++
    (if fields.isEmpty then [] else [("fields", .obj ⟨membersToJson fields⟩)]) ++
    optionalMember "includeAllFields" includeAllFields .bool ++
    optionalMember "storeValues" storeValues .str ++
    optionalMember "trackListPositions" trackListPositions .bool

theorem nodup_members (analyzers : List String) (fields : List (String × Link))
    (includeAllFields trackListPositions : Option Bool) (storeValues : Option String) :
    ((members analyzers fields includeAllFields trackListPositions storeValues).map
      Prod.fst).Nodup := by
  have all : ["analyzers", "fields", "includeAllFields", "storeValues",
      "trackListPositions"].Nodup := by decide
  refine List.Nodup.sublist ?_ all
  simp only [members, List.map_append]
  exact ((((keys_unless _ _ _).append (keys_unless _ _ _)).append
    (keys_optionalMember _ _ _)).append (keys_optionalMember _ _ _)).append
      (keys_optionalMember _ _ _)

/-- A link is read field by field. -/
theorem read?_of_record {j : Json} {r : Record} (isRecord : Record.read? fieldNames j = some r) :
    Link.read? j = (do
      let analyzers ← r.defaulted? "analyzers" [] (Json.readList? Json.readText?)
      let fields ← r.defaulted? "fields" {} Link.readDict?
      let includeAllFields ← r.optional? "includeAllFields" Json.readBool?
      let trackListPositions ← r.optional? "trackListPositions" Json.readBool?
      let storeValues ← r.optional? "storeValues" Json.readText?
      some { analyzers, fields, includeAllFields, trackListPositions, storeValues }) := by
  rw [Link.read?]
  split
  · next missing =>
      rw [isRecord] at missing
      cases missing
  · next found =>
      rw [isRecord] at found
      cases found
      extract_lets nested
      have isNested : nested = r.defaulted? "fields" {} Link.readDict? := by
        unfold nested
        split
        · next missing => rw [Record.defaulted?, missing]
        · next value given =>
            have taken : r.defaulted? "fields" {} Link.readDict? = Link.readDict? value := by
              rw [Record.defaulted?, given]
            rw [taken]
            cases value <;> rfl
      rw [isNested]

mutual

/-- The JSON form of a well-formed link is read back. -/
theorem read?_toJson : (link : Link) → link.WellFormed → Link.read? link.toJson = some link
  | ⟨analyzers, ⟨fields⟩, includeAllFields, trackListPositions, storeValues⟩, wellFormed => by
      have nested : readDict? (.obj ⟨membersToJson fields⟩) = some ⟨fields⟩ := by
        rw [readDict?, readMembers?_membersToJson fields wellFormed.2, Option.map_some]
        exact congrArg some wellFormed.1.ofList_entries
      obtain ⟨r, isRecord, given⟩ := Record.read?_obj fieldNames
        ⟨members analyzers fields includeAllFields trackListPositions storeValues⟩
        (nodup_members analyzers fields includeAllFields trackListPositions storeValues)
      have areAnalyzers : r.defaulted? "analyzers" [] (Json.readList? Json.readText?) =
          some analyzers :=
        Record.defaulted?_unless (given (by decide) (by simp [members, Dict.lookupEntry]))
          List.isEmpty_iff.mp (Json.readList?_texts analyzers)
      have areFields : r.defaulted? "fields" {} Link.readDict? = some ⟨fields⟩ :=
        Record.defaulted?_unless (given (by decide) (by simp [members, Dict.lookupEntry]))
          (fun empty => congrArg Dict.mk (List.isEmpty_iff.mp empty)) nested
      have includes : r.optional? "includeAllFields" Json.readBool? = some includeAllFields :=
        Record.optional?_bool (given (by decide) (by simp [members, Dict.lookupEntry]))
      have tracks : r.optional? "trackListPositions" Json.readBool? = some trackListPositions :=
        Record.optional?_bool (given (by decide) (by simp [members, Dict.lookupEntry]))
      have stores : r.optional? "storeValues" Json.readText? = some storeValues :=
        Record.optional?_text (given (by decide) (by simp [members, Dict.lookupEntry]))
      rw [toJson, ← members, read?_of_record isRecord, areAnalyzers, areFields, includes, tracks,
        stores]
      rfl

/-- The JSON forms of well-formed links are read back. -/
theorem readMembers?_membersToJson : (links : List (String × Link)) → AllWellFormed links →
    Link.readMembers? (membersToJson links) = some links
  | [], _ => by rw [membersToJson, readMembers?]
  | (name, link) :: rest, wellFormed => by
      rw [membersToJson, readMembers?, read?_toJson link wellFormed.1,
        readMembers?_membersToJson rest wellFormed.2]
      rfl

end

theorem readDict?_dictToJson {links : Dict Link} (sorted : links.Sorted)
    (wellFormed : AllWellFormed links.entries) : readDict? (dictToJson links) = some links := by
  rw [dictToJson, readDict?, readMembers?_membersToJson links.entries wellFormed, Option.map_some,
    sorted.ofList_entries]

end Link

namespace ViewChange

/-- The link of a change is well formed. -/
def WellFormed : ViewChange → Prop
  | addSort _ => True
  | addStore _ => True
  | addLink _ link => link.WellFormed

theorem read?_toJson {change : ViewChange} (wellFormed : change.WellFormed) (reading : Reading) :
    read? reading change.toJson = some change := by
  cases change with
  | addSort sort =>
      have tagged : Choice.tagged? "op" tags reading (addSort sort).toJson =
          some ("add_sort", sort.toJson) := Choice.tagged?_obj "op" _ (by decide) rfl reading
      simp [read?, tagged, SortField.read?_toJson]
  | addStore stored =>
      have tagged : Choice.tagged? "op" tags reading (addStore stored).toJson =
          some ("add_store", stored.toJson) := by
        obtain ⟨fields, compression⟩ := stored
        cases compression <;> exact Choice.tagged?_obj "op" _ (by decide) rfl reading
      simp [read?, tagged, StoredValue.read?_toJson]
  | addLink collection link =>
      have tagged : Choice.tagged? "op" tags reading (addLink collection link).toJson =
          some ("add_link", .obj ⟨[("collection", .str collection), ("link", link.toJson)]⟩) :=
        Choice.tagged?_obj "op" _ (by decide) rfl reading
      obtain ⟨r, isRecord, given⟩ := Record.read?_obj ["collection", "link"]
        ⟨[("collection", .str collection), ("link", link.toJson)]⟩
        (by decide : ["collection", "link"].Nodup)
      have isCollection : r.required? "collection" Json.readText? = some collection :=
        Record.required?_text (given (by decide) (by simp [Dict.lookupEntry]))
      have isLink : r.required? "link" Link.read? = some link :=
        Record.required?_eq (given (by decide) (by simp [Dict.lookupEntry]))
          (Link.read?_toJson link wellFormed)
      simp [read?, tagged, isRecord, isCollection, isLink]

end ViewChange

namespace View

/-- The links and the options of a definition are well formed. -/
structure WellFormed (v : View) : Prop where
  sorted : v.links.Sorted
  links : Link.AllWellFormed v.links.entries
  options : v.options.Ordered

/-- The members of the JSON form. -/
def members (v : View) : List (String × Json) :=
  [("links", Link.dictToJson v.links), ("name", .str v.name), ("options", .obj v.options)] ++
    optionalMember "prefix" v.tenant .str ++
    [("primary_sort", .arr (v.primarySort.map SortField.toJson)),
      ("stored_values", .arr (v.storedValues.map StoredValue.toJson))]

theorem nodup_members (v : View) : (v.members.map Prod.fst).Nodup := by
  have all : ["links", "name", "options", "prefix", "primary_sort", "stored_values"].Nodup := by
    decide
  refine List.Nodup.sublist ?_ all
  simp only [members, List.map_append]
  exact ((List.Sublist.refl ["links", "name", "options"]).append (keys_optionalMember _ _ _)).append
    (List.Sublist.refl ["primary_sort", "stored_values"])

theorem read?_toJson {v : View} (wellFormed : v.WellFormed) (reading : Reading) :
    read? reading v.toJson = some v := by
  obtain ⟨r, isRecord, given⟩ := Record.read?_obj fieldNames ⟨v.members⟩ v.nodup_members
  have isName : r.required? "name" Json.readText? = some v.name :=
    Record.required?_text (given (by decide) (by simp [members, Dict.lookupEntry]))
  have areLinks : r.defaulted? "links" {} Link.readDict? = some v.links :=
    Record.defaulted?_eq (given (by decide) (by simp [members, Dict.lookupEntry]))
      (Link.readDict?_dictToJson wellFormed.sorted wellFormed.links)
  have isSort : r.defaulted? "primary_sort" [] (Json.readList? (SortField.read? reading)) =
      some v.primarySort :=
    Record.defaulted?_eq (given (by decide) (by simp [members, Dict.lookupEntry]))
      (Json.readList?_map fun s _ => s.read?_toJson reading)
  have areStored : r.defaulted? "stored_values" [] (Json.readList? StoredValue.read?) =
      some v.storedValues :=
    Record.defaulted?_eq (given (by decide) (by simp [members, Dict.lookupEntry]))
      (Json.readList?_map fun s _ => s.read?_toJson)
  have areOptions : r.defaulted? "options" {} (Json.readDict? Json.readAny?) = some v.options :=
    Record.defaulted?_eq (given (by decide) (by simp [members, Dict.lookupEntry]))
      (Json.readDict?_of_ordered wellFormed.options)
  have isTenant : r.optional? "prefix" Json.readText? = some v.tenant :=
    Record.optional?_text (given (by decide) (by simp [members, Dict.lookupEntry]))
  rw [toJson, ← members, read?, isRecord]
  simp [isName, areLinks, isSort, areStored, areOptions, isTenant]

end View

/-! ### Definitions -/

namespace Definition

/-- The object is well formed. -/
def WellFormed : Definition → Prop
  | collection c => c.WellFormed
  | index i => i.WellFormed
  | view v => v.WellFormed
  | analyzer a => a.WellFormed

/-- The tag is found, and the JSON form without it is left. -/
theorem tagged?_toJson (d : Definition) (reading : Reading) :
    Choice.tagged? "object" kindWords reading d.toJson = some (d.kindWord, d.bareJson) := by
  have found : ∀ members : Dict Json, d.bareJson = .obj members → members.get? "object" = none →
      Choice.tagged? "object" kindWords reading d.toJson = some (d.kindWord, d.bareJson) := by
    intro members bare absent
    have known : kindWords.contains d.kindWord = true := by cases d <;> rfl
    rw [toJson, bare]
    exact Choice.tagged?_insert known absent reading
  cases d with
  | collection c => exact found ⟨c.members⟩ rfl (by simp [Collection.members, Dict.lookupEntry])
  | index i => exact found ⟨i.members⟩ rfl (by simp [Index.members, Dict.lookupEntry])
  | view v => exact found ⟨v.members⟩ rfl (by simp [View.members, Dict.lookupEntry])
  | analyzer a => exact found ⟨a.members⟩ rfl (by simp [Analyzer.members, Dict.lookupEntry])

/-- The JSON form of a well-formed definition is read back. -/
theorem read?_toJson {d : Definition} (wellFormed : d.WellFormed) (reading : Reading) :
    read? reading d.toJson = some d := by
  have tagged := d.tagged?_toJson reading
  cases d with
  | collection c => simp [read?, tagged, kindWord, bareJson, Collection.read?_toJson wellFormed]
  | index i => simp [read?, tagged, kindWord, bareJson, Index.read?_toJson wellFormed]
  | view v => simp [read?, tagged, kindWord, bareJson, View.read?_toJson wellFormed]
  | analyzer a => simp [read?, tagged, kindWord, bareJson, Analyzer.read?_toJson wellFormed]

end Definition

end DocStore
