/-
Module: DocStore.Proofs.Migration.RoundTrip
Purpose: the JSON forms of commands and of declared migrations are read back.
Main exports:
  Command.WellFormed, Command.read?_toJson, MigrationFile.WellFormed,
  MigrationFile.read?_toJson_eq_some
-/
import DocStore.Migration.File
import DocStore.Proofs.Definition.RoundTrip

namespace DocStore

namespace Command

/-- The objects and the changes of a command are well formed. -/
def WellFormed : Command → Prop
  | create o => o.WellFormed
  | createIfNotExists o => o.WellFormed
  | drop o => o.WellFormed
  | dropIfExists o => o.WellFormed
  | alterCollection c columns => c.WellFormed ∧ ColumnOp.AllWellFormed columns
  | alterView v changes => v.WellFormed ∧ ∀ change ∈ changes, change.WellFormed
  | rename source target => source.WellFormed ∧ target.WellFormed
  | execute _ => True

/-- The fields under the name of a choice are read as those of a record. -/
theorem fields?_obj (names : List String) (members : Dict Json) (reading : Reading) :
    Choice.fields? names reading (.obj members) = Record.read? names (.obj members) := by
  cases reading <;> rfl

/-- The JSON form of a well-formed command is read back. -/
theorem read?_toJson {command : Command} (wellFormed : command.WellFormed) (reading : Reading) :
    read? reading command.toJson = some command := by
  cases command with
  | create o => simp [read?, toJson, named, Choice.single?, Definition.read?_toJson wellFormed]
  | createIfNotExists o =>
      simp [read?, toJson, named, Choice.single?, Definition.read?_toJson wellFormed]
  | drop o => simp [read?, toJson, named, Choice.single?, Definition.read?_toJson wellFormed]
  | dropIfExists o =>
      simp [read?, toJson, named, Choice.single?, Definition.read?_toJson wellFormed]
  | alterCollection c columns =>
      obtain ⟨r, isRecord, given⟩ := Record.read?_obj alterCollectionFields
        ⟨[("collection", c.toJson), ("columns", .arr (ColumnOp.listToJson columns))]⟩
        (by decide : ["collection", "columns"].Nodup)
      have isCollection : r.required? "collection" (Collection.read? reading) = some c :=
        Record.required?_eq (given (by decide) (by simp [Dict.lookupEntry]))
          (Collection.read?_toJson wellFormed.1 reading)
      have areColumns : r.required? "columns" (ColumnOp.readList? reading) = some columns :=
        Record.required?_eq (given (by decide) (by simp [Dict.lookupEntry]))
          (ColumnOp.readList?_listToJson wellFormed.2 reading)
      simp [read?, toJson, named, Choice.single?, fields?_obj, isRecord, isCollection, areColumns]
  | alterView v changes =>
      obtain ⟨r, isRecord, given⟩ := Record.read?_obj alterViewFields
        ⟨[("changes", .arr (changes.map ViewChange.toJson)), ("view", v.toJson)]⟩
        (by decide : ["changes", "view"].Nodup)
      have isView : r.required? "view" (View.read? reading) = some v :=
        Record.required?_eq (given (by decide) (by simp [Dict.lookupEntry]))
          (View.read?_toJson wellFormed.1 reading)
      have areChanges : r.required? "changes" (Json.readList? (ViewChange.read? reading)) =
          some changes :=
        Record.required?_eq (given (by decide) (by simp [Dict.lookupEntry]))
          (Json.readList?_map fun change member =>
            ViewChange.read?_toJson (wellFormed.2 change member) reading)
      simp [read?, toJson, named, Choice.single?, fields?_obj, isRecord, isView, areChanges]
  | rename source target =>
      obtain ⟨r, isRecord, given⟩ := Record.read?_obj renameFields
        ⟨[("from", source.toJson), ("to", target.toJson)]⟩ (by decide : ["from", "to"].Nodup)
      have isSource : r.required? "from" (Definition.read? reading) = some source :=
        Record.required?_eq (given (by decide) (by simp [Dict.lookupEntry]))
          (Definition.read?_toJson wellFormed.1 reading)
      have isTarget : r.required? "to" (Definition.read? reading) = some target :=
        Record.required?_eq (given (by decide) (by simp [Dict.lookupEntry]))
          (Definition.read?_toJson wellFormed.2 reading)
      simp [read?, toJson, named, Choice.single?, fields?_obj, isRecord, isSource, isTarget]
  | execute aql => simp [read?, toJson, named, Choice.single?, Json.readText?, Json.text?]

end Command

namespace MigrationFile

/-- Every command of a declared migration is well formed. -/
structure WellFormed (f : MigrationFile) : Prop where
  change : ∀ command ∈ f.change, command.WellFormed
  up : ∀ commands ∈ f.up, ∀ command ∈ commands, command.WellFormed
  down : ∀ commands ∈ f.down, ∀ command ∈ commands, command.WellFormed

theorem nodup_members (f : MigrationFile) : (f.members.map Prod.fst).Nodup := by
  have all : ["change", "disable_transaction", "down", "up", "write_collections"].Nodup := by
    decide
  refine List.Nodup.sublist ?_ all
  simp only [members, List.map_append]
  exact (((List.Sublist.refl ["change", "disable_transaction"]).append
    (keys_optionalMember _ _ _)).append (keys_optionalMember _ _ _)).append (keys_unless _ _ _)

theorem readList?_commandsJson {commands : List Command}
    (wellFormed : ∀ command ∈ commands, command.WellFormed) (reading : Reading) :
    Json.readList? (Command.read? reading) (commandsJson commands) = some commands :=
  Json.readList?_map fun command member => Command.read?_toJson (wellFormed command member) reading

/-- A declared migration is read back from its JSON form. -/
theorem read?_toJson_eq_some {f : MigrationFile} (wellFormed : f.WellFormed) (reading : Reading) :
    read? reading f.toJson = some f := by
  obtain ⟨r, isRecord, given⟩ := Record.read?_obj fieldNames ⟨f.members⟩ f.nodup_members
  have isChange : r.defaulted? "change" [] (Json.readList? (Command.read? reading)) =
      some f.change :=
    Record.defaulted?_eq (given (by decide) (by simp [members, Dict.lookupEntry]))
      (readList?_commandsJson wellFormed.change reading)
  have isUp : r.optional? "up" (Json.readList? (Command.read? reading)) = some f.up :=
    Record.optional?_eq (given (by decide) (by simp [members, Dict.lookupEntry]))
      (fun _ => rfl) fun commands is => readList?_commandsJson (wellFormed.up commands is) reading
  have isDown : r.optional? "down" (Json.readList? (Command.read? reading)) = some f.down :=
    Record.optional?_eq (given (by decide) (by simp [members, Dict.lookupEntry]))
      (fun _ => rfl) fun commands is =>
        readList?_commandsJson (wellFormed.down commands is) reading
  have isFlag : r.defaulted? "disable_transaction" false Json.readBool? =
      some f.disableTransaction :=
    Record.defaulted?_bool (given (by decide) (by simp [members, Dict.lookupEntry]))
  have areWritten : r.defaulted? "write_collections" [] (Json.readList? Json.readText?) =
      some f.writeCollections :=
    Record.defaulted?_unless (given (by decide) (by simp [members, Dict.lookupEntry]))
      List.isEmpty_iff.mp (Json.readList?_texts f.writeCollections)
  rw [toJson, read?, isRecord]
  simp [isChange, isUp, isDown, isFlag, areWritten]

/-- A migration with nested columns, nested links and options of its own. -/
def homesFile : MigrationFile where
  change := [
    .create (.collection {
      name := "users"
      columns := [
        .add "tags" (.arrayOf (.enumeration [.str "a", .null, .int 3]))
          ⟨false, ⟨[("description", .str "labels"), ("minItems", .int 1)]⟩⟩,
        .add "home" (.object [.add "zip" (.primitive "string") .notNull, .rename "town" "city"]) {}]
      schemaLevel := some "strict"
      options := ⟨[("keyOptions",
        .obj ⟨[("allowUserKeys", .bool true), ("type", .str "uuid")]⟩)]⟩ }),
    .alterView
      { name := "homes"
        links := ⟨[("users", { fields := ⟨[("home", { fields := ⟨[("zip", {})]⟩ })]⟩ })]⟩ }
      [.addLink "posts" { includeAllFields := some true }, .addStore { fields := ["title"] }]]
  up := some [.execute "RETURN 1"]
  down := some []

theorem homesFile_wellFormed : homesFile.WellFormed where
  change := by
    have keywords : ColumnOptions.WellFormed
        ⟨false, ⟨[("description", .str "labels"), ("minItems", .int 1)]⟩⟩ :=
      ⟨⟨List.pairwise_pair.mpr (by decide), trivial, trivial, trivial⟩, rfl⟩
    have noKeywords : ∀ nullable, ColumnOptions.WellFormed ⟨nullable, {}⟩ := fun _ =>
      ⟨Dict.ordered_empty, rfl⟩
    have options : Dict.Ordered
        ⟨[("keyOptions", .obj ⟨[("allowUserKeys", .bool true), ("type", .str "uuid")]⟩)]⟩ :=
      ⟨List.pairwise_singleton _ _,
        ⟨List.pairwise_pair.mpr (by decide), trivial, trivial, trivial⟩, trivial⟩
    have leaf : Link.WellFormed {} := ⟨List.Pairwise.nil, trivial⟩
    have nested : Link.WellFormed { fields := ⟨[("home", { fields := ⟨[("zip", {})]⟩ })]⟩ } :=
      ⟨List.pairwise_singleton _ _, ⟨List.pairwise_singleton _ _, leaf, trivial⟩, trivial⟩
    refine List.forall_mem_cons.mpr ⟨⟨?_, options⟩, List.forall_mem_cons.mpr ⟨⟨⟨?_, ?_, ?_⟩, ?_⟩,
      List.forall_mem_nil _⟩⟩
    · exact ⟨⟨⟨trivial, trivial, trivial, trivial⟩, keywords⟩,
        ⟨⟨⟨trivial, noKeywords false⟩, trivial, trivial⟩, noKeywords true⟩, trivial⟩
    · exact List.pairwise_singleton _ _
    · exact ⟨nested, trivial⟩
    · exact Dict.ordered_empty
    · exact List.forall_mem_cons.mpr ⟨leaf, List.forall_mem_cons.mpr ⟨trivial, by simp⟩⟩
  up := by
    rintro commands ⟨⟩ command member
    cases List.mem_singleton.mp member
    trivial
  down := by
    rintro commands ⟨⟩ command member
    cases member

/-- The nested parts of a migration are read back with all others. -/
theorem read?_toJson_of_homesFile :
    homesFile.WellFormed ∧ read? .value homesFile.toJson = some homesFile :=
  ⟨homesFile_wellFormed, read?_toJson_eq_some homesFile_wellFormed .value⟩

end MigrationFile

end DocStore
