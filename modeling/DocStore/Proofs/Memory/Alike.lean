/-
Module: DocStore.Proofs.Memory.Alike
Purpose: databases with the same definitions and documents, and each creation or renaming
  taken back in a database like the one that it led to.
Main exports:
  StoredCollection.Alike, Database.Alike, Database.undo_createCollection,
  Database.undo_renameCollection, Database.undo_createIndex, Database.undo_createView,
  Database.undo_renameView, Database.undo_createAnalyzer
-/
import DocStore.Migration.Execution
import DocStore.Proofs.Memory.Regular
import DocStore.Proofs.Text.Decimal

namespace DocStore

/-- The same properties, documents and indexes.  The number of the next index may
differ. -/
structure StoredCollection.Alike (c d : StoredCollection) : Prop where
  properties : c.properties.Same d.properties
  documents : d.documents = c.documents
  indexes : d.indexes = c.indexes

theorem StoredCollection.Alike.refl (c : StoredCollection) : c.Alike c :=
  ⟨fun _ => rfl, rfl, rfl⟩

namespace Database

/-- The same collections, views and analyzers. -/
structure Alike (db other : Database) : Prop where
  collections : ∀ name, Option.Rel StoredCollection.Alike (db.collections.get? name)
    (other.collections.get? name)
  views : ∀ name, Option.Rel Dict.Same (db.views.get? name) (other.views.get? name)
  analyzers : ∀ name, db.analyzers.get? name = other.analyzers.get? name

theorem rel_refl {α : Type} {r : α → α → Prop} (reflexive : ∀ a, r a a) (given : Option α) :
    Option.Rel r given given := by
  cases given with
  | none => exact .none
  | some a => exact .some (reflexive a)

theorem exists_of_rel {α β : Type} {r : α → β → Prop} {given : Option β} {a : α}
    (related : Option.Rel r (some a) given) : ∃ b, given = some b ∧ r a b := by
  cases related with
  | some holds => exact ⟨_, rfl, holds⟩

theorem eq_none_of_rel {α β : Type} {r : α → β → Prop} {given : Option β}
    (related : Option.Rel r none given) : given = none := by
  cases related
  rfl

section

variable {α : Type} {r : α → α → Prop} {d e : Dict α} {key source target : String} {a b c : α}

/-- What is put under a free name is taken back by erasing it. -/
theorem rel_erase (free : d.get? key = none)
    (related : ∀ label, Option.Rel r ((d.insert key a).get? label) (e.get? label))
    (label : String) :
    Option.Rel r (d.get? label) ((e.erase key).get? label) := by
  have before := related label
  rw [Dict.get?_insert] at before
  rw [Dict.get?_erase]
  split at before
  · next same =>
      rw [if_pos same, same, free]
      exact .none
  · next unlike =>
      rw [if_neg unlike]
      exact before

/-- What is moved to a free name is taken back by moving it back. -/
theorem rel_move_back (stored : d.get? source = some a) (free : d.get? target = none)
    (again : r a c)
    (related : ∀ label,
      Option.Rel r (((d.erase source).insert target b).get? label) (e.get? label))
    (label : String) :
    Option.Rel r (d.get? label) (((e.erase target).insert source c).get? label) := by
  have before := related label
  rw [Dict.get?_insert, Dict.get?_erase] at before ⊢
  by_cases isSource : label = source
  · rw [if_pos isSource, isSource, stored]
    exact .some again
  · by_cases isTarget : label = target
    · rw [if_neg isSource, if_pos isTarget, isTarget, free]
      exact .none
    · rw [if_neg isTarget, if_neg isSource] at before
      rw [if_neg isSource, if_neg isTarget]
      exact before

end

theorem Alike.refl (db : Database) : db.Alike db where
  collections _ := rel_refl StoredCollection.Alike.refl _
  views _ := rel_refl (fun _ _ => rfl) _
  analyzers _ := rfl

variable {db db₁ other : Database} {name source target : String} {body : Json}
  {response : Response}

/-! ### Collections -/

theorem undo_createCollection (named : body.field "name" = .str name)
    (made : db.createCollection body = .ok (response, db₁)) (alike : db₁.Alike other) :
    ∃ back, other.dropCollection name =
      .ok (answered 200 (.obj ⟨[("id", .str name)]⟩), back) ∧ db.Alike back := by
  obtain ⟨fields, given, _, isGiven, _, fresh, _, rfl⟩ := createCollection_eq_ok_iff.mp made
  cases named.symm.trans isGiven
  have stored := alike.collections name
  rw [Database.putCollection, Dict.get?_insert_self] at stored
  obtain ⟨c, found, _⟩ := exists_of_rel stored
  refine ⟨_, dropCollection_eq_ok_iff.mpr ⟨⟨c, found⟩, rfl, rfl⟩, ?_, alike.views,
    alike.analyzers⟩
  exact rel_erase (nameTaken_eq_false_iff.mp fresh).1 alike.collections

/-- Renaming a map of properties back leaves what was there. -/
theorem same_rename_back {v w : Dict Json} (own : v.get? "name" = some (.str source))
    (same : (v.insert "name" (.str target)).Same w) :
    v.Same (w.insert "name" (.str source)) := by
  intro key
  rw [Dict.get?_insert]
  split
  · next isName => rw [isName, own]
  · next other => rw [← same key, Dict.get?_insert_of_ne _ _ other]

/-- An answer with properties is a success if one with the same properties is. -/
theorem result_of_same {v w : Dict Json} {status : Nat} {value : Json}
    (same : ∀ key, key ≠ "name" → v.get? key = w.get? key)
    (success : (answered status (.obj v)).result = .ok value) :
    (answered status (.obj w)).result = .ok (.obj w) := by
  have succeeds := (Response.result_eq_ok success).1
  have agree : (Json.obj w).field "error" = (Json.obj v).field "error" := by
    rw [Json.field, Json.field, Json.get?, Json.get?, same "error" (by decide)]
  have also : (answered status (.obj w)).isSuccess = true := by
    unfold Response.isSuccess at succeeds ⊢
    simp only [answered] at succeeds ⊢
    rw [agree]
    exact succeeds
  rw [Response.result, also]
  rfl

theorem undo_renameCollection (regular : db.Regular) {body' : Json}
    (named : body.field "name" = .str target) (named' : body'.field "name" = .str source)
    (made : db.renameCollection source body = .ok (response, db₁)) {value : Json}
    (success : response.result = .ok value) (alike : db₁.Alike other) :
    ∃ response' back value', other.renameCollection target body' = .ok (response', back) ∧
      response'.result = .ok value' ∧ db.Alike back := by
  obtain ⟨given, c, isGiven, fresh, stored, rfl, rfl⟩ := renameCollection_eq_ok_iff.mp made
  cases named.symm.trans isGiven
  obtain ⟨noCollection, noView⟩ := nameTaken_eq_false_iff.mp fresh
  have own := regular.collections source c stored
  have unlike : source ≠ target := by
    rintro rfl
    rw [stored] at noCollection
    cases noCollection
  have moved := alike.collections target
  rw [Dict.get?_insert_self] at moved
  obtain ⟨d, found, properties, documents, indexes⟩ := exists_of_rel moved
  have free : other.nameTaken source = false := by
    have collections := alike.collections source
    rw [Dict.get?_insert_of_ne _ _ unlike, Dict.get?_erase_self] at collections
    have views := alike.views source
    rw [regular.apart source c stored] at views
    exact nameTaken_eq_false_iff.mpr ⟨eq_none_of_rel collections, eq_none_of_rel views⟩
  have back : c.properties.Same (d.properties.insert "name" (.str source)) :=
    same_rename_back own.named properties
  refine ⟨_, _, _, renameCollection_eq_ok_iff.mpr ⟨source, d, named', free, found, rfl, rfl⟩,
    result_of_same (fun key other => ?_) success, ⟨?_, alike.views, alike.analyzers⟩⟩
  · rw [← back key, Dict.get?_insert_of_ne _ _ other]
  · exact rel_move_back stored noCollection ⟨back, documents, indexes⟩ alike.collections

/-! ### Indexes -/

/-- An identifier ends with its number. -/
theorem segments_id (owner : String) (number : Nat) :
    Text.splitAt '/' (owner ++ "/" ++ toString number) =
      Text.splitAt '/' owner ++ [toString number] := by
  have plain : '/' ∉ (toString number).toList := by
    rw [Text.toList_toString]
    exact Text.notMem_digitsOf (by decide) number
  have whole := Text.splitAt_append '/' owner (toString number)
  rw [Text.splitAt_of_notMem plain] at whole
  exact whole

theorem id_injective {owner collection : String} {m n : Nat}
    (same : owner ++ "/" ++ toString m = collection ++ "/" ++ toString n) : m = n := by
  have segments := congrArg (Text.splitAt '/') same
  rw [segments_id, segments_id] at segments
  have last := List.append_inj_right' segments rfl
  exact Text.toString_nat_injective (List.cons.inj last).1

/-- The index that was added last is listed under its name. -/
theorem inListing?_append {collection : String} {indexes : List (Dict Json)} {index : Dict Json}
    (unlike : name ≠ "primary")
    (unused : (indexes.any fun index => (Document.value index "name").isTextOf name) = false)
    (named : Document.value index "name" = .str name) :
    Index.inListing? (.obj ⟨[("indexes",
      .arr (primaryIndex collection :: (indexes ++ [index]).map .obj))]⟩) name =
        some (.obj index) := by
  have listed : Index.inListing? (.obj ⟨[("indexes",
      .arr (primaryIndex collection :: (indexes ++ [index]).map .obj))]⟩) name =
        (primaryIndex collection :: (indexes ++ [index]).map .obj).find? fun index =>
          (index.field "name").isTextOf name := rfl
  have notPrimary : ((primaryIndex collection).field "name").isTextOf name = false := by
    change (some "primary" == some name) = false
    simpa using fun same => unlike same.symm
  have others : ((indexes.map Json.obj).find? fun index =>
      (index.field "name").isTextOf name) = none := by
    rw [List.find?_map, Option.map_eq_none_iff, List.find?_eq_none]
    intro candidate member
    have different := List.any_eq_false.mp unused candidate member
    exact different
  have own : ((Json.obj index).field "name").isTextOf name = true := by
    change (Document.value index "name").isTextOf name = true
    rw [named]
    simp [Json.isTextOf, Json.text?]
  rw [listed, List.find?_cons_of_neg (by rw [notPrimary]; exact Bool.false_ne_true),
    List.map_append, List.find?_append, others, Option.none_or, List.map_singleton]
  simp only [List.find?_cons, own]

theorem exists_of_createIndex {r : Request} {collection : String}
    (about : indexedCollection r = .ok collection)
    (made : db.createIndex r body = .ok (response, db₁)) :
    ∃ c, db.collections.get? collection = some c := by
  obtain ⟨given, _, c, isGiven, _, stored, _⟩ := createIndex_eq_ok_iff.mp made
  cases about.symm.trans isGiven
  exact ⟨c, stored⟩

theorem undo_createIndex (regular : db.Regular) {r listing : Request} {collection : String}
    (named : body.field "name" = .str name) (unlike : name ≠ "primary")
    (about : indexedCollection r = .ok collection)
    (listed : indexedCollection listing = .ok collection)
    (made : db.createIndex r body = .ok (response, db₁)) (alike : db₁.Alike other) :
    ∃ number page index back,
      other.listIndexes listing = .ok (answered 200 page, other) ∧
      (page.field "error").bool? ≠ some true ∧
      Index.inListing? page name = some index ∧
      index.field "id" = .str (collection ++ "/" ++ toString (number : Nat)) ∧
      other.dropIndex collection (toString number) =
        .ok (answered 200 (.obj ⟨[("id", .str (collection ++ "/" ++ toString number))]⟩), back) ∧
      db.Alike back := by
  obtain ⟨given, definition, c, isGiven, rfl, stored, unused, _, rfl⟩ :=
    createIndex_eq_ok_iff.mp made
  cases about.symm.trans isGiven
  have own := regular.collections collection c stored
  have text : ((Json.obj definition).field "name").text?.getD ("idx_" ++ toString c.nextIndex) =
      name := by
    rw [named]
    rfl
  rw [text] at unused
  have newName : Document.value (newIndex collection c definition) "name" = .str name := by
    rw [newIndex, Document.value, Dict.get?_insert_self, text]
    rfl
  have newId : Document.value (newIndex collection c definition) "id" =
      .str (collection ++ "/" ++ toString c.nextIndex) := by
    rw [newIndex, Document.value, Dict.get?_insert_of_ne _ _ (by decide),
      Dict.get?_insert_self]
    rfl
  have related := alike.collections collection
  rw [Database.putCollection, Dict.get?_insert_self] at related
  obtain ⟨d, found, properties, documents, indexes⟩ := exists_of_rel related
  -- All other indexes have smaller numbers, so just the new one goes.
  have kept : indexesWithout (collection ++ "/" ++ toString c.nextIndex) d.indexes =
      c.indexes := by
    have others : indexesWithout (collection ++ "/" ++ toString c.nextIndex) c.indexes =
        c.indexes := by
      apply List.filter_eq_self.mpr
      intro index member
      obtain ⟨owner, number, is, below⟩ := own.numbered index member
      rw [is, Bool.not_eq_true']
      change (some (owner ++ "/" ++ toString number) ==
        some (collection ++ "/" ++ toString c.nextIndex)) = false
      rw [beq_eq_false_iff_ne]
      intro same
      have equal := id_injective (Option.some.inj same)
      exact absurd equal (Nat.ne_of_lt below)
    have last : indexesWithout (collection ++ "/" ++ toString c.nextIndex)
        [newIndex collection c definition] = [] := by
      unfold indexesWithout
      rw [List.filter_cons_of_neg, List.filter_nil]
      rw [newId]
      simp [Json.isTextOf, Json.text?]
    rw [indexes]
    change indexesWithout _ (c.indexes ++ [newIndex collection c definition]) = _
    unfold indexesWithout at others last ⊢
    rw [List.filter_append, others, last, List.append_nil]
  refine ⟨c.nextIndex, _, .obj (newIndex collection c definition), _,
    listIndexes_eq_ok_iff.mpr ⟨collection, d, listed, found, rfl, rfl⟩, by rintro ⟨⟩, ?_, newId,
    dropIndex_eq_ok_iff.mpr ⟨d, found, ?_, rfl, rfl⟩, ?_, alike.views, alike.analyzers⟩
  · rw [indexes]
    exact inListing?_append unlike unused newName
  · rw [kept, indexes]
    simp
  · intro label
    have before := alike.collections label
    rw [Database.putCollection, Dict.get?_insert] at before ⊢
    split at before
    · next same =>
        rw [if_pos same, same, stored]
        exact .some ⟨properties, documents, kept⟩
    · next differs =>
        rw [if_neg differs]
        exact before

/-! ### Views and analyzers -/

theorem undo_createView (named : body.field "name" = .str name)
    (made : db.createView body = .ok (response, db₁)) (alike : db₁.Alike other) :
    ∃ back, other.dropView name =
      .ok (answered 200 (.obj ⟨[("result", .bool true)]⟩), back) ∧ db.Alike back := by
  obtain ⟨definition, given, _, isGiven, fresh, _, rfl⟩ := createView_eq_ok_iff.mp made
  cases named.symm.trans isGiven
  have stored := alike.views name
  rw [Database.putView, Dict.get?_insert_self] at stored
  obtain ⟨v, found, _⟩ := exists_of_rel stored
  refine ⟨_, dropView_eq_ok_iff.mpr ⟨⟨v, found⟩, rfl, rfl⟩, alike.collections, ?_,
    alike.analyzers⟩
  exact rel_erase (nameTaken_eq_false_iff.mp fresh).2 alike.views

theorem undo_renameView (regular : db.Regular) {body' : Json}
    (named : body.field "name" = .str target) (named' : body'.field "name" = .str source)
    (made : db.renameView source body = .ok (response, db₁)) {value : Json}
    (success : response.result = .ok value) (alike : db₁.Alike other) :
    ∃ response' back value', other.renameView target body' = .ok (response', back) ∧
      response'.result = .ok value' ∧ db.Alike back := by
  obtain ⟨given, v, isGiven, fresh, stored, rfl, rfl⟩ := renameView_eq_ok_iff.mp made
  cases named.symm.trans isGiven
  obtain ⟨noCollection, noView⟩ := nameTaken_eq_false_iff.mp fresh
  have own := regular.views source v stored
  have unlike : source ≠ target := by
    rintro rfl
    rw [stored] at noView
    cases noView
  have moved := alike.views target
  rw [Dict.get?_insert_self] at moved
  obtain ⟨w, found, properties⟩ := exists_of_rel moved
  have free : other.nameTaken source = false := by
    have views := alike.views source
    rw [Dict.get?_insert_of_ne _ _ unlike, Dict.get?_erase_self] at views
    have collections := alike.collections source
    have absent : db.collections.get? source = none := by
      cases taken : db.collections.get? source with
      | none => rfl
      | some c =>
          rw [regular.apart source c taken] at stored
          cases stored
    change Option.Rel StoredCollection.Alike (db.collections.get? source) _ at collections
    rw [absent] at collections
    exact nameTaken_eq_false_iff.mpr ⟨eq_none_of_rel collections, eq_none_of_rel views⟩
  have back : v.Same (w.insert "name" (.str source)) := same_rename_back own properties
  refine ⟨_, _, _, renameView_eq_ok_iff.mpr ⟨source, w, named', free, found, rfl, rfl⟩,
    result_of_same (fun key other => ?_) success, ⟨alike.collections, ?_, alike.analyzers⟩⟩
  · rw [← back key, Dict.get?_insert_of_ne _ _ other]
  · exact rel_move_back stored noView back alike.views

theorem undo_createAnalyzer (named : body.field "name" = .str name)
    (made : db.createAnalyzer body = .ok (response, db₁)) (alike : db₁.Alike other) :
    ∃ back, other.dropAnalyzer name =
      .ok (answered 200 (.obj ⟨[("name", .str name)]⟩), back) ∧ db.Alike back := by
  obtain ⟨given, isGiven, fresh, _, rfl⟩ := createAnalyzer_eq_ok_iff.mp made
  cases named.symm.trans isGiven
  have stored := alike.analyzers name
  rw [Dict.get?_insert_self] at stored
  refine ⟨_, dropAnalyzer_eq_ok_iff.mpr ⟨⟨body, stored.symm⟩, rfl, rfl⟩, alike.collections,
    alike.views, ?_⟩
  intro label
  have before := alike.analyzers label
  rw [Dict.get?_insert] at before
  rw [Dict.get?_erase]
  split at before
  · next same => rw [if_pos same, same, fresh]
  · next unlike => rw [if_neg unlike, before]

end Database

namespace Store

/-- The same definitions and documents in every database. -/
structure Alike (s other : Store) : Prop where
  home_eq : other.home = s.home
  databases : ∀ name, (s.database name).Alike (other.database name)

theorem Alike.refl (s : Store) : s.Alike s :=
  ⟨rfl, fun name => Database.Alike.refl (s.database name)⟩

/-- A database that is put in its own place does not matter. -/
theorem Alike.of_put {s other : Store} (alike : s.Alike other) (r : Request) (database : String) :
    s.Alike ((other.noteRequest r).putDatabase database (other.database database)) where
  home_eq := alike.home_eq
  databases name := by
    by_cases here : name = database
    · subst here
      rw [database_putDatabase_self]
      exact alike.databases name
    · rw [database_putDatabase_of_ne _ _ here]
      exact alike.databases name

section

variable {s other : Store} {r : Request} {db : Database}

theorem Alike.here {database : String}
    (alike : ((s.noteRequest r).putDatabase database db).Alike other) :
    db.Alike (other.database database) := by
  have own := alike.databases database
  rw [database_putDatabase_self] at own
  exact own

/-- A change of one database is taken back by a request to the same database, in a
store like the one that the change led to. -/
theorem Alike.undone (r' : Request) {route : Route} {change : Database → Change}
    {back : Database} {response : Response} {value : Json}
    (alike : ((s.noteRequest r).putDatabase (s.databaseOf r) db).Alike other)
    (tenant : r'.database = r.database) (outside : r'.transaction = none)
    (routed : Route.of? r' = some route)
    (is : route.change? r' (r'.body.getD .null) = some change)
    (made : change (other.database (s.databaseOf r)) = .ok (response, back))
    (success : response.result = .ok value)
    (restored : (s.database (s.databaseOf r)).Alike back) :
    ∃ s₂, (Exchange.command r').Ends Store.server other (.ok ()) s₂ ∧ s.Alike s₂ := by
  have here : other.databaseOf r' = s.databaseOf r := by
    rw [databaseOf, databaseOf, tenant, alike.home_eq]
    rfl
  refine ⟨_, ends_command_of_made outside routed is (here ▸ made) success, alike.home_eq, ?_⟩
  intro name
  rw [here]
  by_cases own : name = s.databaseOf r
  · subst own
    rw [database_putDatabase_self]
    exact restored
  · rw [database_putDatabase_of_ne _ _ own]
    have before := alike.databases name
    rw [database_putDatabase_of_ne _ _ own] at before
    exact before

end

end Store

end DocStore
