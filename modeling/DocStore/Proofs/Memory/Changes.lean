/-
Module: DocStore.Proofs.Memory.Changes
Purpose: when each change of the definitions in a database is made, and what it makes of the
  database.
Main exports:
  Database.createCollection_eq_ok_iff, Database.renameCollection_eq_ok_iff,
  Database.dropCollection_eq_ok_iff, Database.createIndex_eq_ok_iff,
  Database.dropIndex_eq_ok_iff, Database.createView_eq_ok_iff, Database.renameView_eq_ok_iff,
  Database.createAnalyzer_eq_ok_iff
-/
import DocStore.Memory.Database
import DocStore.Proofs.Dict
import DocStore.Proofs.Fallible

namespace DocStore

theorem Json.text?_eq_some_iff {j : Json} {text : String} :
    j.text? = some text ↔ j = .str text := by
  cases j <;> simp [Json.text?]

theorem Json.isTextOf_iff {j : Json} {text : String} :
    j.isTextOf text = true ↔ j = .str text := by
  rw [Json.isTextOf, beq_iff_eq, Json.text?_eq_some_iff]

namespace Database

variable {db db' : Database} {name source target : String} {body : Json} {response : Response}
  {r : Request}

/-! ### What a change looks up -/

theorem collection_eq_ok_iff {c : StoredCollection} :
    db.collection name = .ok c ↔ db.collections.get? name = some c := by
  unfold collection
  cases db.collections.get? name <;> simp

theorem view_eq_ok_iff {v : Dict Json} : db.view name = .ok v ↔ db.views.get? name = some v := by
  unfold view
  cases db.views.get? name <;> simp

theorem analyzer_eq_ok_iff {a : Json} :
    db.analyzer name = .ok a ↔ db.analyzers.get? name = some a := by
  unfold analyzer
  cases db.analyzers.get? name <;> simp

theorem objectBody_eq_ok_iff {what : String} {fields : Dict Json} :
    objectBody what body = .ok fields ↔ body = .obj fields := by
  cases body <;> simp [objectBody]

theorem nameIn_eq_ok_iff {what : String} :
    nameIn what body = .ok name ↔ body.field "name" = .str name := by
  rw [← Json.text?_eq_some_iff]
  unfold nameIn
  cases (body.field "name").text? <;> simp

theorem freshName_eq_ok_iff {done : Unit} :
    db.freshName name = .ok done ↔ db.nameTaken name = false := by
  unfold freshName
  cases db.nameTaken name <;> simp

theorem nameTaken_eq_false_iff : db.nameTaken name = false ↔
    db.collections.get? name = none ∧ db.views.get? name = none := by
  simp [nameTaken, Dict.contains_eq]

/-! ### Collections -/

theorem createCollection_eq_ok_iff :
    db.createCollection body = .ok (response, db') ↔
      ∃ fields name, body = .obj fields ∧ body.field "name" = .str name ∧ name.isEmpty = false ∧
        db.nameTaken name = false ∧ response = answered 200 (.obj (newProperties fields)) ∧
        db' = db.putCollection name { properties := newProperties fields } := by
  unfold createCollection
  simp only [exceptBind_eq_ok_iff, objectBody_eq_ok_iff, nameIn_eq_ok_iff]
  constructor
  · rintro ⟨fields, isObject, name, named, rest⟩
    cases empty : name.isEmpty with
    | true =>
        rw [empty] at rest
        cases rest
    | false =>
        rw [empty] at rest
        obtain ⟨_, fresh, made⟩ := exceptBind_eq_ok_iff.mp rest
        cases made
        exact ⟨fields, name, isObject, named, empty, freshName_eq_ok_iff.mp fresh, rfl, rfl⟩
  · rintro ⟨fields, name, isObject, named, nonempty, fresh, rfl, rfl⟩
    refine ⟨fields, isObject, name, named, ?_⟩
    rw [nonempty]
    exact exceptBind_eq_ok_iff.mpr ⟨(), freshName_eq_ok_iff.mpr fresh, rfl⟩

theorem changeCollection_eq_ok_iff :
    db.changeCollection name body = .ok (response, db') ↔
      ∃ c, db.collections.get? name = some c ∧
        response = answered 200 (.obj (c.properties.merge (body.members?.getD {}))) ∧
        db' = db.putCollection name
          { c with properties := c.properties.merge (body.members?.getD {}) } := by
  unfold changeCollection
  simp only [exceptBind_eq_ok_iff, collection_eq_ok_iff, Except.ok.injEq, Prod.mk.injEq]
  constructor
  · rintro ⟨c, stored, rfl, rfl⟩
    exact ⟨c, stored, rfl, rfl⟩
  · rintro ⟨c, stored, rfl, rfl⟩
    exact ⟨c, stored, rfl, rfl⟩

theorem renameCollection_eq_ok_iff :
    db.renameCollection source body = .ok (response, db') ↔
      ∃ target c, body.field "name" = .str target ∧ db.nameTaken target = false ∧
        db.collections.get? source = some c ∧
        response = answered 200 (.obj (c.properties.insert "name" (.str target))) ∧
        db' =
          { db with
            collections := (db.collections.erase source).insert target
              { c with properties := c.properties.insert "name" (.str target) } } := by
  unfold renameCollection
  simp only [exceptBind_eq_ok_iff, nameIn_eq_ok_iff, freshName_eq_ok_iff, collection_eq_ok_iff,
    Except.ok.injEq, Prod.mk.injEq]
  constructor
  · rintro ⟨target, named, _, fresh, c, stored, rfl, rfl⟩
    exact ⟨target, c, named, fresh, stored, rfl, rfl⟩
  · rintro ⟨target, c, named, fresh, stored, rfl, rfl⟩
    exact ⟨target, named, (), fresh, c, stored, rfl, rfl⟩

theorem dropCollection_eq_ok_iff :
    db.dropCollection name = .ok (response, db') ↔
      (∃ c, db.collections.get? name = some c) ∧
        response = answered 200 (.obj ⟨[("id", .str name)]⟩) ∧
        db' = { db with collections := db.collections.erase name } := by
  unfold dropCollection
  simp only [exceptBind_eq_ok_iff, collection_eq_ok_iff, Except.ok.injEq, Prod.mk.injEq]
  constructor
  · rintro ⟨c, stored, rfl, rfl⟩
    exact ⟨⟨c, stored⟩, rfl, rfl⟩
  · rintro ⟨⟨c, stored⟩, rfl, rfl⟩
    exact ⟨c, stored, rfl, rfl⟩

/-! ### Indexes -/

/-- The number and the definition that a new index is stored under. -/
def newIndex (collection : String) (c : StoredCollection) (definition : Dict Json) : Dict Json :=
  (definition.insert "id" (.str (collection ++ "/" ++ toString c.nextIndex))).insert "name"
    (.str (((Json.obj definition).field "name").text?.getD ("idx_" ++ toString c.nextIndex)))

theorem createIndex_eq_ok_iff :
    db.createIndex r body = .ok (response, db') ↔
      ∃ collection definition c, indexedCollection r = .ok collection ∧ body = .obj definition ∧
        db.collections.get? collection = some c ∧
        (c.indexes.any fun index => (Document.value index "name").isTextOf
          ((body.field "name").text?.getD ("idx_" ++ toString c.nextIndex))) = false ∧
        response = answered 201 (.obj
          ((newIndex collection c definition).insert "isNewlyCreated" (.bool true))) ∧
        db' = db.putCollection collection
          { c with
            indexes := c.indexes ++ [newIndex collection c definition]
            nextIndex := c.nextIndex + 1 } := by
  unfold createIndex
  simp only [exceptBind_eq_ok_iff, objectBody_eq_ok_iff, collection_eq_ok_iff]
  constructor
  · rintro ⟨collection, given, definition, rfl, c, stored, rest⟩
    split at rest
    · cases rest
    · next unused =>
        cases rest
        exact ⟨collection, definition, c, given, rfl, stored, by simpa using unused, rfl, rfl⟩
  · rintro ⟨collection, definition, c, given, rfl, stored, unused, rfl, rfl⟩
    refine ⟨collection, given, definition, rfl, c, stored, ?_⟩
    rw [unused]
    rfl

theorem listIndexes_eq_ok_iff :
    db.listIndexes r = .ok (response, db') ↔
      ∃ collection c, indexedCollection r = .ok collection ∧
        db.collections.get? collection = some c ∧
        response = answered 200 (.obj ⟨[("indexes",
          .arr (primaryIndex collection :: c.indexes.map .obj))]⟩) ∧ db' = db := by
  unfold listIndexes
  simp only [exceptBind_eq_ok_iff, collection_eq_ok_iff, Except.ok.injEq, Prod.mk.injEq]
  constructor
  · rintro ⟨collection, given, c, stored, rfl, rfl⟩
    exact ⟨collection, c, given, stored, rfl, rfl⟩
  · rintro ⟨collection, c, given, stored, rfl, rfl⟩
    exact ⟨collection, given, c, stored, rfl, rfl⟩

/-- The indexes without those of an identifier. -/
def indexesWithout (id : String) (indexes : List (Dict Json)) : List (Dict Json) :=
  indexes.filter fun index => !(Document.value index "id").isTextOf id

theorem dropIndex_eq_ok_iff {collection number : String} :
    db.dropIndex collection number = .ok (response, db') ↔
      ∃ c, db.collections.get? collection = some c ∧
        (indexesWithout (collection ++ "/" ++ number) c.indexes).length ≠ c.indexes.length ∧
        response = answered 200 (.obj ⟨[("id", .str (collection ++ "/" ++ number))]⟩) ∧
        db' = db.putCollection collection
          { c with indexes := indexesWithout (collection ++ "/" ++ number) c.indexes } := by
  unfold dropIndex
  simp only [exceptBind_eq_ok_iff, collection_eq_ok_iff]
  constructor
  · rintro ⟨c, stored, rest⟩
    split at rest
    · cases rest
    · next fewer =>
        cases rest
        exact ⟨c, stored, fewer, rfl, rfl⟩
  · rintro ⟨c, stored, fewer, rfl, rfl⟩
    refine ⟨c, stored, ?_⟩
    unfold indexesWithout at fewer
    rw [if_neg fewer]
    rfl

/-! ### Views and analyzers -/

theorem createView_eq_ok_iff :
    db.createView body = .ok (response, db') ↔
      ∃ definition name, body = .obj definition ∧ body.field "name" = .str name ∧
        db.nameTaken name = false ∧ response = answered 201 (.obj definition) ∧
        db' = db.putView name definition := by
  unfold createView
  simp only [exceptBind_eq_ok_iff, objectBody_eq_ok_iff, nameIn_eq_ok_iff, freshName_eq_ok_iff,
    Except.ok.injEq, Prod.mk.injEq]
  constructor
  · rintro ⟨definition, isObject, name, named, _, fresh, rfl, rfl⟩
    exact ⟨definition, name, isObject, named, fresh, rfl, rfl⟩
  · rintro ⟨definition, name, isObject, named, fresh, rfl, rfl⟩
    exact ⟨definition, isObject, name, named, (), fresh, rfl, rfl⟩

theorem renameView_eq_ok_iff :
    db.renameView source body = .ok (response, db') ↔
      ∃ target v, body.field "name" = .str target ∧ db.nameTaken target = false ∧
        db.views.get? source = some v ∧
        response = answered 200 (.obj (v.insert "name" (.str target))) ∧
        db' =
          { db with
            views := (db.views.erase source).insert target (v.insert "name" (.str target)) } := by
  unfold renameView
  simp only [exceptBind_eq_ok_iff, nameIn_eq_ok_iff, freshName_eq_ok_iff, view_eq_ok_iff,
    Except.ok.injEq, Prod.mk.injEq]
  constructor
  · rintro ⟨target, named, _, fresh, v, stored, rfl, rfl⟩
    exact ⟨target, v, named, fresh, stored, rfl, rfl⟩
  · rintro ⟨target, v, named, fresh, stored, rfl, rfl⟩
    exact ⟨target, named, (), fresh, v, stored, rfl, rfl⟩

theorem dropView_eq_ok_iff :
    db.dropView name = .ok (response, db') ↔
      (∃ v, db.views.get? name = some v) ∧
        response = answered 200 (.obj ⟨[("result", .bool true)]⟩) ∧
        db' = { db with views := db.views.erase name } := by
  unfold dropView
  simp only [exceptBind_eq_ok_iff, view_eq_ok_iff, Except.ok.injEq, Prod.mk.injEq]
  constructor
  · rintro ⟨v, stored, rfl, rfl⟩
    exact ⟨⟨v, stored⟩, rfl, rfl⟩
  · rintro ⟨⟨v, stored⟩, rfl, rfl⟩
    exact ⟨v, stored, rfl, rfl⟩

theorem createAnalyzer_eq_ok_iff :
    db.createAnalyzer body = .ok (response, db') ↔
      ∃ name, body.field "name" = .str name ∧ db.analyzers.get? name = none ∧
        response = answered 201 body ∧
        db' = { db with analyzers := db.analyzers.insert name body } := by
  unfold createAnalyzer
  simp only [exceptBind_eq_ok_iff, nameIn_eq_ok_iff]
  constructor
  · rintro ⟨name, named, rest⟩
    split at rest
    · cases rest
    · next absent =>
        cases rest
        exact ⟨name, named, by simpa [Dict.contains_eq] using absent, rfl, rfl⟩
  · rintro ⟨name, named, absent, rfl, rfl⟩
    refine ⟨name, named, ?_⟩
    rw [Dict.contains_eq, absent]
    rfl

theorem dropAnalyzer_eq_ok_iff :
    db.dropAnalyzer name = .ok (response, db') ↔
      (∃ a, db.analyzers.get? name = some a) ∧
        response = answered 200 (.obj ⟨[("name", .str name)]⟩) ∧
        db' = { db with analyzers := db.analyzers.erase name } := by
  unfold dropAnalyzer
  simp only [exceptBind_eq_ok_iff, analyzer_eq_ok_iff, Except.ok.injEq, Prod.mk.injEq]
  constructor
  · rintro ⟨a, stored, rfl, rfl⟩
    exact ⟨⟨a, stored⟩, rfl, rfl⟩
  · rintro ⟨⟨a, stored⟩, rfl, rfl⟩
    exact ⟨a, stored, rfl, rfl⟩

theorem dropAnalyzer_of_absent (absent : db.analyzers.get? name = none) :
    db.dropAnalyzer name = .error (.noAnalyzer name) := by
  rw [dropAnalyzer, analyzer, absent]
  rfl

end Database

end DocStore
