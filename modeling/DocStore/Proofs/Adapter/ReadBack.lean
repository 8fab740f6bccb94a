/-
Module: DocStore.Proofs.Adapter.ReadBack
Purpose: a row that was inserted is what a selection by its key finds.
Main exports:
  Entity.Plain, Entity.rowsByKey, Entity.rowOf, Adapter.ends_insert_ok,
  Adapter.ends_execute_rowsByKey, Adapter.insert_read_back
-/
import DocStore.Adapter.Basic
import DocStore.Proofs.Memory.Untouched
import DocStore.Proofs.Query.Agreement

namespace DocStore

open Text Exchange

/-! ### Whole rows of an entity -/

namespace Entity

/-- An entity whose names can stand in a query as they are: the collection and the fields,
with the primary key among them.  The attributes that the store gives to a document are
not among the fields, but for the key as the primary key. -/
structure Plain (e : Entity) : Prop where
  collection_plain : isPlainName e.collection = true
  fields_plain : ∀ name ∈ e.fields, isPlainName name = true
  keyed : e.primaryKey ∈ e.fields
  key_primary : "_key" ∈ e.fields → e.primaryKey = "_key"
  id_notMem : "_id" ∉ e.fields
  rev_notMem : "_rev" ∉ e.fields

/-- The attribute of a document that holds a field. -/
def attributeOf (e : Entity) (name : String) : String :=
  if name = e.primaryKey then "_key" else name

/-- The fields of a document; missing ones are null. -/
def rowOf (e : Entity) (d : Document) : Row :=
  .ofList (e.fields.map fun name => (name, d.value (e.attributeOf name)))

/-- The selection of the whole rows of an entity that are stored under a key, which is
bound to a parameter. -/
def rowsByKey (e : Entity) (projection : Option (List Expr)) (key : Json) : Query :=
  { root := { name := e.collection, entity := some e }
    clauses := [⟨.filter, .and, .binary .eq (.field 0 "_key") (.param 0)⟩]
    projection
    params := [key] }

/-- What a selection of whole rows asks for: the root rows, be it said or not. -/
def wholeRows : List (Option (List Expr)) :=
  [none, some [.row 0]]

theorem columnName_attributeOf {e : Entity} (plain : e.Plain) {name : String}
    (member : name ∈ e.fields) : DocStore.columnName (some e) (e.attributeOf name) = name := by
  unfold attributeOf columnName
  by_cases primary : name = e.primaryKey
  · simp [primary]
  · have other : name ≠ "_key" := fun same => by
      subst same
      exact primary (plain.key_primary member).symm
    simp [primary, other]

theorem isPlainName_attributeOf {e : Entity} (plain : e.Plain) {name : String}
    (member : name ∈ e.fields) : isPlainName (e.attributeOf name) = true := by
  unfold attributeOf
  split
  · decide
  · exact plain.fields_plain name member

end Entity

/-! ### Its query -/

namespace Query

theorem columnsOf_fields (names : List String) : columnsOf (names.map (.field 0)) = names := by
  have columns : ∀ start, ((names.map (Expr.field 0)).zipIdx start).map
      (fun e => columnName e.2 e.1) = names := by
    induction names with
    | nil => exact fun _ => rfl
    | cons name rest inductionHypothesis =>
        intro start
        rw [List.map_cons, List.zipIdx_cons, List.map_cons, inductionHypothesis]
        rfl
  exact columns 0

/-- The columns of a selection of fields are these fields. -/
theorem columns_of_compile {q : Query} {exprs : List Expr} {compiled : CompiledQuery}
    (resolved : ∀ s, q.resolveProjection s = .ok (.fields exprs))
    (is : q.compile .select = .ok compiled) : compiled.columns = columnsOf exprs := by
  unfold compile at is
  split at is
  · next text columns compiles =>
      cases is
      obtain ⟨s, _, compiles⟩ := exceptBind_eq_ok_iff.mp compiles
      obtain ⟨head, _, compiles⟩ := exceptBind_eq_ok_iff.mp compiles
      obtain ⟨⟨body, selected⟩, selects, same⟩ := exceptBind_eq_ok_iff.mp compiles
      cases same
      obtain ⟨projection, is, selects⟩ := exceptBind_eq_ok_iff.mp selects
      rw [resolved s] at is
      cases is
      obtain ⟨⟨group, inner⟩, _, selects⟩ := exceptBind_eq_ok_iff.mp selects
      obtain ⟨sort, _, selects⟩ := exceptBind_eq_ok_iff.mp selects
      obtain ⟨window, _, selects⟩ := exceptBind_eq_ok_iff.mp selects
      obtain ⟨distinct, _, selects⟩ := exceptBind_eq_ok_iff.mp selects
      obtain ⟨row, _, selects⟩ := exceptBind_eq_ok_iff.mp selects
      cases selects
      rfl
  · cases is

/-- A selection depends on its projection only through what that stands for. -/
theorem compile_select_congr {q : Query} {projection : Option (List Expr)}
    {compiled : CompiledQuery}
    (same : ∀ s, q.resolveProjection s = { q with projection }.resolveProjection s)
    (is : { q with projection }.compile .select = .ok compiled) :
    q.compile .select = .ok compiled := by
  have texts : q.compileText .select = { q with projection }.compileText .select := by
    have selects : ∀ s, q.selectText s = { q with projection }.selectText s := by
      intro s
      rw [selectText, selectText, same s]
    have bodies : ∀ s, q.bodyText s .select = { q with projection }.bodyText s .select := selects
    simp only [compileText, bodies]
    rfl
  unfold compile at is ⊢
  rw [texts]
  cases compiles : { q with projection }.compileText .select with
  | ok result =>
      rw [compiles] at is
      exact is
  | error fault =>
      rw [compiles] at is
      cases is

end Query

namespace Entity.Plain

variable {e : Entity} {projection : Option (List Expr)} {key : Json}

theorem attributes_ne_nil (plain : e.Plain) : e.fields.map e.attributeOf ≠ [] := by
  intro none_there
  rw [List.map_eq_nil_iff] at none_there
  exact List.ne_nil_of_mem plain.keyed none_there

theorem attributes_plain (plain : e.Plain) :
    ∀ name ∈ e.fields.map e.attributeOf, isPlainName name = true := by
  intro name member
  obtain ⟨field, inFields, rfl⟩ := List.mem_map.mp member
  exact isPlainName_attributeOf plain inFields

/-- Whole rows stand for all fields of the entity. -/
theorem resolveProjection_rowsByKey (plain : e.Plain) (whole : projection ∈ wholeRows)
    (s : Scope) : (e.rowsByKey projection key).resolveProjection s =
      .ok (.fields ((e.fields.map e.attributeOf).map (.field 0))) := by
  have fields : e.fields.isEmpty = false := by
    rw [List.isEmpty_eq_false_iff]
    exact List.ne_nil_of_mem plain.keyed
  have rows : (e.rowsByKey projection key).expandRows [.row 0] =
      .ok ((e.fields.map e.attributeOf).map (.field 0)) := by
    have root : (e.rowsByKey projection key).expandRow 0 =
        .ok ((e.fields.map e.attributeOf).map (.field 0)) := by
      simp [Query.expandRow, rowsByKey, Query.sources, fields, attributeOf, Function.comp_def]
    simp [Query.expandRows, root, Bind.bind, Except.bind]
  have asked : (e.rowsByKey projection key).projection.getD [.row 0] = [.row 0] := by
    simp only [wholeRows, List.mem_cons, List.not_mem_nil, or_false] at whole
    rcases whole with rfl | rfl <;> rfl
  rw [Query.resolveProjection, asked]
  simp [Expr.isCount, rows, Except.map]

/-- With its fields spelled out the query is a plain one. -/
theorem plain_rowsByKey (plain : e.Plain) (projection : Option (List Expr)) (key : Json) :
    (e.rowsByKey projection key).Plain where
  overCollection := rfl
  name_plain := plain.collection_plain
  noJoins := rfl
  noGroups := rfl
  notDistinct := Or.inl rfl
  clauses_plain c member := by
    cases List.mem_singleton.mp member
    exact ⟨"_key", 0, rfl, by decide, Nat.zero_lt_one⟩
  sorts_plain _ member := by cases member
  offset_plain := Or.inl rfl
  limit_plain := Or.inl rfl
  offset_limited skips := by cases skips

end Entity.Plain

/-! ### Reading by key -/

namespace Adapter

variable {a : Adapter} {e : Entity} {t : Option Transaction} {s s' : Store}
  {c : StoredCollection} {projection : Option (List Expr)} {key : Json} {found : List Document}

theorem hydrate_rowOf (plain : e.Plain) (d : Document) :
    hydrate (e.fields.map e.attributeOf) (some e)
      (.arr ((e.fields.map e.attributeOf).map d.value)) = .ok (e.rowOf d) := by
  have columns : (e.fields.map e.attributeOf).map (DocStore.columnName (some e)) = e.fields := by
    rw [List.map_map]
    conv => rhs; rw [← List.map_id e.fields]
    exact List.map_congr_left fun name member => Entity.columnName_attributeOf plain member
  have cells : e.fields.zip (e.fields.map (d.value ∘ e.attributeOf)) =
      e.fields.map fun name => (name, d.value (e.attributeOf name)) := by
    have paired : (e.fields.map id).zip (e.fields.map (d.value ∘ e.attributeOf)) =
        e.fields.map fun name => (id name, d.value (e.attributeOf name)) := List.zip_map'
    rw [List.map_id] at paired
    exact paired
  simp [hydrate, resultValues, Bind.bind, Except.bind, columns, cells, Entity.rowOf]

theorem mapM_hydrate_rowOf (plain : e.Plain) (found : List Document) :
    (found.map fun d => Json.arr ((e.fields.map e.attributeOf).map d.value)).mapM
      (hydrate (e.fields.map e.attributeOf) (some e)) = .ok (found.map e.rowOf) := by
  induction found with
  | nil => rfl
  | cons d rest inductionHypothesis =>
      rw [List.map_cons, List.mapM_cons, inductionHypothesis, hydrate_rowOf plain d]
      rfl

/-- A selection by key, run through the adapter, has the rows of the documents that it is
about as its value. -/
theorem ends_execute_rowsByKey (plain : e.Plain) (whole : projection ∈ Entity.wholeRows)
    (opened : s.Opened t) (batch : 0 < s.batchSize)
    (stored : (s.database (s.target a.database t)).collections.get? e.collection = some c)
    (finds : (e.rowsByKey projection key).Finds c.documents found) :
    ∃ s', (a.execute (e.rowsByKey projection key) .select t).Ends Store.server s
      (.ok (found.map e.rowOf)) s' := by
  have plainQuery := plain.plain_rowsByKey (some ((e.fields.map e.attributeOf).map (.field 0))) key
  obtain ⟨text, columns, s', compiled, ends, _⟩ := plainQuery.ends_select batch opened stored finds
    plain.attributes_ne_nil plain.attributes_plain rfl
  have resolved : ∀ scope, (e.rowsByKey projection key).resolveProjection scope = _ :=
    plain.resolveProjection_rowsByKey whole
  have compiles : (e.rowsByKey projection key).compile .select = .ok ⟨text, [key], columns⟩ := by
    refine Query.compile_select_congr (fun scope => ?_) compiled
    exact (resolved scope).trans
      (Query.resolveProjection_fields plain.attributes_ne_nil rfl scope).symm
  have named : columns = e.fields.map e.attributeOf :=
    (Query.columns_of_compile resolved compiles).trans (Query.columnsOf_fields _)
  subst named
  refine ⟨s', (ends_ofExcept_iff.mpr ⟨compiles.symm, rfl⟩).bind ?_⟩
  refine (ends_attempt_iff.mpr ⟨_, rfl, ends⟩).bind ?_
  refine (ends_ofExcept_iff.mpr ⟨rfl, rfl⟩).bind (ends_ofExcept_iff.mpr ⟨?_, rfl⟩)
  exact (mapM_hydrate_rowOf plain found).symm

end Adapter

/-! ### Inserting -/

namespace Store

variable {s s' : Store} {r : Request} {collection : String} {fields : Dict Json}
  {c : StoredCollection}

/-- Where there is a collection, an insertion is not refused for the lack of it. -/
theorem insertDocument_number {refusal : Refusal}
    (stored : (s.database (s.databaseOf r)).collections.get? collection = some c)
    (refused : (s.insertDocument r collection (.obj fields)).1 = .error refusal) :
    refusal.number ≠ StoreError.dataSourceNotFound := by
  have found : (s.takeRevision.2.database (s.databaseOf r)).collection collection = .ok c :=
    Database.collection_eq_ok_iff.mpr stored
  unfold insertDocument at refused
  cases permitted : s.permitWrite r collection with
  | error other =>
      simp only [Database.objectBody, permitted] at refused
      cases refused
      unfold permitWrite at permitted
      split at permitted
      · cases permitted
      · split at permitted
        · cases permitted
        · cases permitted
          simp [Refusal.number, StoreError.dataSourceNotFound]
  | ok =>
      simp only [Database.objectBody, permitted, found] at refused
      split at refused
      · next inserted =>
          cases refused
          unfold StoredCollection.insertDocument at inserted
          split at inserted
          · cases inserted
            simp [Refusal.number, StoreError.dataSourceNotFound,
              StoreError.uniqueConstraintViolated]
          · split at inserted
            · cases inserted
              simp [Refusal.number, StoreError.dataSourceNotFound]
            · cases inserted
      · cases refused

/-- A request whose transaction the store does not know is refused as such. -/
theorem answer_unknown {refusal : Refusal} (unknown : s.knowsTransaction r = .error refusal) :
    Store.server.answer s r = (.answered refusal.response, s.noteRequest r) ∧
      refusal.number ≠ StoreError.dataSourceNotFound := by
  refine ⟨answer_of_unknown unknown, ?_⟩
  unfold knowsTransaction at unknown
  split at unknown
  · cases unknown
  · split at unknown
    · cases unknown
    · cases unknown
      simp [Refusal.number, StoreError.dataSourceNotFound]

/-- A successful insertion puts a document with a free key behind the others, and shows
it. -/
theorem insertDocument_ok {response : Response}
    (done : s.insertDocument r collection (.obj fields) = (.ok response, s')) :
    ∃ c d key, (s.database (s.databaseOf r)).collections.get? collection = some c ∧
      c.document? key = none ∧ d.value "_key" = .str key ∧
      (∀ label, label ∉ ["_key", "_id", "_rev"] →
        d.value label = Document.value fields label) ∧
      response = answered 201
        (.obj ((Dict.ofList (StoredCollection.header d)).insert "new" (.obj d))) ∧
      SameData ((s.putCollection (s.databaseOf r) collection
        ((DocumentWrite.insert key d).apply c)).noteUndos r [.remove collection key]) s' := by
  unfold insertDocument at done
  cases permitted : s.permitWrite r collection with
  | error other =>
      simp only [Database.objectBody, permitted] at done
      cases done
  | ok =>
      have kept := (sameData_takeRevision s).trans (sameData_keyFor s.takeRevision.2 fields)
      simp only [Database.objectBody, permitted] at done
      split at done
      · cases done
      · next c stored =>
          split at done
          · cases done
          · next d new inserted =>
              obtain ⟨rfl, free, own, given⟩ := insertDocument_documents inserted
              cases done
              exact ⟨c, d, _, Database.collection_eq_ok_iff.mp stored, free, own, given, rfl,
                (kept.putCollection _ _ _).noteUndos r [_]⟩

end Store

namespace Adapter

variable {a : Adapter} {e : Entity} {t : Option Transaction} {s s' : Store}
  {c : StoredCollection} {fields : Row}

/-- The request that posts the document of an entity. -/
def postRequest (a : Adapter) (e : Entity) (document : Row) (t : Option Transaction) : Request :=
  ((Request.post ("document/" ++ e.collection) (.obj document)).withDatabase
    a.database).inTransaction t

theorem route_postRequest_of_notMem (plain : '/' ∉ e.collection.toList) (document : Row) :
    Route.of? (a.postRequest e document t) = some (.insertDocument e.collection) := by
  have cut := Route.segments_named "document" e.collection (by decide) plain
  rw [Route.of?, postRequest, Request.method_inTransaction, Request.path_inTransaction]
  change Route.ofPost? (Text.splitAt '/' ("document" ++ "/" ++ e.collection)) = _
  rw [cut]
  rfl

theorem route_postRequest (named : isPlainName e.collection = true) (document : Row) :
    Route.of? (a.postRequest e document t) = some (.insertDocument e.collection) :=
  route_postRequest_of_notMem (notMem_of_isPlainName named (by decide)) document

/-- Where its collection is, a document is posted behind the others under a free key, or
refused for another reason than the lack of the collection. -/
theorem ends_postDocument_cases (named : isPlainName e.collection = true)
    (stored : (s.database (s.target a.database t)).collections.get? e.collection = some c)
    (document : Row) :
    (∃ (refusal : Refusal) (s' : Store), (a.postDocument e document t).Ends Store.server s
        (.error (.store refusal.status refusal.number refusal.message)) s' ∧
        refusal.number ≠ StoreError.dataSourceNotFound) ∨
      ∃ d key s', (a.postDocument e document t).Ends Store.server s
          (.ok (.obj ((Dict.ofList (StoredCollection.header d)).insert "new" (.obj d)))) s' ∧
        s'.Opened t ∧ s'.home = s.home ∧ s'.batchSize = s.batchSize ∧
        (s'.database (s.target a.database t)).collections.get? e.collection =
          some ((DocumentWrite.insert key d).apply c) ∧
        c.document? key = none ∧ d.value "_key" = .str key ∧
        ∀ label, label ∉ ["_key", "_id", "_rev"] →
          d.value label = Document.value document label := by
  let r := a.postRequest e document t
  have noted := Store.sameData_noteRequest s r
  have addressed : s.databaseOf r = s.target a.database t := s.databaseOf_inTransaction _ t
  have ends : ∀ {outcome s'}, (a.postDocument e document t).Ends Store.server s outcome s' ↔
      (Exchange.request r).Ends Store.server s outcome s' := Iff.rfl
  rw [← addressed] at stored ⊢
  cases known : s.knowsTransaction r with
  | error refusal =>
      obtain ⟨refused, other⟩ := Store.answer_unknown known
      refine Or.inl ⟨refusal, s.noteRequest r, ends.mpr ?_, other⟩
      rw [ends_request_iff, refused]
      exact ⟨(Response.result_refusal refusal).symm, rfl⟩
  | ok =>
      have answers := Store.answer_of_route known (route_postRequest named document)
      have body : r.body.getD .null = .obj document := by
        change ((Request.inTransaction _ t).body).getD .null = _
        rw [Request.body_inTransaction]
        rfl
      rw [body, Store.perform] at answers
      cases performed : (s.noteRequest r).insertDocument r e.collection (.obj document) with
      | mk outcome s' =>
          rw [performed] at answers
          cases outcome with
          | error refusal =>
              refine Or.inl ⟨refusal, s', ends.mpr ?_,
                Store.insertDocument_number (s := s.noteRequest r) stored (by rw [performed])⟩
              rw [ends_request_iff, answers]
              exact ⟨(Response.result_refusal refusal).symm, rfl⟩
          | ok response =>
              obtain ⟨c', d, key, is, free, keyed, given, rfl, same⟩ :=
                Store.insertDocument_ok performed
              cases is.symm.trans stored
              let wrote := (s.noteRequest r).putCollection (s.databaseOf r) e.collection
                ((DocumentWrite.insert key d).apply c)
              have onward := (Store.onward_noteUndos wrote r [.remove e.collection key]).trans
                same.onward
              have opened : wrote.Opened t := Store.opened_of_knows (s := s)
                (Request.transaction_inTransaction _ t rfl) known
              refine Or.inr ⟨d, key, s', ends.mpr ?_, (opened.noteUndos r _).of_sameData same,
                onward.home_eq, onward.batchSize_eq, ?_, free, keyed, given⟩
              · rw [ends_request_iff, answers]
                exact ⟨(result_inserted d).symm, rfl⟩
              · rw [same.database_eq, Store.database, Store.databases_noteUndos]
                change (wrote.database (s.databaseOf r)).collections.get? e.collection = _
                rw [show wrote = Store.putCollection _ _ _ _ from rfl, Store.putCollection,
                  Store.database_putDatabase_self, Database.putCollection, Dict.get?_insert_self]

/-- Where its collection is, an entity is stored by posting its document: the collection is
not created. -/
theorem ends_post_of_ends_store {document : Row} {created : Json}
    (named : isPlainName e.collection = true)
    (stored : (s.database (s.target a.database t)).collections.get? e.collection = some c)
    (stores : (a.storeDocument e document t).Ends Store.server s (.ok created) s') :
    (a.postDocument e document t).Ends Store.server s (.ok created) s' := by
  obtain ⟨outcome, middle, attempted, rest⟩ := ends_bind_ok_iff.mp stores
  obtain ⟨given, same, posted⟩ := ends_attempt_iff.mp attempted
  cases same
  cases outcome with
  | ok answer =>
      obtain ⟨is, rfl⟩ := ends_pure_iff.mp rest
      cases is
      exact posted
  | error failure =>
      have creates : a.createsFor failure = false := by
        rcases ends_postDocument_cases (a := a) (t := t) named stored document with
          ⟨refusal, _, refused, other⟩ | ⟨_, _, _, answered, _⟩
        · cases (posted.unique refused).1
          simp [createsFor, Error.number?, other]
        · cases (posted.unique answered).1
      simp only [creates] at rest
      obtain ⟨is, _⟩ := ends_fail_iff.mp rest
      cases is

/-- A row that is inserted with success gets the key of its document as its primary key. -/
theorem ends_insert_ok {row : Row}
    (inserts : (a.insert e fields t).Ends Store.server s (.ok row) s') :
    ∃ document created key, e.toDocument fields = .ok document ∧
      (a.storeDocument e document t).Ends Store.server s (.ok created) s' ∧
      created.field "_key" = .str key ∧
      row = (fields.erase "_key").insert e.primaryKey (.str key) := by
  obtain ⟨document, s₁, given, rest⟩ := ends_bind_ok_iff.mp inserts
  obtain ⟨is, rfl⟩ := ends_ofExcept_iff.mp given
  obtain ⟨created, s₂, stores, answered⟩ := ends_bind_ok_iff.mp rest
  cases shown : created.field "_key" with
  | str key =>
      simp only [shown, Json.text?] at answered
      obtain ⟨same, rfl⟩ := ends_pure_iff.mp answered
      cases same
      exact ⟨document, created, key, is.symm, stores, shown, rfl⟩
  | _ =>
      simp only [shown, Json.text?] at answered
      obtain ⟨same, _⟩ := ends_fail_iff.mp answered
      cases same

/-- The document of a row has its fields, apart from the key. -/
theorem value_toDocument {document : Row} (is : e.toDocument fields = .ok document)
    {name : String} (notPrimary : name ≠ e.primaryKey) (notKey : name ≠ "_key") :
    Document.value document name = Document.value fields name := by
  obtain ⟨keyed, given, rest⟩ := exceptBind_eq_ok_iff.mp is
  obtain ⟨_, _, same⟩ := exceptBind_eq_ok_iff.mp rest
  cases same
  have erased : (fields.erase e.primaryKey).get? name = fields.get? name := by
    rw [Dict.get?_erase, if_neg notPrimary]
  unfold Entity.withDocumentKey at given
  split at given
  · cases given
    rfl
  · dsimp only at given
    split at given
    · cases given
      rw [Document.value, erased, Document.value]
    · cases given
      rw [Document.value, erased, Document.value]
    · cases given
      rw [Document.value, Dict.get?_insert_of_ne _ _ notKey, erased, Document.value]
    · cases given
      rw [Document.value, Dict.get?_insert_of_ne _ _ notKey, erased, Document.value]
    · cases given

/-- The fields of the document that a row is stored as are those of the row with its
key. -/
theorem value_attributeOf (plain : e.Plain) {document : Row} {d : Document} {key : String}
    (is : e.toDocument fields = .ok document) (keyed : d.value "_key" = .str key)
    (given : ∀ label, label ∉ ["_key", "_id", "_rev"] →
      d.value label = Document.value document label)
    {name : String} (member : name ∈ e.fields) :
    d.value (e.attributeOf name) =
      (((fields.erase "_key").insert e.primaryKey (.str key)).get? name).getD .null := by
  by_cases primary : name = e.primaryKey
  · rw [Entity.attributeOf, if_pos primary, keyed, primary, Dict.get?_insert_self]
    rfl
  · have notKey : name ≠ "_key" := fun same => by
      subst same
      exact primary (plain.key_primary member).symm
    have own : name ∉ ["_key", "_id", "_rev"] := by
      intro listed
      simp only [List.mem_cons, List.not_mem_nil, or_false] at listed
      rcases listed with same | rfl | rfl
      · exact notKey same
      · exact plain.id_notMem member
      · exact plain.rev_notMem member
    rw [Entity.attributeOf, if_neg primary, given name own, value_toDocument is primary notKey,
      Dict.get?_insert_of_ne _ _ primary, Dict.get?_erase, if_neg notKey, Document.value]

/-- The answer to an insertion shows the key of the document. -/
theorem key_inserted (d : Document) :
    (Json.obj ((Dict.ofList (StoredCollection.header d)).insert "new" (.obj d))).field "_key" =
      d.value "_key" := by
  have shown : (Dict.ofList (StoredCollection.header d)).get? "_key" = some (d.value "_key") :=
    Dict.get?_ofList_of_mem (by simp [StoredCollection.header]) (by simp [StoredCollection.header])
  rw [Json.field, Json.get?, Dict.get?_insert_of_ne _ _ (by decide), shown]
  rfl

/-- A selection by a key is about the document that was put under the key. -/
theorem finds_inserted {d : Document} {key : String} (free : c.document? key = none)
    (keyed : d.value "_key" = .str key) {projection : Option (List Expr)} :
    (e.rowsByKey projection (.str key)).Finds ((DocumentWrite.insert key d).apply c).documents
      [d] := by
  have holds : ∀ other : Document,
      (e.rowsByKey projection (.str key)).holdsOf other = other.hasKey key := by
    intro other
    rw [Bool.eq_iff_iff, Document.hasKey_iff]
    simp only [Query.holdsOf, Entity.rowsByKey, Clause.holdsOf, List.all_cons, List.all_nil,
      Bool.and_true, List.getD_cons_zero]
    change Json.same (other.value "_key") (.str key) = true ↔ _
    cases other.value "_key" <;> simp [Json.same]
  have single : ((DocumentWrite.insert key d).apply c).documents.filter
      (e.rowsByKey projection (.str key)).holdsOf = [d] := by
    have absent : c.documents.filter (·.hasKey key) = [] := by
      rw [List.filter_eq_nil_iff]
      exact List.find?_eq_none.mp free
    rw [funext holds]
    change (c.documents ++ [d]).filter _ = [d]
    rw [List.filter_append, absent]
    simp [(Document.hasKey_iff d key).mpr keyed]
  refine ⟨[d], ?_, rfl⟩
  rw [single]
  exact ⟨List.Perm.refl _, List.pairwise_singleton _ _, fun _ => rfl⟩

/-! ### Inserting and reading -/

/-- What is inserted is what is read.  If a row of an entity is inserted, into a collection
that is there, then the selection of the whole rows with the key that the row has got finds
one row, which has the value of the inserted row for each field of the entity, and null for
the fields that it has not. -/
theorem insert_read_back (plain : e.Plain) (batch : 0 < s.batchSize)
    (stored : (s.database (s.target a.database t)).collections.get? e.collection = some c)
    {row : Row} (inserts : (a.insert e fields t).Ends Store.server s (.ok row) s')
    {projection : Option (List Expr)} (whole : projection ∈ Entity.wholeRows) :
    ∃ key s'', row.get? e.primaryKey = some key ∧
      (a.execute (e.rowsByKey projection key) .select t).Ends Store.server s'
        (.ok [.ofList (e.fields.map fun name => (name, (row.get? name).getD .null))]) s'' := by
  obtain ⟨document, created, key, is, stores, shown, rfl⟩ := ends_insert_ok inserts
  have posted := ends_post_of_ends_store plain.collection_plain stored stores
  rcases ends_postDocument_cases (a := a) (t := t) plain.collection_plain stored document with
    ⟨_, _, refused, _⟩ | ⟨d, own, s₁, answered, opened, home, size, there, free, keyed, given⟩
  · cases (posted.unique refused).1
  · obtain ⟨same, rfl⟩ := posted.unique answered
    cases same
    rw [key_inserted, keyed] at shown
    cases shown
    have moved : s'.target a.database t = s.target a.database t := by
      rw [Store.target, home, Store.target]
    rw [← moved] at there
    obtain ⟨s'', ends⟩ := ends_execute_rowsByKey plain whole opened (size ▸ batch) there
      (finds_inserted free keyed)
    have rows : e.rowOf d = .ofList (e.fields.map fun name =>
        (name, (((fields.erase "_key").insert e.primaryKey (.str key)).get? name).getD .null)) := by
      rw [Entity.rowOf]
      congr 1
      refine List.map_congr_left fun name member => ?_
      rw [value_attributeOf plain is keyed given member]
    refine ⟨.str key, s'', Dict.get?_insert_self _ _ _, ?_⟩
    rw [← rows]
    exact ends

/-- Members by their names and ages. -/
def memberEntity : Entity :=
  (Entity.document "Member" "members").withFields ["name", "age"]

/-- A store with one member. -/
def memberStore : Store :=
  { databases := ⟨[("_system", { collections := ⟨[("members", { properties := {}, documents :=
      [⟨[("_key", .str "eve"), ("name", .str "Eve")]⟩] })]⟩ })]⟩ }

theorem insert_read_back_of_ada :
    ∃ s' s'', (({} : Adapter).insert memberEntity ⟨[("id", .int 7), ("name", .str "Ada")]⟩
        none).Ends Store.server memberStore
          (.ok ⟨[("id", .str "7"), ("name", .str "Ada")]⟩) s' ∧
      (({} : Adapter).execute (memberEntity.rowsByKey none (.str "7")) .select none).Ends
        Store.server s'
          (.ok [⟨[("age", .null), ("id", .str "7"), ("name", .str "Ada")]⟩]) s'' := by
  have inserts : (({} : Adapter).insert memberEntity ⟨[("id", .int 7), ("name", .str "Ada")]⟩
      none).Ends Store.server memberStore
        (.ok ⟨[("id", .str "7"), ("name", .str "Ada")]⟩) _ := ⟨rfl, rfl⟩
  have plain : memberEntity.Plain :=
    ⟨by decide, by decide, by decide, by decide, by decide, by decide⟩
  have whole : none ∈ Entity.wholeRows := List.mem_cons_self
  obtain ⟨key, s'', is, reads⟩ := insert_read_back plain (by decide) rfl inserts whole
  cases is
  exact ⟨_, s'', inserts, reads⟩

end Adapter

end DocStore
