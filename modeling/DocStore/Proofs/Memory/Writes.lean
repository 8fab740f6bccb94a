/-
Module: DocStore.Proofs.Memory.Writes
Purpose: what requests that concern documents do to the store: nothing, or one write to one
  collection, noted so that it can be taken back.
Main exports:
  DocumentWrite, DocumentWrite.apply, DocumentWrite.undos, Store.DocumentStep,
  Store.documentStep_perform
-/
import DocStore.Proofs.Memory.Frame

namespace DocStore

/-- A write to the documents of a collection. -/
inductive DocumentWrite where
  | insert (key : String) (document : Document)
  | change (key : String) (old new : Document)
  | remove (key : String) (old : Document)
  | removeAll (found : List Document)

namespace DocumentWrite

/-- The collection after a write. -/
def apply (c : StoredCollection) : DocumentWrite → StoredCollection
  | insert _ d => { c with documents := c.documents ++ [d] }
  | change key _ new => c.changeDocument key new
  | remove key _ => c.removeDocument key
  | removeAll found => c.removeAll found

/-- How a write is taken back, in the order in which it is noted. -/
def undos (collection : String) : DocumentWrite → List Undo
  | insert key _ => [.remove collection key]
  | change _ old _ => [.restore collection old]
  | remove _ old => [.restore collection old]
  | removeAll found => found.map (.restore collection)

/-- What a write made by a request with a body finds in the collection: the key of a
new document is free, and documents that are changed or removed are there. -/
def Fits (body : Json) (c : StoredCollection) : DocumentWrite → Prop
  | insert key d => c.document? key = none ∧ d.value "_key" = .str key
  | change key old new => c.document? key = some old ∧
      ∃ revision, new = StoredCollection.changed old revision body
  | remove key old => c.document? key = some old
  | removeAll found => ∃ others, (found ++ others).Perm c.documents

end DocumentWrite

/-- The collection that an undo concerns. -/
def Undo.collection : Undo → String
  | remove collection _ => collection
  | restore collection _ => collection

theorem DocumentWrite.collection_of_mem_undos {w : DocumentWrite} {collection : String} {u : Undo}
    (member : u ∈ w.undos collection) : u.collection = collection := by
  cases w with
  | removeAll found =>
      obtain ⟨d, _, rfl⟩ := List.mem_map.mp member
      rfl
  | _ =>
      rw [undos, List.mem_singleton] at member
      subst member
      rfl

theorem windowed_sublist {α : Type} (window : Option (Nat × Nat)) (items : List α) :
    (windowed window items).Sublist items := by
  cases window with
  | none => exact List.Sublist.refl items
  | some bounds => exact (List.take_sublist _ _).trans (List.drop_sublist _ _)

theorem exists_append_perm_of_sublist {α : Type} {part whole : List α}
    (sub : part.Sublist whole) : ∃ others, (part ++ others).Perm whole := by
  induction sub with
  | slnil => exact ⟨[], List.Perm.refl _⟩
  | cons a _ inductionHypothesis =>
      obtain ⟨others, perm⟩ := inductionHypothesis
      exact ⟨a :: others, List.perm_middle.trans (perm.cons a)⟩
  | cons_cons a _ inductionHypothesis =>
      obtain ⟨others, perm⟩ := inductionHypothesis
      exact ⟨others, perm.cons a⟩

/-- The documents that a query finds are among those of the collection. -/
theorem Statement.exists_append_perm_found (q : Statement) (documents : List Document) :
    ∃ others, (q.found documents ++ others).Perm documents := by
  unfold Statement.found
  obtain ⟨cutOff, perm⟩ := exists_append_perm_of_sublist
    (windowed_sublist q.window ((documents.filter (·.satisfies q.filters)).mergeSort fun a b =>
      compareDocuments q.sorts a b != .gt))
  have sorted := perm.trans (List.mergeSort_perm _ _)
  obtain ⟨unmet, split⟩ := exists_append_perm_of_sublist
    (List.filter_sublist (p := fun d : Document => d.satisfies q.filters) (l := documents))
  refine ⟨cutOff ++ unmet, ?_⟩
  rw [← List.append_assoc]
  exact (sorted.append_right unmet).trans split

/-- A query without filters and limits finds a single document. -/
theorem Statement.found_singleton {q : Statement} {d : Document} (unfiltered : q.filters = [])
    (whole : q.window = none) : q.found [d] = [d] := by
  simp [found, unfiltered, whole, windowed, Document.satisfies]

/-! ### Answers that show documents -/

theorem field_error_header (d : Document) :
    (Dict.ofList (StoredCollection.header d)).get? "error" = none :=
  Dict.get?_insertAll_of_forall_ne .empty (by simp [StoredCollection.header])

theorem result_inserted (d : Document) :
    (answered 201 (.obj ((Dict.ofList (StoredCollection.header d)).insert "new" (.obj d)))).result =
      .ok (.obj ((Dict.ofList (StoredCollection.header d)).insert "new" (.obj d))) := by
  apply Response.result_answered (by decide)
  rw [Json.field, Json.get?, Dict.get?_insert_of_ne _ _ (by decide), field_error_header]
  rintro ⟨⟩

theorem result_removed (d : Document) :
    (answered 202 (.obj (.ofList (StoredCollection.header d)))).result =
      .ok (.obj (.ofList (StoredCollection.header d))) := by
  apply Response.result_answered (by decide)
  rw [Json.field, Json.get?, field_error_header]
  rintro ⟨⟩

namespace Store

/-- Note how writes are taken back, one after the other. -/
def noteUndos (s : Store) (r : Request) (undos : List Undo) : Store :=
  undos.foldl (fun s u => s.noteUndo r u) s

/-! ### What bookkeeping commutes with -/

theorem SameData.putCollection {s s₁ : Store} (same : SameData s s₁) (database name : String)
    (c : StoredCollection) :
    SameData (s.putCollection database name c) (s₁.putCollection database name c) := by
  constructor
  · exact same.home_eq
  · exact same.batchSize_eq
  · simp [Store.putCollection, Store.putDatabase, same.database_eq, same.databases_eq]
  · exact same.transactions_eq
  · exact same.names_le

theorem SameData.noteUndo {s s₁ : Store} (same : SameData s s₁) (r : Request) (undo : Undo) :
    SameData (s.noteUndo r undo) (s₁.noteUndo r undo) := by
  unfold Store.noteUndo
  split
  · exact same
  · exact ⟨same.home_eq, same.batchSize_eq, same.databases_eq, by rw [same.transactions_eq],
      same.names_le⟩

theorem SameData.noteUndos {s s₁ : Store} (same : SameData s s₁) (r : Request)
    (undos : List Undo) : SameData (s.noteUndos r undos) (s₁.noteUndos r undos) := by
  induction undos generalizing s s₁ with
  | nil => exact same
  | cons u rest inductionHypothesis => exact inductionHypothesis (same.noteUndo r u)

/-- What a request that concerns documents does: nothing but bookkeeping, or one write
that its transaction permits. -/
inductive DocumentStep (s : Store) (r : Request) (body : Json) (targets : List String) :
    Store → Prop where
  | idle {s' : Store} (same : SameData s s') : DocumentStep s r body targets s'
  | wrote {s' : Store} {collection : String} {c : StoredCollection} (w : DocumentWrite)
      (listed : collection ∈ targets) (permitted : s.permitWrite r collection = .ok ())
      (stored : (s.database (s.databaseOf r)).collections.get? collection = some c)
      (fits : w.Fits body c)
      (same : SameData ((s.putCollection (s.databaseOf r) collection (w.apply c)).noteUndos r
        (w.undos collection)) s') : DocumentStep s r body targets s'

theorem DocumentStep.trans_same {s s₁ s₂ : Store} {r : Request} {body : Json}
    {targets : List String} (step : DocumentStep s r body targets s₁) (same : SameData s₁ s₂) :
    DocumentStep s r body targets s₂ := by
  cases step with
  | idle first => exact .idle (first.trans same)
  | wrote w listed permitted stored fits first =>
      exact .wrote w listed permitted stored fits (first.trans same)

/-- A request without targets writes no documents. -/
theorem DocumentStep.same_of_nil {s s' : Store} {r : Request} {body : Json}
    (step : DocumentStep s r body [] s') : SameData s s' := by
  cases step with
  | idle same => exact same
  | wrote w listed => cases listed

theorem DocumentStep.of_same {s s₁ s₂ : Store} {r : Request} {body : Json}
    {targets : List String} (same : SameData s s₁) (step : DocumentStep s₁ r body targets s₂) :
    DocumentStep s r body targets s₂ := by
  cases step with
  | idle second => exact .idle (same.trans second)
  | wrote w listed permitted stored fits second =>
      rw [same.databaseOf_eq, same.database_eq] at stored
      rw [same.databaseOf_eq] at second
      refine .wrote w listed ?_ stored fits ?_
      · rw [← same.permitWrite_eq]
        exact permitted
      · exact ((same.putCollection _ _ _).noteUndos _ _).trans second

/-! ### Each kind of request -/

/-- A new document has a free key, and the attributes that it was given. -/
theorem insertDocument_documents {c new : StoredCollection} {name key revision : String}
    {fields : Dict Json} {d : Document}
    (inserted : c.insertDocument name key revision fields = .ok (d, new)) :
    new = (DocumentWrite.insert key d).apply c ∧ c.document? key = none ∧
      d.value "_key" = .str key ∧
      ∀ label, label ∉ ["_key", "_id", "_rev"] → d.value label = Document.value fields label := by
  unfold StoredCollection.insertDocument at inserted
  split at inserted
  · cases inserted
  · next free =>
      have absent : c.document? key = none := by simpa using free
      split at inserted
      · cases inserted
      · cases inserted
        refine ⟨rfl, absent, ?_, fun label other => ?_⟩
        · rw [Document.value, Dict.get?_insert_of_ne _ _ (by decide),
            Dict.get?_insert_of_ne _ _ (by decide), Dict.get?_insert_self]
          rfl
        · simp only [List.mem_cons, List.not_mem_nil, or_false, not_or] at other
          rw [Document.value, Dict.get?_insert_of_ne _ _ other.2.2,
            Dict.get?_insert_of_ne _ _ other.2.1, Dict.get?_insert_of_ne _ _ other.1,
            Document.value]

theorem sameData_keyFor (s : Store) (fields : Dict Json) : SameData s (s.keyFor fields).2 := by
  unfold keyFor
  split
  · exact SameData.refl s
  · exact sameData_takeName s

theorem insertDocument_step (s : Store) (r : Request) (collection : String)
    (body changes : Json) :
    DocumentStep s r changes [collection] (s.insertDocument r collection body).2 := by
  unfold insertDocument
  split
  · exact .idle (SameData.refl s)
  · exact .idle (SameData.refl s)
  · next fields _ permitted =>
      have noted := sameData_takeRevision s
      dsimp only
      split
      · exact .idle noted
      · next c stored =>
          have kept := noted.trans (sameData_keyFor s.takeRevision.2 fields)
          rw [Database.collection_eq_ok_iff] at stored
          split
          · exact .idle kept
          · next d new inserted =>
              obtain ⟨rfl, free, keyed, _⟩ := insertDocument_documents inserted
              refine .wrote (.insert (s.takeRevision.2.keyFor fields).1 d)
                List.mem_cons_self permitted stored ⟨free, keyed⟩ ?_
              exact (kept.putCollection _ _ _).noteUndos r [_]

/-- What inserting a document with a key into a collection leads to. -/
theorem insertDocument_eq {s : Store} {r : Request} {collection key : String}
    {fields : Dict Json} {c : StoredCollection} (permitted : s.permitWrite r collection = .ok ())
    (stored : (s.database (s.databaseOf r)).collections.get? collection = some c)
    (keyed : Document.value fields "_key" = .str key) :
    s.insertDocument r collection (.obj fields) =
      match c.insertDocument collection key s.takeRevision.1 fields with
      | .error refusal => (.error refusal, s.takeRevision.2)
      | .ok (d, new) =>
          (.ok (answered 201
            (.obj ((Dict.ofList (StoredCollection.header d)).insert "new" (.obj d)))),
            (s.takeRevision.2.putCollection (s.databaseOf r) collection new).noteUndo r
              (.remove collection key)) := by
  have found := Database.collection_eq_ok_iff.mpr stored
  have kept : s.takeRevision.2.database (s.databaseOf r) = s.database (s.databaseOf r) := rfl
  cases inserted : c.insertDocument collection key s.takeRevision.1 fields <;>
    simp only [insertDocument, Database.objectBody, permitted, kept, found, keyFor, keyed,
      Json.text?, inserted]

/-- To insert a document with a key is to be refused, or to put it behind the others. -/
theorem insertDocument_cases (s : Store) (r : Request) (collection : String) {key : String}
    {fields : Dict Json} (keyed : Document.value fields "_key" = .str key) :
    (∃ refusal s', s.insertDocument r collection (.obj fields) = (.error refusal, s') ∧
        SameData s s') ∨
      ∃ c d, (s.database (s.databaseOf r)).collections.get? collection = some c ∧
        c.document? key = none ∧ d.value "_key" = .str key ∧
        (∀ label, label ∉ ["_key", "_id", "_rev"] →
          d.value label = Document.value fields label) ∧
        s.insertDocument r collection (.obj fields) =
          (.ok (answered 201
            (.obj ((Dict.ofList (StoredCollection.header d)).insert "new" (.obj d)))),
            (s.takeRevision.2.putCollection (s.databaseOf r) collection
              ((DocumentWrite.insert key d).apply c)).noteUndo r (.remove collection key)) := by
  have taken := sameData_takeRevision s
  cases permitted : s.permitWrite r collection with
  | error refusal =>
      left
      refine ⟨refusal, s, ?_, SameData.refl s⟩
      simp only [insertDocument, Database.objectBody, permitted]
  | ok =>
      cases found : (s.database (s.databaseOf r)).collection collection with
      | error refusal =>
          left
          refine ⟨refusal, s.takeRevision.2, ?_, taken⟩
          have kept : s.takeRevision.2.database (s.databaseOf r) =
            s.database (s.databaseOf r) := rfl
          simp only [insertDocument, Database.objectBody, permitted, kept, found]
      | ok c =>
          have stored := Database.collection_eq_ok_iff.mp found
          have inserts := insertDocument_eq permitted stored keyed
          cases inserted : c.insertDocument collection key s.takeRevision.1 fields with
          | error refusal =>
              rw [inserted] at inserts
              exact Or.inl ⟨refusal, s.takeRevision.2, inserts, taken⟩
          | ok result =>
              obtain ⟨d, new⟩ := result
              obtain ⟨rfl, free, own, kept⟩ := insertDocument_documents inserted
              rw [inserted] at inserts
              exact Or.inr ⟨c, d, stored, free, own, kept, inserts⟩

theorem findDocument_eq_ok {s : Store} {database collection key : String} {c : StoredCollection}
    {d : Document} (found : s.findDocument database collection key = .ok (c, d)) :
    (s.database database).collections.get? collection = some c ∧ c.document? key = some d := by
  obtain ⟨c', stored, rest⟩ := exceptBind_eq_ok_iff.mp found
  split at rest
  · next d' is =>
      cases rest
      exact ⟨Database.collection_eq_ok_iff.mp stored, is⟩
  · cases rest

theorem changeDocument_step (s : Store) (r : Request) (collection key : String) (body : Json) :
    DocumentStep s r body [collection] (s.changeDocument r collection key body).2 := by
  unfold changeDocument
  split
  · exact .idle (SameData.refl s)
  · next permitted =>
      have noted := sameData_takeRevision s
      dsimp only
      split
      · exact .idle noted
      · next c old found =>
          obtain ⟨stored, is⟩ := findDocument_eq_ok found
          refine .wrote (.change key old (StoredCollection.changed old s.takeRevision.1 body))
            List.mem_cons_self permitted stored ⟨is, _, rfl⟩ ?_
          exact (noted.putCollection _ _ _).noteUndos r [_]

theorem removeDocument_step (s : Store) (r : Request) (collection key : String) (changes : Json) :
    DocumentStep s r changes [collection] (s.removeDocument r collection key).2 := by
  unfold removeDocument
  split
  · exact .idle (SameData.refl s)
  · next permitted =>
      dsimp only
      split
      · exact .idle (SameData.refl s)
      · next c old found =>
          obtain ⟨stored, is⟩ := findDocument_eq_ok found
          exact .wrote (.remove key old) List.mem_cons_self permitted stored is (SameData.refl _)

/-- What removing a document that is there leads to. -/
theorem removeDocument_eq {s : Store} {r : Request} {collection key : String}
    {c : StoredCollection} {d : Document} (permitted : s.permitWrite r collection = .ok ())
    (stored : (s.database (s.databaseOf r)).collections.get? collection = some c)
    (found : c.document? key = some d) :
    s.removeDocument r collection key =
      (.ok (answered 202 (.obj (.ofList (StoredCollection.header d)))),
        (s.putCollection (s.databaseOf r) collection (c.removeDocument key)).noteUndo r
          (.restore collection d)) := by
  have whole := Database.collection_eq_ok_iff.mpr stored
  simp only [removeDocument, permitted, findDocument, whole, found, Bind.bind, Except.bind]

theorem sameData_page (s : Store) (rows : List Json) (batch : Nat) :
    SameData s (s.page rows batch).2 := by
  unfold page
  split
  · exact SameData.refl s
  · exact ⟨rfl, rfl, rfl, rfl, Nat.le_succ _⟩

theorem removeFound_eq (s : Store) (r : Request) (collection : String) (c : StoredCollection)
    (found : List Document) :
    s.removeFound r collection c found =
      (s.putCollection (s.databaseOf r) collection
        ((DocumentWrite.removeAll found).apply c)).noteUndos r
          ((DocumentWrite.removeAll found).undos collection) := by
  rw [removeFound, noteUndos, DocumentWrite.undos, List.foldl_map]
  rfl

section

variable {s : Store} {r : Request} {aql : String} {q : Statement} {c : StoredCollection}

theorem runStatement_reading (reads : q.effect = .reading)
    (stored : (s.database (s.databaseOf r)).collections.get? q.collection = some c) :
    s.runStatement r aql q = (q.rows aql (q.found c.documents), s) := by
  unfold runStatement
  rw [reads, Database.collection_eq_ok_iff.mpr stored]
  simp

theorem runStatement_removal (removes : q.effect = .removal)
    (permitted : s.permitWrite r q.collection = .ok ())
    (stored : (s.database (s.databaseOf r)).collections.get? q.collection = some c) :
    s.runStatement r aql q =
      (q.rows aql (q.found c.documents),
        s.removeFound r q.collection c (q.found c.documents)) := by
  unfold runStatement
  rw [removes, Database.collection_eq_ok_iff.mpr stored, if_pos rfl, permitted]

theorem noteUndo_outside (outside : r.transaction = none) (undo : Undo) :
    s.noteUndo r undo = s := by
  rw [noteUndo, outside]

theorem removeFound_outside (outside : r.transaction = none) (collection : String)
    (c : StoredCollection) (found : List Document) :
    s.removeFound r collection c found =
      s.putCollection (s.databaseOf r) collection (c.removeAll found) := by
  unfold removeFound
  generalize s.putCollection (s.databaseOf r) collection (c.removeAll found) = start
  induction found generalizing start with
  | nil => rfl
  | cons d rest inductionHypothesis =>
      rw [List.foldl_cons, noteUndo_outside outside]
      exact inductionHypothesis start

end

/-- What running a query does: only a removal writes. -/
theorem runStatement_step (s : Store) (r : Request) (aql : String) (q : Statement)
    (changes : Json) :
    DocumentStep s r changes (if q.effect = .removal then [q.collection] else [])
      (s.runStatement r aql q).2 := by
  cases effect : q.effect with
  | reading =>
      apply DocumentStep.idle
      simp only [runStatement, effect]
      split <;> exact SameData.refl s
  | update =>
      apply DocumentStep.idle
      simp only [runStatement, effect]
      split <;> exact SameData.refl s
  | removal =>
      simp only [runStatement, effect, if_true]
      split
      · exact .idle (SameData.refl s)
      · exact .idle (SameData.refl s)
      · next c permitted stored =>
          rw [removeFound_eq]
          rw [Database.collection_eq_ok_iff] at stored
          exact .wrote (.removeAll (q.found c.documents)) List.mem_cons_self permitted stored
            (q.exists_append_perm_found c.documents) (SameData.refl _)

theorem runQuery_step (s : Store) (r : Request) (aql : String) (bindVars : Dict Json)
    (changes : Json) :
    DocumentStep s r changes
      (match Statement.read? aql bindVars with
        | none => []
        | some q => if q.effect = .removal then [q.collection] else [])
      (s.runQuery r aql bindVars).2 := by
  unfold runQuery
  cases Statement.read? aql bindVars with
  | none => exact .idle (SameData.refl s)
  | some q => exact runStatement_step s r aql q changes

theorem openCursor_step (s : Store) (r : Request) (body changes : Json) :
    DocumentStep s r changes (removalTargets body) (s.openCursor r body).2 := by
  unfold openCursor removalTargets
  cases (body.field "query").text? with
  | none => exact .idle (SameData.refl s)
  | some aql =>
      have noted : SameData s { s with queries := s.queries ++ [aql] } :=
        ⟨rfl, rfl, rfl, rfl, Nat.le_refl _⟩
      have ran := runQuery_step { s with queries := s.queries ++ [aql] } r aql
        ((body.field "bindVars").members?.getD {}) changes
      dsimp only
      cases served : { s with queries := s.queries ++ [aql] }.runQuery r aql
          ((body.field "bindVars").members?.getD {}) with
      | mk outcome s₁ =>
          rw [served] at ran
          cases outcome with
          | error refusal => exact .of_same noted ran
          | ok rows => exact (DocumentStep.of_same noted ran).trans_same (sameData_page s₁ rows _)

theorem readCursor_same (s : Store) (id : String) : SameData s (s.readCursor id).2 := by
  unfold readCursor
  split
  · exact SameData.refl s
  · next rows _ =>
      have erased : SameData s { s with cursors := s.cursors.erase id } :=
        ⟨rfl, rfl, rfl, rfl, Nat.le_refl _⟩
      exact erased.trans (sameData_page _ rows s.batchSize)

end Store

namespace Route

/-- Whether what a request asks for begins or ends a transaction. -/
def isTransactional : Route → Bool
  | .beginTransaction => true
  | .commitTransaction _ => true
  | .abortTransaction _ => true
  | _ => false

end Route

namespace Store

/-- A request that concerns neither definitions nor transactions makes at most one
write to documents.  Its body matters to the write only if it is a change. -/
theorem documentStep_perform_of {s : Store} {r : Request} {body changes : Json} {route : Route}
    (noChange : route.change? r body = none) (within : route.isTransactional = false)
    (is : ∀ collection key, route = .changeDocument collection key → changes = body) :
    DocumentStep s r changes (route.targets body) (s.perform r body route).2 := by
  cases route with
  | insertDocument collection => exact insertDocument_step s r collection body changes
  | changeDocument collection key =>
      cases is collection key rfl
      exact changeDocument_step s r collection key body
  | removeDocument collection key => exact removeDocument_step s r collection key changes
  | openCursor => exact openCursor_step s r body changes
  | readCursor id => exact .idle (readCursor_same s id)
  | showDocument collection key =>
      apply DocumentStep.idle
      change SameData s (s.showDocument r collection key).2
      unfold showDocument
      split <;> exact SameData.refl s
  | beginTransaction => cases within
  | commitTransaction id => cases within
  | abortTransaction id => cases within
  | _ => cases noChange

theorem documentStep_perform {s : Store} {r : Request} {body : Json} {route : Route}
    (noChange : route.change? r body = none) (within : route.isTransactional = false) :
    DocumentStep s r body (route.targets body) (s.perform r body route).2 :=
  documentStep_perform_of noChange within fun _ _ _ => rfl

end Store

end DocStore
