/-
Module: DocStore.Proofs.Memory.Rewriting
Purpose: requests that change or remove a document that is there, and what they leave alone.
Main exports:
  Store.MayWrite, Store.Wrote, StandsFor, Store.performed_of_ends_request,
  Store.ends_changeDocument, Store.ends_removeDocument
-/
import DocStore.Proofs.Memory.Keys
import DocStore.Proofs.Memory.Untouched

namespace DocStore

open Exchange

/-- A collection with other documents. -/
def StoredCollection.holding (c : StoredCollection) (documents : List Document) :
    StoredCollection :=
  { c with documents }

namespace Store

variable {s s' : Store} {r : Request} {database collection : String} {c : StoredCollection}
  {t : Option Transaction}

/-- The transaction of a handle, if there is one, is open and has declared that it writes to
a collection. -/
def MayWrite (s : Store) (t : Option Transaction) (collection : String) : Prop :=
  ∀ handle ∈ t, ∃ o, s.transactions.get? handle.id = some o ∧ o.write.contains collection = true

/-- A collection is put in the place of the one of its name.  The documents of all others
are left, and transactions may write where they could before. -/
structure Wrote (s : Store) (database collection : String) (c : StoredCollection) (s' : Store) :
    Prop where
  home_eq : s'.home = s.home
  stored : (s'.database database).collections.get? collection = some c
  others : ∀ other name, (other, name) ≠ (database, collection) →
    s'.documentsOf other name = s.documentsOf other name
  permits : ∀ t name, s.MayWrite t name → s'.MayWrite t name

theorem MayWrite.opened (permitted : s.MayWrite t collection) : s.Opened t := by
  intro handle member
  obtain ⟨o, found, _⟩ := permitted handle member
  rw [Dict.contains_eq, found]
  rfl

theorem MayWrite.permitWrite (permitted : s.MayWrite t collection)
    (inside : r.transaction = t.map (·.id)) : s.permitWrite r collection = .ok () := by
  unfold Store.permitWrite
  rw [inside]
  cases t with
  | none => rfl
  | some handle =>
      obtain ⟨o, found, declared⟩ := permitted handle rfl
      simp only [Option.map_some, Option.bind_some, found, declared, if_true]

/-- A request that is served and permitted to write is of a transaction that may. -/
theorem mayWrite_of_permitted (inside : r.transaction = t.map (·.id))
    (known : s.knowsTransaction r = .ok ()) (permitted : s.permitWrite r collection = .ok ()) :
    s.MayWrite t collection := by
  intro handle member
  have isOpen := opened_of_knows inside known handle member
  cases member
  rw [Dict.contains_eq, Option.isSome_iff_exists] at isOpen
  obtain ⟨o, found⟩ := isOpen
  refine ⟨o, found, ?_⟩
  simp only [Store.permitWrite, inside, Option.map_some, Option.bind_some, found] at permitted
  split at permitted
  · next declared => exact declared
  · cases permitted

/-- What putting a collection in place leads to, with notes and other bookkeeping. -/
theorem wrote_putCollection {s₀ : Store} (same₀ : SameData s s₀) (undos : List Undo)
    (same : SameData ((s₀.putCollection database collection c).noteUndos r undos) s') :
    s.Wrote database collection c s' where
  home_eq := (same.onward.home_eq.trans (onward_noteUndos _ _ _).home_eq).trans same₀.home_eq
  stored := by
    rw [same.database_eq, Store.database, databases_noteUndos]
    change ((s₀.putCollection database collection c).database database).collections.get?
      collection = _
    rw [putCollection, database_putDatabase_self, Database.putCollection, Dict.get?_insert_self]
  others other name apart := by
    rw [same.documentsOf_eq, documentsOf_noteUndos, putCollection, ← same₀.documentsOf_eq]
    by_cases here : other = database
    · subst here
      have different : name ≠ collection := fun own => apart (by rw [own])
      rw [documentsOf, database_putDatabase_self,
        Database.documentsOf_putCollection_of_ne _ _ different, documentsOf]
    · exact documentsOf_putDatabase_of_ne s₀ _ here name
  -- To note what to undo replaces the transaction, with the same declared collections.
  permits t name permitted handle member := by
    obtain ⟨o, found, declared⟩ := permitted handle member
    have kept : (s₀.putCollection database collection c).transactions.get? handle.id =
        some o := by
      change s₀.transactions.get? handle.id = some o
      rw [same₀.transactions_eq]
      exact found
    rw [same.transactions_eq, transaction_noteUndos, kept]
    split
    · exact ⟨_, rfl, declared⟩
    · exact ⟨o, rfl, declared⟩

/-- What a write to the documents of a collection leads to. -/
theorem wrote_of_documentWrite {w : DocumentWrite} {s₀ : Store} (same₀ : SameData s s₀)
    (same : SameData ((s₀.putCollection database collection (w.apply c)).noteUndos r
      (w.undos collection)) s') :
    s.Wrote database collection (w.apply c) s' :=
  wrote_putCollection same₀ (w.undos collection) same

/-- To insert a document is to leave all data, or to put it behind the others, with what it
was given. -/
theorem insertDocument_wrote (s : Store) (r : Request) (collection : String) (body : Json) :
    SameData s (s.insertDocument r collection body).2 ∨
      ∃ fields c d, body = .obj fields ∧
        (s.database (s.databaseOf r)).collections.get? collection = some c ∧
        (∀ label, label ∉ ["_key", "_id", "_rev"] →
          d.value label = Document.value fields label) ∧
        s.Wrote (s.databaseOf r) collection (c.holding (c.documents ++ [d]))
          (s.insertDocument r collection body).2 := by
  unfold insertDocument
  split
  · exact Or.inl (SameData.refl s)
  · exact Or.inl (SameData.refl s)
  · next fields object permitted =>
      have given : body = .obj fields := Database.objectBody_eq_ok_iff.mp object
      have noted := sameData_takeRevision s
      dsimp only
      split
      · exact Or.inl noted
      · next c stored =>
          have kept := noted.trans (sameData_keyFor s.takeRevision.2 fields)
          split
          · exact Or.inl kept
          · next d new inserted =>
              obtain ⟨rfl, _, _, values⟩ := insertDocument_documents inserted
              exact Or.inr ⟨fields, c, d, given, Database.collection_eq_ok_iff.mp stored, values,
                wrote_of_documentWrite (w := .insert _ d) (r := r) kept (SameData.refl _)⟩

/-- To change a document is to leave all data, or to overwrite attributes of one that is
there. -/
theorem changeDocument_wrote (s : Store) (r : Request) (collection key : String) (body : Json) :
    SameData s (s.changeDocument r collection key body).2 ∨
      ∃ c d revision, (s.database (s.databaseOf r)).collections.get? collection = some c ∧
        c.document? key = some d ∧
        s.Wrote (s.databaseOf r) collection
          (c.changeDocument key (StoredCollection.changed d revision body))
          (s.changeDocument r collection key body).2 := by
  unfold changeDocument
  split
  · exact Or.inl (SameData.refl s)
  · have noted := sameData_takeRevision s
    dsimp only
    split
    · exact Or.inl noted
    · next c d found =>
        obtain ⟨stored, is⟩ := findDocument_eq_ok found
        exact Or.inr ⟨c, d, s.takeRevision.1, stored, is,
          wrote_of_documentWrite (w := .change key d _) (r := r) noted (SameData.refl _)⟩

/-- To remove a document is to leave all data, or to take away one that is there. -/
theorem removeDocument_wrote (s : Store) (r : Request) (collection key : String) :
    SameData s (s.removeDocument r collection key).2 ∨
      ∃ c, (s.database (s.databaseOf r)).collections.get? collection = some c ∧
        s.Wrote (s.databaseOf r) collection (c.removeDocument key)
          (s.removeDocument r collection key).2 := by
  unfold removeDocument
  split
  · exact Or.inl (SameData.refl s)
  · dsimp only
    split
    · exact Or.inl (SameData.refl s)
    · next c d found =>
        obtain ⟨stored, _⟩ := findDocument_eq_ok found
        exact Or.inr ⟨c, stored,
          wrote_of_documentWrite (w := .remove key d) (r := r) (SameData.refl s)
            (SameData.refl _)⟩

/-- What changing a document that is there leads to. -/
theorem changeDocument_eq {key : String} {body : Json} {d : Document}
    (permitted : s.permitWrite r collection = .ok ())
    (stored : (s.database (s.databaseOf r)).collections.get? collection = some c)
    (found : c.document? key = some d) :
    s.changeDocument r collection key body =
      (.ok (answered 202 (.obj
        ((Dict.ofList (StoredCollection.header (StoredCollection.changed d s.takeRevision.1
          body))).insert "new" (.obj (StoredCollection.changed d s.takeRevision.1 body))))),
        (s.takeRevision.2.putCollection (s.databaseOf r) collection
          (c.changeDocument key (StoredCollection.changed d s.takeRevision.1 body))).noteUndo r
            (.restore collection d)) := by
  have whole : (s.takeRevision.2.database (s.databaseOf r)).collection collection = .ok c :=
    Database.collection_eq_ok_iff.mpr stored
  simp only [changeDocument, permitted, findDocument, whole, found, Bind.bind, Except.bind]

end Store

/-- A key stands for a document: it is the first one that has it, and has others in front
of it and behind it. -/
structure StandsFor (key : String) (before : List Document) (d : Document) : Prop where
  keyed : d.value "_key" = .str key
  first : ∀ other ∈ before, other.hasKey key = false

namespace StandsFor

variable {key : String} {before after : List Document} {d : Document} {c : StoredCollection}

theorem document?_eq (stands : StandsFor key before d) :
    (c.holding (before ++ d :: after)).document? key = some d := by
  have absent : before.find? (·.hasKey key) = none :=
    List.find?_eq_none.mpr fun other member => by simp [stands.first other member]
  change (before ++ d :: after).find? _ = _
  rw [List.find?_append, absent, Option.none_or]
  exact List.find?_cons_of_pos ((Document.hasKey_iff d key).mpr stands.keyed)

theorem replaceFirstDocument_eq (stands : StandsFor key before d) (new : Document) :
    replaceFirstDocument (·.hasKey key) new (before ++ d :: after) = before ++ new :: after := by
  obtain ⟨keyed, first⟩ := stands
  induction before with
  | nil =>
      rw [List.nil_append, replaceFirstDocument, if_pos ((Document.hasKey_iff d key).mpr keyed)]
      rfl
  | cons other rest inductionHypothesis =>
      rw [List.forall_mem_cons] at first
      rw [List.cons_append, replaceFirstDocument, if_neg (by simp [first.1]),
        inductionHypothesis first.2]
      rfl

theorem eraseP_eq (stands : StandsFor key before d) :
    (before ++ d :: after).eraseP (·.hasKey key) = before ++ after := by
  rw [List.eraseP_append_right _ fun other member => by simp [stands.first other member]]
  exact congrArg (before ++ ·)
    (List.eraseP_cons_of_pos ((Document.hasKey_iff d key).mpr stands.keyed))

/-- Changes that leave the key alone leave what it stands for. -/
theorem changed (stands : StandsFor key before d) {changes : Dict Json} (revision : String)
    (unkeyed : changes.get? "_key" = none) :
    StandsFor key before (StoredCollection.changed d revision (.obj changes)) where
  keyed := by
    have kept : (d.merge changes).get? "_key" = d.get? "_key" := Dict.get?_merge_of_none d unkeyed
    rw [StoredCollection.changed, Document.value, Dict.get?_insert_of_ne _ _ (by decide), kept]
    exact stands.keyed
  first := stands.first

end StandsFor

theorem result_changed (d : Document) :
    (answered 202 (.obj ((Dict.ofList (StoredCollection.header d)).insert "new" (.obj d)))).result =
      .ok (.obj ((Dict.ofList (StoredCollection.header d)).insert "new" (.obj d))) := by
  apply Response.result_answered (by decide)
  rw [Json.field, Json.get?, Dict.get?_insert_of_ne _ _ (by decide), field_error_header]
  rintro ⟨⟩

namespace Store

variable {s : Store} {r : Request} {collection key : String} {c : StoredCollection} {d : Document}

/-- A request that has a value was served. -/
theorem performed_of_ends_request {s' : Store} {shown : Json}
    (ends : (Exchange.request r).Ends Store.server s (.ok shown) s') :
    ∃ route response, Route.of? r = some route ∧ s.knowsTransaction r = .ok () ∧
      (s.noteRequest r).perform r (r.body.getD .null) route = (.ok response, s') ∧
      response.result = .ok shown := by
  obtain ⟨outcome, reached⟩ := ends_request_iff.mp ends
  rcases answer_cases s r with ⟨refusal, refused⟩ | ⟨route, routed, known, answered⟩
  · rw [refused] at outcome
    cases outcome.trans (Response.result_refusal refusal)
  · rw [answered] at outcome reached
    cases performed : (s.noteRequest r).perform r (r.body.getD .null) route with
    | mk given s₁ =>
        rw [performed] at outcome reached
        subst reached
        cases given with
        | error refusal => cases outcome.trans (Response.result_refusal refusal)
        | ok response => exact ⟨route, response, routed, known, performed, outcome.symm⟩

/-- A request to change a document that is there shows the document as it is then. -/
theorem ends_changeDocument {changes : Json} (known : s.knowsTransaction r = .ok ())
    (routed : Route.of? r = some (.changeDocument collection key))
    (body : r.body.getD .null = changes) (permitted : s.permitWrite r collection = .ok ())
    (stored : (s.database (s.databaseOf r)).collections.get? collection = some c)
    (found : c.document? key = some d) :
    ∃ revision s', (Exchange.request r).Ends Store.server s
        (.ok (.obj ((Dict.ofList (StoredCollection.header
          (StoredCollection.changed d revision changes))).insert "new"
            (.obj (StoredCollection.changed d revision changes))))) s' ∧
      s.Wrote (s.databaseOf r) collection
        (c.changeDocument key (StoredCollection.changed d revision changes)) s' := by
  have noted := sameData_noteRequest s r
  have answers := answer_of_route known routed
  rw [body, perform, changeDocument_eq ((noted.permitWrite_eq r _).trans permitted)
    stored found] at answers
  refine ⟨(s.noteRequest r).takeRevision.1, _, ?_, wrote_of_documentWrite
    (w := .change key d (StoredCollection.changed d _ changes)) (r := r)
    (noted.trans (sameData_takeRevision _)) (SameData.refl _)⟩
  rw [Exchange.ends_request_iff, answers]
  exact ⟨(result_changed _).symm, rfl⟩

/-- A request to remove a document that is there succeeds. -/
theorem ends_removeDocument (known : s.knowsTransaction r = .ok ())
    (routed : Route.of? r = some (.removeDocument collection key))
    (permitted : s.permitWrite r collection = .ok ())
    (stored : (s.database (s.databaseOf r)).collections.get? collection = some c)
    (found : c.document? key = some d) :
    ∃ s', (Exchange.command r).Ends Store.server s (.ok ()) s' ∧
      s.Wrote (s.databaseOf r) collection (c.removeDocument key) s' := by
  have noted := sameData_noteRequest s r
  have answers := answer_of_route known routed
  rw [perform, removeDocument_eq ((noted.permitWrite_eq r _).trans permitted)
    stored found] at answers
  refine ⟨_, ?_, wrote_of_documentWrite (w := .remove key d) (r := r) noted (SameData.refl _)⟩
  exact ends_command_answered answers (result_removed d)

end Store

end DocStore
