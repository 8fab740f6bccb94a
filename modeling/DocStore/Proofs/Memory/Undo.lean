/-
Module: DocStore.Proofs.Memory.Undo
Purpose: what taking writes back does to the documents of a collection, and that it undoes
  each write, up to the order of the documents.
Main exports:
  Undo.onDocuments, takenBack, Database.documentsOf_undoAll_eq, takenBack_perm,
  DocumentWrite.Undone, DocumentWrite.undone_of_fits
-/
import DocStore.Proofs.Memory.Keys
import DocStore.Proofs.Memory.Untouched

namespace DocStore

/-- The documents without a key. -/
def without (key : String) (documents : List Document) : List Document :=
  documents.filter fun d => !d.hasKey key

theorem without_eq_self {key : String} {documents : List Document}
    (absent : ∀ d ∈ documents, d.value "_key" ≠ .str key) : without key documents = documents := by
  apply List.filter_eq_self.mpr
  intro d member
  rw [Bool.not_eq_true', Bool.eq_false_iff]
  intro has
  exact absent d member ((d.hasKey_iff key).mp has)

theorem key_ne_of_mem_without {key : String} {documents : List Document} {d : Document}
    (member : d ∈ without key documents) : d.value "_key" ≠ .str key := by
  intro same
  have lacks := (List.mem_filter.mp member).2
  rw [(d.hasKey_iff key).mpr same] at lacks
  cases lacks

theorem key_of_find? {key : String} {documents : List Document} {d : Document}
    (found : documents.find? (fun d => d.hasKey key) = some d) : d.value "_key" = .str key := by
  have has := List.find?_some found
  exact (d.hasKey_iff key).mp has

namespace DistinctKeys

variable {documents others : List Document} {key : String}

theorem perm (keys : DistinctKeys documents) (same : documents.Perm others) :
    DistinctKeys others :=
  ⟨fun d member => keys.keyed d (same.mem_iff.mpr member),
    keys.distinct.perm same fun differ => differ.symm⟩

theorem tail {d : Document} (keys : DistinctKeys (d :: documents)) : DistinctKeys documents :=
  keys.sublist (List.sublist_cons_self d documents)

/-- The key of the first document belongs to no other one. -/
theorem key_ne_of_mem {d : Document} (keys : DistinctKeys (d :: documents))
    (own : d.value "_key" = .str key) : ∀ e ∈ documents, e.value "_key" ≠ .str key := by
  intro e member same
  exact (List.pairwise_cons.mp keys.distinct).1 e member (own.trans same.symm)

/-- A document takes the place of the one with its key. -/
theorem cons_without {d : Document} (keys : DistinctKeys documents)
    (own : d.value "_key" = .str key) : DistinctKeys (d :: without key documents) := by
  have rest : DistinctKeys (without key documents) := keys.sublist List.filter_sublist
  constructor
  · intro e member
    rcases List.mem_cons.mp member with rfl | inRest
    · exact ⟨key, own⟩
    · exact rest.keyed e inRest
  · apply List.pairwise_cons.mpr
    refine ⟨fun e member same => ?_, rest.distinct⟩
    exact key_ne_of_mem_without member (same.symm.trans own)

theorem without_cons_of_key {d : Document} (keys : DistinctKeys (d :: documents))
    (own : d.value "_key" = .str key) : without key (d :: documents) = documents := by
  have has := (d.hasKey_iff key).mpr own
  unfold without
  rw [List.filter_cons_of_neg (by simp [has])]
  exact without_eq_self (keys.key_ne_of_mem own)

theorem without_cons_of_ne {d : Document} (other : d.hasKey key = false) :
    without key (d :: documents) = d :: without key documents :=
  List.filter_cons_of_pos (by simp [other])

/-- The documents are the one with a key, and the others. -/
theorem perm_cons_without (keys : DistinctKeys documents) {d : Document}
    (found : documents.find? (·.hasKey key) = some d) :
    documents.Perm (d :: without key documents) := by
  induction documents with
  | nil => cases found
  | cons head rest inductionHypothesis =>
      cases has : head.hasKey key with
      | true =>
          simp only [List.find?_cons, has] at found
          cases found
          rw [keys.without_cons_of_key ((d.hasKey_iff key).mp has)]
      | false =>
          simp only [List.find?_cons, has] at found
          rw [without_cons_of_ne has]
          exact ((inductionHypothesis keys.tail found).cons head).trans (List.Perm.swap _ _ _)

/-- To replace the document with a key is to put another one before the others. -/
theorem replaceFirst_perm (keys : DistinctKeys documents)
    (present : (documents.any (·.hasKey key)) = true) (new : Document) :
    (replaceFirstDocument (·.hasKey key) new documents).Perm (new :: without key documents) := by
  induction documents with
  | nil => cases present
  | cons head rest inductionHypothesis =>
      unfold replaceFirstDocument
      cases has : head.hasKey key with
      | true =>
          rw [if_pos rfl, keys.without_cons_of_key ((head.hasKey_iff key).mp has)]
      | false =>
          rw [if_neg Bool.false_ne_true, without_cons_of_ne has]
          rw [List.any_cons, has, Bool.false_or] at present
          exact ((inductionHypothesis keys.tail present).cons head).trans (List.Perm.swap _ _ _)

theorem eraseP_eq_without (keys : DistinctKeys documents) :
    documents.eraseP (·.hasKey key) = without key documents := by
  induction documents with
  | nil => rfl
  | cons head rest inductionHypothesis =>
      cases has : head.hasKey key with
      | true =>
          simp only [List.eraseP_cons, has, cond_true]
          rw [keys.without_cons_of_key ((head.hasKey_iff key).mp has)]
      | false =>
          simp only [List.eraseP_cons, has, cond_false]
          rw [without_cons_of_ne has, inductionHypothesis keys.tail]

end DistinctKeys

/-! ### Taking back -/

/-- The documents after a document is put back. -/
def restored (old : Document) (documents : List Document) : List Document :=
  if documents.any fun d => d.value "_key" == old.value "_key" then
    replaceFirstDocument (fun d => d.value "_key" == old.value "_key") old documents
  else documents ++ [old]

theorem sameKey_eq {old : Document} {key : String} (own : old.value "_key" = .str key) :
    (fun d : Document => d.value "_key" == old.value "_key") = fun d => d.hasKey key := by
  funext d
  rw [own, Bool.eq_iff_iff, Document.hasKey_iff]
  change Json.same (d.value "_key") (.str key) = true ↔ _
  cases d.value "_key" <;> simp [Json.same]

theorem restored_perm {old : Document} {key : String} {documents : List Document}
    (keys : DistinctKeys documents) (own : old.value "_key" = .str key) :
    (restored old documents).Perm (old :: without key documents) := by
  unfold restored
  rw [sameKey_eq own]
  cases present : documents.any (·.hasKey key) with
  | true => exact keys.replaceFirst_perm present old
  | false =>
      have absent : ∀ d ∈ documents, d.value "_key" ≠ .str key := by
        intro d member same
        exact List.any_eq_false.mp present d member ((d.hasKey_iff key).mpr same)
      rw [if_neg Bool.false_ne_true, without_eq_self absent]
      exact List.perm_append_singleton old documents

namespace Undo

/-- What taking a write back does to the documents of a collection. -/
def onDocuments (name : String) (documents : List Document) : Undo → List Document
  | remove collection key => if collection = name then without key documents else documents
  | restore collection d => if collection = name then restored d documents else documents

/-- A document that is put back has a key. -/
def Keyed : Undo → Prop
  | remove .. => True
  | restore _ d => ∃ key, d.value "_key" = .str key

theorem onDocuments_of_ne {u : Undo} {name : String} (other : u.collection ≠ name)
    (documents : List Document) : u.onDocuments name documents = documents := by
  cases u with
  | remove collection key => exact if_neg other
  | restore collection d => exact if_neg other

/-- The order of the documents does not matter, and their keys stay distinct. -/
theorem onDocuments_perm {u : Undo} {name : String} (keyed : u.collection = name → u.Keyed)
    {documents others : List Document} (keys : DistinctKeys documents)
    (same : documents.Perm others) :
    (u.onDocuments name documents).Perm (u.onDocuments name others) ∧
      DistinctKeys (u.onDocuments name documents) := by
  cases u with
  | remove collection key =>
      simp only [onDocuments]
      split
      · exact ⟨same.filter _, keys.sublist List.filter_sublist⟩
      · exact ⟨same, keys⟩
  | restore collection d =>
      simp only [onDocuments]
      split
      · next here =>
          obtain ⟨key, own⟩ := keyed here
          have first := restored_perm keys own
          have second := restored_perm (keys.perm same) own
          have middle : (d :: without key documents).Perm (d :: without key others) :=
            (same.filter _).cons d
          exact ⟨first.trans (middle.trans second.symm),
            (keys.cons_without own).perm first.symm⟩
      · exact ⟨same, keys⟩

end Undo

/-- The documents of a collection after writes are taken back, one after the other. -/
def takenBack (name : String) (undos : List Undo) (documents : List Document) : List Document :=
  undos.foldl (fun documents u => u.onDocuments name documents) documents

theorem takenBack_append (name : String) (first second : List Undo) (documents : List Document) :
    takenBack name (first ++ second) documents =
      takenBack name second (takenBack name first documents) :=
  List.foldl_append

theorem takenBack_of_ne {name : String} {undos : List Undo}
    (others : ∀ u ∈ undos, u.collection ≠ name) (documents : List Document) :
    takenBack name undos documents = documents := by
  induction undos generalizing documents with
  | nil => rfl
  | cons u rest inductionHypothesis =>
      have first := u.onDocuments_of_ne (others u List.mem_cons_self) documents
      unfold takenBack at inductionHypothesis ⊢
      rw [List.foldl_cons, first]
      exact inductionHypothesis (fun v member => others v (List.mem_cons_of_mem _ member))
        documents

theorem takenBack_perm {undos : List Undo} {name : String}
    (keyed : ∀ u ∈ undos, u.collection = name → u.Keyed) {documents others : List Document}
    (keys : DistinctKeys documents) (same : documents.Perm others) :
    (takenBack name undos documents).Perm (takenBack name undos others) := by
  induction undos generalizing documents others with
  | nil => exact same
  | cons u rest inductionHypothesis =>
      obtain ⟨next, distinct⟩ := u.onDocuments_perm (keyed u List.mem_cons_self) keys same
      exact inductionHypothesis (fun v member => keyed v (List.mem_cons_of_mem _ member))
        distinct next

namespace Database

/-- A change of one collection that concerns its documents only by way of a function of
them. -/
theorem documentsOf_modifyCollection (db : Database) (collection : String)
    {f : StoredCollection → StoredCollection} {g : List Document → List Document}
    (acts : ∀ c, (f c).documents = g c.documents) (name : String) :
    (db.modifyCollection collection f).documentsOf name =
      (db.documentsOf name).map fun documents =>
        if collection = name then g documents else documents := by
  unfold documentsOf modifyCollection
  rw [Dict.get?_modify]
  by_cases own : collection = name
  · subst own
    rw [if_pos rfl, Option.map_map, Option.map_map]
    congr 1
    funext c
    simp [acts]
  · rw [if_neg fun same => own same.symm]
    cases db.collections.get? name <;> simp [own]

theorem documentsOf_undo_eq (db : Database) (u : Undo) (name : String) :
    (db.undo u).documentsOf name = (db.documentsOf name).map fun documents =>
      u.onDocuments name documents := by
  cases u with
  | remove collection key => exact documentsOf_modifyCollection db collection (fun _ => rfl) name
  | restore collection d => exact documentsOf_modifyCollection db collection (fun _ => rfl) name

theorem documentsOf_undoAll_eq (db : Database) (undos : List Undo) (name : String) :
    (undos.foldl Database.undo db).documentsOf name =
      (db.documentsOf name).map (takenBack name undos) := by
  induction undos generalizing db with
  | nil => exact Option.map_id'.symm
  | cons u rest inductionHypothesis =>
      rw [List.foldl_cons, inductionHypothesis, documentsOf_undo_eq, Option.map_map]
      rfl

end Database

/-! ### Each write -/

theorem value_key_changed {old : Document} {changes : Json} (revision : String)
    (unkeyed : (changes.members?.getD {}).get? "_key" = none) :
    Document.value (StoredCollection.changed old revision changes) "_key" = old.value "_key" := by
  cases changes with
  | obj members =>
      have absent : members.get? "_key" = none := unkeyed
      change ((Dict.insert (old.merge members) "_rev" (.str revision)).get? "_key").getD .null = _
      rw [Dict.get?_insert_of_ne _ _ (by decide), Dict.get?_merge_of_none _ absent]
      rfl
  | _ => rfl

/-- Documents that are put back in the opposite order of their removal. -/
theorem takenBack_restore_perm (name : String) {found others documents : List Document}
    (keys : DistinctKeys (found ++ others)) (same : documents.Perm others) :
    (takenBack name (found.map (.restore name)).reverse documents).Perm (found ++ others) := by
  induction found with
  | nil => exact same
  | cons d rest inductionHypothesis =>
      have before := inductionHypothesis keys.tail
      have distinct := keys.tail.perm before.symm
      obtain ⟨key, own⟩ := keys.keyed d List.mem_cons_self
      have apart : without key (rest ++ others) = rest ++ others :=
        without_eq_self (keys.key_ne_of_mem own)
      rw [List.map_cons, List.reverse_cons, takenBack_append]
      change (if name = name then restored d _ else _).Perm _
      rw [if_pos rfl]
      have back := restored_perm distinct own
      have cleared : (without key (takenBack name (rest.map (.restore name)).reverse
          documents)).Perm (without key (rest ++ others)) := before.filter _
      rw [apart] at cleared
      exact back.trans (cleared.cons d)

namespace DocumentWrite

variable {w : DocumentWrite} {c : StoredCollection} {changes : Json}

/-- What is removed by key are the documents that were found. -/
theorem removeAll_perm {found others : List Document} (keys : DistinctKeys c.documents)
    (split : (found ++ others).Perm c.documents) :
    (c.removeAll found).documents.Perm others := by
  have distinct := keys.perm split.symm
  have first : found.filter (fun d => !(found.any fun f => f.value "_key" == d.value "_key")) =
      [] := by
    apply List.filter_eq_nil_iff.mpr
    intro d member lacks
    rw [Bool.not_eq_true', List.any_eq_false] at lacks
    exact lacks d member (distinct.same_self (List.mem_append_left others member))
  have second : others.filter (fun d => !(found.any fun f => f.value "_key" == d.value "_key")) =
      others := by
    apply List.filter_eq_self.mpr
    intro d member
    rw [Bool.not_eq_true', List.any_eq_false]
    intro f inFound same
    obtain ⟨_, _, apart⟩ := List.pairwise_append.mp distinct.distinct
    apply apart f inFound d member
    rw [distinct.eq_of_same (List.mem_append_left others inFound)
      (List.mem_append_right found member) same]
  have kept := (split.filter fun d => !(found.any fun f => f.value "_key" == d.value "_key")).symm
  rw [List.filter_append, first, second, List.nil_append] at kept
  exact kept

/-- What a write noted takes it back: the keys of the documents are distinct after the
write too, and the documents that taking it back leads to are those from before, up to
their order. -/
structure Undone (c : StoredCollection) (name : String) (w : DocumentWrite) : Prop where
  distinct : DistinctKeys (w.apply c).documents
  keyed : ∀ u ∈ w.undos name, u.Keyed
  perm : (takenBack name (w.undos name).reverse (w.apply c).documents).Perm c.documents

theorem undone_insert {key : String} {d : Document} (keys : DistinctKeys c.documents)
    (free : c.document? key = none) (own : d.value "_key" = .str key) (name : String) :
    (insert key d).Undone c name := by
  have absent : ∀ e ∈ c.documents, e.value "_key" ≠ .str key := by
    intro e member same
    exact List.find?_eq_none.mp free e member ((e.hasKey_iff key).mpr same)
  have front := keys.cons_without own
  rw [without_eq_self absent] at front
  have only : without key [d] = [] := by simp [without, (d.hasKey_iff key).mpr own]
  constructor
  · exact front.perm (List.perm_append_singleton d c.documents).symm
  · intro u member
    cases List.mem_singleton.mp member
    trivial
  · change (if name = name then without key (c.documents ++ [d]) else _).Perm _
    rw [if_pos rfl, without, List.filter_append]
    change (without key c.documents ++ without key [d]).Perm _
    rw [without_eq_self absent, only, List.append_nil]

theorem undone_change {key : String} {old : Document} (keys : DistinctKeys c.documents)
    (found : c.document? key = some old) (unkeyed : (changes.members?.getD {}).get? "_key" = none)
    (revision name : String) :
    (change key old (StoredCollection.changed old revision changes)).Undone c name := by
  have oldKey := key_of_find? found
  have newKey := (value_key_changed revision unkeyed).trans oldKey
  have present : c.documents.any (·.hasKey key) = true :=
    List.any_eq_true.mpr ⟨old, List.mem_of_find?_eq_some found, (old.hasKey_iff key).mpr oldKey⟩
  have replaced := keys.replaceFirst_perm present (StoredCollection.changed old revision changes)
  have distinct := (keys.cons_without newKey).perm replaced.symm
  constructor
  · exact distinct
  · intro u member
    cases List.mem_singleton.mp member
    exact ⟨key, oldKey⟩
  · change (if name = name then restored old _ else _).Perm _
    rw [if_pos rfl]
    have others : (without key (replaceFirstDocument (·.hasKey key)
        (StoredCollection.changed old revision changes) c.documents)).Perm
          (without key (StoredCollection.changed old revision changes ::
            without key c.documents)) := replaced.filter _
    rw [(keys.cons_without newKey).without_cons_of_key newKey] at others
    exact (restored_perm distinct oldKey).trans
      ((others.cons old).trans (keys.perm_cons_without found).symm)

theorem undone_remove {key : String} {old : Document} (keys : DistinctKeys c.documents)
    (found : c.document? key = some old) (name : String) : (remove key old).Undone c name := by
  have oldKey := key_of_find? found
  have removed : (c.removeDocument key).documents = without key c.documents :=
    keys.eraseP_eq_without
  have distinct : DistinctKeys (without key c.documents) := keys.sublist List.filter_sublist
  constructor
  · change DistinctKeys (c.removeDocument key).documents
    rw [removed]
    exact distinct
  · intro u member
    cases List.mem_singleton.mp member
    exact ⟨key, oldKey⟩
  · change (if name = name then restored old (c.removeDocument key).documents else _).Perm _
    rw [if_pos rfl, removed]
    have again : without key (without key c.documents) = without key c.documents :=
      without_eq_self fun _ => key_ne_of_mem_without
    have back := restored_perm distinct oldKey
    rw [again] at back
    exact back.trans (keys.perm_cons_without found).symm

theorem undone_removeAll {found others : List Document} (keys : DistinctKeys c.documents)
    (split : (found ++ others).Perm c.documents) (name : String) :
    (removeAll found).Undone c name := by
  have removed := removeAll_perm keys split
  have distinct := keys.perm split.symm
  constructor
  · exact keys.sublist List.filter_sublist
  · intro u member
    obtain ⟨d, inFound, rfl⟩ := List.mem_map.mp member
    exact distinct.keyed d (List.mem_append_left others inFound)
  · exact (takenBack_restore_perm name distinct removed).trans split

/-- Every write that fits a collection is taken back by what it notes, if changes are not
about keys. -/
theorem undone_of_fits (keys : DistinctKeys c.documents) (fits : w.Fits changes c)
    (unkeyed : (changes.members?.getD {}).get? "_key" = none) (name : String) :
    w.Undone c name := by
  cases w with
  | insert key d => exact undone_insert keys fits.1 fits.2 name
  | change key old new =>
      obtain ⟨found, revision, rfl⟩ := fits
      exact undone_change keys found unkeyed revision name
  | remove key old => exact undone_remove keys fits name
  | removeAll found =>
      obtain ⟨others, split⟩ := fits
      exact undone_removeAll keys split name

end DocumentWrite

end DocStore
