/-
Module: DocStore.Proofs.Memory.Revocable
Purpose: an open transaction whose notes lead back to the documents at its begin, up to their
  order: what its own requests and those of others keep, and its abort.
Main exports:
  Request.Within, Request.Creates, Store.Foreign, Store.Revocable, Store.Revocable.answer,
  Store.Revocable.foreign, Store.Revocable.aborted
-/
import DocStore.Proofs.Memory.Named
import DocStore.Proofs.Memory.Undo

namespace DocStore

/-! ### Requests in a transaction -/

namespace Request

/-- Whether a request belongs to a transaction, and concerns documents or queries only.
If it changes a document, it does not change its key. -/
structure Within (t : Transaction) (r : Request) : Prop where
  inside : r.transaction = some t.id
  addressed : r.database = t.database
  documental : ∀ route, Route.of? r = some route →
    route.change? r (r.body.getD .null) = none ∧ route.isTransactional = false
  unkeyed : ∀ collection key, Route.of? r = some (.changeDocument collection key) →
    ((r.body.getD .null).members?.getD {}).get? "_key" = none

/-- Whether a request can only be one to create a collection. -/
def Creates (r : Request) : Prop :=
  ∀ route, Route.of? r = some route → route = .createCollection

end Request

namespace Store

/-- What a request asks for leaves the documents of a collection alone: the collection is
not among those that it writes to, creates, drops or renames, and no writes to it are taken
back. -/
def Leaves (s : Store) (r : Request) (database name : String) : Route → Prop
  | .abortTransaction id => ∀ o, s.transactions.get? id = some o → o.database = database →
      ∀ u ∈ o.undo, u.collection ≠ name
  | route => name ∉ route.targets (r.body.getD .null) ∨ database ≠ s.databaseOf r

/-- A request of someone else, who does not name the transaction, and asks for nothing that
concerns the documents of its collections, or at least changes none of them. -/
structure Foreign (database : String) (write : List String) (id : String) (s : Store)
    (r : Request) : Prop where
  outside : r.transaction ≠ some id
  unnamed : ∀ route, Route.of? r = some route →
    route ≠ .commitTransaction id ∧ route ≠ .abortTransaction id
  leaves : ∀ name ∈ write,
    (∀ route, Route.of? r = some route → s.Leaves r database name route) ∨
      (Store.server.answer s r).2.documentsOf database name = s.documentsOf database name

variable {start s : Store} {database : Option String} {write : List String}

/-! ### Requests of others -/

theorem documentsOf_aborted {o : OpenTransaction} {r : Request} {id name : String}
    (database : String) (others : o.database = database → ∀ u ∈ o.undo, u.collection ≠ name) :
    (s.aborted r id o).documentsOf database name = s.documentsOf database name := by
  unfold aborted
  by_cases here : database = o.database
  · subst here
    rw [documentsOf, database_putDatabase_self, Database.documentsOf_undoAll (others rfl),
      documentsOf]
  · exact documentsOf_putDatabase_of_ne _ _ here name

/-- A request that leaves a collection alone leaves its documents. -/
theorem documentsOf_answer {r : Request} {database name : String}
    (leaves : ∀ route, Route.of? r = some route → s.Leaves r database name route) :
    (Store.server.answer s r).2.documentsOf database name = s.documentsOf database name := by
  have noted := (sameData_noteRequest s r).documentsOf_eq database name
  rcases answer_cases s r with ⟨_, refused⟩ | ⟨route, routed, _, answered⟩
  · rw [refused]
    exact noted
  · have own := leaves route routed
    rw [answered]
    cases within : route.isTransactional with
    | false =>
        have apart : name ∉ route.targets (r.body.getD .null) ∨ database ≠ s.databaseOf r := by
          cases route <;> first | exact own | cases within
        exact (documentsOf_perform (s := s.noteRequest r) within apart).trans noted
    | true =>
        cases route with
        | beginTransaction => exact noted
        | commitTransaction id =>
            change ((s.noteRequest r).commitTransaction id).2.documentsOf database name = _
            unfold commitTransaction
            split <;> exact noted
        | abortTransaction id =>
            change ((s.noteRequest r).abortTransaction id).2.documentsOf database name = _
            unfold abortTransaction
            cases found : (s.noteRequest r).transactions.get? id with
            | none => exact noted
            | some o => exact documentsOf_aborted database (own o found)
        | _ => cases within

/-- Another's request leaves the transaction as it is, if that was given its name already. -/
theorem Foreign.transaction_eq {r : Request} {database : String} {number : Nat}
    (foreign : s.Foreign database write (hexName number) r) (given : number ≤ s.names) :
    (Store.server.answer s r).2.transactions.get? (hexName number) =
      s.transactions.get? (hexName number) := by
  apply transaction_answer _ given
  rintro (own | commits | aborts)
  · exact foreign.outside own
  · exact (foreign.unnamed _ commits).1 rfl
  · exact (foreign.unnamed _ aborts).2 rfl

theorem Foreign.documentsOf_eq {r : Request} {database id name : String}
    (foreign : s.Foreign database write id r) (declared : name ∈ write) :
    (Store.server.answer s r).2.documentsOf database name = s.documentsOf database name := by
  rcases foreign.leaves name declared with leaves | unchanged
  · exact documentsOf_answer leaves
  · exact unchanged

/-! ### Requests that create collections -/

theorem documents_eq_documentsOf (s : Store) (database name : String) :
    s.documents (some database) name = (s.documentsOf database name).getD [] := by
  unfold documents documentsOf Database.documentsOf inspected
  rw [Option.getD_some]
  cases (s.database database).collections.get? name <;> rfl

theorem answer_create {r : Request} (creates : r.Creates) :
    SameData s (Store.server.answer s r).2 ∨
      ∃ fields name, (s.database (s.databaseOf r)).collections.get? name = none ∧
        SameData (s.putCollection (s.databaseOf r) name { properties := fields })
          (Store.server.answer s r).2 := by
  have noted := sameData_noteRequest s r
  rcases answer_cases s r with ⟨_, refused⟩ | ⟨route, routed, _, answered⟩
  · rw [refused]
    exact Or.inl noted
  · cases creates route routed
    rw [answered]
    rcases serveChange_cases (s.noteRequest r) (s.databaseOf r)
      (·.createCollection (r.body.getD .null)) with ⟨_, failed⟩ | ⟨_, db, made, put⟩
    · left
      change SameData s ((s.noteRequest r).serveChange (s.databaseOf r) _).2
      rw [failed]
      exact noted
    · right
      obtain ⟨fields, name, _, _, _, fresh, _, rfl⟩ :=
        Database.createCollection_eq_ok_iff.mp made
      refine ⟨Database.newProperties fields, name, (Database.nameTaken_eq_false_iff.mp fresh).1, ?_⟩
      change SameData _ ((s.noteRequest r).serveChange (s.databaseOf r) _).2
      rw [put]
      exact noted.putCollection _ _ _

theorem transactions_create {r : Request} (creates : r.Creates) :
    (Store.server.answer s r).2.transactions = s.transactions := by
  rcases answer_create (s := s) creates with same | ⟨_, _, _, same⟩
  · exact same.transactions_eq
  · exact same.transactions_eq

/-- A new collection is empty, and nothing else changes. -/
theorem documentsOf_create {r : Request} (creates : r.Creates) (database name : String) :
    (Store.server.answer s r).2.documentsOf database name = s.documentsOf database name ∨
      s.documentsOf database name = none ∧
        (Store.server.answer s r).2.documentsOf database name = some [] := by
  rcases answer_create (s := s) creates with same | ⟨fields, created, absent, same⟩
  · exact Or.inl (same.documentsOf_eq database name)
  · rw [same.documentsOf_eq, putCollection]
    by_cases here : database = s.databaseOf r
    · subst here
      rw [documentsOf, database_putDatabase_self]
      by_cases own : name = created
      · subst own
        right
        constructor
        · rw [documentsOf, Database.documentsOf, absent]
          rfl
        · simp [Database.documentsOf, Database.putCollection]
      · left
        rw [Database.documentsOf_putCollection_of_ne _ _ own, documentsOf]
    · exact Or.inl (documentsOf_putDatabase_of_ne _ _ here name)

/-! ### The invariant of a transaction -/

/-- The documents of the collections that were there at the start are the same, up to
their order. -/
structure Restored (start : Store) (database : Option String) (write : List String) (s : Store) :
    Prop where
  home_eq : s.home = start.home
  documents : ∀ name ∈ write, ∀ before, start.documentsOf (database.getD start.home) name =
    some before → ∃ now, s.documentsOf (database.getD start.home) name = some now ∧
      now.Perm before

/-- The notes of a transaction concern its collections, and taking back what they say leads
to the documents from the start, up to their order. -/
structure LeadsBack (start : Store) (database : Option String) (write : List String) (s : Store)
    (o : OpenTransaction) : Prop where
  database_eq : o.database = database.getD start.home
  write_eq : o.write = write
  declared : ∀ u ∈ o.undo, u.collection ∈ write
  documents : ∀ name ∈ write, ∀ before, start.documentsOf (database.getD start.home) name =
    some before → ∃ now, s.documentsOf (database.getD start.home) name = some now ∧
      DistinctKeys now ∧ (∀ u ∈ o.undo, u.collection = name → u.Keyed) ∧
      (takenBack name o.undo now).Perm before

/-- After a write that is noted, the notes lead back from what it led to. -/
theorem LeadsBack.wrote {o : OpenTransaction} {collection : String} {c : StoredCollection}
    {w : DocumentWrite} {changes : Json} (leads : LeadsBack start database write s o)
    (declared : collection ∈ write)
    (stored : (s.database (database.getD start.home)).collections.get? collection = some c)
    (fits : w.Fits changes c) (unkeyed : (changes.members?.getD {}).get? "_key" = none) :
    LeadsBack start database write
      (s.putCollection (database.getD start.home) collection (w.apply c))
      { o with undo := (w.undos collection).reverse ++ o.undo } where
  database_eq := leads.database_eq
  write_eq := leads.write_eq
  declared u member := by
    rcases List.mem_append.mp member with new | old
    · rw [w.collection_of_mem_undos (List.mem_reverse.mp new)]
      exact declared
    · exact leads.declared u old
  documents name member before isBefore := by
    obtain ⟨now, here, keys, keyed, perm⟩ := leads.documents name member before isBefore
    by_cases own : name = collection
    · subst own
      have same : now = c.documents := by
        rw [documentsOf, Database.documentsOf, stored] at here
        exact (Option.some.inj here).symm
      subst same
      have undone := DocumentWrite.undone_of_fits keys fits unkeyed name
      refine ⟨(w.apply c).documents, ?_, undone.distinct, ?_, ?_⟩
      · rw [putCollection, documentsOf, database_putDatabase_self]
        simp [Database.documentsOf, Database.putCollection]
      · intro u inNotes isAbout
        rcases List.mem_append.mp inNotes with new | old
        · exact undone.keyed u (List.mem_reverse.mp new)
        · exact keyed u old isAbout
      · change (takenBack name ((w.undos name).reverse ++ o.undo) _).Perm before
        rw [takenBack_append]
        exact (takenBack_perm keyed (keys.perm undone.perm.symm) undone.perm).trans perm
    · have apart : ∀ u ∈ (w.undos collection).reverse, u.collection ≠ name := by
        intro u new same
        exact own (same.symm.trans (w.collection_of_mem_undos (List.mem_reverse.mp new)))
      refine ⟨now, ?_, keys, ?_, ?_⟩
      · rw [putCollection, documentsOf, database_putDatabase_self,
          Database.documentsOf_putCollection_of_ne _ _ own]
        exact here
      · intro u inNotes isAbout
        rcases List.mem_append.mp inNotes with new | old
        · exact absurd isAbout (apart u new)
        · exact keyed u old isAbout
      · change (takenBack name ((w.undos collection).reverse ++ o.undo) now).Perm before
        rw [takenBack_append, takenBack_of_ne apart]
        exact perm

/-- The transaction that was begun at the start is open, and its notes lead back. -/
structure Revocable (start : Store) (database : Option String) (write : List String) (s : Store) :
    Prop where
  home_eq : s.home = start.home
  names_lt : start.names < s.names
  opened : ∃ o, s.transactions.get? (Transaction.next start database).id = some o ∧
    LeadsBack start database write s o

/-- A transaction that was just begun has no notes. -/
theorem revocable_begun
    (keys : ∀ name ∈ write, ∀ before,
      start.documentsOf (database.getD start.home) name = some before → DistinctKeys before) :
    Revocable start database write
      (start.begun (Transaction.beginRequest database write []) write) where
  home_eq := rfl
  names_lt := Nat.lt_succ_self _
  opened := by
    refine ⟨_, Dict.get?_insert_self _ _ _, rfl, rfl, fun _ member => ?_, ?_⟩
    · cases member
    · intro name member before stored
      exact ⟨before, stored, keys name member before stored, fun _ inUndo => (by cases inUndo),
        List.Perm.refl before⟩

namespace Revocable

/-- What keeps the transaction and the documents of its collections keeps the invariant. -/
theorem keep {s' : Store} (revocable : Revocable start database write s) (onward : Onward s s')
    (transaction : s'.transactions.get? (Transaction.next start database).id =
      s.transactions.get? (Transaction.next start database).id)
    (documents : ∀ name ∈ write, ∀ now,
      s.documentsOf (database.getD start.home) name = some now →
        s'.documentsOf (database.getD start.home) name = some now) :
    Revocable start database write s' where
  home_eq := onward.home_eq.trans revocable.home_eq
  names_lt := Nat.lt_of_lt_of_le revocable.names_lt onward.names_le
  opened := by
    obtain ⟨o, found, inDatabase, declares, declared, leads⟩ := revocable.opened
    refine ⟨o, transaction.trans found, inDatabase, declares, declared, ?_⟩
    intro name member before stored
    obtain ⟨now, here, keys, keyed, perm⟩ := leads name member before stored
    exact ⟨now, documents name member now here, keys, keyed, perm⟩

theorem of_same {s' : Store} (revocable : Revocable start database write s)
    (same : SameData s s') : Revocable start database write s' := by
  apply revocable.keep same.onward
  · rw [same.transactions_eq]
  · intro name _ now here
    rw [same.documentsOf_eq]
    exact here

theorem foreign {r : Request} (revocable : Revocable start database write s)
    (others : s.Foreign (database.getD start.home) write (Transaction.next start database).id r) :
    Revocable start database write (Store.server.answer s r).2 := by
  apply revocable.keep (onward_answer s r)
  · exact others.transaction_eq revocable.names_lt
  · intro name member now here
    rw [others.documentsOf_eq member]
    exact here

/-- A request in the transaction does nothing but bookkeeping, or writes to a collection of
the transaction. -/
theorem within_cases {r : Request} (revocable : Revocable start database write s)
    (within : r.Within (Transaction.next start database)) :
    SameData s (Store.server.answer s r).2 ∨
      ∃ collection c w changes, collection ∈ write ∧
        (s.database (database.getD start.home)).collections.get? collection = some c ∧
        DocumentWrite.Fits changes c w ∧ (changes.members?.getD {}).get? "_key" = none ∧
        SameData ((s.putCollection (database.getD start.home) collection (w.apply c)).noteUndos r
          (w.undos collection)) (Store.server.answer s r).2 := by
  have noted := sameData_noteRequest s r
  rcases answer_cases s r with ⟨_, refused⟩ | ⟨route, routed, _, answered⟩
  · rw [refused]
    exact Or.inl noted
  · obtain ⟨noChange, inside⟩ := within.documental route routed
    -- Only a change of a document depends on the body.
    have exists_changes : ∃ changes : Json, (changes.members?.getD {}).get? "_key" = none ∧
        ∀ collection key, route = .changeDocument collection key →
          changes = r.body.getD .null := by
      cases route with
      | changeDocument collection key =>
          exact ⟨_, within.unkeyed collection key routed, fun _ _ _ => rfl⟩
      | _ => exact ⟨.null, rfl, nofun⟩
    obtain ⟨changes, unkeyed, is⟩ := exists_changes
    have step := (documentStep_perform_of noChange inside is).of_same noted
    rw [answered]
    generalize ((s.noteRequest r).perform r (r.body.getD .null) route).2 = s' at step
    cases step with
    | idle same => exact Or.inl same
    | @wrote collection c w listed permitted stored fits same =>
        have here : s.databaseOf r = database.getD start.home := by
          rw [databaseOf, within.addressed, revocable.home_eq]
          rfl
        obtain ⟨o, found, leads⟩ := revocable.opened
        have declared : collection ∈ write := by
          unfold permitWrite at permitted
          rw [within.inside] at permitted
          simp only [Option.bind_some, found] at permitted
          split at permitted
          · next contained =>
              rw [leads.write_eq] at contained
              exact List.contains_iff_mem.mp contained
          · cases permitted
        rw [here] at stored same
        exact Or.inr ⟨collection, c, w, changes, declared, stored, fits, unkeyed, same⟩

/-- A write in the transaction is noted so that the notes still lead back. -/
theorem wrote {r : Request} {collection : String} {c : StoredCollection} {w : DocumentWrite}
    {changes : Json} (revocable : Revocable start database write s)
    (inside : r.transaction = some (Transaction.next start database).id)
    (declared : collection ∈ write)
    (stored : (s.database (database.getD start.home)).collections.get? collection = some c)
    (fits : w.Fits changes c) (unkeyed : (changes.members?.getD {}).get? "_key" = none) :
    Revocable start database write
      ((s.putCollection (database.getD start.home) collection (w.apply c)).noteUndos r
        (w.undos collection)) := by
  obtain ⟨o, found, leads⟩ := revocable.opened
  have onward := onward_noteUndos
    (s.putCollection (database.getD start.home) collection (w.apply c)) r (w.undos collection)
  have kept : (s.putCollection (database.getD start.home) collection
      (w.apply c)).transactions.get? (Transaction.next start database).id = some o := found
  obtain ⟨inDatabase, declares, own, documents⟩ := leads.wrote declared stored fits unkeyed
  refine ⟨onward.home_eq.trans revocable.home_eq,
    Nat.lt_of_lt_of_le revocable.names_lt onward.names_le,
    { o with undo := (w.undos collection).reverse ++ o.undo }, ?_, inDatabase, declares, own, ?_⟩
  · rw [transaction_noteUndos, if_pos inside, kept]
    rfl
  · intro name member before isBefore
    rw [documentsOf_noteUndos]
    exact documents name member before isBefore

theorem within {r : Request} (revocable : Revocable start database write s)
    (within : r.Within (Transaction.next start database)) :
    Revocable start database write (Store.server.answer s r).2 := by
  rcases revocable.within_cases within with
    same | ⟨collection, c, w, changes, declared, stored, fits, unkeyed, same⟩
  · exact revocable.of_same same
  · exact (revocable.wrote within.inside declared stored fits unkeyed).of_same same

theorem creates {r : Request} (revocable : Revocable start database write s)
    (creates : r.Creates) : Revocable start database write (Store.server.answer s r).2 := by
  apply revocable.keep (onward_answer s r)
  · rw [transactions_create creates]
  · intro name _ now here
    rcases documentsOf_create creates (database.getD start.home) name (s := s) with
      same | ⟨absent, _⟩
    · rw [same]
      exact here
    · rw [absent] at here
      cases here

/-- The abort of the transaction leads back to the documents from the start. -/
theorem aborted (revocable : Revocable start database write s) (r : Request) :
    ∃ o, s.transactions.get? (Transaction.next start database).id = some o ∧
      Restored start database write (s.aborted r (Transaction.next start database).id o) ∧
      ∀ other name, (other = database.getD start.home → name ∉ write) →
        (s.aborted r (Transaction.next start database).id o).documentsOf other name =
          s.documentsOf other name := by
  obtain ⟨o, found, leads⟩ := revocable.opened
  refine ⟨o, found, ⟨revocable.home_eq, ?_⟩, ?_⟩
  · intro name member before stored
    obtain ⟨now, here, _, _, perm⟩ := leads.documents name member before stored
    refine ⟨takenBack name o.undo now, ?_, perm⟩
    rw [← leads.database_eq, Store.aborted, documentsOf, database_putDatabase_self,
      Database.documentsOf_undoAll_eq]
    rw [← leads.database_eq, documentsOf] at here
    rw [here]
    rfl
  · intro other name undeclared
    apply documentsOf_aborted
    intro here u member same
    apply undeclared (here.symm.trans leads.database_eq)
    rw [← same]
    exact leads.declared u member

/-- What the transaction does changes no documents of other collections. -/
theorem documents_eq {r : Request} (revocable : Revocable start database write s)
    (own : r.Within (Transaction.next start database) ∨ r.Creates) {other name : String}
    (undeclared : other = database.getD start.home → name ∉ write) :
    (Store.server.answer s r).2.documents (some other) name = s.documents (some other) name := by
  rw [documents_eq_documentsOf, documents_eq_documentsOf]
  rcases own with within | creates
  · rcases revocable.within_cases within with
      same | ⟨collection, c, w, changes, declared, stored, fits, unkeyed, same⟩
    · rw [same.documentsOf_eq]
    · rw [same.documentsOf_eq, documentsOf_noteUndos, putCollection]
      by_cases here : other = database.getD start.home
      · have apart : name ≠ collection := by
          rintro rfl
          exact undeclared here declared
        rw [here, documentsOf, database_putDatabase_self,
          Database.documentsOf_putCollection_of_ne _ _ apart, documentsOf]
      · rw [documentsOf_putDatabase_of_ne _ _ here]
  · rcases documentsOf_create creates other name (s := s) with same | ⟨absent, empty⟩
    · rw [same]
    · rw [absent, empty]
      rfl

end Revocable

theorem Restored.foreign {r : Request} {id : String} (restored : Restored start database write s)
    (others : s.Foreign (database.getD start.home) write id r) :
    Restored start database write (Store.server.answer s r).2 where
  home_eq := (onward_answer s r).home_eq.trans restored.home_eq
  documents name member before stored := by
    obtain ⟨now, here, perm⟩ := restored.documents name member before stored
    refine ⟨now, ?_, perm⟩
    rw [others.documentsOf_eq member]
    exact here

end Store

end DocStore
