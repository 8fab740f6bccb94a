/-
Module: DocStore.Proofs.Migration.Consulting
Purpose: the requests that read the records, and that the versions that are read are what a
  store records, whatever it is like.
Main exports:
  Request.Consults, Store.Undocumented, RunnerOptions.asks_appliedVersions_consults,
  RunnerOptions.exists_of_appliedVersions, RunnerOptions.appliedVersions_again,
  RunnerOptions.sameData_of_appliedVersions, RunnerOptions.mem_appliedVersions,
  RunnerOptions.records_of_appliedVersions
-/
import DocStore.Proofs.Migration.Bookkeeping

namespace DocStore

open Exchange Text

/-- A request that reads the records, or creates the collection for them: outside of
transactions, it defines a collection at most, and its query changes nothing. -/
def Request.Consults (r : Request) : Prop :=
  r.transaction = none ∧ ∀ route, Route.of? r = some route →
    route = .createCollection ∨
    route = .openCursor ∧ removalTargets (r.body.getD .null) = [] ∨
    ∃ id, route = .readCursor id

namespace Request

theorem consults_start {c : CursorRead} {aql : String} {bindVars : Dict Json}
    (position : c.position = .start aql bindVars) (outside : c.transaction = none)
    (reads : ∀ q, Statement.read? aql bindVars = some q → q.effect ≠ .removal) :
    c.request.Consults := by
  refine ⟨?_, fun route routed => ?_⟩
  · rw [Store.transaction_request, outside]
    rfl
  · rw [Store.route_of_start position, Option.some.injEq] at routed
    have body : c.request.body =
        some (.obj ⟨[("bindVars", .obj bindVars), ("query", .str aql)]⟩) := by
      rcases c with ⟨_, transaction, _, _⟩
      cases position
      cases transaction <;> rfl
    refine Or.inr (Or.inl ⟨routed.symm, List.eq_nil_iff_forall_not_mem.mpr fun name member => ?_⟩)
    rw [body] at member
    obtain ⟨q, read, removes, _⟩ := removes_of_mem_removalTargets member
    exact reads q read removes

theorem consults_page {c : CursorRead} {id : String} (position : c.position = .page id)
    (outside : c.transaction = none) : c.request.Consults := by
  refine ⟨?_, fun route routed => Or.inr (Or.inr (Store.eq_of_route_page position routed))⟩
  rw [Store.transaction_request, outside]
  rfl

end Request

namespace Store

/-- The second store has the transactions and the documents of the first.  It may have
further collections, which are empty. -/
structure Undocumented (s s' : Store) : Prop where
  home_eq : s'.home = s.home
  batchSize_eq : s'.batchSize = s.batchSize
  transactions_eq : s'.transactions = s.transactions
  documents_eq : ∀ database name,
    (s'.documentsOf database name).getD [] = (s.documentsOf database name).getD []

namespace Undocumented

theorem refl (s : Store) : Undocumented s s := ⟨rfl, rfl, rfl, fun _ _ => rfl⟩

theorem trans {s₁ s₂ s₃ : Store} (first : Undocumented s₁ s₂) (second : Undocumented s₂ s₃) :
    Undocumented s₁ s₃ :=
  ⟨second.home_eq.trans first.home_eq, second.batchSize_eq.trans first.batchSize_eq,
    second.transactions_eq.trans first.transactions_eq,
    fun database name => (second.documents_eq database name).trans
      (first.documents_eq database name)⟩

end Undocumented

theorem SameData.undocumented {s s' : Store} (same : SameData s s') : Undocumented s s' :=
  ⟨same.home_eq, same.batchSize_eq, same.transactions_eq, fun database name => by
    rw [same.documentsOf_eq]⟩

/-- To create a collection is to add no documents. -/
theorem undocumented_createCollection (s : Store) (database : String) (body : Json) :
    Undocumented s (s.serveChange database (·.createCollection body)).2 := by
  rcases s.serveChange_cases database (·.createCollection body) with
    ⟨_, refused⟩ | ⟨response, db, made, put⟩
  · rw [refused]
    exact .refl s
  · rw [put]
    refine ⟨rfl, rfl, rfl, fun other name => ?_⟩
    by_cases here : other = database
    · subst here
      obtain ⟨_, created, _, _, _, fresh, _, rfl⟩ := Database.createCollection_eq_ok_iff.mp made
      rw [documentsOf, database_putDatabase_self, documentsOf]
      by_cases own : name = created
      · subst own
        have absent := (Database.nameTaken_eq_false_iff.mp fresh).1
        simp [Database.documentsOf, Database.putCollection, absent]
      · rw [Database.documentsOf_putCollection_of_ne _ _ own]
    · rw [documentsOf_putDatabase_of_ne s db here]

theorem undocumented_answer {s : Store} {r : Request} (consults : r.Consults) :
    Undocumented s (Store.server.answer s r).2 := by
  have noted := (sameData_noteRequest s r).undocumented
  rcases answer_cases s r with ⟨refusal, refused⟩ | ⟨route, routed, _, answers⟩
  · rw [refused]
    exact noted
  · rw [answers]
    refine noted.trans ?_
    rcases consults.2 route routed with rfl | ⟨rfl, reads⟩ | ⟨id, rfl⟩
    · exact undocumented_createCollection _ _ _
    · have step := openCursor_step (s.noteRequest r) r (r.body.getD .null) .null
      rw [reads] at step
      exact step.same_of_nil.undocumented
    · exact (readCursor_same (s.noteRequest r) id).undocumented

/-- An operation that only consults adds no documents. -/
theorem undocumented_of_asks {α : Type} {x : Exchange α} (consults : x.Asks Request.Consults)
    (s : Store) : Undocumented s (x.runOn server s).state :=
  consults.keeps (fun _ _ kept asked => kept.trans (undocumented_answer asked)) (.refl s)

end Store

namespace RunnerOptions

variable {o : RunnerOptions} {s s' : Store} {applied : List Int}

theorem asks_ensureBookkeeping_consults (o : RunnerOptions) :
    o.ensureBookkeeping.Asks Request.Consults := by
  unfold ensureBookkeeping
  split
  · exact asks_pure ()
  · apply asks_bind _ fun _ => asks_pure ()
    apply asks_bind (asks_ofSchema _)
    intro _
    apply asks_tolerant
    apply asks_ofSchema_bind
    intro body _
    apply asks_command
    refine ⟨rfl, fun route routed => Or.inl ?_⟩
    rw [Route.of?_post "collection" rfl rfl (by decide)] at routed
    cases routed
    rfl

theorem asks_appliedVersions_consults (named : isPlainName o.collection = true) :
    o.appliedVersions.Asks Request.Consults := by
  apply asks_bind o.asks_ensureBookkeeping_consults
  intro _
  apply asks_ofExcept_bind
  intro compiled is
  apply asks_bind
  · apply asks_runCursor
    refine ⟨Request.consults_start rfl rfl fun statement reads removes => ?_,
      fun id => Request.consults_page rfl rfl⟩
    have effect := (versionsQuery_plain named).effect_of_select (List.cons_ne_nil _ _)
      (by decide : ∀ name ∈ ["version"], isPlainName name = true) rfl is reads
    rw [effect] at removes
    cases removes
  · intro rows
    exact asks_bind (asks_ofExcept _) fun _ => asks_pure _

/-- What every recorded version is read as. -/
theorem versionOf_row {d : Document} {v w : Int} (recorded : (d.value "version").signed? = some v)
    (read : versionOf (.arr (["version"].map d.value)) = .ok w) : w = v := by
  have item : (Json.arr (["version"].map d.value)).item 0 = d.value "version" := rfl
  rw [versionOf, item, recorded] at read
  exact (Except.ok.inj read).symm

/-- Whatever the store is like, if versions are read from it, they are those of the documents
of its collection of records, which was there or was created. -/
theorem exists_of_appliedVersions (named : isPlainName o.collection = true)
    (batch : 0 < s.batchSize) (reads : o.appliedVersions.Ends Store.server s (.ok applied) s') :
    ∃ documents versions, s.Undocumented s' ∧
      s'.Holds s.home (o.tenant.getD s.home) o.collection documents ∧
      documents = (s.documentsOf (o.tenant.getD s.home) o.collection).getD [] ∧
      (documents.map fun d => Json.arr (["version"].map d.value)).mapM versionOf =
        .ok versions ∧
      applied = versions.mergeSort := by
  unfold appliedVersions at reads
  obtain ⟨_, s₁, ensured, compiling⟩ := ends_bind_ok_iff.mp reads
  obtain ⟨compiled, s₂, compiles, answering⟩ := ends_bind_ok_iff.mp compiling
  obtain ⟨rows, s₃, answered, reading⟩ := ends_bind_ok_iff.mp answering
  obtain ⟨versions, s₄, read, sorting⟩ := ends_bind_ok_iff.mp reading
  obtain ⟨isCompiled, rfl⟩ := ends_ofExcept_iff.mp compiles
  obtain ⟨isRead, rfl⟩ := ends_ofExcept_iff.mp read
  obtain ⟨sorted, rfl⟩ := ends_pure_iff.mp sorting
  cases sorted
  have kept : s.Undocumented s₂ :=
    ensured.2 ▸ Store.undocumented_of_asks o.asks_ensureBookkeeping_consults s
  have there := kept.documents_eq (o.tenant.getD s.home) o.collection
  have plain := versionsQuery_plain named
  have version : ∀ name ∈ ["version"], isPlainName name = true := by decide
  cases found : (s₂.database (o.tenant.getD s₂.home)).collections.get? o.collection with
  | none =>
      obtain ⟨text, columns, e, _, again, refused, _⟩ := plain.ends_select_missing found
        (List.cons_ne_nil _ _) version rfl
      cases isCompiled.trans again
      cases (answered.unique refused).1
  | some c =>
      obtain ⟨text, columns, _, again, shown, same⟩ := plain.ends_select
        (kept.batchSize_eq ▸ batch) s₂.opened_none found (o.finds_versionsQuery c.documents)
        (List.cons_ne_nil _ _) version rfl
      cases isCompiled.trans again
      obtain ⟨rowsEq, rfl⟩ := answered.unique shown
      cases rowsEq
      have stored : s₂.documentsOf (o.tenant.getD s.home) o.collection = some c.documents := by
        rw [← kept.home_eq, Store.documentsOf, Database.documentsOf, found]
        rfl
      have holds : s₂.Holds s.home (o.tenant.getD s.home) o.collection c.documents :=
        ⟨kept.home_eq, kept.batchSize_eq ▸ batch, stored⟩
      refine ⟨c.documents, versions, kept.trans same.undocumented, holds.of_same same, ?_,
        isRead.symm, rfl⟩
      rw [← there, stored]
      rfl

/-- Versions that were read are read again as they were, and nothing is changed then. -/
theorem appliedVersions_again (named : isPlainName o.collection = true) (batch : 0 < s.batchSize)
    (reads : o.appliedVersions.Ends Store.server s (.ok applied) s') :
    ∃ s'', o.appliedVersions.Ends Store.server s' (.ok applied) s'' ∧ Store.SameData s' s'' := by
  obtain ⟨documents, versions, _, holds, _, read, rfl⟩ :=
    exists_of_appliedVersions named batch reads
  exact ends_appliedVersions_taken named read holds

/-- To read versions, of which there are some, changes nothing: the collection of records was
there. -/
theorem sameData_of_appliedVersions (named : isPlainName o.collection = true)
    (batch : 0 < s.batchSize) (reads : o.appliedVersions.Ends Store.server s (.ok applied) s')
    {v : Int} (member : v ∈ applied) : Store.SameData s s' := by
  obtain ⟨documents, versions, _, _, same, read, rfl⟩ :=
    exists_of_appliedVersions named batch reads
  cases stored : s.documentsOf (o.tenant.getD s.home) o.collection with
  | none =>
      rw [stored] at same
      subst same
      cases read
      exact absurd (List.mem_mergeSort.mp member) List.not_mem_nil
  | some given =>
      rw [stored] at same
      subst same
      obtain ⟨_, again, kept⟩ := ends_appliedVersions_taken named read ⟨rfl, batch, stored⟩
      obtain ⟨_, rfl⟩ := again.unique reads
      exact kept

/-- The versions that are read are all that the collection of records holds. -/
theorem mem_appliedVersions (named : isPlainName o.collection = true) (batch : 0 < s.batchSize)
    (reads : o.appliedVersions.Ends Store.server s (.ok applied) s') {documents : List Document}
    (stored : s.documentsOf (o.tenant.getD s.home) o.collection = some documents) {d : Document}
    (member : d ∈ documents) {v : Int} (recorded : (d.value "version").signed? = some v) :
    v ∈ applied := by
  obtain ⟨there, versions, _, _, same, read, rfl⟩ := exists_of_appliedVersions named batch reads
  rw [stored, Option.getD_some] at same
  subst same
  have row := List.mem_map_of_mem (f := fun d : Document => Json.arr (["version"].map d.value))
    member
  obtain ⟨w, among, is⟩ := exists_of_mapM_eq_ok read row
  rw [List.mem_mergeSort, ← versionOf_row recorded is]
  exact among

/-- If the documents of the collection of records are records, then what is read is what they
record, and it is recorded afterwards. -/
theorem records_of_appliedVersions (named : isPlainName o.collection = true)
    (batch : 0 < s.batchSize)
    (kept : ∀ documents, s.documentsOf (o.tenant.getD s.home) o.collection = some documents →
      ∃ versions, Recorded documents versions)
    (reads : o.appliedVersions.Ends Store.server s (.ok applied) s') :
    ∃ versions, applied = versions.mergeSort ∧ o.Records s.home versions s' := by
  obtain ⟨documents, versions, _, holds, same, read, rfl⟩ :=
    exists_of_appliedVersions named batch reads
  have recorded : ∃ known, Recorded documents known := by
    cases stored : s.documentsOf (o.tenant.getD s.home) o.collection with
    | none =>
        rw [stored] at same
        subst same
        exact ⟨[], .nil⟩
    | some given =>
        rw [stored] at same
        subst same
        exact kept _ stored
  obtain ⟨known, recorded⟩ := recorded
  obtain rfl : known = versions := Except.ok.inj (recorded.mapM_versionOf.symm.trans read)
  exact ⟨known, rfl, documents, recorded, holds⟩

end RunnerOptions

end DocStore
