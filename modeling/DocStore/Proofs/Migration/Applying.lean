/-
Module: DocStore.Proofs.Migration.Applying
Purpose: applying a migration or taking it back: it is recorded just when it completes, be it
  in a transaction of its own or not.
Main exports:
  RunnerOptions.ends_record_up, RunnerOptions.ends_record_down, Direction.recordedAfter,
  RunnerOptions.ends_apply
-/
import DocStore.Proofs.Definition.AnalyzerNames
import DocStore.Proofs.Migration.Bookkeeping

namespace DocStore

open Text

namespace RunnerOptions

variable {o : RunnerOptions} {home : String} {versions : List Int} {documents : List Document}
  {t : Option Transaction} {s : Store} {version : Int}

/-! ### Recording -/

/-- The row of a version, as it is posted. -/
def row (version : Int) : Dict Json :=
  ⟨[("_key", .str (toString version)), ("version", .int version)]⟩

/-- The request that records that a version went up. -/
def upRequest (o : RunnerOptions) (version : Int) (t : Option Transaction) : Request :=
  ((Request.post ("document/" ++ o.collection) (.obj (row version))).withDatabase
    o.tenant).inTransaction t

/-- The request that records that a version went down. -/
def downRequest (o : RunnerOptions) (version : Int) (t : Option Transaction) : Request :=
  ((Request.delete ("document/" ++ o.collection ++ "/" ++ toString version)).withDatabase
    o.tenant).inTransaction t

theorem route_upRequest (named : isPlainName o.collection = true) :
    Route.of? (o.upRequest version t) = some (.insertDocument o.collection) := by
  have plain : '/' ∉ o.collection.toList := notMem_of_isPlainName named (by decide)
  have cut := Route.segments_append "document" o.collection (by decide)
  rw [Text.splitAt_of_notMem plain] at cut
  rw [Route.of?, upRequest, Request.method_inTransaction, Request.path_inTransaction]
  change Route.ofPost? (Text.splitAt '/' ("document" ++ "/" ++ o.collection)) = _
  rw [cut]
  rfl

theorem route_downRequest (named : isPlainName o.collection = true) :
    Route.of? (o.downRequest version t) =
      some (.removeDocument o.collection (toString version)) := by
  have plain : '/' ∉ o.collection.toList := notMem_of_isPlainName named (by decide)
  have inner := Route.segments_append o.collection (toString version) plain
  rw [Text.splitAt_of_notMem (slash_notMem_toString_int version)] at inner
  have cut := Route.segments_document o.collection (toString version)
  rw [inner] at cut
  rw [Route.of?, downRequest, Request.method_inTransaction, Request.path_inTransaction]
  change Route.ofDelete? (Text.splitAt '/'
    ("document/" ++ o.collection ++ "/" ++ toString version)) = _
  rw [cut]
  rfl

/-- To record a version is to be refused, or to put its row behind the others. -/
theorem ends_record_up_cases (named : isPlainName o.collection = true) (s : Store) (version : Int)
    (t : Option Transaction) :
    (∃ e s', (o.record version .up t).Ends Store.server s (.error e) s' ∧
        Store.SameData s s') ∨
      ∃ c d s', (o.record version .up t).Ends Store.server s (.ok ()) s' ∧
        (s.database (s.databaseOf (o.upRequest version t))).collections.get? o.collection =
          some c ∧
        c.document? (toString version) = none ∧ d.Records version ∧
        Store.SameData ((s.putCollection (s.databaseOf (o.upRequest version t)) o.collection
          ((DocumentWrite.insert (toString version) d).apply c)).noteUndos
            (o.upRequest version t) [.remove o.collection (toString version)]) s' := by
  let r := o.upRequest version t
  have noted := Store.sameData_noteRequest s r
  have body : r.body.getD .null = .obj (row version) := by
    change (o.upRequest version t).body.getD .null = _
    rw [upRequest, Request.body_inTransaction]
    rfl
  have ends : ∀ {outcome s'}, (o.record version .up t).Ends Store.server s outcome s' ↔
      (Exchange.command r).Ends Store.server s outcome s' := Iff.rfl
  rcases Store.answer_cases s r with ⟨refusal, refused⟩ | ⟨route, routed, _, answers⟩
  · left
    exact ⟨_, _, ends.mpr (Store.ends_command_refused refused), noted⟩
  · cases routed.symm.trans (route_upRequest named)
    have performed : Store.server.answer s r =
        (.answered (Store.responseTo
          ((s.noteRequest r).insertDocument r o.collection (.obj (row version))).1),
          ((s.noteRequest r).insertDocument r o.collection (.obj (row version))).2) := by
      rw [answers, body]
      rfl
    rcases (s.noteRequest r).insertDocument_cases r o.collection
        (rfl : Document.value (row version) "_key" = .str (toString version)) with
      ⟨refusal, s', refused, same⟩ | ⟨c, d, stored, free, keyed, kept, inserts⟩
    · left
      rw [refused] at performed
      exact ⟨_, _, ends.mpr (Store.ends_command_refused performed), noted.trans same⟩
    · right
      have records : d.Records version := ⟨keyed, kept "version" (by decide)⟩
      rw [inserts] at performed
      exact ⟨c, d, _, ends.mpr (Store.ends_command_answered performed (result_inserted d)), stored,
        free, records,
        ((noted.trans (Store.sameData_takeRevision _)).putCollection _ _ _).noteUndos r [_]⟩

/-- The request that records a version is addressed to the database of the records. -/
theorem databaseOf_upRequest (within : ∀ handle ∈ t, handle.database = o.tenant) (s : Store)
    (version : Int) : s.databaseOf (o.upRequest version t) = o.tenant.getD s.home := by
  have database : (o.upRequest version t).database = o.tenant :=
    Request.database_inTransaction _ _ within
  rw [Store.databaseOf, database]

/-- A version that is not recorded is recorded, or the store refuses the row and
nothing is changed. -/
theorem ends_record_up (named : isPlainName o.collection = true)
    (within : ∀ handle ∈ t, handle.database = o.tenant)
    (recorded : Recorded documents versions) (fresh : version ∉ versions)
    (fits : version ≤ signedLimit)
    (guarded : s.Guarded home (o.tenant.getD home) o.collection documents t) :
    (∃ s' after, (o.record version .up t).Ends Store.server s (.ok ()) s' ∧
      Recorded after (versions ++ [version]) ∧
      s'.Holds home (o.tenant.getD home) o.collection after ∧ s'.Opened t) ∨
    ∃ e s', (o.record version .up t).Ends Store.server s (.error e) s' ∧
      s'.Guarded home (o.tenant.getD home) o.collection documents t := by
  rcases ends_record_up_cases named s version t with
    ⟨e, s', ends, same⟩ | ⟨c, d, s', ends, stored, _, records, same⟩
  · exact Or.inr ⟨e, s', ends, guarded.of_same same⟩
  · left
    rw [databaseOf_upRequest within, guarded.home_eq] at stored same
    have held : c.documents = documents := by
      have documentsEq := guarded.documents_eq
      rw [Store.documentsOf, Database.documentsOf, stored] at documentsEq
      exact Option.some.inj documentsEq
    obtain ⟨holds, opened⟩ := guarded.wrote (o.upRequest version t)
      ((DocumentWrite.insert (toString version) d).apply c)
      [.remove o.collection (toString version)]
    refine ⟨s', c.documents ++ [d], ends, ?_, holds.of_same same, opened.of_sameData same⟩
    rw [held]
    exact recorded.append records fresh fits

/-- The record of a version is always removed. -/
theorem ends_record_down (named : isPlainName o.collection = true)
    (within : ∀ handle ∈ t, handle.database = o.tenant)
    (recorded : Recorded documents versions) (member : version ∈ versions)
    (guarded : s.Guarded home (o.tenant.getD home) o.collection documents t) :
    ∃ s' after, (o.record version .down t).Ends Store.server s (.ok ()) s' ∧
      Recorded after (versions.filter (· != version)) ∧
      s'.Holds home (o.tenant.getD home) o.collection after ∧ s'.Opened t := by
  let r := o.downRequest version t
  let s₁ := s.noteRequest r
  have guarded₁ := guarded.of_same (Store.sameData_noteRequest s r)
  have inside : r.transaction = t.map (·.id) := Request.transaction_inTransaction _ _ rfl
  have answers := Store.answer_of_route (guarded.isOpen.knows inside)
    (route_downRequest named)
  have here : s₁.databaseOf r = o.tenant.getD home := by
    have database : r.database = o.tenant := Request.database_inTransaction _ _ within
    rw [Store.databaseOf, database, guarded₁.home_eq]
  obtain ⟨c, stored, rfl⟩ := Option.map_eq_some_iff.mp guarded₁.documents_eq
  obtain ⟨d, found⟩ := recorded.exists_find? member
  rw [← here] at stored
  have removes := Store.removeDocument_eq (guarded₁.permits inside) stored found
  have after := guarded₁.wrote r (c.removeDocument (toString version)) [.restore o.collection d]
  rw [← here] at after
  refine ⟨_, _, ?_, recorded.eraseP version, here ▸ after.1, after.2⟩
  change (Exchange.command r).Ends Store.server s _ _
  apply Store.ends_command_answered _ (result_removed d)
  rw [answers]
  change (Reply.answered
      (Store.responseTo (s₁.removeDocument r o.collection (toString version)).1),
    (s₁.removeDocument r o.collection (toString version)).2) = _
  rw [removes]
  rfl

end RunnerOptions

/-- The recorded versions after a version went in a direction. -/
def Direction.recordedAfter (d : Direction) (versions : List Int) (version : Int) : List Int :=
  match d with
  | up => versions ++ [version]
  | down => versions.filter (· != version)

namespace RunnerOptions

variable {o : RunnerOptions} {home : String} {versions : List Int} {documents : List Document}
  {t : Option Transaction} {s : Store} {e : Entry} {d : Direction}

theorem ends_record (named : isPlainName o.collection = true)
    (within : ∀ handle ∈ t, handle.database = o.tenant)
    (recorded : Recorded documents versions) (isOpen : d.isOpen versions e.version = true)
    (fits : e.version ≤ signedLimit)
    (guarded : s.Guarded home (o.tenant.getD home) o.collection documents t) :
    (∃ s' after, (o.record e.version d t).Ends Store.server s (.ok ()) s' ∧
      Recorded after (d.recordedAfter versions e.version) ∧
      s'.Holds home (o.tenant.getD home) o.collection after ∧ s'.Opened t) ∨
    ∃ error s', (o.record e.version d t).Ends Store.server s (.error error) s' ∧
      s'.Guarded home (o.tenant.getD home) o.collection documents t := by
  cases d with
  | up =>
      have fresh : e.version ∉ versions := by simpa [Direction.isOpen] using isOpen
      exact ends_record_up named within recorded fresh fits guarded
  | down =>
      have member : e.version ∈ versions := by simpa [Direction.isOpen] using isOpen
      exact Or.inl (ends_record_down named within recorded member guarded)

/-- The body of a migration is recorded just if it completes; otherwise the records are
as before. -/
theorem ends_runBody (named : isPlainName o.collection = true)
    (within : ∀ handle ∈ t, handle.database = o.tenant)
    (spares : e.migration.Spares home (o.tenant.getD home) o.collection o.tenant)
    (recorded : Recorded documents versions) (isOpen : d.isOpen versions e.version = true)
    (fits : e.version ≤ signedLimit)
    (guarded : s.Guarded home (o.tenant.getD home) o.collection documents t) :
    ∃ outcome s', (o.runBody e d t).Ends Store.server s outcome s' ∧
      (∀ a, outcome = .ok a → ∃ after, Recorded after (d.recordedAfter versions e.version) ∧
        s'.Holds home (o.tenant.getD home) o.collection after ∧ s'.Opened t) ∧
      ∀ error, outcome = .error error →
        s'.Guarded home (o.tenant.getD home) o.collection documents t := by
  cases body : e.migration.body d with
  | error noBody =>
      have first : (Exchange.ofExcept (e.migration.body d)).Ends Store.server s
          (.error noBody) s := Exchange.ends_ofExcept_iff.mpr ⟨body.symm, rfl⟩
      refine ⟨_, s, first.bind_error, fun a is => ?_, fun _ _ => guarded⟩
      cases is
  | ok script =>
      have first : (Exchange.ofExcept (e.migration.body d)).Ends Store.server s
          (.ok script) s := Exchange.ends_ofExcept_iff.mpr ⟨body.symm, rfl⟩
      have asks := Context.asks_run (c := { tenant := o.tenant, transaction := t })
        (spares.of_body body)
      obtain ⟨progress, s₁, run⟩ := Exchange.exists_ends Store.server s
        (({ tenant := o.tenant, transaction := t } : Context).run script)
      have guarded₁ := guarded.runOn asks
      rw [run.2] at guarded₁
      cases progress with
      | error error =>
          refine ⟨_, s₁, first.bind run.bind_error, fun a is => ?_, fun _ _ => guarded₁⟩
          cases is
      | ok progress =>
          cases failed : progress.outcome with
          | error error =>
              have second : (Exchange.ofExcept progress.outcome).Ends Store.server s₁
                  (.error error) s₁ := Exchange.ends_ofExcept_iff.mpr ⟨failed.symm, rfl⟩
              refine ⟨_, s₁, first.bind (run.bind second.bind_error), fun a is => ?_,
                fun _ _ => guarded₁⟩
              cases is
          | ok done =>
              have second : (Exchange.ofExcept progress.outcome).Ends Store.server s₁
                  (.ok done) s₁ := Exchange.ends_ofExcept_iff.mpr ⟨failed.symm, rfl⟩
              rcases ends_record named within recorded isOpen fits guarded₁ with
                ⟨s', after, ends, kept⟩ | ⟨error, s', ends, kept⟩
              · refine ⟨_, s', first.bind (run.bind (second.bind ends)),
                  fun _ _ => ⟨after, kept⟩, fun error is => ?_⟩
                cases is
              · refine ⟨_, s', first.bind (run.bind (second.bind ends)), fun a is => ?_,
                  fun _ _ => kept⟩
                cases is

/-- The records are declared in the transaction of every migration. -/
theorem writeSet_contains (o : RunnerOptions) (m : Migration) :
    (o.writeSet m).contains o.collection = true := by
  rw [List.contains_iff_mem]
  exact mem_foldl_addName.mpr (.inl List.mem_cons_self)

/-- A migration is recorded just if it completes. -/
theorem ends_apply (named : isPlainName o.collection = true)
    (spares : e.migration.Spares home (o.tenant.getD home) o.collection o.tenant)
    (recorded : Recorded documents versions) (isOpen : d.isOpen versions e.version = true)
    (fits : e.version ≤ signedLimit)
    (holds : s.Holds home (o.tenant.getD home) o.collection documents) :
    ∃ outcome s', (o.apply e d).Ends Store.server s outcome s' ∧
      (∀ a, outcome = .ok a → ∃ after, Recorded after (d.recordedAfter versions e.version) ∧
        s'.Holds home (o.tenant.getD home) o.collection after) ∧
      ∀ error, outcome = .error error →
        s'.Holds home (o.tenant.getD home) o.collection documents := by
  unfold apply
  split
  · obtain ⟨outcome, s', ends, value, error⟩ := ends_runBody (t := none) named
      (fun _ member => by cases member) spares recorded isOpen fits holds.guarded_none
    refine ⟨outcome, s', ends, fun a is => ?_, fun e is => (error e is).toHolds⟩
    obtain ⟨after, recordedAfter, kept, _⟩ := value a is
    exact ⟨after, recordedAfter, kept⟩
  · apply holds.withTransaction (o.writeSet_contains e.migration)
    intro t s₁ within guarded
    apply ends_runBody named _ spares recorded isOpen fits guarded
    rintro handle ⟨⟩
    exact within

end RunnerOptions

end DocStore
