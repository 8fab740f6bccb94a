/-
Module: DocStore.Proofs.Migration.Racing
Purpose: two runs of the runner that race on one store: no version is completed by both, and
  the records are those from the start together with the versions that either completed.
Main exports:
  RunnerOptions.rows, RunnerOptions.Books, RunnerOptions.books_apply,
  RunnerOptions.books_noteRun, RunnerOptions.recorded_of_books,
  RunnerOptions.race_completes_once
-/
import DocStore.Proofs.Migration.Noting

namespace DocStore

open Exchange Text

/-! ### Notes of a transaction that do not concern a collection -/

/-- Whether no writes to a collection are noted in a transaction. -/
def OpenTransaction.Unmarked (name : String) (o : OpenTransaction) : Prop :=
  ∀ u ∈ o.undo, u.collection ≠ name

namespace Store

variable {s : Store} {database name : String} {t : Option Transaction} {r : Request}

theorem documents_eq_getD (s : Store) (database : Option String) (name : String) :
    s.documents database name = (s.documentsOf (database.getD s.home) name).getD [] := by
  rw [← documents_eq_documentsOf]
  cases database <;> rfl

theorem documents_of_documentsOf_eq {s' : Store} (database : Option String) (onward : Onward s s')
    (same : s'.documentsOf (database.getD s.home) name =
      s.documentsOf (database.getD s.home) name) :
    s'.documents database name = s.documents database name := by
  rw [documents_eq_getD, documents_eq_getD, onward.home_eq, same]

theorem leaves_of_spares (spares : r.Spares s.home database name) :
    ∀ route, Route.of? r = some route → s.Leaves r database name route := by
  intro route routed
  obtain ⟨within, spared⟩ := spares route routed
  have apart : name ∉ route.targets (r.body.getD .null) ∨ database ≠ s.databaseOf r :=
    spared.imp_right fun elsewhere same => elsewhere.2 same.symm
  cases route <;> first | exact apart | cases within

/-- A request that spares a collection leaves no note of it. -/
theorem Owns.spares (owns : s.Owns t (OpenTransaction.Unmarked name))
    (spares : r.Spares s.home database name) :
    (Store.server.answer s r).2.Owns t (OpenTransaction.Unmarked name) := by
  intro handle member
  obtain ⟨number, o, nameEq, given, found, unmarked⟩ := owns handle member
  have onward := Nat.le_trans given (onward_answer s r).names_le
  rcases answer_cases s r with ⟨_, refused⟩ | ⟨route, routed, _, answered⟩
  · refine ⟨number, o, nameEq, onward, ?_, unmarked⟩
    rw [refused]
    exact found
  · obtain ⟨within, spared⟩ := spares route routed
    obtain ⟨noted, about, after⟩ := transaction_perform (s.noteRequest r) r
      (r.body.getD .null) within handle.id
    have kept : (s.noteRequest r).transactions.get? handle.id = some o := found
    refine ⟨number, { o with undo := noted ++ o.undo }, nameEq, onward, ?_, fun u inNotes => ?_⟩
    · rw [answered, after, kept]
      rfl
    · rcases List.mem_append.mp inNotes with isNoted | isOld
      · obtain ⟨own, listed⟩ := about u isNoted
        rintro rfl
        rcases spared with absent | ⟨outside, _⟩
        · exact absent listed
        · rw [outside] at own
          cases own
      · exact unmarked u isOld

end Store

/-! ### What a run does to the records -/

namespace RunnerOptions

/-- The rows of the collection of records. -/
def rows (o : RunnerOptions) (s : Store) : List Document :=
  s.documents o.tenant o.collection

/-- What own requests do to the records, whoever else is answered: all of them leave the
rows, but those that put a new row behind the others, for the versions in this order. -/
inductive Books (o : RunnerOptions) : List (Event Store) → List Int → Prop where
  | nil : Books o [] []
  | other {event : Event Store} {rest : List (Event Store)} {versions : List Int}
      (others : event.own = false) (books : Books o rest versions) :
      Books o (event :: rest) versions
  | quiet {event : Event Store} {rest : List (Event Store)} {versions : List Int}
      (own : event.own = true) (same : o.rows (event.after Store.server) = o.rows event.before)
      (books : Books o rest versions) : Books o (event :: rest) versions
  | enters {event : Event Store} {rest : List (Event Store)} {versions : List Int} {v : Int}
      {d : Document} (own : event.own = true) (records : d.Records v) (fits : v ≤ signedLimit)
      (fresh : ∀ row ∈ o.rows event.before, row.hasKey (toString v) = false)
      (added : o.rows (event.after Store.server) = o.rows event.before ++ [d])
      (books : Books o rest versions) : Books o (event :: rest) (v :: versions)

variable {o : RunnerOptions} {home : String} {e : Entry} {s s' : Store} {t : Option Transaction}
  {events : List (Event Store)} {versions : List Int} {α : Type} {x : Exchange α}
  {outcome : Except Error α}

theorem Books.append {more : List (Event Store)} {others : List Int}
    (first : o.Books events versions) (second : o.Books more others) :
    o.Books (events ++ more) (versions ++ others) := by
  induction first with
  | nil => exact second
  | other others _ inductionHypothesis => exact .other others inductionHypothesis
  | quiet own same _ inductionHypothesis => exact .quiet own same inductionHypothesis
  | enters own records fits fresh added _ inductionHypothesis =>
      exact .enters own records fits fresh added inductionHypothesis

theorem books_of_quiet (quiet : ∀ event ∈ events, event.own = true →
    o.rows (event.after Store.server) = o.rows event.before) : o.Books events [] := by
  induction events with
  | nil => exact .nil
  | cons event rest inductionHypothesis =>
      obtain ⟨first, later⟩ := List.forall_mem_cons.mp quiet
      have books := inductionHypothesis later
      cases own : event.own with
      | true => exact .quiet own (first own) books
      | false => exact .other own books

theorem books_of_waits (waits : Waits Store.server s events s') : o.Books events [] := by
  apply books_of_quiet
  intro event member own
  rw [waits.own_eq_false event member] at own
  cases own

/-- A single own request among those of others. -/
theorem books_single {earlier later : List (Event Store)} {event : Event Store} {s₁ s₂ s₃ : Store}
    (before : Waits Store.server s earlier s₁) (books : o.Books [event] versions)
    (after : Waits Store.server s₂ later s₃) :
    o.Books (earlier ++ event :: later) versions := by
  have whole := (books_of_waits (o := o) before).append (books.append (books_of_waits after))
  rw [List.append_nil] at whole
  exact whole

theorem home_eq_of_among (run : x.Among Store.server s events outcome s') : s'.home = s.home :=
  (run.traced.keeps (I := fun s₁ => s₁.home = s.home)
    (fun s₁ r same => (Store.onward_answer s₁ r).home_eq.trans same) rfl).1

/-! ### Requests that leave the rows -/

theorem rows_of_spares {r : Request}
    (spares : r.Spares s.home (o.tenant.getD s.home) o.collection) :
    o.rows (Store.server.answer s r).2 = o.rows s :=
  Store.documents_of_documentsOf_eq o.tenant (Store.onward_answer s r)
    (Store.documentsOf_answer (Store.leaves_of_spares spares))

theorem rows_of_idle {r : Request}
    (idle : r.Idle s.home (o.tenant.getD s.home) o.collection) :
    o.rows (Store.server.answer s r).2 = o.rows s := by
  rcases idle.1 with spares | creates
  · exact rows_of_spares spares
  · rcases Store.documentsOf_create creates (o.tenant.getD s.home) o.collection (s := s) with
      same | ⟨absent, empty⟩
    · exact Store.documents_of_documentsOf_eq o.tenant (Store.onward_answer s r) same
    · rw [rows, rows, Store.documents_eq_getD, Store.documents_eq_getD,
        (Store.onward_answer s r).home_eq, absent, empty]
      rfl

/-- Reading the records leaves their rows. -/
theorem books_appliedVersions {outcome : Except Error (List Int)}
    (named : isPlainName o.collection = true)
    (run : o.appliedVersions.Among Store.server s events outcome s') : o.Books events [] := by
  have asks := asks_appliedVersions (o := o) named s.home (o.tenant.getD s.home)
  obtain ⟨_, each⟩ := asks.keepsAmong (I := fun s₁ => s₁.home = s.home) run
    (fun s₁ r same _ => (Store.onward_answer s₁ r).home_eq.trans same)
    (fun event _ _ same => (Store.onward_answer event.before event.request).home_eq.trans same)
    rfl
  apply books_of_quiet
  intro event member own
  obtain ⟨sameHome, idle⟩ := each event member own
  rw [← sameHome] at idle
  exact rows_of_idle idle

/-! ### Recording a version -/

/-- To record a version is to fail, or to put its row behind the others. -/
theorem books_record {version : Int} {outcome : Except Error Unit}
    (named : isPlainName o.collection = true)
    (within : ∀ handle ∈ t, handle.database = o.tenant) (fits : version ≤ signedLimit)
    (owns : s.Owns t (OpenTransaction.Unmarked o.collection)) (unnamed : Unnamed t events)
    (run : (o.record version .up t).Among Store.server s events outcome s') :
    (outcome = .ok () ∧ o.Books events [version] ∧ s'.Owns t fun _ => True) ∨
      ∃ error, outcome = .error error ∧ o.Books events [] ∧
        s'.Owns t (OpenTransaction.Unmarked o.collection) := by
  have is : o.record version .up t =
      .send (o.upRequest version t) fun reply => .done (reply.result.map fun _ => ()) := rfl
  obtain ⟨earlier, middle, later, rfl, before, ends, after⟩ :=
    among_single is (fun _ => ⟨_, rfl⟩) run
  have owned := owns.waits unnamed.left before
  have unnamedLater : Unnamed t later := unnamed.of_subset fun event member =>
    List.mem_append_right earlier (List.mem_cons_of_mem _ member)
  rcases ends_record_up_cases named middle version t with
    ⟨e, s₁, failed, same⟩ | ⟨c, d, s₁, recorded, stored, free, records, same⟩
  · right
    obtain ⟨rfl, rfl⟩ := ends.unique failed
    refine ⟨e, rfl, books_single before (.quiet rfl ?_ .nil) after,
      (owned.of_same same).waits unnamedLater after⟩
    exact Store.documents_of_documentsOf_eq o.tenant same.onward (same.documentsOf_eq _ _)
  · left
    obtain ⟨rfl, rfl⟩ := ends.unique recorded
    rw [databaseOf_upRequest within] at stored same
    have rowsBefore : o.rows middle = c.documents := by
      rw [rows, Store.documents_eq_getD, Store.documentsOf, Database.documentsOf, stored]
      rfl
    have rowsAfter : o.rows (Store.server.answer middle (o.upRequest version t)).2 =
        c.documents ++ [d] := by
      have sameHome : (Store.server.answer middle (o.upRequest version t)).2.home =
          middle.home := (Store.onward_answer middle _).home_eq
      rw [rows, Store.documents_eq_getD, sameHome, same.documentsOf_eq,
        Store.documentsOf_noteUndos, Store.putCollection, Store.documentsOf,
        Store.database_putDatabase_self]
      simp [Database.documentsOf, Database.putCollection, DocumentWrite.apply]
    refine ⟨rfl, books_single before (.enters rfl records fits ?_ ?_ .nil) after,
      ((owned.wrote _ _ _ _ _).of_same same).waits unnamedLater after⟩
    · rw [rowsBefore]
      exact fun row member => by simpa using List.find?_eq_none.mp free row member
    · rw [rowsBefore]
      exact rowsAfter

/-! ### Applying a migration -/

/-- The commands of a body leave the records, and no note of them. -/
theorem books_commands {c : Context} {script : Script} {outcome : Except Error Progress}
    (spares : script.Spares s.home (o.tenant.getD s.home) o.collection c.tenant)
    (owns : s.Owns t (OpenTransaction.Unmarked o.collection)) (unnamed : Unnamed t events)
    (run : (c.run script).Among Store.server s events outcome s') :
    o.Books events [] ∧ s'.Owns t (OpenTransaction.Unmarked o.collection) := by
  have kept : ∀ s₁ r, s₁.home = s.home ∧ s₁.Owns t (OpenTransaction.Unmarked o.collection) →
      r.Spares s.home (o.tenant.getD s.home) o.collection →
      (Store.server.answer s₁ r).2.home = s.home ∧
        (Store.server.answer s₁ r).2.Owns t (OpenTransaction.Unmarked o.collection) := by
    rintro s₁ r ⟨sameHome, owned⟩ spared
    rw [← sameHome] at spared
    exact ⟨(Store.onward_answer s₁ r).home_eq.trans sameHome, owned.spares spared⟩
  obtain ⟨last, each⟩ := (Context.asks_run spares).keepsAmong
    (I := fun s₁ => s₁.home = s.home ∧ s₁.Owns t (OpenTransaction.Unmarked o.collection)) run
    kept
    (fun event member others kept =>
      ⟨(Store.onward_answer event.before event.request).home_eq.trans kept.1,
        kept.2.answer (unnamed event member others)⟩) ⟨rfl, owns⟩
  refine ⟨books_of_quiet fun event member own => ?_, last.2⟩
  obtain ⟨kept, spared⟩ := each event member own
  rw [← kept.1] at spared
  exact rows_of_spares spared

/-- The body of a migration leaves the records, and completes just if it is recorded. -/
theorem books_runBody {outcome : Except Error Unit} (named : isPlainName o.collection = true)
    (within : ∀ handle ∈ t, handle.database = o.tenant)
    (spares : e.migration.Spares s.home (o.tenant.getD s.home) o.collection o.tenant)
    (fits : e.version ≤ signedLimit)
    (owns : s.Owns t (OpenTransaction.Unmarked o.collection)) (unnamed : Unnamed t events)
    (run : (o.runBody e .up t).Among Store.server s events outcome s') :
    (outcome = .ok () ∧ o.Books events [e.version] ∧ s'.Owns t fun _ => True) ∨
      ∃ error, outcome = .error error ∧ o.Books events [] ∧
        s'.Owns t (OpenTransaction.Unmarked o.collection) := by
  unfold runBody at run
  cases body : e.migration.body .up with
  | error noBody =>
      rw [body] at run
      obtain ⟨rfl, waiting⟩ := among_done (.ok ()) run
      exact Or.inr ⟨noBody, rfl, books_of_waits waiting, owns.waits unnamed waiting⟩
  | ok script =>
      have whole : (({ tenant := o.tenant, transaction := t } : Context).run script >>=
          fun progress => .ofExcept progress.outcome >>= fun _ =>
            o.record e.version .up t).Among Store.server s events outcome s' := by
        rw [body] at run
        exact run
      rcases among_bind whole with
        ⟨progress, middle, first, second, one, two, rfl⟩ | ⟨error, one, rfl⟩
      · obtain ⟨books, owned⟩ := books_commands (spares.of_body body) owns
          unnamed.left one
        have sameHome := home_eq_of_among one
        cases failed : progress.outcome with
        | error error =>
            rw [failed] at two
            obtain ⟨rfl, waiting⟩ := among_done (.ok ()) two
            exact Or.inr ⟨error, rfl, books.append (books_of_waits waiting),
              owned.waits unnamed.right waiting⟩
        | ok done =>
            rw [failed] at two
            rcases books_record named within fits owned unnamed.right two with
              ⟨rfl, recorded, stillOpen⟩ | ⟨error, rfl, refused, stillOpen⟩
            · exact Or.inl ⟨rfl, books.append recorded, stillOpen⟩
            · exact Or.inr ⟨error, rfl, books.append refused, stillOpen⟩
      · obtain ⟨books, owned⟩ := books_commands (spares.of_body body) owns unnamed one
        exact Or.inr ⟨error, rfl, books, owned⟩

/-- Beginning a transaction leaves the records. -/
theorem books_begin {database : Option String} {write : List String}
    {outcome : Except Error Transaction}
    (run : (Transaction.begin database write []).Among Store.server s events outcome s') :
    o.Books events [] := by
  obtain ⟨earlier, middle, later, rfl, before, _, state, after⟩ := Transaction.among_begins run
  refine books_single before (.quiet rfl ?_ .nil) after
  change o.rows (Store.server.answer middle _).2 = _
  rw [state]
  rfl

/-- The transaction that a run committed was open, so that the commit succeeds, and the
records stay. -/
theorem books_commit {t : Transaction} {outcome : Except Error Unit}
    (owns : s.Owns (some t) fun _ => True) (unnamed : Unnamed (some t) events)
    (run : t.commit.Among Store.server s events outcome s') :
    outcome = .ok () ∧ o.Books events [] := by
  obtain ⟨earlier, middle, later, rfl, before, ends, after⟩ :=
    among_single rfl (fun _ => ⟨_, rfl⟩) run
  have owned := owns.waits unnamed.left before
  obtain ⟨number, opened, nameEq, _, found, _⟩ := owned t rfl
  have plain : '/' ∉ t.id.toList := nameEq ▸ slash_notMem_hexName number
  obtain ⟨rfl, state⟩ := ends.unique (Transaction.ends_commit plain found)
  refine ⟨rfl, books_single before (.quiet rfl ?_ .nil) after⟩
  change o.rows (Store.server.answer middle _).2 = _
  rw [state]
  rfl

/-- The transaction that a run aborted was open, and without notes of the records, which
stay. -/
theorem books_abort {t : Transaction} {outcome : Except Error Unit}
    (owns : s.Owns (some t) (OpenTransaction.Unmarked o.collection))
    (unnamed : Unnamed (some t) events)
    (run : t.abort.Among Store.server s events outcome s') :
    outcome = .ok () ∧ o.Books events [] := by
  obtain ⟨earlier, middle, later, rfl, before, ends, after⟩ :=
    among_single rfl (fun _ => ⟨_, rfl⟩) run
  have owned := owns.waits unnamed.left before
  obtain ⟨number, opened, nameEq, _, found, unmarked⟩ := owned t rfl
  have plain : '/' ∉ t.id.toList := nameEq ▸ slash_notMem_hexName number
  obtain ⟨rfl, state⟩ := ends.unique (Transaction.ends_abort plain found)
  refine ⟨rfl, books_single before (.quiet rfl ?_ .nil) after⟩
  have onward : Store.Onward middle (middle.aborted t.abortRequest t.id opened) := by
    rw [← state]
    exact Store.onward_answer middle t.abortRequest
  change o.rows (Store.server.answer middle _).2 = _
  rw [state]
  exact Store.documents_of_documentsOf_eq o.tenant onward
    (Store.documentsOf_aborted _ fun _ => unmarked)

/-- The end of a transaction leaves the records and the outcome. -/
theorem books_finish {t : Transaction} {given outcome : Except Error Unit}
    (owns : s.Owns (some t) fun opened =>
      given = .ok () ∨ OpenTransaction.Unmarked o.collection opened)
    (unnamed : Unnamed (some t) events)
    (run : (t.finish given).Among Store.server s events outcome s') :
    outcome = given ∧ o.Books events [] := by
  cases given with
  | ok value =>
      obtain ⟨given, commits, rfl⟩ := among_bind_pure run
      obtain ⟨rfl, books⟩ := books_commit (o := o) (owns.mono fun _ _ => trivial) unnamed commits
      exact ⟨rfl, books⟩
  | error failure =>
      have unmarked : s.Owns (some t) (OpenTransaction.Unmarked o.collection) :=
        owns.mono fun _ either => either.resolve_left nofun
      obtain ⟨given, middle, first, second, aborts, fails, rfl⟩ := among_attempt_bind run
      obtain ⟨rfl, books⟩ := books_abort unmarked unnamed.left aborts
      obtain ⟨rfl, waiting⟩ := among_done (.ok ()) fails
      exact ⟨rfl, books.append (books_of_waits waiting)⟩

/-- A migration is recorded just if it completes. -/
theorem books_apply {outcome : Except Error Unit} (named : isPlainName o.collection = true)
    (spares : e.migration.Spares s.home (o.tenant.getD s.home) o.collection o.tenant)
    (fits : e.version ≤ signedLimit) (apart : Apart events)
    (run : (o.apply e .up).Among Store.server s events outcome s') :
    (outcome = .ok () ∧ o.Books events [e.version]) ∨
      ∃ error, outcome = .error error ∧ o.Books events [] := by
  unfold apply at run
  split at run
  · rcases books_runBody (t := none) named (fun _ member => by cases member) spares fits
        (Store.owns_none _ s) (unnamed_none events) run with ⟨is, books, _⟩ | ⟨error, is, books, _⟩
    · exact Or.inl ⟨is, books⟩
    · exact Or.inr ⟨error, is, books⟩
  · rcases among_bind run with ⟨t, s₁, first, second, begins, rest, rfl⟩ | ⟨_, begins, _⟩
    · obtain ⟨inDatabase, unnamed, owns⟩ := Transaction.among_begins_owned apart begins
      have begun := books_begin (o := o) begins
      rw [← home_eq_of_among begins] at spares
      have within : ∀ handle ∈ some t, handle.database = o.tenant := by
        rintro handle ⟨⟩
        exact inDatabase
      have empty : s₁.Owns (some t) (OpenTransaction.Unmarked o.collection) :=
        owns.mono fun opened none u member => by simp [none] at member
      obtain ⟨given, s₂, third, fourth, body, ends, rfl⟩ := among_attempt_bind rest
      rcases books_runBody named within spares fits empty unnamed.right.left body with
        ⟨rfl, recorded, stillOpen⟩ | ⟨error, rfl, refused, unmarked⟩
      · obtain ⟨rfl, ended⟩ := books_finish (o := o)
          (stillOpen.mono fun _ _ => Or.inl rfl) unnamed.right.right ends
        exact Or.inl ⟨rfl, begun.append (recorded.append ended)⟩
      · obtain ⟨rfl, ended⟩ := books_finish (unmarked.mono fun _ => Or.inr)
          unnamed.right.right ends
        exact Or.inr ⟨error, rfl, begun.append (refused.append ended)⟩
    · obtain ⟨_, _, _, _, _, is, _⟩ := Transaction.among_begins begins
      cases is

theorem books_runOne {outcome : Except Error (List Int)} (named : isPlainName o.collection = true)
    (spares : e.migration.Spares s.home (o.tenant.getD s.home) o.collection o.tenant)
    (fits : e.version ≤ signedLimit) (applied : List Int) (apart : Apart events)
    (run : (o.runOne .up applied e).Among Store.server s events outcome s') :
    (∃ next, outcome = .ok next ∧ o.Books events [e.version]) ∨
      ∃ error, outcome = .error error ∧ o.Books events [] := by
  have demanded : ∀ {first : List (Event Store)} {outcome : Except Error Unit} {middle : Store},
      (o.demandOrder e applied).Among Store.server s first outcome middle →
        o.Books first [] := by
    intro first outcome middle demands
    apply books_of_quiet
    intro event member own
    have asks : (o.demandOrder e applied).Asks fun _ => False := o.asks_demandOrder e applied
    exact (asks.own_requests demands event member own).elim
  rcases among_bind run with ⟨_, middle, first, second, one, two, rfl⟩ | ⟨error, one, rfl⟩
  · rw [← home_eq_of_among one] at spares
    obtain ⟨given, applies, rfl⟩ := among_bind_pure two
    rcases books_apply named spares fits apart.right applies with
      ⟨rfl, books⟩ | ⟨error, rfl, books⟩
    · exact Or.inl ⟨_, rfl, (demanded one).append books⟩
    · exact Or.inr ⟨error, rfl, (demanded one).append books⟩
  · exact Or.inr ⟨error, rfl, demanded one⟩

/-- Each migration of a run is recorded just if it completes. -/
theorem books_noteEach {pending : List Entry} {outcome : Except Error (RunNotes Unit)}
    (named : isPlainName o.collection = true)
    (spares : ∀ e ∈ pending, e.version ≤ signedLimit ∧
      e.migration.Spares s.home (o.tenant.getD s.home) o.collection o.tenant)
    (applied : List Int) (apart : Apart events)
    (run : (o.noteEach .up applied pending).Among Store.server s events outcome s') :
    ∃ notes, outcome = .ok notes ∧ o.Books events notes.completed := by
  induction pending generalizing s s' applied events outcome with
  | nil =>
      obtain ⟨rfl, waiting⟩ := among_done (.ok ()) run
      exact ⟨_, rfl, books_of_waits waiting⟩
  | cons e rest inductionHypothesis =>
      obtain ⟨given, middle, first, second, one, two, rfl⟩ := among_attempt_bind run
      obtain ⟨fits, spared⟩ := spares e List.mem_cons_self
      rcases books_runOne named spared fits applied apart.left one with
        ⟨next, rfl, books⟩ | ⟨error, rfl, books⟩
      · have sparesRest : ∀ later ∈ rest, later.version ≤ signedLimit ∧
            later.migration.Spares middle.home (o.tenant.getD middle.home) o.collection
              o.tenant := by
          rw [home_eq_of_among one]
          exact fun later member => spares later (List.mem_cons_of_mem _ member)
        dsimp only at two
        obtain ⟨given, following, rfl⟩ := among_bind_pure two
        obtain ⟨notes, rfl, more⟩ := inductionHypothesis sparesRest next apart.right following
        exact ⟨_, rfl, books.append more⟩
      · obtain ⟨rfl, waiting⟩ := among_done (.ok ()) two
        exact ⟨_, rfl, books.append (books_of_waits waiting)⟩

/-- A run records just the versions that it completes. -/
theorem books_noteRun {entries : List Entry} {strategy : Strategy}
    {outcome : Except Error (RunNotes (List Int))} (named : isPlainName o.collection = true)
    (spares : ∀ e ∈ entries, e.version ≤ signedLimit ∧
      e.migration.Spares s.home (o.tenant.getD s.home) o.collection o.tenant)
    (apart : Apart events)
    (run : (o.noteRun entries .up strategy).Among Store.server s events outcome s') :
    ∃ notes, outcome = .ok notes ∧ o.Books events notes.completed := by
  obtain ⟨given, middle, first, second, one, two, rfl⟩ := among_attempt_bind run
  have reads := books_appliedVersions named one
  cases given with
  | error error =>
      obtain ⟨rfl, waiting⟩ := among_done (.ok ()) two
      exact ⟨_, rfl, reads.append (books_of_waits waiting)⟩
  | ok applied =>
      dsimp only at two
      cases checked : checkDuplicates (selectPending entries applied .up strategy) with
      | error fault =>
          rw [checked] at two
          obtain ⟨rfl, waiting⟩ := among_done (.ok ()) two
          exact ⟨_, rfl, reads.append (books_of_waits waiting)⟩
      | ok =>
          rw [checked] at two
          have sparesPending : ∀ e ∈ selectPending entries applied .up strategy,
              e.version ≤ signedLimit ∧ e.migration.Spares middle.home
                (o.tenant.getD middle.home) o.collection o.tenant := by
            rw [home_eq_of_among one]
            exact fun e member => spares e (mem_of_mem_selectPending member).1
          dsimp only at two
          obtain ⟨given, each, rfl⟩ := among_bind_pure two
          obtain ⟨notes, rfl, books⟩ := books_noteEach named sparesPending applied apart.right each
          exact ⟨_, rfl, reads.append books⟩

/-! ### Runs that read the records at the same time -/

/-- Without the creation of a collection, the records are read by one query. -/
theorem appliedVersions_of_skips (skips : o.skipCreation = true) {compiled : CompiledQuery}
    (compiles : o.versionsQuery.compile .select = .ok compiled) :
    o.appliedVersions = (do
      let rows ← Exchange.runCursor o.tenant compiled.text compiled.bindVars none
      let versions ← .ofExcept (rows.mapM versionOf)
      return versions.mergeSort) := by
  rw [appliedVersions, compiles, ensureBookkeeping, if_pos skips]
  rfl

/-- Records that fit into a page are read with one request. -/
theorem ends_appliedVersions_short (named : isPlainName o.collection = true)
    (skips : o.skipCreation = true)
    {c : StoredCollection} {compiled : CompiledQuery}
    (stored : (s.database (o.tenant.getD s.home)).collections.get? o.collection = some c)
    (recorded : Recorded c.documents versions) (fits : c.documents.length ≤ s.batchSize)
    (compiles : o.versionsQuery.compile .select = .ok compiled) :
    o.appliedVersions.Ends Store.server s (.ok versions.mergeSort)
      (s.noteQuery (o.readRequest compiled) compiled.text) := by
  let read : CursorRead := .start o.tenant compiled.text compiled.bindVars none
  have answer : Store.server.answer s read.request = _ :=
    answer_readRequest named stored fits compiles
  have drained := Server.drain_finished Store.server s read
    (by rw [answer]; exact Store.receive_short read _)
  rw [answer] at drained
  rw [appliedVersions_of_skips skips compiles]
  apply Exchange.Ends.bind (ends_runCursor_iff.mpr
    ⟨(congrArg Run.outcome drained).symm, (congrArg Run.state drained).symm⟩)
  apply Exchange.Ends.bind
    (Exchange.ends_ofExcept_iff.mpr ⟨recorded.mapM_versionOf.symm, rfl⟩)
  exact Exchange.ends_pure_iff.mpr ⟨rfl, rfl⟩

/-- Two runs that read records that fit into a page, one after the other, read the same. -/
theorem race_appliedVersions (named : isPlainName o.collection = true)
    (skips : o.skipCreation = true)
    {c : StoredCollection} {compiled : CompiledQuery}
    (stored : (s.database (o.tenant.getD s.home)).collections.get? o.collection = some c)
    (recorded : Recorded c.documents versions) (fits : c.documents.length ≤ s.batchSize)
    (compiles : o.versionsQuery.compile .select = .ok compiled) :
    ∃ events, Race Store.server s o.appliedVersions o.appliedVersions events
      (.ok versions.mergeSort) (.ok versions.mergeSort)
      ((s.noteQuery (o.readRequest compiled) compiled.text).noteQuery (o.readRequest compiled)
        compiled.text) := by
  have first := answer_readRequest named stored fits compiles
  have second := answer_readRequest (s := s.noteQuery (o.readRequest compiled) compiled.text)
    named stored fits compiles
  have done : ∀ s', Race Store.server s'
      (Exchange.ofExcept ((c.documents.map fun d => Json.arr (["version"].map d.value)).mapM
        versionOf) >>= fun versions => pure versions.mergeSort)
      (Exchange.ofExcept ((c.documents.map fun d => Json.arr (["version"].map d.value)).mapM
        versionOf) >>= fun versions => pure versions.mergeSort) []
      (.ok versions.mergeSort) (.ok versions.mergeSort) s' := by
    intro s'
    rw [recorded.mapM_versionOf]
    exact race_done _ _ _ _
  rw [appliedVersions_of_skips skips compiles]
  exact ⟨_, .left_finish first (Store.receive_short _ _)
    (.right_finish second (Store.receive_short _ _) (done _))⟩

/-! ### Both runs together -/

/-- The rows after a race of two clients are those from the start, with the rows that either
put behind them, each of which was new when it came. -/
theorem recorded_of_books {one two : List Int} (traced : Traced Store.server s events s')
    (left : o.Books events one) (right : o.Books (events.map Event.flip) two)
    (recorded : Recorded (o.rows s) versions) :
    ∃ after, Recorded (o.rows s') after ∧ after.Perm (versions ++ (one ++ two)) := by
  induction events generalizing s versions one two with
  | nil =>
      cases traced
      cases left
      cases right
      exact ⟨versions, recorded, by simp⟩
  | cons event rest inductionHypothesis =>
      obtain ⟨rfl, following⟩ := traced
      -- A row that enters is that of a version that is not recorded, as its key is new.
      have entered : ∀ {v d}, Document.Records d v → v ≤ signedLimit →
          (∀ row ∈ o.rows event.before, row.hasKey (toString v) = false) →
          o.rows (event.after Store.server) = o.rows event.before ++ [d] →
          Recorded (o.rows (event.after Store.server)) (versions ++ [v]) := by
        intro v d records fits fresh added
        rw [added]
        apply recorded.append records _ fits
        intro member
        obtain ⟨row, found⟩ := recorded.exists_find? member
        have has := List.find?_some found
        rw [fresh row (List.mem_of_find?_eq_some found)] at has
        cases has
      cases left with
      | other others leftRest =>
          cases right with
          | other flipped _ => simp [others] at flipped
          | quiet _ same rightRest =>
              exact inductionHypothesis following leftRest rightRest (same ▸ recorded)
          | enters _ records fits fresh added rightRest =>
              obtain ⟨after, recordedAfter, perm⟩ := inductionHypothesis following leftRest
                rightRest (entered records fits fresh added)
              refine ⟨after, recordedAfter, perm.trans ?_⟩
              rw [List.append_assoc, List.singleton_append]
              exact List.perm_middle.symm.append_left versions
      | quiet own same leftRest =>
          cases right with
          | other _ rightRest =>
              exact inductionHypothesis following leftRest rightRest (same ▸ recorded)
          | quiet flipped _ _ => simp [own] at flipped
          | enters flipped _ _ _ _ _ => simp [own] at flipped
      | enters own records fits fresh added leftRest =>
          cases right with
          | other _ rightRest =>
              obtain ⟨after, recordedAfter, perm⟩ := inductionHypothesis following leftRest
                rightRest (entered records fits fresh added)
              refine ⟨after, recordedAfter, perm.trans ?_⟩
              simp
          | quiet flipped _ _ => simp [own] at flipped
          | enters flipped _ _ _ _ _ => simp [own] at flipped

/-- Two runs of the runner race on a store whose records the runner has written, with bodies
that spare the records.  Request for request they do the same as with notes of the versions
that they complete.  No version is completed by both; in the end those from the start and
those that either completed are recorded, each once, and there is one row for each. -/
theorem race_completes_once {entries₁ entries₂ : List Entry} {strategy₁ strategy₂ : Strategy}
    {outcome₁ outcome₂ : Except Error (List Int)} (named : isPlainName o.collection = true)
    (written : Recorded (o.rows s) versions)
    (spares : ∀ e ∈ entries₁ ++ entries₂, e.version ≤ signedLimit ∧
      e.migration.Spares s.home (o.tenant.getD s.home) o.collection o.tenant)
    (race : Race Store.server s (o.migrate entries₁ .up strategy₁)
      (o.migrate entries₂ .up strategy₂) events outcome₁ outcome₂ s') :
    ∃ completed₁ completed₂ recorded,
      Race Store.server s (o.noteRun entries₁ .up strategy₁) (o.noteRun entries₂ .up strategy₂)
        events (.ok ⟨completed₁, outcome₁⟩) (.ok ⟨completed₂, outcome₂⟩) s' ∧
      (∀ v ∈ completed₁, v ∉ completed₂) ∧
      Recorded (o.rows s') recorded ∧
      recorded.Perm (versions ++ (completed₁ ++ completed₂)) ∧
      ∀ v ∈ recorded, (o.rows s').countP (·.hasKey (toString v)) = 1 := by
  obtain ⟨runLeft, runRight⟩ := race
  rw [migrate_eq] at runLeft runRight
  obtain ⟨given₁, left, outcomeLeft⟩ := among_map runLeft
  obtain ⟨given₂, right, outcomeRight⟩ := among_map runRight
  have sparesLeft := fun e member => spares e (List.mem_append_left entries₂ member)
  have sparesRight := fun e member => spares e (List.mem_append_right entries₁ member)
  have namesLeft := namesOwn_noteRun named (fun e member => (sparesLeft e member).2) strategy₁ left
  have namesRight :=
    namesOwn_noteRun named (fun e member => (sparesRight e member).2) strategy₂ right
  have apartLeft := apart_of_namesGiven left.traced namesRight
  have apartRight : Apart (events.map Event.flip) := by
    apply apart_of_namesGiven right.traced
    rw [Event.map_flip_flip]
    exact namesLeft
  obtain ⟨notes₁, rfl, booksLeft⟩ := books_noteRun named sparesLeft apartLeft left
  obtain ⟨notes₂, rfl, booksRight⟩ := books_noteRun named sparesRight apartRight right
  cases outcomeLeft
  cases outcomeRight
  obtain ⟨recorded, recordedAfter, perm⟩ :=
    recorded_of_books left.traced booksLeft booksRight written
  refine ⟨notes₁.completed, notes₂.completed, recorded, ⟨left, right⟩, ?_, recordedAfter, perm,
    fun v member => recordedAfter.countP_hasKey member⟩
  have once := (List.nodup_append.mp (perm.nodup_iff.mp recordedAfter.once)).2.1
  exact fun v inLeft inRight => (List.nodup_append.mp once).2.2 v inLeft v inRight rfl

end RunnerOptions

/-- A migration that does nothing. -/
def emptyEntry : Entry :=
  { version := 1, name := "first", migration := {} }

/-- A store with a collection for records, and no records yet. -/
def recordsStore : Store :=
  { databases := ⟨[("_system",
      { collections := ⟨[(defaultBookkeeping, { properties := {} })]⟩ })]⟩ }

/-- A runner that counts on the collection for records. -/
def readyOptions : RunnerOptions :=
  { skipCreation := true }

/-- The query for the records of this runner. -/
def recordsQuery : CompiledQuery :=
  ⟨"FOR s0 IN `schema_migrations` RETURN [ s0.`version` ]", [], ["version"]⟩

theorem compile_recordsQuery : readyOptions.versionsQuery.compile .select = .ok recordsQuery :=
  rfl

/-- The store after the records were read twice. -/
def readStore : Store :=
  (recordsStore.noteQuery (readyOptions.readRequest recordsQuery) recordsQuery.text).noteQuery
    (readyOptions.readRequest recordsQuery) recordsQuery.text

/-- Two runs of the same migration take turns: both begin a transaction, both put their row
and both end their transactions.  The second row is refused. -/
theorem exists_race_runEach :
    ∃ events e s', Race Store.server readStore
      (readyOptions.runEach .up [] [emptyEntry] >>= fun _ => pure [(1 : Int)])
      (readyOptions.runEach .up [] [emptyEntry] >>= fun _ => pure [(1 : Int)]) events (.ok [1])
      (.error e) s' :=
  ⟨_, _, _, .left_send (.right_send (.left_send (.right_send (.left_send
    (.right_send (race_done _ _ _ _))))))⟩

/-- Two runs that read the records before either writes find the same migration pending. -/
theorem exists_race_migrate :
    ∃ events e s', Race Store.server recordsStore (readyOptions.migrate [emptyEntry] .up .all)
      (readyOptions.migrate [emptyEntry] .up .all) events (.ok [1]) (.error e) s' := by
  obtain ⟨first, reads⟩ := RunnerOptions.race_appliedVersions (o := readyOptions)
    (s := recordsStore) (by decide) rfl rfl .nil (by decide) compile_recordsQuery
  rw [List.mergeSort_nil] at reads
  obtain ⟨second, e, s', runs⟩ := exists_race_runEach
  have pending : selectPending [emptyEntry] [] .up .all = [emptyEntry] := by
    simp [selectPending, Strategy.take, Direction.arrange, Direction.isOpen]
  refine ⟨first ++ second, e, s', reads.bind ?_⟩
  simp only [pending]
  exact runs

theorem spares_emptyEntry : ∀ e ∈ [emptyEntry] ++ [emptyEntry], e.version ≤ signedLimit ∧
    e.migration.Spares "_system" "_system" defaultBookkeeping none := by
  intro e member
  have same : e = emptyEntry := by simpa using member
  rw [same]
  constructor
  · decide
  · exact ⟨fun _ member => absurd member List.not_mem_nil, fun _ => nofun, fun _ => nofun⟩

theorem race_completes_once_of_emptyEntry :
    ∃ events e s' completed recorded,
      Race Store.server recordsStore (readyOptions.noteRun [emptyEntry] .up .all)
        (readyOptions.noteRun [emptyEntry] .up .all) events (.ok ⟨[1], .ok [1]⟩)
        (.ok ⟨completed, .error e⟩) s' ∧
      1 ∉ completed ∧ Recorded (readyOptions.rows s') recorded ∧
      recorded.Perm (1 :: completed) := by
  obtain ⟨events, e, s', race⟩ := exists_race_migrate
  have written : Recorded (readyOptions.rows recordsStore) [] := .nil
  obtain ⟨completed₁, completed₂, recorded, noted, apart, recordedAfter, perm, _⟩ :=
    RunnerOptions.race_completes_once (o := readyOptions) (by decide) written spares_emptyEntry
      race
  obtain rfl := RunnerOptions.completed_of_noteRun noted.left
  exact ⟨events, e, s', completed₂, recorded, noted, apart 1 List.mem_cons_self, recordedAfter,
    perm⟩

end DocStore
