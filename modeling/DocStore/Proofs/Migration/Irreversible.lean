/-
Module: DocStore.Proofs.Migration.Irreversible
Purpose: a change with a command that has no inverse is not taken back at all, however many of
  its other commands could be: nothing is asked of the store, and a migration with that change
  stays applied.
Main exports:
  Command.Irreversible, Command.reverseAll_cases, Store.Intact, Script.inverse_of_irreversible,
  RunnerOptions.ends_migrateDown_of_no_body, irreversible_reverts_nothing
-/
import DocStore.Proofs.Migration.Inverting
import DocStore.Proofs.Migration.Ordering

namespace DocStore

open Exchange Text

/-! ### Commands without inverse -/

/-- A change of a column that loses what was there. -/
inductive ColumnOp.Lossy : ColumnOp → Prop where
  | modify (name : String) (type : ColumnType) (options : ColumnOptions) :
      Lossy (.modify name type options)
  | remove (name : String) : Lossy (.remove name)

namespace Command

/-- A command that cannot be taken back: a query, the change of a view, or a change of columns
one of which is lossy. -/
inductive Irreversible : Command → Prop where
  | execute (aql : String) : Irreversible (.execute aql)
  | alterView (view : View) (changes : List ViewChange) : Irreversible (.alterView view changes)
  | alterCollection (c : Collection) {columns : List ColumnOp} {op : ColumnOp}
      (member : op ∈ columns) (lossy : op.Lossy) : Irreversible (.alterCollection c columns)

theorem reverseColumn_cases (command : Command) (op : ColumnOp) :
    (¬ op.Lossy ∧ ∃ inverse, command.reverseColumn op = .ok inverse) ∨
      op.Lossy ∧ ∃ action, command.reverseColumn op = .error (command.irreversible action) := by
  cases op with
  | add name type options => exact Or.inl ⟨(fun lost => by cases lost), _, rfl⟩
  | rename source target => exact Or.inl ⟨(fun lost => by cases lost), _, rfl⟩
  | modify name type options => exact Or.inr ⟨.modify name type options, _, rfl⟩
  | remove name => exact Or.inr ⟨.remove name, _, rfl⟩

/-- Changes of columns have inverses unless one of them is lossy. -/
theorem reverseColumns_cases (command : Command) (ops : List ColumnOp) :
    ((∀ op ∈ ops, ¬ op.Lossy) ∧ ∃ inverses, command.reverseColumns ops = .ok inverses) ∨
      (∃ op ∈ ops, op.Lossy) ∧
        ∃ action, command.reverseColumns ops = .error (command.irreversible action) := by
  induction ops with
  | nil => exact Or.inl ⟨fun _ absent => absurd absent List.not_mem_nil, [], rfl⟩
  | cons op rest inductionHypothesis =>
      rcases command.reverseColumn_cases op with ⟨keeps, inverse, first⟩ | ⟨lossy, action, first⟩
      · rcases inductionHypothesis with ⟨all, inverses, others⟩ | ⟨⟨lost, member, lossy⟩, action,
          others⟩
        · refine Or.inl ⟨List.forall_mem_cons.mpr ⟨keeps, all⟩, inverse :: inverses, ?_⟩
          rw [reverseColumns, first, others]
          rfl
        · refine Or.inr ⟨⟨lost, List.mem_cons_of_mem _ member, lossy⟩, action, ?_⟩
          rw [reverseColumns, first, others]
          rfl
      · refine Or.inr ⟨⟨op, List.mem_cons_self, lossy⟩, action, ?_⟩
        rw [reverseColumns, first]
        rfl

/-- A command has an inverse, or fails to have one for what it is. -/
theorem reverse_cases (command : Command) :
    (¬ command.Irreversible ∧ ∃ inverse, command.reverse = .ok inverse) ∨
      command.Irreversible ∧ ∃ action, command.reverse = .error (command.irreversible action) := by
  cases command with
  | create o => exact Or.inl ⟨(fun lost => by cases lost), _, rfl⟩
  | createIfNotExists o => exact Or.inl ⟨(fun lost => by cases lost), _, rfl⟩
  | drop o => exact Or.inl ⟨(fun lost => by cases lost), _, rfl⟩
  | dropIfExists o => exact Or.inl ⟨(fun lost => by cases lost), _, rfl⟩
  | rename source target => exact Or.inl ⟨(fun lost => by cases lost), _, rfl⟩
  | execute aql => exact Or.inr ⟨.execute aql, _, rfl⟩
  | alterView view changes => exact Or.inr ⟨.alterView view changes, _, rfl⟩
  | alterCollection c columns =>
      rcases (alterCollection c columns).reverseColumns_cases columns.reverse with
        ⟨all, inverses, is⟩ | ⟨⟨op, member, lossy⟩, action, is⟩
      · refine Or.inl ⟨?_, .alterCollection c inverses, by simp only [reverse, is]; rfl⟩
        rintro (_ | _ | ⟨_, member, lossy⟩)
        exact all _ (List.mem_reverse.mpr member) lossy
      · exact Or.inr ⟨.alterCollection c (List.mem_reverse.mp member) lossy, action,
          by simp only [reverse, is]; rfl⟩

/-- Commands have inverses, or one of them that has none is what their inversion fails for. -/
theorem reverseAll_cases (commands : List Command) :
    ((∀ command ∈ commands, ¬ command.Irreversible) ∧
        ∃ inverses, reverseAll commands = .ok inverses) ∨
      ∃ command ∈ commands, command.Irreversible ∧
        ∃ action, reverseAll commands = .error (command.irreversible action) := by
  cases all : reverseAll commands with
  | ok inverses =>
      refine Or.inl ⟨fun command member => ?_, inverses, rfl⟩
      obtain ⟨inverse, _, is⟩ := exists_right_of_forall₂ (reverseAll_eq_ok_iff.mp all) member
      rcases command.reverse_cases with ⟨keeps, _⟩ | ⟨_, action, failed⟩
      · exact keeps
      · rw [is] at failed
        cases failed
  | error e =>
      obtain ⟨before, command, after, rfl, failed, _⟩ := exists_of_reverseAll_eq_error all
      rcases command.reverse_cases with ⟨_, inverse, is⟩ | ⟨lost, action, is⟩
      · rw [failed] at is
        cases is
      · rw [failed] at is
        exact Or.inr ⟨command, by simp, lost, action, congrArg Except.error (Except.error.inj is)⟩

end Command

/-- A change with an irreversible command has no inverse, and the failure names such a
command. -/
theorem Script.inverse_of_irreversible {change : List Command}
    (irreversible : ∃ command ∈ change, command.Irreversible) :
    ∃ command ∈ change, command.Irreversible ∧
      ∃ action, ({ commands := change } : Script).inverse = .error (command.irreversible action) := by
  obtain ⟨given, inChange, lost⟩ := irreversible
  rcases Command.reverseAll_cases change.reverse with
    ⟨all, _⟩ | ⟨command, member, failing, action, is⟩
  · exact absurd lost (all given (List.mem_reverse.mpr inChange))
  · refine ⟨command, List.mem_reverse.mp member, failing, action, ?_⟩
    rw [Script.inverse_eq rfl, is]
    rfl

/-! ### What a failing transaction leaves -/

namespace Store

/-- The second store has what the first one has in all its databases, and no transactions but
those that were open. -/
structure Intact (s s' : Store) : Prop where
  home_eq : s'.home = s.home
  batchSize_eq : s'.batchSize = s.batchSize
  database_eq : ∀ name, s'.database name = s.database name
  transactions : ∀ id t, s'.transactions.get? id = some t → s.transactions.get? id = some t

variable {s s₁ s₂ : Store}

theorem Intact.refl (s : Store) : Intact s s := ⟨rfl, rfl, fun _ => rfl, fun _ _ => id⟩

theorem Intact.trans (first : Intact s s₁) (second : Intact s₁ s₂) : Intact s s₂ where
  home_eq := second.home_eq.trans first.home_eq
  batchSize_eq := second.batchSize_eq.trans first.batchSize_eq
  database_eq name := (second.database_eq name).trans (first.database_eq name)
  transactions id t isOpen := first.transactions id t (second.transactions id t isOpen)

theorem SameData.intact (same : SameData s s₁) : Intact s s₁ :=
  ⟨same.home_eq, same.batchSize_eq, same.database_eq, fun id t isOpen => by
    rwa [same.transactions_eq] at isOpen⟩

theorem Intact.holds {home database name : String} {documents : List Document}
    (intact : Intact s s₁) (holds : s.Holds home database name documents) :
    s₁.Holds home database name documents where
  home_eq := intact.home_eq.trans holds.home_eq
  batch := intact.batchSize_eq ▸ holds.batch
  documents_eq := by
    rw [documentsOf, intact.database_eq, ← documentsOf]
    exact holds.documents_eq

/-- A transaction that is begun and aborted at once leaves the store intact. -/
theorem intact_aborted (s : Store) (begin abort : Request) (write : List String) :
    Intact s ((s.begun begin write).aborted abort (hexName (s.names + 1))
      { database := s.databaseOf begin, write }) where
  home_eq := rfl
  batchSize_eq := rfl
  database_eq name := by
    by_cases here : name = s.databaseOf begin
    · subst here
      exact database_putDatabase_self _ _ _
    · exact database_putDatabase_of_ne _ _ here
  transactions id t isOpen := by
    change (Dict.erase (s.transactions.insert _ _) _).get? id = some t at isOpen
    rw [Dict.get?_erase] at isOpen
    split at isOpen
    · cases isOpen
    · next other => rwa [Dict.get?_insert_of_ne _ _ other] at isOpen

end Store

/-- An operation that only fails leaves the store intact, also in a transaction of its own. -/
theorem ends_withTransaction_failing {α : Type} {operation : Transaction → Exchange α}
    {e : Error} (fails : ∀ t, operation t = .fail e) (database : Option String)
    (write : List String) (s : Store) :
    ∃ s', (withTransaction database write operation).Ends Store.server s (.error e) s' ∧
      s.Intact s' := by
  have inside (s₁ : Store) : (operation (Transaction.next s database)).Ends Store.server s₁
      (.error e) s₁ := by
    rw [fails]
    exact ends_fail_iff.mpr ⟨rfl, rfl⟩
  exact ⟨_, ends_withTransaction_error (inside _) (Dict.get?_insert_self _ _ _),
    s.intact_aborted _ _ write⟩

namespace RunnerOptions

variable {o : RunnerOptions} {s : Store} {d : Direction} {e : Entry} {applied : List Int}

/-- A migration without a body in a direction fails, and leaves the store intact. -/
theorem ends_apply_of_no_body {error : Error} (o : RunnerOptions)
    (failed : e.migration.body d = .error error) (s : Store) :
    ∃ s', (o.apply e d).Ends Store.server s (.error error) s' ∧ s.Intact s' := by
  have fails : ∀ t, o.runBody e d t = .fail error := by
    intro t
    rw [runBody, failed]
    rfl
  unfold apply
  split
  · rw [fails]
    exact ⟨s, ends_fail_iff.mpr ⟨rfl, rfl⟩, .refl s⟩
  · exact ends_withTransaction_failing (fun t => fails (some t)) _ _ s

/-- A recorded migration that cannot be taken back fails, leaves the store intact and stays
recorded. -/
theorem ends_migrateDown_of_no_body {error : Error} (named : isPlainName o.collection = true)
    (batch : 0 < s.batchSize) (failed : e.migration.body .down = .error error)
    (recorded : o.recordedIn s = .ok applied) (member : e.version ∈ applied) :
    ∃ s', (o.migrateDown e).Ends Store.server s (.error error) s' ∧ s.Intact s' ∧
      o.recordedIn s' = .ok applied := by
  have reads : o.appliedVersions.Ends Store.server s (.ok applied) _ := ⟨recorded, rfl⟩
  have same := sameData_of_appliedVersions named batch reads member
  obtain ⟨s', applies, intact⟩ := ends_apply_of_no_body o failed
    (o.appliedVersions.runOn Store.server s).state
  refine ⟨s', ?_, same.intact.trans intact, ?_⟩
  · apply reads.bind
    rw [if_pos (List.contains_iff_mem.mpr member)]
    exact applies.bind_error
  · obtain ⟨documents, versions, _, holds, _, read, rfl⟩ :=
      exists_of_appliedVersions named batch reads
    obtain ⟨_, again, _⟩ := ends_appliedVersions_taken named read (intact.holds holds)
    exact again.1

end RunnerOptions

/-! ### Nothing is taken back -/

/-- A change with an irreversible command, wherever it stands, is not taken back at all.  To
revert it is to fail with that command before anything is asked, whoever would answer.  To take
back a recorded migration with that change, and without a way down of its own, fails alike, in
a transaction or outside, leaves all databases and what is recorded as they were, and leaves no
transaction open that was not. -/
theorem irreversible_reverts_nothing {change : List Command}
    (irreversible : ∃ command ∈ change, command.Irreversible) :
    (∀ (c : Context) {σ : Type} (server : Server σ) (s : σ),
      ∃ command ∈ change, command.Irreversible ∧ ∃ action,
        (c.revert { commands := change }).runOn server s =
          ⟨.ok { failure := some (command.irreversible action) }, s, [], []⟩) ∧
    ∀ (o : RunnerOptions) (e : Entry) (s : Store) (applied : List Int),
      isPlainName o.collection = true → 0 < s.batchSize →
      e.migration.change = { commands := change } → e.migration.down = none →
      o.recordedIn s = .ok applied → e.version ∈ applied →
      let run := (o.migrateDown e).runOn Store.server s
      (∃ command ∈ change, command.Irreversible ∧ ∃ action,
        run.outcome = .error (command.irreversible action)) ∧
      (∀ name, run.state.database name = s.database name) ∧
      o.recordedIn run.state = .ok applied ∧
      ∀ id t, run.state.transactions.get? id = some t → s.transactions.get? id = some t := by
  obtain ⟨command, member, lost, action, none⟩ := Script.inverse_of_irreversible irreversible
  constructor
  · intro c σ server s
    refine ⟨command, member, lost, action, ?_⟩
    rw [Context.revert, none]
    rfl
  · intro o e s applied named batch changes noDown recorded known run
    have failed : e.migration.body .down = .error (command.irreversible action) := by
      rw [Migration.body, noDown, changes]
      exact none
    obtain ⟨s', ends, intact, kept⟩ :=
      RunnerOptions.ends_migrateDown_of_no_body named batch failed recorded known
    have state : run.state = s' := ends.2
    rw [state]
    exact ⟨⟨command, member, lost, action, ends.1⟩, intact.database_eq, kept,
      intact.transactions⟩

/-- A migration that creates a collection and then runs a query. -/
def fillingEntry : Entry :=
  { version := 5, name := "fill", migration := { change := { commands :=
      [.create (.collection { name := "users" }), .execute "RETURN 1"] } } }

theorem irreversible_reverts_nothing_of_fillingEntry :
    (∃ fault, ((({} : RunnerOptions).migrateDown fillingEntry).runOn Store.server
      recordingStore).outcome = .error (.irreversible fault)) ∧
    ({} : RunnerOptions).recordedIn ((({} : RunnerOptions).migrateDown fillingEntry).runOn
      Store.server recordingStore).state = .ok [5] := by
  have recorded := (recordingStore_keeps false).recordedIn (by decide) rfl
  rw [List.mergeSort_singleton] at recorded
  obtain ⟨_, down⟩ := irreversible_reverts_nothing
    ⟨_, List.mem_cons_of_mem _ List.mem_cons_self, .execute "RETURN 1"⟩
  obtain ⟨⟨_, _, _, _, failed⟩, _, kept, _⟩ := down {} fillingEntry recordingStore [5] (by decide)
    (by decide) rfl rfl recorded List.mem_cons_self
  exact ⟨⟨_, failed⟩, kept⟩

end DocStore
