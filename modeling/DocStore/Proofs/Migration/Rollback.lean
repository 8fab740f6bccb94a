/-
Module: DocStore.Proofs.Migration.Rollback
Purpose: a change that creates and renames objects is taken back by the inverses of its
  commands, the last one first.
Main exports:
  Definition.Reversible, Command.Reversible, Context.Issued, Context.revert_issued,
  Context.revert_restores
-/
import DocStore.Migration.Runner
import DocStore.Proofs.Memory.Alike
import DocStore.Proofs.Migration.Inverting
import DocStore.Proofs.Migration.Reached

namespace DocStore

open Exchange

/-! ### Objects -/

namespace Definition

/-- What the creation of an object asks for so that it can be taken back: a view is
named without slashes, and an index is not named like the one that every collection
has. -/
def Reversible : Definition → Prop
  | index i => i.indexName ≠ "primary"
  | view v => '/' ∉ v.name.toList
  | _ => True

variable {s s₁ other : Store}

theorem create_undone_collection {c : Collection}
    (made : (create (collection c)).Ends Store.server s (.ok ()) s₁) (alike : s₁.Alike other) :
    ∃ s₂, (drop (collection c)).Ends Store.server other (.ok ()) s₂ ∧ s.Alike s₂ := by
  cases is : c.body with
  | error fault =>
      rw [create, is] at made
      cases (ends_fail_iff.mp made).1
  | ok body =>
      rw [create, is] at made
      have routed : Route.of? ((Request.post "collection" body).withDatabase c.tenant) =
          some .createCollection := Route.of?_post "collection" rfl rfl (by decide)
      have routedBack : Route.of? ((Request.delete ("collection/" ++ c.name)).withDatabase
          c.tenant) = some (.dropCollection c.name) :=
        Route.of?_delete "collection" c.name rfl rfl (by decide) (Collection.plain_of_body is)
      obtain ⟨response, db, _, change, _, rfl⟩ :=
        Store.change_of_ends_command rfl routed rfl made
      obtain ⟨back, dropped, restored⟩ := Database.undo_createCollection
        (Collection.name_of_body is) change alike.here
      exact alike.undone _ rfl rfl routedBack rfl dropped
        (Response.result_single _ (by decide) (by decide)) restored

theorem create_undone_view {v : View} (reversible : '/' ∉ v.name.toList)
    (made : (create (view v)).Ends Store.server s (.ok ()) s₁) (alike : s₁.Alike other) :
    ∃ s₂, (drop (view v)).Ends Store.server other (.ok ()) s₂ ∧ s.Alike s₂ := by
  have routed : Route.of? ((Request.post "view" v.body).withDatabase v.tenant) =
      some .createView := Route.of?_post "view" rfl rfl (by decide)
  have routedBack : Route.of? ((Request.delete ("view/" ++ v.name)).withDatabase v.tenant) =
      some (.dropView v.name) := Route.of?_delete "view" v.name rfl rfl (by decide) reversible
  obtain ⟨response, db, _, change, _, rfl⟩ := Store.change_of_ends_command rfl routed rfl made
  obtain ⟨back, dropped, restored⟩ := Database.undo_createView v.name_of_body change alike.here
  exact alike.undone _ rfl rfl routedBack rfl dropped
    (Response.result_single _ (by decide) (by decide)) restored

/-- The request that deletes an analyzer. -/
def deleteRequest (a : Analyzer) : Request :=
  ((Request.delete ("analyzer/" ++ a.name)).withQuery "force" "true").withDatabase a.tenant

/-- The name of an analyzer that was cleared leads to a route, since otherwise the deletion
would fail. -/
theorem routed_of_clear {a : Analyzer} {outcome : Except Error Unit}
    (cleared : a.clear.Ends Store.server s outcome s₁)
    (tolerated : ∀ e, outcome = .error e → e.isConflict = true) :
    Route.of? (deleteRequest a) = some (.dropAnalyzer a.name) := by
  cases routed : Route.of? (deleteRequest a) with
  | none =>
      have unknown := Store.ends_command_of_noRoute (s := s) (r := deleteRequest a) rfl routed
      rcases ends_tolerant cleared with ⟨deletes, _⟩ | ⟨e, deletes, failed⟩
      · cases (deletes.unique unknown).1
      · cases (deletes.unique unknown).1
        cases tolerated _ failed
  | some route => rw [Route.eq_of_delete_analyzer rfl rfl routed]

/-- An analyzer that is not there is not deleted before it is created. -/
theorem clear_absent {a : Analyzer} {done : Unit}
    (absent : (s.database (a.tenant.getD s.home)).analyzers.get? a.name = none)
    (cleared : a.clear.Ends Store.server s (.ok done) s₁) :
    Route.of? (deleteRequest a) = some (.dropAnalyzer a.name) ∧
      s₁ = s.noteRequest (deleteRequest a) := by
  have routed := routed_of_clear cleared (by rintro _ ⟨⟩)
  have refused := Store.ends_command_of_refused (s := s) (r := deleteRequest a) rfl routed rfl
    (Database.dropAnalyzer_of_absent absent)
  refine ⟨routed, ?_⟩
  rcases ends_tolerant cleared with ⟨deletes, _⟩ | ⟨e, deletes, _⟩
  · exact (deletes.unique refused).2
  · exact (deletes.unique refused).2

theorem create_undone_analyzer {a : Analyzer}
    (absent : (s.database (a.tenant.getD s.home)).analyzers.get? a.name = none)
    (made : (create (analyzer a)).Ends Store.server s (.ok ()) s₁) (alike : s₁.Alike other) :
    ∃ s₂, (drop (analyzer a)).Ends Store.server other (.ok ()) s₂ ∧ s.Alike s₂ := by
  rcases ends_bind_iff.mp made with ⟨_, s₀, cleared, posted⟩ | ⟨_, _, failed⟩
  · obtain ⟨routedBack, rfl⟩ := clear_absent absent cleared
    have routed : Route.of? ((Request.post "analyzer" a.body).withDatabase a.tenant) =
        some .createAnalyzer := Route.of?_post "analyzer" rfl rfl (by decide)
    obtain ⟨response, db, _, change, _, rfl⟩ :=
      Store.change_of_ends_command rfl routed rfl posted
    have named : a.body.field "name" = .str a.name := rfl
    obtain ⟨back, dropped, restored⟩ := Database.undo_createAnalyzer named change alike.here
    obtain ⟨s₂, ends, same⟩ := alike.undone (deleteRequest a) rfl rfl routedBack rfl dropped
      (Response.result_single _ (by decide) (by decide)) restored
    exact ⟨s₂, ends, same.home_eq, same.databases⟩
  · cases failed

/-- The new index is found by listing, and dropped by the identifier that it was
given. -/
theorem create_undone_index {i : Index} (regular : s.Regular)
    (reversible : i.indexName ≠ "primary")
    (made : (create (index i)).Ends Store.server s (.ok ()) s₁) (alike : s₁.Alike other) :
    ∃ s₂, (drop (index i)).Ends Store.server other (.ok ()) s₂ ∧ s.Alike s₂ := by
  let r := ((Request.post "index" i.body).withQuery "collection" i.collection).withDatabase
    i.tenant
  let listing := ((Request.get "index").withQuery "collection" i.collection).withDatabase i.tenant
  have routed : Route.of? r = some .createIndex := Route.of?_post "index" rfl rfl (by decide)
  have routedListing : Route.of? listing = some .listIndexes := by
    change Route.ofGet? (Text.splitAt '/' "index") = _
    rw [Text.splitAt_of_notMem (by decide)]
    rfl
  obtain ⟨response, db, _, change, _, rfl⟩ := Store.change_of_ends_command rfl routed rfl made
  have about : ∀ request : Request, request.query = [("collection", i.collection)] →
      Database.indexedCollection request = .ok i.collection := by
    intro request query
    rw [Database.indexedCollection, query]
    rfl
  obtain ⟨c, stored⟩ := Database.exists_of_createIndex (about r rfl) change
  have plain := (regular (s.databaseOf r)).plain i.collection c stored
  obtain ⟨number, page, entry, back, listed, clean, inListing, identified, dropped, restored⟩ :=
    Database.undo_createIndex (regular _) i.name_of_body reversible (about r rfl)
      (about listing rfl) change alike.here
  have here : other.databaseOf listing = s.databaseOf r := by
    rw [Store.databaseOf, alike.home_eq]
    rfl
  rw [← here] at listed
  have found := Store.ends_request_of_made rfl routedListing rfl listed
    (Response.result_answered (by decide) clean)
  let shown := (other.noteRequest listing).putDatabase (other.databaseOf listing)
    (other.database (other.databaseOf listing))
  have finds : i.find.Ends Store.server other
      (.ok (i.collection ++ "/" ++ toString number)) shown := by
    apply Exchange.Ends.bind found
    rw [inListing, Option.bind_some, identified]
    exact ends_pure_iff.mpr ⟨rfl, rfl⟩
  let removing := (Request.delete
    ("index/" ++ (i.collection ++ "/" ++ toString number))).withDatabase i.tenant
  have routedBack : Route.of? removing =
      some (.dropIndex i.collection (toString number)) := by
    have digits : '/' ∉ (toString number).toList := by
      rw [Text.toList_toString]
      exact Text.notMem_digitsOf (by decide) number
    change Route.ofDelete? (Text.splitAt '/'
      ("index" ++ "/" ++ (i.collection ++ "/" ++ toString number))) = _
    rw [Route.segments_append _ _ (by decide), Route.segments_named _ _ plain digits]
    rfl
  have listedAlike := alike.of_put listing (other.databaseOf listing)
  obtain ⟨s₂, ends, same⟩ := listedAlike.undone removing rfl rfl routedBack rfl
    (by
      rw [here, Store.database_putDatabase_self]
      exact dropped)
    (Response.result_single _ (by decide) (by decide)) restored
  exact ⟨s₂, finds.bind ends, same⟩

/-- The creation of an object is taken back by dropping it, in a store like the one that
it led to. -/
theorem create_undone {o : Definition} (regular : s.Regular) (reversible : o.Reversible)
    (absent : ∀ a, o = analyzer a →
      (s.database (a.tenant.getD s.home)).analyzers.get? a.name = none)
    (made : o.create.Ends Store.server s (.ok ()) s₁) (alike : s₁.Alike other) :
    ∃ s₂, o.drop.Ends Store.server other (.ok ()) s₂ ∧ s.Alike s₂ := by
  cases o with
  | collection c => exact create_undone_collection made alike
  | index i => exact create_undone_index regular reversible made alike
  | view v => exact create_undone_view reversible made alike
  | analyzer a => exact create_undone_analyzer (absent a rfl) made alike

/-- Two objects of one database that can be renamed into each other can be renamed
back. -/
theorem checkRename_symm {source target : Definition} {resource : String}
    (valid : source.validate = .ok ()) (checked : checkRename source target = .ok resource) :
    checkRename target source = .ok resource := by
  obtain ⟨together, _, ⟨c, d, rfl, rfl, rfl⟩ | ⟨v, w, rfl, rfl, rfl⟩⟩ := checkRename_eq_ok checked
  · unfold checkRename
    rw [if_neg (not_not_intro together.symm), valid]
    rfl
  · unfold checkRename
    rw [if_neg (not_not_intro together.symm), valid]
    rfl

theorem route_rename {resource name : String} {body : Json} {tenant : Option String}
    (plainResource : '/' ∉ resource.toList) (plain : '/' ∉ name.toList) :
    Route.of? ((Request.put (resource ++ "/" ++ name ++ "/rename") body).withDatabase tenant) =
      Route.ofPut? [resource, name, "rename"] := by
  change Route.ofPut? (Text.splitAt '/' (resource ++ "/" ++ name ++ ("/" ++ "rename"))) = _
  rw [Route.path_below, Route.segments_append _ _ plainResource,
    Route.segments_named _ _ plain (by decide)]

/-- A renaming is taken back by renaming the other way, in a store like the one that it
led to. -/
theorem rename_undone {source target : Definition} (regular : s.Regular)
    (valid : source.validate = .ok ()) (sourceReversible : source.Reversible)
    (targetReversible : target.Reversible)
    (made : (source.rename target).Ends Store.server s (.ok ()) s₁) (alike : s₁.Alike other) :
    ∃ s₂, (target.rename source).Ends Store.server other (.ok ()) s₂ ∧ s.Alike s₂ := by
  cases checked : checkRename source target with
  | error fault =>
      rw [rename, checked] at made
      cases (ends_fail_iff.mp made).1
  | ok resource =>
      have checkedBack := checkRename_symm valid checked
      rw [rename, checked] at made
      rw [rename, checkedBack]
      obtain ⟨together, targetValid, ⟨c, d, rfl, rfl, rfl⟩ | ⟨v, w, rfl, rfl, rfl⟩⟩ :=
        checkRename_eq_ok checked
      · obtain ⟨_, _, sourcePlain⟩ := plain_of_validate valid
        obtain ⟨_, _, targetPlain⟩ := plain_of_validate targetValid
        obtain ⟨response, db, value, change, success, rfl⟩ :=
          Store.change_of_ends_command rfl (route_rename (by decide) sourcePlain) rfl made
        obtain ⟨response', back, value', changeBack, successBack, restored⟩ :=
          Database.undo_renameCollection (regular _) rfl
            (rfl : (Json.obj ⟨[("name", .str c.name)]⟩).field "name" = _) change success
            alike.here
        exact alike.undone _ together.symm rfl (route_rename (by decide) targetPlain) rfl
          changeBack successBack restored
      · obtain ⟨response, db, value, change, success, rfl⟩ :=
          Store.change_of_ends_command rfl (route_rename (by decide) sourceReversible) rfl made
        obtain ⟨response', back, value', changeBack, successBack, restored⟩ :=
          Database.undo_renameView (regular _) rfl
            (rfl : (Json.obj ⟨[("name", .str v.name)]⟩).field "name" = _) change success
            alike.here
        exact alike.undone _ together.symm rfl (route_rename (by decide) targetReversible) rfl
          changeBack successBack restored

end Definition

/-! ### Commands -/

/-- Whether an analyzer is defined in a database, or in the default one. -/
def Store.analyzer? (s : Store) (tenant : Option String) (name : String) : Option Json :=
  (s.database (tenant.getD s.home)).analyzers.get? name

namespace Command

/-- The commands that are taken back by their inverses: to create something, and to
rename something to a valid name and from one. -/
def Reversible : Command → Prop
  | create o => o.Reversible
  | rename source target =>
      source.validate = .ok () ∧ source.Reversible ∧ target.Reversible
  | _ => False

/-- An analyzer that the command creates is not there yet. -/
def Fresh (s : Store) : Command → Prop
  | create (.analyzer a) => s.analyzer? a.tenant a.name = none
  | _ => True

theorem Reversible.withDefaultTenant {command : Command} (reversible : command.Reversible)
    (tenant : Option String) : (command.withDefaultTenant tenant).Reversible := by
  have own : ∀ o : Definition, o.Reversible → (o.withDefaultTenant tenant).Reversible := by
    intro o h
    cases o <;> exact h
  have valid : ∀ o : Definition, (o.withDefaultTenant tenant).validate = o.validate := by
    intro o
    cases o <;> rfl
  cases command with
  | create o => exact own o reversible
  | rename source target =>
      obtain ⟨sourceValid, sourceReversible, targetReversible⟩ := reversible
      exact ⟨(valid source).trans sourceValid, own _ sourceReversible, own _ targetReversible⟩
  | _ => cases reversible

theorem Reversible.defines {command : Command} (reversible : command.Reversible) :
    command.Defines := by
  cases command <;> trivial

theorem reverseAll_append {front back : List Command} {first second : List Command}
    (frontReversed : reverseAll front = .ok first) (backReversed : reverseAll back = .ok second) :
    reverseAll (front ++ back) = .ok (first ++ second) :=
  reverseAll_eq_ok_iff.mpr (List.rel_append (reverseAll_eq_ok_iff.mp frontReversed)
    (reverseAll_eq_ok_iff.mp backReversed))

variable {s s₁ other : Store}

/-- A command to create an object that succeeds has created it. -/
theorem ends_create_of_perform {o : Definition} {tenant : Option String}
    {transaction : Option Transaction} {report : Report}
    (made : ((create o).perform tenant transaction).Ends Store.server s (.ok report) s₁) :
    o.create.Ends Store.server s (.ok ()) s₁ := by
  obtain ⟨_, _, valid, rest⟩ := ends_bind_ok_iff.mp made
  obtain ⟨_, rfl⟩ := ends_ofSchema_iff.mp valid
  obtain ⟨_, _, creates, last⟩ := ends_bind_ok_iff.mp rest
  obtain ⟨_, rfl⟩ := ends_pure_iff.mp last
  exact creates

/-- The inverse of a command takes it back, in a store like the one that the command led
to. -/
theorem perform_undone {command : Command} (regular : s.Regular)
    (reversible : command.Reversible) (fresh : command.Fresh s) {tenant : Option String}
    {transaction : Option Transaction} {report : Report}
    (made : (command.perform tenant transaction).Ends Store.server s (.ok report) s₁)
    (alike : s₁.Alike other) :
    ∃ inverse report' s₂, command.reverse = .ok inverse ∧
      (inverse.perform tenant transaction).Ends Store.server other (.ok report') s₂ ∧
      s.Alike s₂ := by
  cases command with
  | create o =>
      have created := ends_create_of_perform made
      have absent : ∀ a, o = .analyzer a →
          (s.database (a.tenant.getD s.home)).analyzers.get? a.name = none := by
        rintro a rfl
        exact fresh
      obtain ⟨s₂, dropped, restored⟩ :=
        Definition.create_undone regular reversible absent created alike
      exact ⟨.drop o, _, s₂, rfl, dropped.bind (ends_pure_iff.mpr ⟨rfl, rfl⟩), restored⟩
  | rename source target =>
      obtain ⟨valid, sourceReversible, targetReversible⟩ := reversible
      have renamed : (source.rename target).Ends Store.server s (.ok ()) s₁ := by
        rcases ends_bind_iff.mp made with ⟨_, _, renames, last⟩ | ⟨_, _, failed⟩
        · obtain ⟨_, rfl⟩ := ends_pure_iff.mp last
          exact renames
        · cases failed
      obtain ⟨s₂, ends, restored⟩ := Definition.rename_undone regular valid sourceReversible
        targetReversible renamed alike
      exact ⟨.rename target source, _, s₂, rfl, ends.bind (ends_pure_iff.mpr ⟨rfl, rfl⟩),
        restored⟩
  | _ => cases reversible

end Command

/-! ### Bodies -/

namespace Context

variable {c : Context} {s s₁ s₂ other : Store} {commands : List Command}

/-- The commands succeed one after the other, from the first store to the last. -/
def Issued (c : Context) : List Command → Store → Store → Prop
  | [], s, s' => s' = s
  | command :: rest, s, s' =>
      ∃ report middle, (c.issue command).Ends Store.server s (.ok report) middle ∧
        c.Issued rest middle s'

theorem Issued.append {front back : List Command} (first : c.Issued front s s₁)
    (second : c.Issued back s₁ s₂) : c.Issued (front ++ back) s s₂ := by
  induction front generalizing s with
  | nil =>
      cases first
      exact second
  | cons command rest inductionHypothesis =>
      obtain ⟨report, middle, issued, others⟩ := first
      exact ⟨report, middle, issued, inductionHypothesis others⟩

theorem Issued.singleton {command : Command} {report : Report}
    (issued : (c.issue command).Ends Store.server s (.ok report) s₁) :
    c.Issued [command] s s₁ :=
  ⟨report, s₁, issued, rfl⟩

/-- Commands that succeed run to their end. -/
theorem Issued.ends (issued : c.Issued commands s s₁) :
    ∃ log, (c.issueAll none commands).Ends Store.server s (.ok { log }) s₁ := by
  induction commands generalizing s with
  | nil =>
      cases issued
      exact ⟨[], ends_pure_iff.mpr ⟨rfl, rfl⟩⟩
  | cons command rest inductionHypothesis =>
      obtain ⟨report, middle, first, others⟩ := issued
      obtain ⟨log, later⟩ := inductionHypothesis others
      refine ⟨report :: log, Ends.bind (ends_attempt_iff.mpr ⟨_, rfl, first⟩) ?_⟩
      exact later.bind (ends_pure_iff.mpr ⟨rfl, rfl⟩)

/-- A body that succeeds has issued all of its commands. -/
theorem issued_of_ends {failure : Option Error} {p : Progress}
    (ends : (c.issueAll failure commands).Ends Store.server s (.ok p) s₁)
    (success : p.outcome = .ok ()) : failure = none ∧ c.Issued commands s s₁ := by
  have noFailure : ∀ q : Progress, q.outcome = .ok () → q.failure = none := by
    intro q h
    unfold Progress.outcome at h
    split at h
    · assumption
    · cases h
  induction commands generalizing s p with
  | nil =>
      obtain ⟨same, rfl⟩ := ends_pure_iff.mp ends
      cases same
      exact ⟨noFailure _ success, rfl⟩
  | cons command rest inductionHypothesis =>
      rcases ends_bind_iff.mp ends with ⟨outcome, middle, first, others⟩ | ⟨_, first, _⟩
      · obtain ⟨given, same, issued⟩ := ends_attempt_iff.mp first
        cases same
        cases outcome with
        | ok report =>
            rcases ends_bind_iff.mp others with ⟨q, _, later, last⟩ | ⟨_, _, failed⟩
            · obtain ⟨same, rfl⟩ := ends_pure_iff.mp last
              cases same
              obtain ⟨none, issuedRest⟩ := inductionHypothesis later success
              exact ⟨none, report, middle, issued, issuedRest⟩
            · cases failed
        | error e =>
            obtain ⟨same, _⟩ := ends_pure_iff.mp others
            cases same
            cases noFailure _ success
      · obtain ⟨_, same, _⟩ := ends_attempt_iff.mp first
        cases same

/-- No analyzer that a command creates is there when its turn comes. -/
def FreshAlong (c : Context) (s : Store) (commands : List Command) : Prop :=
  ∀ before command after, commands = before ++ command :: after →
    (command.withDefaultTenant c.tenant).Fresh
      ((c.issueAll none before).runOn Store.server s).state

theorem FreshAlong.tail {command : Command} {rest : List Command} {report : Report}
    (fresh : c.FreshAlong s (command :: rest))
    (issued : (c.issue command).Ends Store.server s (.ok report) s₁) :
    c.FreshAlong s₁ rest := by
  intro before next after cut
  have own := fresh (command :: before) next after (congrArg (command :: ·) cut)
  have reached : ((c.issueAll none (command :: before)).runOn Store.server s).state =
      ((c.issueAll none before).runOn Store.server s₁).state := by
    obtain ⟨outcome, s', later⟩ := exists_ends Store.server s₁ (c.issueAll none before)
    have whole : ∃ outcome, (c.issueAll none (command :: before)).Ends Store.server s outcome s' :=
      ⟨_, Ends.bind (ends_attempt_iff.mpr ⟨_, rfl, issued⟩) (later.map fun p =>
        { p with log := report :: p.log })⟩
    obtain ⟨_, all⟩ := whole
    exact all.2.trans later.2.symm
  rwa [reached] at own

/-- Commands that succeeded are taken back by their inverses, the last one first, in a
store like the one that they led to. -/
theorem revert_issued (regular : s.Regular)
    (reversible : ∀ command ∈ commands, command.Reversible) (fresh : c.FreshAlong s commands)
    (issued : c.Issued commands s s₁) (alike : s₁.Alike other) :
    ∃ inverses s₂, Command.reverseAll commands.reverse = .ok inverses ∧
      c.Issued inverses other s₂ ∧ s.Alike s₂ := by
  induction commands generalizing s with
  | nil =>
      cases issued
      exact ⟨[], other, rfl, rfl, alike⟩
  | cons command rest inductionHypothesis =>
      obtain ⟨report, middle, first, others⟩ := issued
      have own := (reversible command List.mem_cons_self).withDefaultTenant c.tenant
      have regularMiddle := own.defines.regular first regular
      obtain ⟨inverses, between, reversed, undone, alikeMiddle⟩ :=
        inductionHypothesis regularMiddle
          (fun other inRest => reversible other (List.mem_cons_of_mem _ inRest))
          (fresh.tail first) others
      obtain ⟨full, report', s₂, reverses, ends, restored⟩ :=
        Command.perform_undone regular own (fresh [] command rest rfl) first alikeMiddle
      rw [Command.reverse_withDefaultTenant] at reverses
      obtain ⟨inverse, ownReverse, rfl⟩ := exceptMap_eq_ok_iff.mp reverses
      refine ⟨inverses ++ [inverse], s₂, ?_, undone.append (Issued.singleton ends), restored⟩
      rw [List.reverse_cons]
      apply Command.reverseAll_append reversed
      exact Command.reverseAll_eq_ok_iff.mpr (.cons ownReverse .nil)

/-- A body of commands that create and rename things is taken back: if it succeeds, so
does the inverse body, and the definitions and documents are those from before. -/
theorem revert_restores {script : Script} {p : Progress} (reached : s.Reached)
    (reversible : ∀ command ∈ script.commands, command.Reversible)
    (fresh : c.FreshAlong s script.commands)
    (ran : (c.run script).Ends Store.server s (.ok p) s₁) (success : p.outcome = .ok ()) :
    ∃ p' s₂, (c.revert script).Ends Store.server s₁ (.ok p') s₂ ∧ p'.outcome = .ok () ∧
      s.Alike s₂ := by
  obtain ⟨none, issued⟩ := issued_of_ends ran success
  obtain ⟨inverses, s₂, reversed, undone, restored⟩ :=
    revert_issued reached.regular reversible fresh issued (Store.Alike.refl s₁)
  have recorded : script.recorded = .ok script.commands := by
    unfold Script.recorded
    rw [none]
  have inverse : script.inverse = .ok { commands := inverses } := by
    apply exceptBind_eq_ok_iff.mpr
    exact ⟨script.commands, recorded, exceptBind_eq_ok_iff.mpr ⟨inverses, reversed, rfl⟩⟩
  obtain ⟨log, ends⟩ := undone.ends
  refine ⟨{ log }, s₂, ?_, rfl, restored⟩
  unfold revert
  rw [inverse]
  exact ends

end Context

/-- A change that creates a collection with an index and an analyzer, and gives the
collection another name. -/
def sampleChange : Script :=
  { commands := [.create (.collection { name := "users" }),
      .create (.index { collection := "users", fields := ["age"] }),
      .create (.analyzer { name := "exact", kind := .identity }),
      .rename (.collection { name := "users" }) (.collection { name := "people" })] }

theorem revert_restores_of_sampleChange :
    ∃ p p' s₁ s₂, (({} : Context).run sampleChange).Ends Store.server {} (.ok p) s₁ ∧
      p.outcome = .ok () ∧ (({} : Context).revert sampleChange).Ends Store.server s₁ (.ok p') s₂ ∧
      p'.outcome = .ok () ∧ ({} : Store).Alike s₂ := by
  have valid : Definition.validate (.analyzer { name := "exact", kind := .identity }) =
      .ok () := by
    simp [Definition.validate, Analyzer.validate, Analyzer.isName, checkProperties, checkRules,
      AnalyzerKind.rules, Dict.keys]
    decide
  have succeeds : (((({} : Context).run sampleChange).runOn Store.server {}).outcome.toOption.map
      fun p => p.failure.isNone) = some true := by
    unfold Context.run sampleChange
    simp only [Context.issueAll, Context.issue, Command.withDefaultTenant,
      Definition.withDefaultTenant, Command.perform, Option.or_none]
    rw [valid]
    decide +kernel
  obtain ⟨outcome, s₁, ran⟩ := exists_ends Store.server {} (({} : Context).run sampleChange)
  rw [ran.1] at succeeds
  obtain ⟨p, is, noFailure⟩ := Option.map_eq_some_iff.mp succeeds
  have success : p.outcome = .ok () := by
    unfold Progress.outcome
    rw [Option.isNone_iff_eq_none.mp noFailure]
  have ranWell : outcome = .ok p := by
    cases outcome <;> cases is
    rfl
  have reversible : ∀ command ∈ sampleChange.commands, command.Reversible := by
    intro command member
    simp only [sampleChange, List.mem_cons, List.not_mem_nil, or_false] at member
    rcases member with rfl | rfl | rfl | rfl
    · trivial
    · change ("users_age_index" : String) ≠ "primary"
      decide
    · trivial
    · exact ⟨rfl, trivial, trivial⟩
  have fresh : ({} : Context).FreshAlong {} sampleChange.commands := by
    intro before command after cut
    rcases before with _ | ⟨_, _ | ⟨_, _ | ⟨_, _ | ⟨_, rest⟩⟩⟩⟩
    · cases cut
      trivial
    · cases cut
      trivial
    · cases cut
      exact rfl
    · cases cut
      trivial
    · simp [sampleChange] at cut
  obtain ⟨p', s₂, reverted, restores, alike⟩ := Context.revert_restores
    (Store.Reached.empty "_system" 1000) reversible fresh (ranWell ▸ ran) success
  exact ⟨p, p', s₁, s₂, ranWell ▸ ran, success, reverted, restores, alike⟩

end DocStore
