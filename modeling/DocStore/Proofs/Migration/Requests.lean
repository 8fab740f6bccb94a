/-
Module: DocStore.Proofs.Migration.Requests
Purpose: the requests that the commands of a migration make, whatever they are answered.
Main exports:
  Definition.Sends, Definition.Renames, Collection.Alters, Command.Sends,
  Command.asks_perform, Context.asks_run_of
-/
import DocStore.Migration.Script
import DocStore.Proofs.Exchange.Asked
import DocStore.Proofs.Memory.Changes
import DocStore.Proofs.Memory.Routing

namespace DocStore

open Exchange

/-! ### Valid collections -/

namespace Collection

variable {c : Collection} {body : Json}

theorem name_of_body (is : c.body = .ok body) : body.field "name" = .str c.name := by
  unfold Collection.body at is
  split at is
  · cases is
  · obtain ⟨schema, _, rest⟩ := exceptBind_eq_ok_iff.mp is
    cases rest
    cases schema with
    | none => simp [Json.field, Json.get?, Dict.get?_insert]
    | some document => simp [Json.field, Json.get?, Dict.get?_insert]

theorem plain_of_body (is : c.body = .ok body) : '/' ∉ c.name.toList := by
  unfold Collection.body at is
  split at is
  · cases is
  · next named =>
      have isName : Collection.isName c.name = true := by simpa using named
      simp only [Collection.isName, Bool.and_eq_true, Bool.not_eq_true', List.contains_eq_mem,
        decide_eq_false_iff_not] at isName
      exact isName.2

end Collection

theorem Index.name_of_body (i : Index) : i.body.field "name" = .str i.indexName := by
  unfold Index.body
  cases i.expireAfter <;> simp [Json.field, Json.get?, Dict.get?_insert]

theorem View.name_of_body (v : View) : v.body.field "name" = .str v.name := by
  simp [View.body, Json.field, Json.get?, Dict.get?_insert]

namespace Definition

/-- A valid collection has a body, and a name without slashes. -/
theorem plain_of_validate {c : Collection} (valid : (collection c).validate = .ok ()) :
    ∃ body, c.body = .ok body ∧ '/' ∉ c.name.toList := by
  cases is : c.body with
  | error fault =>
      rw [validate, is] at valid
      cases valid
  | ok body => exact ⟨body, rfl, Collection.plain_of_body is⟩

/-! ### Creating and dropping objects -/

/-- The requests that create and drop an object: those about a collection are known
exactly. -/
inductive Sends (o : Definition) (r : Request) : Prop where
  | reading (reads : r.method = .get)
  | creation {c : Collection} {body : Json} (object : o = .collection c)
      (is : c.body = .ok body) (sent : r = (Request.post "collection" body).withDatabase c.tenant)
  | removal {c : Collection} (object : o = .collection c)
      (sent : r = (Request.delete ("collection/" ++ c.name)).withDatabase c.tenant)
  | elsewhere (apart : r.Apart) (unpatched : r.method ≠ .patch)

theorem asks_create (o : Definition) : o.create.Asks o.Sends := by
  cases o with
  | collection c =>
      apply asks_ofSchema_bind
      intro body is
      exact asks_command (.creation rfl is rfl)
  | index i =>
      apply asks_command
      exact .elsewhere (Request.apart_at "index" rfl (by decide) (by decide)) (by rintro ⟨⟩)
  | view v =>
      apply asks_command
      exact .elsewhere (Request.apart_at "view" rfl (by decide) (by decide)) (by rintro ⟨⟩)
  | analyzer a =>
      apply asks_bind
      · apply asks_tolerant
        apply asks_command
        exact .elsewhere (Request.apart_below "analyzer" _ rfl (by decide) (by decide))
          (by rintro ⟨⟩)
      · intro _
        apply asks_command
        exact .elsewhere (Request.apart_at "analyzer" rfl (by decide) (by decide)) (by rintro ⟨⟩)

theorem asks_drop (o : Definition) : o.drop.Asks o.Sends := by
  cases o with
  | collection c => exact asks_command (.removal rfl rfl)
  | index i =>
      apply asks_bind
      · apply asks_bind (asks_request (.reading rfl))
        intro listing
        split
        · exact asks_pure _
        · exact asks_fail _
      · intro id
        apply asks_command
        exact .elsewhere (Request.apart_below "index" id rfl (by decide) (by decide)) (by rintro ⟨⟩)
  | view v =>
      apply asks_command
      exact .elsewhere (Request.apart_below "view" _ rfl (by decide) (by decide)) (by rintro ⟨⟩)
  | analyzer a =>
      apply asks_command
      exact .elsewhere (Request.apart_below "analyzer" _ rfl (by decide) (by decide)) (by rintro ⟨⟩)

/-! ### Renaming objects -/

/-- What passes the checks before a rename: two collections or two views of one
database, the new one valid. -/
theorem checkRename_eq_ok {source target : Definition} {resource : String}
    (checked : checkRename source target = .ok resource) :
    source.tenant = target.tenant ∧ target.validate = .ok () ∧
      ((∃ c d, source = .collection c ∧ target = .collection d ∧ resource = "collection") ∨
        ∃ v w, source = .view v ∧ target = .view w ∧ resource = "view") := by
  unfold checkRename at checked
  split at checked
  · cases checked
  · next together =>
      obtain ⟨found, kinds, rest⟩ := exceptBind_eq_ok_iff.mp checked
      obtain ⟨_, valid, rest⟩ := exceptBind_eq_ok_iff.mp rest
      cases rest
      refine ⟨Decidable.not_not.mp together, valid, ?_⟩
      unfold renamedResource at kinds
      split at kinds <;> cases kinds
      · exact Or.inl ⟨_, _, rfl, rfl, rfl⟩
      · exact Or.inr ⟨_, _, rfl, rfl, rfl⟩

/-- The requests that give an object the name of another one. -/
inductive Renames (source target : Definition) (r : Request) : Prop where
  | collections {c d : Collection} (isSource : source = .collection c)
      (isTarget : target = .collection d) (valid : target.validate = .ok ())
      (routed : ∀ route, Route.of? r = some route → route = .renameCollection c.name)
      (body : r.body = some (.obj ⟨[("name", .str d.name)]⟩)) (tenant : r.database = c.tenant)
      (together : c.tenant = d.tenant) (outside : r.transaction = none)
  | elsewhere (apart : r.Apart) (unpatched : r.method ≠ .patch)

theorem asks_rename (source target : Definition) :
    (source.rename target).Asks (source.Renames target) := by
  apply asks_ofSchema_bind
  intro resource checked
  apply asks_command
  obtain ⟨together, valid, ⟨c, d, rfl, rfl, rfl⟩ | ⟨v, w, rfl, rfl, rfl⟩⟩ :=
    checkRename_eq_ok checked
  · refine .collections rfl rfl valid ?_ rfl rfl together rfl
    intro route routed
    rcases Route.eq_of_put_collection rfl (Route.path_below "collection" c.name "rename")
      (by decide) routed with ⟨unlike, _⟩ | ⟨_, same⟩
    · exact absurd unlike (by decide)
    · exact same
  · refine .elsewhere ?_ (by rintro ⟨⟩)
    exact Request.apart_below "view" _ (Route.path_below "view" v.name "rename") (by decide)
      (by decide)

end Definition

/-! ### Changing collections and views -/

/-- The requests that change the columns of a collection. -/
inductive Collection.Alters (c : Collection) (r : Request) : Prop where
  | reading (reads : r.method = .get)
  | change {schema : Json}
      (routed : ∀ route, Route.of? r = some route → route = .changeCollection c.name)
      (body : r.body = some (.obj ⟨[("schema", schema)]⟩))

theorem Collection.asks_alter (c : Collection) (columns : List ColumnOp) :
    (c.alter columns).Asks c.Alters := by
  apply asks_bind (asks_request (.reading rfl))
  intro current
  apply asks_ofSchema_bind
  intro schema _
  apply asks_command
  refine .change ?_ rfl
  intro route routed
  rcases Route.eq_of_put_collection rfl (Route.path_below "collection" c.name "properties")
    (by decide) routed with ⟨_, same⟩ | ⟨unlike, _⟩
  · exact same
  · exact absurd unlike (by decide)

theorem View.asks_alter (v : View) (changes : List ViewChange) :
    (v.alter changes).Asks Request.Apart := by
  apply asks_ofSchema_bind
  intro _ _
  apply asks_command
  exact Request.apart_below "view" _ (Route.path_below "view" v.name "properties") (by decide)
    (by decide)

/-! ### Commands -/

/-- The request reads a query that is sent as it is: at its start, or at a page. -/
inductive Request.Reads (aql : String) (r : Request) : Prop where
  | start {c : CursorRead} (position : c.position = .start aql {}) (sent : r = c.request)
  | page {c : CursorRead} {id : String} (position : c.position = .page id) (sent : r = c.request)

namespace Command

/-- The requests that a command makes. -/
def Sends : Command → Request → Prop
  | create o, r => o.Sends r
  | createIfNotExists o, r => o.Sends r
  | drop o, r => o.Sends r
  | dropIfExists o, r => o.Sends r
  | alterCollection c _, r => c.Alters r
  | alterView .., r => r.Apart
  | rename source target, r => source.Renames target r
  | execute aql, r => r.Reads aql

theorem asks_perform (command : Command) (database : Option String)
    (transaction : Option Transaction) :
    (command.perform database transaction).Asks command.Sends := by
  cases command with
  | create o =>
      apply asks_bind (asks_ofSchema _)
      intro _
      exact asks_bind o.asks_create fun _ => asks_pure _
  | createIfNotExists o =>
      apply asks_bind (asks_ofSchema _)
      intro _
      exact asks_tolerant o.asks_create
  | drop o => exact asks_bind o.asks_drop fun _ => asks_pure _
  | dropIfExists o => exact asks_tolerant o.asks_drop
  | alterCollection c columns => exact asks_bind (c.asks_alter columns) fun _ => asks_pure _
  | alterView v changes => exact asks_bind (v.asks_alter changes) fun _ => asks_pure _
  | rename source target =>
      exact asks_bind (source.asks_rename target) fun _ => asks_pure _
  | execute aql =>
      have reads : (CursorRead.start database aql {} transaction).Asks (Request.Reads aql) :=
        ⟨.start rfl rfl, fun _ => .page rfl rfl⟩
      exact asks_bind (asks_runCursor reads) fun _ => asks_pure _

end Command

/-- A body makes the requests of its commands. -/
theorem Context.asks_run_of {p : Request → Prop} {c : Context} {s : Script}
    (each : ∀ command ∈ s.commands, (c.issue command).Asks p) : (c.run s).Asks p := by
  rcases s with ⟨commands, failure⟩
  change (c.issueAll failure commands).Asks p
  induction commands with
  | nil => exact asks_pure _
  | cons command rest inductionHypothesis =>
      apply asks_bind (asks_attempt (each command List.mem_cons_self))
      intro outcome
      cases outcome with
      | ok report =>
          apply asks_bind
          · exact inductionHypothesis fun other inRest => each other (List.mem_cons_of_mem _ inRest)
          · exact fun _ => asks_pure _
      | error e => exact asks_pure _

end DocStore
