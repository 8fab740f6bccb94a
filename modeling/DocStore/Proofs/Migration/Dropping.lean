/-
Module: DocStore.Proofs.Migration.Dropping
Purpose: after commands in any order, an index is dropped, it and no other one, exactly if its
  identifier begins with the name of its collection, which it does unless the collection got that
  name by a rename.
Main exports:
  Issued, Store.performed, Store.RemovesOnly, Store.removesOnly_of_labelled,
  Store.labelled_of_removesOnly, Command.drop_index_iff_labelled
-/
import DocStore.Proofs.Memory.Labelled
import DocStore.Proofs.Migration.Idempotence
import DocStore.Proofs.Migration.Sparing

namespace DocStore

open Exchange

/-!
To drop an index is to look up its identifier in the listing of its collection, and to send this
identifier as a path.  The store reads the path as the name of a collection and a number.  That
names the index again only if the collection still has the name that it had when the index was
created.
-/

/-! ### Indexes of a collection -/

namespace StoredCollection.Numbered

variable {c : StoredCollection} {index : Dict Json}

/-- Without its identifier exactly the index is missing. -/
theorem indexesWithout_eq (numbered : c.Numbered) {before after : List (Dict Json)} {id : String}
    (place : c.indexes = before ++ index :: after)
    (isId : Document.value index "id" = .str id) :
    Database.indexesWithout id c.indexes = before ++ after := by
  have ids := numbered.ids
  rw [place, List.pairwise_append, List.pairwise_cons] at ids
  obtain ⟨_, ⟨later, _⟩, earlier⟩ := ids
  have keeps {others : List (Dict Json)}
      (unlike : ∀ other ∈ others, Document.value other "id" ≠ .str id) :
      (others.filter fun index => !(Document.value index "id").isTextOf id) = others := by
    refine List.filter_eq_self.mpr fun other member => ?_
    rw [Bool.not_eq_true', ← Bool.not_eq_true, Json.isTextOf_iff]
    exact unlike other member
  have own : (!(Document.value index "id").isTextOf id) = false := by
    rw [Json.isTextOf_iff.mpr isId]
    rfl
  rw [Database.indexesWithout, place, List.filter_append, List.filter_cons_of_neg (by simp [own]),
    keeps fun other member => ?_, keeps fun other member => ?_]
  · rw [← isId]
    exact (later other member).symm
  · rw [← isId]
    exact earlier other member index List.mem_cons_self

end StoredCollection.Numbered

namespace Store

variable {s s' : Store} {database : Option String} {name : String} {c : StoredCollection}

theorem indexes_of_stored
    (stored : (s.database (database.getD s.home)).collections.get? name = some c) :
    s.indexes database name = c.indexes := by
  simp only [Store.indexes, inspected, stored]

theorem stored_of_mem_indexes {index : Dict Json} (listed : index ∈ s.indexes database name) :
    ∃ c, (s.database (database.getD s.home)).collections.get? name = some c ∧
      index ∈ c.indexes := by
  cases stored : (s.database (database.getD s.home)).collections.get? name with
  | none => simp [Store.indexes, inspected, stored] at listed
  | some c => exact ⟨c, rfl, indexes_of_stored stored ▸ listed⟩

theorem indexes_congr (same : (s'.database (database.getD s'.home)).collections.get? name =
    (s.database (database.getD s.home)).collections.get? name) :
    s'.indexes database name = s.indexes database name := by
  simp only [Store.indexes, inspected, same]

/-- The run reported that the index was dropped, took exactly this one out of its collection, and
no index of any other collection. -/
structure RemovesOnly (s : Store) (i : Index) (index : Dict Json) (run : Run Store Report) :
    Prop where
  report : run.outcome = .ok (.dropped "index" i.indexName)
  removed : ∃ before after, s.indexes i.tenant i.collection = before ++ index :: after ∧
    run.state.indexes i.tenant i.collection = before ++ after
  others : ∀ (database : Option String) (name : String),
    (database.getD s.home ≠ i.tenant.getD s.home ∨ name ≠ i.collection) →
      run.state.indexes database name = s.indexes database name

end Store

/-! ### Paths of indexes -/

namespace Definition

variable {i : Index} {owner : String} {number : Nat}

theorem route_dropRequest (plain : '/' ∉ owner.toList) :
    Route.of? (dropRequest i (owner ++ "/" ++ toString number)) =
      some (.dropIndex owner (toString number)) := by
  have cut := Route.segments_append "index" (owner ++ "/" ++ toString number) (by decide)
  rw [Database.segments_id, Text.splitAt_of_notMem plain] at cut
  change Route.ofDelete? (Text.splitAt '/' ("index" ++ "/" ++ _)) = _
  rw [cut]
  rfl

/-- The path of an identifier leads to the collection that the identifier names, or nowhere. -/
theorem eq_of_route_dropRequest {route : Route}
    (routed : Route.of? (dropRequest i (owner ++ "/" ++ toString number)) = some route) :
    route = .dropIndex owner (toString number) := by
  obtain ⟨collection, given, rfl, _⟩ := Route.eq_of_delete_index rfl rfl routed
  have shape := Route.of?_eq_some_iff.mp routed
  have cut : Text.splitAt '/' (dropRequest i (owner ++ "/" ++ toString number)).path = _ :=
    Route.segments_append "index" (owner ++ "/" ++ toString number) (by decide)
  rw [cut, Database.segments_id] at shape
  simp only [Route.shapes, List.mem_singleton, Prod.mk.injEq, List.cons.injEq, true_and] at shape
  have ends : Text.splitAt '/' owner ++ [toString number] = [collection] ++ [given] := shape.2
  rw [Text.eq_of_splitAt_eq_singleton (List.append_inj_left' ends rfl),
    (List.cons.inj (List.append_inj_right' ends rfl)).1]

end Definition

/-! ### Dropping an index -/

/-- Under its own name an index is found, with its identifier. -/
theorem Index.foundIn_eq {i : Index} {db : Database} {c : StoredCollection} {index : Dict Json}
    {id : String} (numbered : c.Numbered) (other : i.indexName ≠ "primary")
    (stored : db.collections.get? i.collection = some c) (member : index ∈ c.indexes)
    (named : Document.value index "name" = .str i.indexName)
    (isId : Document.value index "id" = .str id) : i.foundIn db = .ok id := by
  have listed : i.listedId? c = some id := by
    rw [listedId?, if_neg other, numbered.index?_eq member named, Option.bind_some, isId]
    rfl
  simp only [foundIn, stored, listed]

namespace Store

variable {s s₁ s' : Store} {i : Index} {index : Dict Json} {db : Database}

theorem SameDatabases.redefined {database : String} (same : s.SameDatabases s₁)
    (put : s₁.Redefined database db s') : s.Redefined database db s' where
  home_eq := put.home_eq.trans same.home_eq
  here := put.here
  others name apart := (put.others name apart).trans (same.database_eq name)

/-- When an index was dropped by its identifier, it is missing in the collection that the
identifier names, and all other indexes are as they were. -/
theorem indexes_of_dropped {tenant : Option String} {owner number : String} {response : Response}
    (unchanged : s.SameDatabases s₁) (r : Request)
    (made : (s₁.database (tenant.getD s₁.home)).dropIndex owner number = .ok (response, db)) :
    ((s₁.noteRequest r).putDatabase (tenant.getD s₁.home) db).indexes tenant owner =
        Database.indexesWithout (owner ++ "/" ++ number) (s.indexes tenant owner) ∧
      ∀ (database : Option String) (name : String),
        (database.getD s.home ≠ tenant.getD s.home ∨ name ≠ owner) →
          ((s₁.noteRequest r).putDatabase (tenant.getD s₁.home) db).indexes database name =
            s.indexes database name := by
  have put := unchanged.redefined (s₁.redefined_put r (tenant.getD s₁.home) db)
  rw [unchanged.database_eq, unchanged.home_eq] at made
  rw [unchanged.home_eq] at put ⊢
  obtain ⟨c, stored, _, _, rfl⟩ := Database.dropIndex_eq_ok_iff.mp made
  constructor
  · rw [indexes_of_stored stored, indexes_of_stored (by
      rw [put.home_eq, put.here, Database.putCollection, Dict.get?_insert_self])]
  · intro database name other
    apply indexes_congr
    rw [put.home_eq]
    by_cases away : database.getD s.home = tenant.getD s.home
    · have unlike : name ≠ owner := other.resolve_left (not_not_intro away)
      rw [away, put.here, Database.putCollection, Dict.get?_insert_of_ne _ _ unlike]
    · rw [put.others _ away]

/-- An index whose identifier begins with the name of its collection is dropped, and only it. -/
theorem removesOnly_of_labelled (database : Option String) (transaction : Option Transaction)
    {number : Nat} (space : s.Namespace) (plain : '/' ∉ i.collection.toList)
    (other : i.indexName ≠ "primary") (listed : index ∈ s.indexes i.tenant i.collection)
    (named : Document.value index "name" = .str i.indexName)
    (isId : Document.value index "id" = .str (i.collection ++ "/" ++ toString number)) :
    s.RemovesOnly i index
      (((Command.drop (.index i)).perform database transaction).runOn Store.server s) := by
  obtain ⟨c, stored, member⟩ := stored_of_mem_indexes listed
  have numbered := (space _).numbered _ c stored
  obtain ⟨before, after, place⟩ := List.append_of_mem member
  have without := numbered.indexesWithout_eq place isId
  have fewer : (Database.indexesWithout (i.collection ++ "/" ++ toString number)
      c.indexes).length ≠ c.indexes.length := by
    rw [without, place]
    simp
  have made := Database.dropIndex_eq_ok_iff.mpr ⟨c, stored, fewer, rfl, rfl⟩
  obtain ⟨s₁, finds, unchanged⟩ := i.ends_find s
  rw [Index.foundIn_eq numbered other stored member named isId] at finds
  rw [← unchanged.database_eq, ← unchanged.home_eq] at made
  have removes := ends_command_of_made rfl (Definition.route_dropRequest plain) rfl made
    (Response.result_single _ (by decide) (by decide))
  have ends : ((Command.drop (.index i)).perform database transaction).Ends Store.server s
      (.ok (.dropped "index" i.indexName)) _ :=
    (finds.bind removes).bind (ends_pure_iff.mpr ⟨rfl, rfl⟩)
  obtain ⟨own, others⟩ := indexes_of_dropped unchanged
    (Definition.dropRequest i (i.collection ++ "/" ++ toString number)) made
  have reached := ends.2
  constructor
  · exact ends.1
  · refine ⟨before, after, ?_, ?_⟩
    · rw [indexes_of_stored stored, place]
    · rw [reached, ← without]
      rw [indexes_of_stored stored] at own
      exact own
  · rw [reached]
    exact others

/-- Only an index whose identifier begins with the name of its collection is dropped and no
other one. -/
theorem labelled_of_removesOnly {database : Option String} {transaction : Option Transaction}
    (space : s.Namespace) (other : i.indexName ≠ "primary")
    (listed : index ∈ s.indexes i.tenant i.collection)
    (named : Document.value index "name" = .str i.indexName)
    (removes : s.RemovesOnly i index
      (((Command.drop (.index i)).perform database transaction).runOn Store.server s)) :
    ∃ number : Nat,
      Document.value index "id" = .str (i.collection ++ "/" ++ toString number) := by
  obtain ⟨c, stored, member⟩ := stored_of_mem_indexes listed
  have numbered := (space _).numbered _ c stored
  obtain ⟨owner, number, isId, _⟩ := numbered.numbered index member
  obtain ⟨s₁, finds, unchanged⟩ := i.ends_find s
  rw [Index.foundIn_eq numbered other stored member named isId] at finds
  obtain ⟨report, ⟨before, after, place, gone⟩, _⟩ := removes
  generalize ran : ((Command.drop (.index i)).perform database transaction).runOn Store.server s =
    run at report gone
  have ends : ((Command.drop (.index i)).perform database transaction).Ends Store.server s
      (.ok (.dropped "index" i.indexName)) run.state := ⟨ran ▸ report, ran ▸ rfl⟩
  obtain ⟨_, s', drops, same⟩ := ends_bind_ok_iff.mp ends
  have reached := (ends_pure_iff.mp same).2
  have sends := Definition.ends_drop_index_found finds drops
  cases routed : Route.of? (Definition.dropRequest i (owner ++ "/" ++ toString number)) with
  | none => cases (sends.unique (ends_command_of_noRoute rfl routed)).1
  | some route =>
      cases Definition.eq_of_route_dropRequest routed
      obtain ⟨response, db, _, made, _, rfl⟩ := change_of_ends_command rfl routed rfl sends
      by_cases own : i.collection = owner
      · exact ⟨number, own ▸ isId⟩
      · -- the indexes of the collection are as they were, but the index should be missing
        obtain ⟨_, others⟩ := indexes_of_dropped unchanged
          (Definition.dropRequest i (owner ++ "/" ++ toString number)) made
        have still : before ++ after = before ++ index :: after := by
          rw [← gone, ← place, reached]
          exact others i.tenant i.collection (Or.inr own)
        exact absurd (congrArg List.length still) (by simp)

end Store

/-! ### Commands that rename -/

/-- The command renames a collection of the database to the name. -/
def Command.RenamesTo (home database name : String) : Command → Prop
  | rename _ target => target.IsCollection home database name
  | _ => False

namespace Request

variable {home database name : String} {r : Request}

/-- Only a request to a collection that puts something moves it. -/
theorem MovesTo.shape (moves : r.MovesTo home database name) :
    r.method = .put ∧ ∃ source, Text.splitAt '/' r.path = ["collection", source, "rename"] := by
  obtain ⟨⟨source, routed⟩, _⟩ := moves
  have shape := Route.of?_eq_some_iff.mp routed
  simp only [Route.shapes, List.mem_singleton, Prod.mk.injEq] at shape
  exact ⟨shape.1, source, shape.2⟩

theorem Apart.stays (apart : r.Apart) : ¬r.MovesTo home database name := by
  intro moves
  obtain ⟨head, rest, cut, other⟩ := apart
  obtain ⟨_, source, same⟩ := moves.shape
  rw [cut] at same
  cases same
  exact other List.mem_cons_self

theorem stays_of_method (unlike : r.method ≠ .put) : ¬r.MovesTo home database name :=
  fun moves => unlike moves.shape.1

end Request

theorem CursorRead.method_request_ne_put (c : CursorRead) : c.request.method ≠ .put := by
  rw [CursorRead.request, Request.method_inTransaction]
  cases c.position <;> rintro ⟨⟩

namespace Command

variable {home database name : String} {command : Command} {r : Request}

theorem Sends.stays (sends : command.Sends r) (other : ¬command.RenamesTo home database name) :
    ¬r.MovesTo home database name := by
  cases command with
  | rename source target =>
      cases sends with
      | elsewhere apart _ => exact apart.stays
      | @collections c d _ isTarget _ _ body tenant together _ =>
          subst isTarget
          rintro ⟨_, named, here⟩
          rw [body] at named
          rw [tenant, together] at here
          cases named
          exact other ⟨here, rfl⟩
  | alterCollection c columns =>
      cases sends with
      | reading reads => exact Request.stays_of_method (by rw [reads]; decide)
      | change routed _ =>
          rintro ⟨⟨source, moved⟩, _⟩
          cases routed _ moved
  | alterView v changes => exact Request.Apart.stays sends
  | execute aql =>
      apply Request.stays_of_method
      cases sends with
      | start position sent => exact sent ▸ CursorRead.method_request_ne_put _
      | page position sent => exact sent ▸ CursorRead.method_request_ne_put _
  | _ =>
      cases sends with
      | reading reads => exact Request.stays_of_method (by rw [reads]; decide)
      | creation _ _ sent => exact Request.stays_of_method (by rw [sent]; rintro ⟨⟩)
      | removal _ sent => exact Request.stays_of_method (by rw [sent]; rintro ⟨⟩)
      | elsewhere apart _ => exact apart.stays

end Command

/-! ### After commands -/

/-- A command, with the database and the transaction that it is performed in. -/
structure Issued where
  command : Command
  database : Option String := none
  transaction : Option Transaction := none

/-- The store after commands, one after another, whether they succeed or not. -/
def Store.performed (s : Store) : List Issued → Store
  | [] => s
  | issued :: rest =>
      let run := (issued.command.perform issued.database issued.transaction).runOn Store.server s
      run.state.performed rest

namespace Store

variable {s : Store} {history : List Issued} {home database name : String}

/-- What every request that the commands make preserves holds after them. -/
theorem performed_keeps {I : Store → Prop} {p : Request → Prop}
    (sends : ∀ issued ∈ history, ∀ r, issued.command.Sends r → p r)
    (keeps : ∀ s r, I s → p r → I (Store.server.answer s r).2) (start : I s) :
    I (s.performed history) := by
  induction history generalizing s with
  | nil => exact start
  | cons issued rest inductionHypothesis =>
      have asks := (issued.command.asks_perform issued.database issued.transaction).mono
        (sends issued List.mem_cons_self)
      exact inductionHypothesis (fun other inRest => sends other (List.mem_cons_of_mem _ inRest))
        (asks.keeps keeps start)

theorem namespace_performed (space : s.Namespace) (history : List Issued) :
    (s.performed history).Namespace :=
  performed_keeps (p := fun _ => True) (fun _ _ _ _ => trivial)
    (fun _ r kept _ => Namespace.answer kept r) space

/-- Unless a command renames a collection to the name, the indexes keep identifiers that begin
with it. -/
theorem labelled_performed (labelled : (s.database database).Labelled name)
    (unmoved : ∀ issued ∈ history, ¬issued.command.RenamesTo s.home database name) :
    (s.performed history).home = s.home ∧
      ((s.performed history).database database).Labelled name := by
  refine performed_keeps (I := fun s' => s'.home = s.home ∧ (s'.database database).Labelled name)
    (fun issued member r sends => Command.Sends.stays sends (unmoved issued member)) ?_
    ⟨rfl, labelled⟩
  rintro s' r ⟨isHome, kept⟩ stays
  rw [← isHome] at stays
  exact ⟨(onward_answer s' r).home_eq.trans isHome, labelled_answer kept stays⟩

end Store

namespace Command

/-- Whatever commands an empty store has performed, in whatever databases and transactions, an
index that is listed is dropped, and no other one, exactly if its identifier begins with the name
of its collection.  It does if no command has renamed a collection to that name: a rename leaves
the identifiers as they are. -/
theorem drop_index_iff_labelled {home : String} {batchSize : Nat} {history : List Issued}
    {i : Index} {index : Dict Json} (database : Option String) (transaction : Option Transaction)
    (plain : '/' ∉ i.collection.toList) (other : i.indexName ≠ "primary")
    (listed : index ∈
      (({ home, batchSize } : Store).performed history).indexes i.tenant i.collection)
    (named : Document.value index "name" = .str i.indexName) :
    let s := ({ home, batchSize } : Store).performed history
    let run := ((drop (.index i)).perform database transaction).runOn Store.server s
    (s.RemovesOnly i index run ↔ ∃ number : Nat,
      Document.value index "id" = .str (i.collection ++ "/" ++ toString number)) ∧
    ((∀ issued ∈ history, ¬issued.command.RenamesTo home (i.tenant.getD home) i.collection) →
      s.RemovesOnly i index run) := by
  intro s run
  have empty : ({ home, batchSize } : Store).Namespace := fun _ => Database.Namespace.empty
  have space : s.Namespace := Store.namespace_performed empty history
  have exactly : s.RemovesOnly i index run ↔ ∃ number : Nat,
      Document.value index "id" = .str (i.collection ++ "/" ++ toString number) := by
    constructor
    · exact Store.labelled_of_removesOnly space other listed named
    · rintro ⟨number, isId⟩
      exact Store.removesOnly_of_labelled database transaction space plain other listed named isId
  refine ⟨exactly, fun unmoved => exactly.mpr ?_⟩
  have start : (({ home, batchSize } : Store).database (i.tenant.getD home)).Labelled
      i.collection := by
    intro c stored
    cases stored
  obtain ⟨isHome, labelled⟩ := Store.labelled_performed start unmoved
  obtain ⟨c, stored, member⟩ := Store.stored_of_mem_indexes listed
  rw [isHome] at stored
  exact labelled c stored index member

/-- An index of users. -/
def emailIndex : Index :=
  { collection := "users", fields := ["email"], name := some "users_email_index" }

/-- Commands that create users with the index. -/
def indexingHistory : List Issued :=
  [{ command := create (.collection { name := "users" }) },
    { command := create (.index emailIndex) }]

/-- Nothing was renamed, and the index is dropped. -/
theorem drop_index_iff_labelled_of_indexingHistory :
    ∃ index, index ∈ (({} : Store).performed indexingHistory).indexes none "users" ∧
      (({} : Store).performed indexingHistory).RemovesOnly emailIndex index
        (((drop (.index emailIndex)).perform none none).runOn Store.server
          (({} : Store).performed indexingHistory)) := by
  have names : ((({} : Store).performed indexingHistory).indexes none "users").map
      (fun index => Document.value index "name") = [.str "users_email_index"] := rfl
  obtain ⟨index, single, named⟩ := List.map_eq_singleton_iff.mp names
  have listed : index ∈ (({} : Store).performed indexingHistory).indexes none "users" := by
    rw [single]
    exact List.mem_cons_self
  refine ⟨index, listed, ?_⟩
  refine (drop_index_iff_labelled none none (by decide) (by decide) listed named).2 ?_
  exact List.forall_mem_cons.mpr ⟨id, List.forall_mem_singleton.mpr id⟩

/-- Commands that create users with the index, and rename them. -/
def movingHistory : List Issued :=
  indexingHistory ++
    [{ command := rename (.collection { name := "users" }) (.collection { name := "people" }) }]

/-- Commands that then create other users, with an index of theirs. -/
def replacingHistory : List Issued :=
  movingHistory ++
    [{ command := create (.collection { name := "users" }) },
      { command := create (.index { collection := "users", fields := ["age"] }) }]

/-- After a rename an index that is listed cannot be dropped any more: its identifier leads to
the collection that it was created for.  If there is one again, the command reports that the index
was dropped, and has dropped the index of that collection that has got the same identifier. -/
theorem drop_index_amiss_after_rename :
    (∃ index, index ∈ (({} : Store).performed movingHistory).indexes none "people" ∧
      Document.value index "name" = .str "users_email_index" ∧
      ¬(({} : Store).performed movingHistory).RemovesOnly
        { emailIndex with collection := "people" } index
        (((drop (.index { emailIndex with collection := "people" })).perform none none).runOn
          Store.server (({} : Store).performed movingHistory))) ∧
    ∃ s', ((drop (.index { emailIndex with collection := "people" })).perform none none).Ends
        Store.server (({} : Store).performed replacingHistory)
        (.ok (.dropped "index" "users_email_index")) s' ∧
      ((({} : Store).performed replacingHistory).indexes none "users").length = 1 ∧
      (s'.indexes none "users").length = 0 ∧
      s'.indexes none "people" =
        (({} : Store).performed replacingHistory).indexes none "people" := by
  constructor
  · have names : ((({} : Store).performed movingHistory).indexes none "people").map
        (fun index => Document.value index "name") = [.str "users_email_index"] := rfl
    obtain ⟨index, single, named⟩ := List.map_eq_singleton_iff.mp names
    refine ⟨index, ?_, named, fun removes => ?_⟩
    · rw [single]
      exact List.mem_cons_self
    · have failed : (((drop (.index { emailIndex with collection := "people" })).perform none
          none).runOn Store.server (({} : Store).performed movingHistory)).outcome =
            .error (.store 404 1203 "collection or view not found: users") := rfl
      cases failed.symm.trans removes.report
  · exact ⟨_, ⟨rfl, rfl⟩, rfl, rfl, rfl⟩

end Command

end DocStore
