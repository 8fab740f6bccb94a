/-
Module: DocStore.Proofs.Migration.Altering
Purpose: changing the columns of a stored collection step by step comes to the same as
  changing them at once.
Main exports:
  Collection.Shown, StoredCollection.withSchema, Collection.Shown.ends_alter,
  Command.alter_append
-/
import DocStore.Migration.Execution
import DocStore.Proofs.Definition.Validation
import DocStore.Proofs.Memory.Definitions
import DocStore.Proofs.Memory.Routing

namespace DocStore

namespace StoredCollection

/-- The stored validation document, if there is one. -/
def schema? (c : StoredCollection) : Option Json :=
  (c.properties.get? "schema").filter fun schema => !schema.isNull

/-- The collection with another validation document. -/
def withSchema (c : StoredCollection) (schema : Json) : StoredCollection :=
  { c with properties := c.properties.insert "schema" schema }

theorem schema?_withSchema (c : StoredCollection) {schema : Json} (given : schema.isNull = false) :
    (c.withSchema schema).schema? = some schema := by
  simp [schema?, withSchema, given]

end StoredCollection

namespace Collection

variable {c : Collection} {s : Store} {stored : StoredCollection}

/-- The path of the properties of a collection. -/
def propertiesPath (c : Collection) : String :=
  "collection/" ++ c.name ++ "/properties"

/-- The request for the properties of a collection. -/
def showRequest (c : Collection) : Request :=
  (Request.get c.propertiesPath).withDatabase c.tenant

/-- The request that sets the validation document of a collection. -/
def schemaRequest (c : Collection) (schema : Json) : Request :=
  (Request.put c.propertiesPath (.obj ⟨[("schema", schema)]⟩)).withDatabase c.tenant

/-- The store shows the collection: it is stored under a name that is one segment of a path,
and its properties do not read as the report of an error. -/
structure Shown (c : Collection) (s : Store) (stored : StoredCollection) : Prop where
  single : Text.splitAt '/' c.name = [c.name]
  isStored : (s.database (c.tenant.getD s.home)).collections.get? c.name = some stored
  clean : ((Json.obj stored.properties).field "error").bool? ≠ some true

/-! ### Requests about the properties -/

theorem segments_propertiesPath (c : Collection) :
    Text.splitAt '/' c.propertiesPath =
      "collection" :: (Text.splitAt '/' c.name ++ ["properties"]) := by
  have path : c.propertiesPath = "collection" ++ "/" ++ (c.name ++ "/" ++ "properties") :=
    Route.path_below "collection" c.name "properties"
  have inner := Text.splitAt_append '/' c.name "properties"
  rw [Text.splitAt_of_notMem (by decide : '/' ∉ "properties".toList)] at inner
  rw [path, Route.segments_append "collection" _ (by decide)]
  exact congrArg (List.cons "collection") inner

theorem route_showRequest (single : Text.splitAt '/' c.name = [c.name]) :
    Route.of? c.showRequest = some (.showCollection c.name) := by
  rw [Route.of?_eq_some_iff]
  change (Method.get, Text.splitAt '/' c.propertiesPath) ∈ _
  rw [segments_propertiesPath, single]
  exact List.mem_cons_of_mem _ List.mem_cons_self

theorem route_schemaRequest (single : Text.splitAt '/' c.name = [c.name]) (schema : Json) :
    Route.of? (c.schemaRequest schema) = some (.changeCollection c.name) := by
  rw [Route.of?_eq_some_iff]
  change (Method.put, Text.splitAt '/' c.propertiesPath) ∈ _
  rw [segments_propertiesPath, single]
  exact List.mem_cons_self

/-- No route leads to the properties of a collection whose name has several segments. -/
theorem single_of_route {route : Route} (routed : Route.of? c.showRequest = some route) :
    Text.splitAt '/' c.name = [c.name] := by
  have shape := Route.of?_eq_some_iff.mp routed
  change (Method.get, Text.splitAt '/' c.propertiesPath) ∈ route.shapes at shape
  rw [segments_propertiesPath] at shape
  cases pieces : Text.splitAt '/' c.name with
  | nil => exact absurd pieces (Text.splitAt_ne_nil '/' c.name)
  | cons piece rest =>
      rw [pieces] at shape
      cases route <;> simp [Route.shapes] at shape
      rw [shape.2] at pieces ⊢
      rw [Text.eq_of_splitAt_eq_singleton pieces]

/-- Only the properties of a collection that the store shows are answered. -/
theorem shown_of_ends {body : Json} {s' : Store}
    (ends : (Exchange.request c.showRequest).Ends Store.server s (.ok body) s') :
    ∃ stored, c.Shown s stored := by
  have commanded : (Exchange.command c.showRequest).Ends Store.server s (.ok ()) s' := by
    obtain ⟨outcome, state⟩ := Exchange.ends_request_iff.mp ends
    exact Exchange.ends_command_iff.mpr ⟨by rw [← outcome]; rfl, state⟩
  cases routed : Route.of? c.showRequest with
  | none => cases (commanded.unique (Store.ends_command_of_noRoute rfl routed)).1
  | some route =>
      have single := single_of_route routed
      obtain ⟨response, db, value, made, success, _⟩ :=
        Store.change_of_ends_command rfl (route_showRequest single) rfl commanded
      obtain ⟨stored, isStored, shown⟩ := exceptBind_eq_ok_iff.mp made
      cases shown
      obtain ⟨succeeds, _⟩ := Response.result_eq_ok success
      refine ⟨stored, single, Database.collection_eq_ok_iff.mp isStored, fun flagged => ?_⟩
      simp [Response.isSuccess, answered, flagged] at succeeds

/-- The store after the collection was shown. -/
def afterShow (c : Collection) (s : Store) : Store :=
  (s.noteRequest c.showRequest).putDatabase (c.tenant.getD s.home)
    (s.database (c.tenant.getD s.home))

/-- The store after the collection was shown and then given a validation document. -/
def afterAlter (c : Collection) (s : Store) (stored : StoredCollection) (schema : Json) : Store :=
  ((c.afterShow s).noteRequest (c.schemaRequest schema)).putDatabase (c.tenant.getD s.home)
    ((s.database (c.tenant.getD s.home)).putCollection c.name (stored.withSchema schema))

theorem database_afterAlter (c : Collection) (s : Store) (stored : StoredCollection)
    (schema : Json) : (c.afterAlter s stored schema).database (c.tenant.getD s.home) =
      (s.database (c.tenant.getD s.home)).putCollection c.name (stored.withSchema schema) :=
  Store.database_putDatabase_self _ _ _

theorem databases_afterAlter (c : Collection) (s : Store) (stored : StoredCollection)
    (schema : Json) : (c.afterAlter s stored schema).databases =
      s.databases.insert (c.tenant.getD s.home)
        ((s.database (c.tenant.getD s.home)).putCollection c.name (stored.withSchema schema)) :=
  Dict.insert_insert _ _ _ _

/-- Of two documents given one after the other the second one is kept. -/
theorem databases_afterAlter_afterAlter (c : Collection) (s : Store) (stored : StoredCollection)
    (first second : Json) :
    (c.afterAlter (c.afterAlter s stored first) (stored.withSchema first) second).databases =
      (c.afterAlter s stored second).databases := by
  have again : ∀ db : Database, (db.putCollection c.name (stored.withSchema first)).putCollection
      c.name ((stored.withSchema first).withSchema second) =
        db.putCollection c.name (stored.withSchema second) := by
    intro db
    simp only [Database.putCollection, Dict.insert_insert, StoredCollection.withSchema]
  rw [databases_afterAlter, databases_afterAlter, databases_afterAlter]
  change (s.databases.insert (c.tenant.getD s.home) _).insert (c.tenant.getD s.home)
    (((c.afterAlter s stored first).database (c.tenant.getD s.home)).putCollection _ _) = _
  rw [database_afterAlter, again, Dict.insert_insert]

namespace Shown

theorem ends_show (shown : c.Shown s stored) : (Exchange.request c.showRequest).Ends
    Store.server s (.ok (.obj stored.properties)) (c.afterShow s) := by
  apply Store.ends_request_of_made rfl (route_showRequest shown.single) rfl
  · apply exceptBind_eq_ok_iff.mpr
    exact ⟨stored, Database.collection_eq_ok_iff.mpr shown.isStored, rfl⟩
  · exact Response.result_answered (by decide) shown.clean

/-- With a new validation document the collection is still shown. -/
theorem afterAlter (shown : c.Shown s stored) (schema : Json) :
    c.Shown (c.afterAlter s stored schema) (stored.withSchema schema) where
  single := shown.single
  isStored := by
    change ((c.afterAlter s stored schema).database (c.tenant.getD s.home)).collections.get?
      c.name = _
    rw [database_afterAlter]
    exact Dict.get?_insert_self _ _ _
  clean := by
    have kept : (Json.obj (stored.withSchema schema).properties).field "error" =
        (Json.obj stored.properties).field "error" := by
      simp [Json.field, Json.get?, StoredCollection.withSchema, Dict.get?_insert]
    rw [kept]
    exact shown.clean

/-- Changes that make no document are refused. -/
theorem ends_alter_refused (shown : c.Shown s stored) {ops : List ColumnOp} {fault : SchemaFault}
    (refused : generateSchema ops stored.schema? = .error fault) :
    (c.alter ops).Ends Store.server s (.error (.schema fault)) (c.afterShow s) := by
  have generates : (Exchange.ofSchema (generateSchema ops stored.schema?)).Ends Store.server
      (c.afterShow s) (.error (.schema fault)) (c.afterShow s) := by
    rw [refused]
    exact Exchange.ends_done_iff.mpr ⟨rfl, rfl⟩
  exact shown.ends_show.bind generates.bind_error

/-- The document that changes make takes the place of the stored one. -/
theorem ends_alter_made (shown : c.Shown s stored) {ops : List ColumnOp} {schema : Json}
    (made : generateSchema ops stored.schema? = .ok schema) :
    (c.alter ops).Ends Store.server s (.ok ()) (c.afterAlter s stored schema) := by
  have generates : (Exchange.ofSchema (generateSchema ops stored.schema?)).Ends Store.server
      (c.afterShow s) (.ok schema) (c.afterShow s) := by
    rw [made]
    exact Exchange.ends_done_iff.mpr ⟨rfl, rfl⟩
  have sets : (Exchange.command (c.schemaRequest schema)).Ends Store.server (c.afterShow s)
      (.ok ()) (c.afterAlter s stored schema) := by
    apply Store.ends_command_of_made rfl (route_schemaRequest shown.single schema) rfl
    · apply Database.changeCollection_eq_ok_iff.mpr
      refine ⟨stored, ?_, rfl, ?_⟩
      · change ((c.afterShow s).database (c.tenant.getD s.home)).collections.get? c.name = _
        rw [Collection.afterShow, Store.database_putDatabase_self]
        exact shown.isStored
      · change _ = ((c.afterShow s).database (c.tenant.getD s.home)).putCollection c.name _
        rw [Collection.afterShow, Store.database_putDatabase_self]
        rfl
    · exact Response.result_answered (by decide) (shown.afterAlter schema).clean
  exact shown.ends_show.bind (generates.bind sets)

end Shown

/-- A collection is shown, or no changes to it get beyond the request for its properties. -/
theorem shown_or_fails (c : Collection) (s : Store) :
    (∃ stored, c.Shown s stored) ∨
      ∃ e s', ∀ ops, (c.alter ops).Ends Store.server s (.error e) s' := by
  obtain ⟨outcome, s', ends⟩ := Exchange.exists_ends Store.server s
    (Exchange.request c.showRequest)
  cases outcome with
  | ok body => exact Or.inl (shown_of_ends ends)
  | error e => exact Or.inr ⟨e, s', fun _ => ends.bind_error⟩

/-- Changing a collection step by step ends as changing it at once does, and leaves the same
databases if it succeeds. -/
theorem ends_alter_append (c : Collection) (first second : List ColumnOp) (s : Store) :
    ∃ outcome s₁ s₂,
      (c.alter first >>= fun _ => c.alter second).Ends Store.server s outcome s₁ ∧
        (c.alter (first ++ second)).Ends Store.server s outcome s₂ ∧
        (outcome = .ok () → s₁.databases = s₂.databases) := by
  rcases c.shown_or_fails s with ⟨stored, shown⟩ | ⟨e, s', fails⟩
  · have whole := generateSchema_append first second stored.schema?
    cases one : generateSchema first stored.schema? with
    | error fault =>
        rw [one] at whole
        exact ⟨_, _, _, (shown.ends_alter_refused one).bind_error,
          shown.ends_alter_refused whole, nofun⟩
    | ok middle =>
        rw [one] at whole
        have stepped := shown.ends_alter_made one
        have goesOn : (stored.withSchema middle).schema? = some middle :=
          stored.schema?_withSchema (isNull_of_generateSchema one)
        cases two : generateSchema second (stored.withSchema middle).schema? with
        | error fault =>
            have refused : generateSchema (first ++ second) stored.schema? = .error fault := by
              rw [whole, ← two, goesOn]
              rfl
            exact ⟨_, _, _, stepped.bind ((shown.afterAlter middle).ends_alter_refused two),
              shown.ends_alter_refused refused, nofun⟩
        | ok final =>
            have made : generateSchema (first ++ second) stored.schema? = .ok final := by
              rw [whole, ← two, goesOn]
              rfl
            exact ⟨_, _, _, stepped.bind ((shown.afterAlter middle).ends_alter_made two),
              shown.ends_alter_made made,
              fun _ => databases_afterAlter_afterAlter c s stored middle final⟩
  · exact ⟨_, s', s', (fails first).bind_error, fails (first ++ second), nofun⟩

end Collection

namespace Command

/-- Step by step is at once: two commands that change the columns of a collection, one after
the other, end as the one command with all their changes does, whatever the store holds.  If
they succeed they leave the same databases, so also the same stored collection. -/
theorem alter_append (c : Collection) (first second : List ColumnOp) (database : Option String)
    (t : Option Transaction) (s : Store) :
    let stepwise := ((alterCollection c first).perform database t >>= fun _ =>
      (alterCollection c second).perform database t).runOn Store.server s
    let atOnce := ((alterCollection c (first ++ second)).perform database t).runOn Store.server s
    stepwise.outcome = atOnce.outcome ∧
      (atOnce.outcome.isOk = true → stepwise.state.databases = atOnce.state.databases) := by
  intro stepwise atOnce
  obtain ⟨outcome, s₁, s₂, one, two, same⟩ := c.ends_alter_append first second s
  have steps : ((alterCollection c first).perform database t >>= fun _ =>
      (alterCollection c second).perform database t) =
      (c.alter first >>= fun _ => c.alter second) >>= fun _ =>
        pure (Report.altered "collection" c.name) := by
    rw [Exchange.bind_assoc]
    exact Exchange.bind_assoc _ _ _
  obtain ⟨outcomeOne, stateOne⟩ := one.map fun _ => Report.altered "collection" c.name
  obtain ⟨outcomeTwo, stateTwo⟩ := two.map fun _ => Report.altered "collection" c.name
  rw [← steps] at outcomeOne stateOne
  refine ⟨outcomeOne.trans outcomeTwo.symm, fun succeeds => ?_⟩
  have completes : outcome = .ok () := by
    have is : atOnce.outcome = outcome.map fun _ => Report.altered "collection" c.name :=
      outcomeTwo
    rw [is] at succeeds
    cases outcome with
    | ok => rfl
    | error e => cases succeeds
  calc
    stepwise.state.databases = s₁.databases := congrArg Store.databases stateOne
    _ = s₂.databases := same completes
    _ = atOnce.state.databases := (congrArg Store.databases stateTwo).symm

/-- A store with a collection that has no validation document yet. -/
def usersStore : Store :=
  { databases := ⟨[("_system", { collections := ⟨[("users", { properties := {} })]⟩ })]⟩ }

theorem alter_append_of_usersStore :
    let first : List ColumnOp := [.add "age" (.primitive "integer") .notNull]
    let second : List ColumnOp := [.rename "age" "years", .add "name" (.primitive "string") {}]
    let atOnce := ((alterCollection { name := "users" } (first ++ second)).perform none none).runOn
      Store.server usersStore
    let stepwise := ((alterCollection { name := "users" } first).perform none none >>= fun _ =>
      (alterCollection { name := "users" } second).perform none none).runOn Store.server usersStore
    atOnce.outcome.isOk = true ∧ stepwise.state.databases = atOnce.state.databases :=
  ⟨rfl, (alter_append { name := "users" } [.add "age" (.primitive "integer") .notNull]
    [.rename "age" "years", .add "name" (.primitive "string") {}] none none usersStore).2 rfl⟩

end Command

end DocStore
