/-
Module: DocStore.Proofs.Migration.ViewAltering
Purpose: when altering a stored view twice, from one definition, comes to the same as altering
  it once with all the changes.
Main exports:
  Database.overwritten, Database.get?_overwritten_links, View.Accumulates.putOver_eq,
  View.Ordered.sorts_lost, View.Accumulates.answer_append, Command.alterView_append
-/
import DocStore.Migration.Execution
import DocStore.Proofs.Definition.ViewChange
import DocStore.Proofs.Memory.Definitions
import DocStore.Proofs.Memory.Routing
import DocStore.Proofs.Migration.Requests

namespace DocStore

/-! ### Stored properties -/

namespace Database

variable {stored changes added : Dict Json} {key other : String} {value : Json}

/-- The properties of a view, with those that changes give put over them one by one. -/
def overwritten (stored changes : Dict Json) : Dict Json :=
  changes.entries.foldl (fun v change => changeProperty v change.1 change.2) stored

/-- The links of a view; none, if it has no object of them. -/
def linksOf (stored : Dict Json) : Dict Json :=
  match stored.get? "links" with
  | some (.obj links) => links
  | _ => {}

theorem changeProperty_of_ne (stored : Dict Json) (other : key ≠ "links") (value : Json) :
    changeProperty stored key value = stored.insert key value := by
  have unlike : (key == "links") = false := beq_eq_false_iff_ne.mpr other
  simp [changeProperty, unlike]

/-- Links are put over those that are there. -/
theorem changeProperty_links (stored : Dict Json) (sorted : added.Sorted) :
    changeProperty stored "links" (.obj added) =
      stored.insert "links" (.obj ((linksOf stored).merge added)) := by
  have alone : ({} : Dict Json).merge added = added := sorted.ofList_entries
  unfold changeProperty linksOf
  cases stored.get? "links" with
  | none => simp [alone]
  | some links => cases links <;> simp [alone]

theorem sorted_changeProperty (sorted : stored.Sorted) (key : String) (value : Json) :
    (changeProperty stored key value).Sorted := by
  unfold changeProperty
  split <;> exact sorted.insert _ _

theorem overwritten_cons (stored : Dict Json) (e : String × Json) (rest : List (String × Json)) :
    overwritten stored ⟨e :: rest⟩ = overwritten (changeProperty stored e.1 e.2) ⟨rest⟩ := rfl

theorem sorted_overwritten (sorted : stored.Sorted) (changes : Dict Json) :
    (overwritten stored changes).Sorted := by
  obtain ⟨entries⟩ := changes
  induction entries generalizing stored with
  | nil => exact sorted
  | cons e rest inductionHypothesis =>
      exact inductionHypothesis (sorted_changeProperty sorted e.1 e.2)

/-- All properties but the links are replaced. -/
theorem get?_overwritten_of_ne (stored : Dict Json) (sorted : changes.Sorted)
    (other : key ≠ "links") :
    (overwritten stored changes).get? key = (changes.get? key).or (stored.get? key) := by
  have one : ∀ (v : Dict Json) (e : String × Json),
      (changeProperty v e.1 e.2).get? key = (v.insert e.1 e.2).get? key := by
    intro v e
    unfold changeProperty
    split
    · next isLinks _ _ =>
        rw [beq_iff_eq.mp isLinks, Dict.get?_insert_of_ne _ _ other,
          Dict.get?_insert_of_ne _ _ other]
    · rfl
  have all : ∀ entries : List (String × Json),
      (overwritten stored ⟨entries⟩).get? key = (stored.insertAll entries).get? key := by
    intro entries
    induction entries generalizing stored with
    | nil => rfl
    | cons e rest inductionHypothesis =>
        calc
          (overwritten stored ⟨e :: rest⟩).get? key
              = ((changeProperty stored e.1 e.2).insertAll rest).get? key :=
            inductionHypothesis (changeProperty stored e.1 e.2)
          _ = ((stored.insert e.1 e.2).insertAll rest).get? key := by
            rw [Dict.get?_insertAll, one, ← Dict.get?_insertAll]
  exact (all changes.entries).trans (Dict.get?_merge stored sorted key)

theorem get?_links_of_absent (stored : Dict Json) {entries : List (String × Json)}
    (absent : ∀ e ∈ entries, e.1 ≠ "links") :
    (overwritten stored ⟨entries⟩).get? "links" = stored.get? "links" := by
  induction entries generalizing stored with
  | nil => rfl
  | cons e rest inductionHypothesis =>
      obtain ⟨first, later⟩ := List.forall_mem_cons.mp absent
      rw [overwritten_cons, inductionHypothesis _ later, changeProperty_of_ne stored first,
        Dict.get?_insert_of_ne _ _ (Ne.symm first)]

theorem get?_links_of_mem (stored : Dict Json) {entries : List (String × Json)}
    (distinct : (entries.map Prod.fst).Nodup) (addedSorted : added.Sorted)
    (member : ("links", Json.obj added) ∈ entries) :
    (overwritten stored ⟨entries⟩).get? "links" =
      some (.obj ((linksOf stored).merge added)) := by
  induction entries generalizing stored with
  | nil => cases member
  | cons e rest inductionHypothesis =>
      obtain ⟨apart, distinct⟩ := List.nodup_cons.mp distinct
      rw [overwritten_cons]
      rcases List.mem_cons.mp member with rfl | later
      · -- The links are given once, so that they stay as they are from here on.
        have others : ∀ e ∈ rest, e.1 ≠ "links" := fun e inRest same =>
          apart (List.mem_map.mpr ⟨e, inRest, same⟩)
        rw [get?_links_of_absent _ others, changeProperty_links stored addedSorted,
          Dict.get?_insert_self]
      · have first : e.1 ≠ "links" := fun same =>
          apart (List.mem_map.mpr ⟨_, later, same.symm⟩)
        have before : linksOf (changeProperty stored e.1 e.2) = linksOf stored := by
          rw [linksOf, changeProperty_of_ne stored first,
            Dict.get?_insert_of_ne _ _ (Ne.symm first), linksOf]
        rw [inductionHypothesis _ distinct later, before]

/-- The links are put over those that are there. -/
theorem get?_overwritten_links (stored : Dict Json) (sorted : changes.Sorted)
    (given : changes.get? "links" = some (.obj added)) (addedSorted : added.Sorted) :
    (overwritten stored changes).get? "links" =
      some (.obj ((linksOf stored).merge added)) :=
  get?_links_of_mem stored sorted.nodup_keys addedSorted (Dict.mem_of_lookupEntry_eq_some given)

/-- How a stored view is changed. -/
theorem changeView_eq {db : Database} {name : String} (is : db.views.get? name = some stored)
    (changes : Dict Json) :
    db.changeView name (.obj changes) =
      .ok (answered 200 (.obj (overwritten stored changes)),
        db.putView name (overwritten stored changes)) := by
  have found := view_eq_ok_iff.mpr is
  simp only [changeView, found, Bind.bind, Except.bind, Json.members?, Option.getD_some,
    overwritten]

theorem changeView_missing {db : Database} {name : String} (missing : db.views.get? name = none)
    (body : Json) : db.changeView name body = .error (.noSource name) := by
  simp only [changeView, view, missing, Bind.bind, Except.bind]

end Database

/-! ### Definitions -/

namespace View

variable {v : View} {stored : Dict Json} {first second changes : List ViewChange}

/-- The links and the options of a definition are in the order of their names. -/
structure Ordered (v : View) : Prop where
  links : v.links.Sorted
  options : v.options.Sorted

theorem Ordered.apply (ordered : v.Ordered) (changes : List ViewChange) :
    (v.apply changes).Ordered := by
  rw [apply_eq]
  exact ⟨ordered.links.insertAll _, ordered.options⟩

/-- What a definition sends is put over a stored view. -/
def putOver (v : View) (stored : Dict Json) : Dict Json :=
  Database.overwritten stored v.properties

theorem Ordered.linksOf_putOver (ordered : v.Ordered) (stored : Dict Json) :
    (v.putOver stored).get? "links" =
      some (.obj ((Database.linksOf stored).merge (Link.dictMembers v.links))) :=
  Database.get?_overwritten_links stored (sorted_properties ordered.options)
    v.get?_properties_links (Link.sorted_dictMembers ordered.links)

theorem Accumulates.putOver_eq (accumulates : v.Accumulates first second) (ordered : v.Ordered)
    (sorted : stored.Sorted) (links : (Database.linksOf stored).Sorted) :
    (v.apply second).putOver ((v.apply first).putOver stored) =
      (v.apply (first ++ second)).putOver stored := by
  have one := ordered.apply first
  have two := ordered.apply second
  have both := ordered.apply (first ++ second)
  apply Dict.Sorted.ext
  · exact Database.sorted_overwritten (Database.sorted_overwritten sorted _) _
  · exact Database.sorted_overwritten sorted _
  intro key
  by_cases isLinks : key = "links"
  · subst isLinks
    have middle : Database.linksOf ((v.apply first).putOver stored) =
        (Database.linksOf stored).merge (Link.dictMembers (v.apply first).links) := by
      rw [Database.linksOf, one.linksOf_putOver]
    rw [two.linksOf_putOver, both.linksOf_putOver, middle]
    congr 2
    apply Dict.Sorted.ext ((links.merge _).merge _) (links.merge _)
    intro collection
    rw [Dict.get?_merge _ (Link.sorted_dictMembers two.links),
      Dict.get?_merge _ (Link.sorted_dictMembers one.links),
      Dict.get?_merge _ (Link.sorted_dictMembers both.links)]
    exact accumulates.get?_links collection _
  · unfold putOver
    rw [Database.get?_overwritten_of_ne _ (sorted_properties two.options) isLinks,
      Database.get?_overwritten_of_ne _ (sorted_properties one.options) isLinks,
      Database.get?_overwritten_of_ne _ (sorted_properties both.options) isLinks]
    exact accumulates.get?_properties isLinks _

/-- The sorts that a first alteration adds are lost for every view and whatever is stored, if the
second one sends sorts. -/
theorem Ordered.sorts_lost (ordered : v.Ordered) (added : addedSorts first ≠ [])
    (sent : (v.apply second).primarySort ≠ []) (stored : Dict Json) :
    ((v.apply second).putOver ((v.apply first).putOver stored)).get? "primarySort" ≠
      ((v.apply (first ++ second)).putOver stored).get? "primarySort" := by
  have sends : ∀ (w : View) (before : Dict Json), w.Ordered → w.primarySort ≠ [] →
      (w.putOver before).get? "primarySort" =
        some (.arr (w.primarySort.map SortField.toJson)) := by
    intro w before inOrder nonempty
    rw [putOver, Database.get?_overwritten_of_ne _ (sorted_properties inOrder.options) (by decide),
      get?_properties_sorts, listed, if_neg (by simpa using nonempty), Option.some_or]
  have whole : (v.apply (first ++ second)).primarySort =
      v.primarySort ++ addedSorts first ++ addedSorts second := by
    rw [apply_append, apply_eq, apply_eq]
  have last : (v.apply second).primarySort = v.primarySort ++ addedSorts second := by
    rw [apply_eq]
  have longer : (v.apply (first ++ second)).primarySort ≠ [] := by
    rw [whole]
    simp [added]
  rw [sends _ _ (ordered.apply second) sent, sends _ _ (ordered.apply (first ++ second)) longer]
  intro same
  -- The list of the second alteration is shorter by what the first one added.
  have lengths := congrArg List.length (Json.arr.inj (Option.some.inj same))
  have positive := List.length_pos_iff.mpr added
  rw [whole, last] at lengths
  simp only [List.length_map, List.length_append] at lengths
  omega

/-! ### Requests -/

/-- The request that alters a view. -/
def patchRequest (v : View) (changes : List ViewChange) : Request :=
  (Request.patch ("view/" ++ v.name ++ "/properties")
    (.obj (v.apply changes).properties)).withDatabase v.tenant

/-- The route of an alteration is that of its view, or there is none, whatever the changes. -/
theorem route_patchRequest (v : View) :
    (∀ changes, Route.of? (v.patchRequest changes) = some (.changeView v.name)) ∨
      ∀ changes, Route.of? (v.patchRequest changes) = none := by
  have path : "view/" ++ v.name ++ "/properties" =
      "view" ++ "/" ++ (v.name ++ "/" ++ "properties") :=
    Route.path_below "view" v.name "properties"
  have whole := Text.splitAt_append '/' v.name "properties"
  rw [Text.splitAt_of_notMem (by decide : '/' ∉ "properties".toList)] at whole
  have cut : Text.splitAt '/' ("view/" ++ v.name ++ "/properties") =
      "view" :: (Text.splitAt '/' v.name ++ ["properties"]) := by
    rw [path, Route.segments_append "view" _ (by decide)]
    exact congrArg (List.cons "view") whole
  have shape : ∀ changes route, Route.of? (v.patchRequest changes) = some route ↔
      (Method.patch, "view" :: (Text.splitAt '/' v.name ++ ["properties"])) ∈ route.shapes := by
    intro changes route
    rw [Route.of?_eq_some_iff, ← cut]
    rfl
  by_cases single : Text.splitAt '/' v.name = [v.name]
  · left
    intro changes
    rw [shape, single]
    exact List.mem_cons_self
  · right
    intro changes
    cases routed : Route.of? (v.patchRequest changes) with
    | none => rfl
    | some route =>
        have listed := (shape changes route).mp routed
        cases pieces : Text.splitAt '/' v.name with
        | nil => exact absurd pieces (Text.splitAt_ne_nil '/' v.name)
        | cons piece rest =>
            rw [pieces] at listed
            cases route <;> simp [Route.shapes] at listed
            rw [listed.2] at pieces
            apply absurd _ single
            rw [pieces, Text.eq_of_splitAt_eq_singleton pieces]

variable {s : Store}

/-- Altering a view that is stored puts what its definition sends over it. -/
theorem answer_patch_stored
    (routed : Route.of? (v.patchRequest changes) = some (.changeView v.name))
    (is : (s.database (v.tenant.getD s.home)).views.get? v.name = some stored) :
    Store.server.answer s (v.patchRequest changes) =
      (.answered (answered 200 (.obj ((v.apply changes).putOver stored))),
        (s.noteRequest (v.patchRequest changes)).putDatabase (v.tenant.getD s.home)
          ((s.database (v.tenant.getD s.home)).putView v.name ((v.apply changes).putOver stored))) :=
  Store.answer_of_made rfl routed rfl (Database.changeView_eq is (v.apply changes).properties)

/-- A view that is not stored, or whose name is no segment of a path, is not altered, before
and after such a refusal. -/
theorem answer_patch_refused
    (refused : (∀ changes, Route.of? (v.patchRequest changes) = none) ∨
      (∀ changes, Route.of? (v.patchRequest changes) = some (.changeView v.name)) ∧
        (s.database (v.tenant.getD s.home)).views.get? v.name = none) :
    ∃ refusal : Refusal, ∀ changes s', Store.SameData s s' →
      Store.server.answer s' (v.patchRequest changes) =
        (.answered refusal.response, s'.noteRequest (v.patchRequest changes)) := by
  rcases refused with unknown | ⟨routed, missing⟩
  · exact ⟨.noRoute .patch ("view/" ++ v.name ++ "/properties"), fun changes s' _ =>
      Store.answer_of_noRoute rfl (unknown changes)⟩
  · refine ⟨.noSource v.name, fun changes s' same => ?_⟩
    rw [← same.home_eq, ← same.database_eq] at missing
    exact Store.answer_of_refused rfl (routed changes) rfl
      (Database.changeView_missing missing _)

/-- The properties under which a view is stored, and its links, are in order. -/
def StoredInOrder (v : View) (s : Store) : Prop :=
  ∀ stored, (s.database (v.tenant.getD s.home)).views.get? v.name = some stored →
    stored.Sorted ∧ (Database.linksOf stored).Sorted

/-- What two alterations of a stored view come to. -/
theorem answer_append_stored
    (routed : ∀ changes, Route.of? (v.patchRequest changes) = some (.changeView v.name))
    (is : (s.database (v.tenant.getD s.home)).views.get? v.name = some stored)
    (same : (v.apply second).putOver ((v.apply first).putOver stored) =
      (v.apply (first ++ second)).putOver stored) :
    let middle := (Store.server.answer s (v.patchRequest first)).2
    let stepwise := Store.server.answer middle (v.patchRequest second)
    let atOnce := Store.server.answer s (v.patchRequest (first ++ second))
    stepwise.1 = atOnce.1 ∧ stepwise.2.databases = atOnce.2.databases := by
  intro middle stepwise atOnce
  have isMiddle : middle = (s.noteRequest (v.patchRequest first)).putDatabase (v.tenant.getD s.home)
      ((s.database (v.tenant.getD s.home)).putView v.name ((v.apply first).putOver stored)) :=
    congrArg Prod.snd (answer_patch_stored (routed first) is)
  have within : middle.database (v.tenant.getD s.home) =
      (s.database (v.tenant.getD s.home)).putView v.name ((v.apply first).putOver stored) := by
    rw [isMiddle, Store.database_putDatabase_self]
  have home : middle.home = s.home := by
    rw [isMiddle]
    rfl
  have altered : (middle.database (v.tenant.getD middle.home)).views.get? v.name =
      some ((v.apply first).putOver stored) := by
    rw [home, within]
    exact Dict.get?_insert_self _ _ _
  have two : stepwise = _ := answer_patch_stored (routed second) altered
  have once : atOnce = _ := answer_patch_stored (routed (first ++ second)) is
  rw [two, once, home, within, same]
  refine ⟨rfl, ?_⟩
  -- The second change of the view, and of its database, takes the place of the first one.
  change middle.databases.insert _ _ = s.databases.insert _ _
  rw [isMiddle]
  change (s.databases.insert _ _).insert _ _ = s.databases.insert _ _
  rw [Dict.insert_insert]
  simp only [Database.putView, Dict.insert_insert]

/-- Two alterations of which the second one loses nothing are answered as one with all their
changes, and leave the same databases. -/
theorem Accumulates.answer_append (accumulates : v.Accumulates first second)
    (ordered : v.Ordered) (inOrder : v.StoredInOrder s) :
    let middle := (Store.server.answer s (v.patchRequest first)).2
    let stepwise := Store.server.answer middle (v.patchRequest second)
    let atOnce := Store.server.answer s (v.patchRequest (first ++ second))
    stepwise.1 = atOnce.1 ∧ stepwise.2.databases = atOnce.2.databases := by
  intro middle stepwise atOnce
  have refusedAlike : ((∀ changes, Route.of? (v.patchRequest changes) = none) ∨
      (∀ changes, Route.of? (v.patchRequest changes) = some (.changeView v.name)) ∧
        (s.database (v.tenant.getD s.home)).views.get? v.name = none) →
      stepwise.1 = atOnce.1 ∧ stepwise.2.databases = atOnce.2.databases := by
    intro refused
    obtain ⟨refusal, answers⟩ := answer_patch_refused refused
    have noted := Store.sameData_noteRequest s (v.patchRequest first)
    have isMiddle : middle = s.noteRequest (v.patchRequest first) :=
      congrArg Prod.snd (answers first s (Store.SameData.refl s))
    have two : stepwise = _ := answers second middle (isMiddle ▸ noted)
    have once : atOnce = _ := answers (first ++ second) s (Store.SameData.refl s)
    rw [two, once, isMiddle]
    exact ⟨rfl, rfl⟩
  rcases v.route_patchRequest with routed | unknown
  · cases is : (s.database (v.tenant.getD s.home)).views.get? v.name with
    | none => exact refusedAlike (Or.inr ⟨routed, is⟩)
    | some stored =>
        obtain ⟨sorted, links⟩ := inOrder stored is
        exact answer_append_stored routed is (accumulates.putOver_eq ordered sorted links)
  · exact refusedAlike (Or.inl unknown)

/-! ### Commands -/

open Exchange

variable {database : Option String} {t : Option Transaction}

/-- An alteration with valid changes ends as its request is answered. -/
theorem ends_alterView (valid : (v.apply changes).validate = .ok ())
    (database : Option String) (t : Option Transaction) (s : Store) :
    ((Command.alterView v changes).perform database t).Ends Store.server s
      ((Store.server.answer s (v.patchRequest changes)).1.result.map fun _ =>
        Report.altered "view" v.name)
      (Store.server.answer s (v.patchRequest changes)).2 := by
  have checks : (ofSchema (v.apply changes).validate).Ends Store.server s (.ok ()) s := by
    rw [valid]
    exact ends_ofSchema_iff.mpr ⟨rfl, rfl⟩
  have sends : (command (v.patchRequest changes)).Ends Store.server s
      ((Store.server.answer s (v.patchRequest changes)).1.result.map fun _ => ())
      (Store.server.answer s (v.patchRequest changes)).2 := ends_command_iff.mpr ⟨rfl, rfl⟩
  have alters : (v.alter changes).Ends Store.server s _ _ := checks.bind sends
  have reports := alters.map fun _ => Report.altered "view" v.name
  have whole : ((Store.server.answer s (v.patchRequest changes)).1.result.map fun _ => ()).map
      (fun _ => Report.altered "view" v.name) =
        (Store.server.answer s (v.patchRequest changes)).1.result.map fun _ =>
          Report.altered "view" v.name := by
    cases (Store.server.answer s (v.patchRequest changes)).1.result <;> rfl
  exact whole ▸ reports

/-- The members of the body that creates a view. -/
def bodyMembers (v : View) : Dict Json :=
  (v.properties.insert "name" (.str v.name)).insert "type" (.str "arangosearch")

theorem Ordered.bodyMembers (ordered : v.Ordered) :
    v.bodyMembers.Sorted ∧ (Database.linksOf v.bodyMembers).Sorted := by
  refine ⟨((sorted_properties ordered.options).insert _ _).insert _ _, ?_⟩
  have links : Database.linksOf v.bodyMembers = Link.dictMembers v.links := by
    rw [Database.linksOf, View.bodyMembers, Dict.get?_insert_of_ne _ _ (by decide),
      Dict.get?_insert_of_ne _ _ (by decide), get?_properties_links]
  rw [links]
  exact Link.sorted_dictMembers ordered.links

/-- A view that was created is valid, and stored in order. -/
theorem Ordered.created (ordered : v.Ordered) {s₁ : Store} {report : Report}
    (created : ((Command.create (.view v)).perform database t).Ends Store.server s
      (.ok report) s₁) :
    v.validate = .ok () ∧ v.StoredInOrder s₁ := by
  obtain ⟨_, s₀, valid, rest⟩ := ends_bind_ok_iff.mp created
  obtain ⟨_, s₂, made, reported⟩ := ends_bind_ok_iff.mp rest
  obtain ⟨isValid, unchanged⟩ := ends_ofSchema_iff.mp valid
  obtain ⟨_, rfl⟩ := ends_pure_iff.mp reported
  cases unchanged
  have passes : v.validate = .ok () := by
    change .ok () = v.validate.mapError Error.schema at isValid
    cases result : v.validate with
    | ok => rfl
    | error fault =>
        rw [result] at isValid
        cases isValid
  have routed : Route.of? ((Request.post "view" v.body).withDatabase v.tenant) =
      some .createView := Route.of?_post "view" rfl rfl (by decide)
  obtain ⟨response, db, _, change, _, rfl⟩ := Store.change_of_ends_command rfl routed rfl made
  obtain ⟨definition, name, is, named, _, _, rfl⟩ := Database.createView_eq_ok_iff.mp change
  cases Json.str.inj (named.symm.trans v.name_of_body)
  cases (is : Json.obj v.bodyMembers = .obj definition)
  refine ⟨passes, fun stored found => ?_⟩
  change (Store.database _ (v.tenant.getD s.home)).views.get? v.name = some stored at found
  have within := Store.database_putDatabase_self
    (s.noteRequest ((Request.post "view" v.body).withDatabase v.tenant)) (v.tenant.getD s.home)
    ((s.database (v.tenant.getD s.home)).putView v.name v.bodyMembers)
  have isStored : some v.bodyMembers = some stored := by
    calc
      some v.bodyMembers = Dict.get? (Database.views (Database.putView _ _ _)) v.name :=
        (Dict.get?_insert_self _ _ _).symm
      _ = some stored := (congrArg (·.views.get? v.name) within).symm.trans found
  cases isStored
  exact ordered.bodyMembers

end View

namespace Command

open Exchange

/-- Altering a view that was created, twice from its definition, ends as altering it once with
all the changes, and leaves the same databases, so also the same stored view: if all changes are
valid, and if the second alteration loses nothing that the first one added. -/
theorem alterView_append {v : View} {first second : List ViewChange} {s s₁ : Store}
    {report : Report} {database : Option String} {t : Option Transaction} (ordered : v.Ordered)
    (created : ((create (.view v)).perform database t).Ends Store.server s (.ok report) s₁)
    (validFirst : ∀ change ∈ first, change.Valid) (validSecond : ∀ change ∈ second, change.Valid)
    (accumulates : v.Accumulates first second) :
    let once := ((alterView v first).perform database t).runOn Store.server s₁
    let twice := ((alterView v second).perform database t).runOn Store.server once.state
    let atOnce := ((alterView v (first ++ second)).perform database t).runOn Store.server s₁
    twice.outcome = atOnce.outcome ∧ twice.state.databases = atOnce.state.databases := by
  intro once twice atOnce
  obtain ⟨valid, inOrder⟩ := ordered.created created
  have validBoth := View.validate_apply valid (List.forall_mem_append.mpr ⟨validFirst, validSecond⟩)
  have middle : once.state = (Store.server.answer s₁ (v.patchRequest first)).2 :=
    (View.ends_alterView (View.validate_apply valid validFirst) database t s₁).2
  have ends := View.ends_alterView (View.validate_apply valid validSecond) database t once.state
  have endsBoth := View.ends_alterView validBoth database t s₁
  obtain ⟨reply, databases⟩ := accumulates.answer_append ordered inOrder
  rw [← middle] at reply databases
  rw [reply] at ends
  exact ⟨ends.1.trans endsBoth.1.symm,
    (congrArg Store.databases ends.2).trans
      (databases.trans (congrArg Store.databases endsBoth.2.symm))⟩

/-- A view without links, sorts and stored values. -/
def searchView : View :=
  { name := "search" }

/-- The store in which `searchView` was created. -/
def searchStore : Store :=
  (((create (.view searchView)).perform none none).runOn Store.server {}).state

/-- The run of an alteration of `searchView`. -/
def searchAltered (changes : List ViewChange) (s : Store) : Run Store Report :=
  ((alterView searchView changes).perform none none).runOn Store.server s

/-- The properties of the stored view. -/
def storedSearch (run : Run Store Report) : Dict Json :=
  ((run.state.database "_system").views.get? "search").getD {}

/-- The fields that the stored view sorts by. -/
def sortedBy (run : Run Store Report) : List String :=
  match (storedSearch run).get? "primarySort" with
  | some (.arr sorts) => sorts.filterMap fun sort => (sort.field "field").text?
  | _ => []

theorem alterView_append_of_searchStore :
    let first : List ViewChange := [.addLink "users" {}, .addStore { fields := ["name"] }]
    let second : List ViewChange := [.addLink "orders" {}, .addSort { field := "name" }]
    let twice := searchAltered second (searchAltered first searchStore).state
    let atOnce := searchAltered (first ++ second) searchStore
    (Database.linksOf (storedSearch twice)).entries.map Prod.fst = ["orders", "users"] ∧
      sortedBy twice = ["name"] ∧
      twice.outcome = atOnce.outcome ∧ twice.state.databases = atOnce.state.databases := by
  refine ⟨by decide +kernel, by decide +kernel, alterView_append ?_ ⟨rfl, rfl⟩ ?_ ?_ ?_⟩
  · exact ⟨List.Pairwise.nil, List.Pairwise.nil⟩
  · simp [ViewChange.Valid, StoredValue.Valid, Link.validate, Link.validateAll]
  · simp [ViewChange.Valid, Link.validate, Link.validateAll]
  · exact ⟨Or.inl rfl, Or.inr rfl, fun _ => Or.inr (Or.inl rfl)⟩

/-- A second alteration that adds a sort takes back the sort that the first one added. -/
theorem sort_lost_by_alterView :
    let byName := ViewChange.addSort { field := "name" }
    let byAge := ViewChange.addSort { field := "age" }
    let once := searchAltered [byName] searchStore
    let twice := searchAltered [byAge] once.state
    let atOnce := searchAltered ([byName] ++ [byAge]) searchStore
    (searchView.validate = .ok () ∧ byName.Valid ∧ byAge.Valid) ∧
      (once.outcome.isOk = true ∧ twice.outcome.isOk = true ∧ atOnce.outcome.isOk = true) ∧
      sortedBy twice = ["age"] ∧ sortedBy atOnce = ["name", "age"] := by
  refine ⟨⟨rfl, trivial, trivial⟩, ⟨rfl, by decide +kernel, by decide +kernel⟩, ?_, ?_⟩
  · decide +kernel
  · decide +kernel

end Command

end DocStore
