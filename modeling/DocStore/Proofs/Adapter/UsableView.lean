/-
Module: DocStore.Proofs.Adapter.UsableView
Purpose: what a view needs is there once an adapter has made sure of the view.
Main exports:
  Database.Grows, View.Usable, Adapter.ensureView_usable
-/
import DocStore.Adapter.Basic
import DocStore.Proofs.Definition.AnalyzerNames
import DocStore.Proofs.Migration.Ensuring

namespace DocStore

open Exchange

/-! ### Databases that only grow -/

namespace Database

variable {db db' : Database} {o : Definition}

/-- Every collection, view and analyzer of the first database has one of its name in the
second. -/
structure Grows (db db' : Database) : Prop where
  collections : ∀ name, db.collections.contains name = true → db'.collections.contains name = true
  views : ∀ name, db.views.contains name = true → db'.views.contains name = true
  analyzers : ∀ name, db.analyzers.contains name = true → db'.analyzers.contains name = true

theorem Grows.refl (db : Database) : db.Grows db :=
  ⟨fun _ => id, fun _ => id, fun _ => id⟩

theorem Grows.trans {db'' : Database} (first : db.Grows db') (second : db'.Grows db'') :
    db.Grows db'' where
  collections name there := second.collections name (first.collections name there)
  views name there := second.views name (first.views name there)
  analyzers name there := second.analyzers name (first.analyzers name there)

namespace Ensured

theorem grows (ensured : db.Ensured o db') : db.Grows db' := by
  cases ensured with
  | taken taken => exact .refl db
  | collection free properties =>
      exact ⟨fun _ there => (Dict.contains_insert ..).mpr (Or.inr there), fun _ => id, fun _ => id⟩
  | index stored free named =>
      exact ⟨fun _ there => (Dict.contains_insert ..).mpr (Or.inr there), fun _ => id, fun _ => id⟩
  | view free members =>
      exact ⟨fun _ => id, fun _ there => (Dict.contains_insert ..).mpr (Or.inr there), fun _ => id⟩
  | analyzer replaced =>
      refine ⟨fun _ => id, fun _ => id, fun name there => ?_⟩
      rw [Dict.contains_eq, replaced]
      split
      · rfl
      · exact there

theorem views_eq (ensured : db.Ensured o db') (other : ∀ v, o ≠ .view v) :
    db'.views = db.views := by
  cases ensured with
  | @view v free members => exact absurd rfl (other v)
  | _ => rfl

/-- Only the collection of the name is created. -/
theorem contains_of_created (ensured : db.Ensured o db') {name : String}
    (created : db'.collections.contains name = true) :
    db.collections.contains name = true ∨ ∃ c, o = .collection c ∧ c.name = name := by
  cases ensured with
  | @collection c free properties =>
      rcases (Dict.contains_insert ..).mp created with rfl | there
      · exact Or.inr ⟨c, rfl, rfl⟩
      · exact Or.inl there
  | index stored free named =>
      rcases (Dict.contains_insert ..).mp created with rfl | there
      · rw [Dict.contains_eq, stored]
        exact Or.inl rfl
      · exact Or.inl there
  | _ => exact Or.inl created

end Ensured

end Database

/-! ### Stores that only grow -/

namespace Store

variable {s s' s'' : Store} {tenant : Option String} {names : List String}

/-- Every database of the first store grows to that of its name in the second. -/
structure Grows (s s' : Store) : Prop where
  home_eq : s'.home = s.home
  inspected : ∀ tenant, (s.inspected tenant).Grows (s'.inspected tenant)

theorem Grows.trans (first : s.Grows s') (second : s'.Grows s'') : s.Grows s'' where
  home_eq := second.home_eq.trans first.home_eq
  inspected tenant := (first.inspected tenant).trans (second.inspected tenant)

/-- The store grows.  In one database the views are left, and only collections of the given
names are created. -/
structure Supplied (s : Store) (tenant : Option String) (names : List String) (s' : Store) : Prop
    extends s.Grows s' where
  views_eq : (s'.inspected tenant).views = (s.inspected tenant).views
  created : ∀ name, (s'.inspected tenant).collections.contains name = true →
    (s.inspected tenant).collections.contains name = true ∨ name ∈ names

theorem Redefined.inspected_eq {database : String}
    (same : s.Redefined database (s.database database) s') (tenant : Option String) :
    s'.inspected tenant = s.inspected tenant := by
  unfold inspected
  rw [same.home_eq]
  by_cases here : tenant.getD s.home = database
  · rw [here, same.here]
  · exact same.others _ here

theorem Supplied.of_same (isHome : s'.home = s.home)
    (same : ∀ tenant, s'.inspected tenant = s.inspected tenant) : s.Supplied tenant names s' where
  home_eq := isHome
  inspected tenant := by
    rw [same]
    exact .refl _
  views_eq := by rw [same]
  created name there := by
    rw [same] at there
    exact Or.inl there

theorem Supplied.trans (first : s.Supplied tenant names s')
    (second : s'.Supplied tenant names s'') : s.Supplied tenant names s'' where
  toGrows := first.toGrows.trans second.toGrows
  views_eq := second.views_eq.trans first.views_eq
  created name there := by
    rcases second.created name there with before | listed
    · exact first.created name before
    · exact Or.inr listed

end Store

namespace Definition.EnsuredIn

variable {s s' : Store} {o : Definition}

theorem home_eq (ensured : o.EnsuredIn s s') : s'.home = s.home := by
  obtain ⟨db, redefined, _⟩ := ensured
  exact redefined.home_eq

/-- The object is created in its own database, and all others are left. -/
theorem inspected_cases (ensured : o.EnsuredIn s s') (tenant : Option String) :
    (s.inspected tenant).Ensured o (s'.inspected tenant) ∨
      s'.inspected tenant = s.inspected tenant := by
  obtain ⟨db, redefined, made⟩ := ensured
  unfold Store.inspected
  rw [redefined.home_eq]
  by_cases here : tenant.getD s.home = o.tenant.getD s.home
  · rw [here, redefined.here]
    exact Or.inl made
  · exact Or.inr (redefined.others _ here)

theorem grows (ensured : o.EnsuredIn s s') : s.Grows s' where
  home_eq := ensured.home_eq
  inspected tenant := by
    rcases ensured.inspected_cases tenant with made | same
    · exact made.grows
    · rw [same]
      exact .refl _

/-- What is created is no view, and of the given names if it is a collection. -/
theorem supplied (ensured : o.EnsuredIn s s') (tenant : Option String) (names : List String)
    (other : ∀ v, o ≠ .view v) (listed : ∀ c, o = .collection c → c.name ∈ names) :
    s.Supplied tenant names s' where
  toGrows := ensured.grows
  views_eq := by
    rcases ensured.inspected_cases tenant with made | same
    · exact made.views_eq other
    · rw [same]
  created name there := by
    rcases ensured.inspected_cases tenant with made | same
    · refine (made.contains_of_created there).imp_right ?_
      rintro ⟨c, is, rfl⟩
      exact listed c is
    · rw [same] at there
      exact Or.inl there

/-- The object is there afterwards, unless its name is that of an object of another kind. -/
theorem isSome_stored? (ensured : o.EnsuredIn s s')
    (unrivalled : (s.inspected o.tenant).Unrivalled o) :
    ((s'.inspected o.tenant).stored? o).isSome = true := by
  obtain ⟨db, redefined, made⟩ := ensured
  rw [Store.inspected, redefined.home_eq, redefined.here]
  exact made.isSome_stored? unrivalled

end Definition.EnsuredIn

/-! ### Looking an analyzer up -/

/-- To look an analyzer up changes no database, and it is there if it is shown. -/
theorem Store.ends_lookup {s s' : Store} {tenant : Option String} {name : String}
    {outcome : Except Error Json}
    (ends : (Exchange.request ((Request.get ("analyzer/" ++ name)).withDatabase tenant)).Ends
      Store.server s outcome s') :
    (s'.home = s.home ∧ ∀ other, s'.inspected other = s.inspected other) ∧
      ∀ shown, outcome = .ok shown → (s.inspected tenant).analyzers.contains name = true := by
  let r := (Request.get ("analyzer/" ++ name)).withDatabase tenant
  obtain ⟨rfl, rfl⟩ := ends_request_iff.mp ends
  have refuses : ∀ (refusal : Refusal) shown,
      Reply.result (.answered refusal.response) ≠ .ok shown := by
    intro refusal shown is
    cases (Response.result_refusal refusal).symm.trans is
  rcases answer_cases s r with ⟨refusal, refused⟩ | ⟨route, routed, known, answered⟩
  · rw [refused]
    exact ⟨⟨rfl, fun _ => rfl⟩, fun shown is => absurd is (refuses refusal shown)⟩
  · cases Route.eq_of_get_analyzer rfl rfl routed
    rw [answered, perform_of_change rfl]
    rcases serveChange_cases (s.noteRequest r) ((s.noteRequest r).databaseOf r)
      (·.showAnalyzer name) with ⟨refusal, refused⟩ | ⟨response, db, shows, served⟩
    · rw [refused]
      exact ⟨⟨rfl, fun _ => rfl⟩, fun shown is => absurd is (refuses refusal shown)⟩
    · rw [served]
      obtain ⟨body, stored, same⟩ := exceptBind_eq_ok_iff.mp shows
      cases same
      exact ⟨⟨rfl, (redefined_put s r (s.databaseOf r) _).inspected_eq⟩, fun _ _ =>
        Option.isSome_iff_exists.mpr ⟨body, Database.analyzer_eq_ok_iff.mp stored⟩⟩

/-! ### One operation after the other -/

/-- Operations on all elements establish something of each, if each of them does, and
whatever the others do keeps it. -/
theorem Exchange.ends_forEach {σ α β : Type} {server : Server σ} {f : α → Exchange β}
    {elements : List α} {r : σ → σ → Prop} {q : α → σ → Prop} (refl : ∀ s, r s s)
    (trans : ∀ {s₁ s₂ s₃}, r s₁ s₂ → r s₂ s₃ → r s₁ s₃)
    (kept : ∀ {element s s'}, r s s' → q element s → q element s')
    (each : ∀ element ∈ elements, ∀ {s b s'}, (f element).Ends server s (.ok b) s' →
      r s s' ∧ q element s')
    {s s' : σ} {values : List β} (ends : (forEach f elements).Ends server s (.ok values) s') :
    r s s' ∧ ∀ element ∈ elements, q element s' := by
  induction elements generalizing s values with
  | nil =>
      obtain ⟨_, rfl⟩ := ends_pure_iff.mp ends
      exact ⟨refl _, fun _ member => by cases member⟩
  | cons first rest inductionHypothesis =>
      obtain ⟨_, middle, one, others⟩ := ends_bind_ok_iff.mp ends
      obtain ⟨_, _, all, last⟩ := ends_bind_ok_iff.mp others
      obtain ⟨_, rfl⟩ := ends_pure_iff.mp last
      obtain ⟨step, own⟩ := each first List.mem_cons_self one
      obtain ⟨later, established⟩ := inductionHypothesis
        (fun element member => each element (List.mem_cons_of_mem _ member)) all
      refine ⟨trans step later, List.forall_mem_cons.mpr ⟨kept later own, established⟩⟩

/-! ### Views -/

namespace View

/-- The view is there, with a collection for each of its links, and with each given analyzer
that one of its links uses. -/
structure Usable (v : View) (analyzers : List Analyzer) (db : Database) : Prop where
  shown : db.views.contains v.name = true
  linked : ∀ name ∈ v.links.keys, db.collections.contains name = true
  analyzed : ∀ analyzer ∈ analyzers, v.Uses analyzer.name →
    db.analyzers.contains analyzer.name = true

/-- Neither the view nor a linked collection, if it is missing, has a name that is taken by
the other kind. -/
structure Unrivalled (v : View) (db : Database) : Prop where
  own : db.views.contains v.name = false →
    db.collections.contains v.name = false ∧ v.name ∉ v.links.keys
  linked : ∀ name ∈ v.links.keys, db.collections.contains name = false →
    db.views.contains name = false

end View

namespace Adapter

variable {a : Adapter} {s s' : Store}

theorem ends_define_of_ensure {command : Command}
    (ends : (a.ensure command).Ends Store.server s (.ok ()) s') :
    ∃ report, ((command.withDefaultTenant a.database).perform none none).Ends Store.server s
      (.ok report) s' := by
  obtain ⟨report, _, defines, last⟩ := ends_bind_ok_iff.mp ends
  obtain ⟨_, rfl⟩ := ends_pure_iff.mp last
  exact ⟨report, defines⟩

/-- An analyzer that was made sure of is in its own database. -/
theorem ends_ensureAnalyzer {analyzer : Analyzer} (tenant : Option String) (names : List String)
    (ends : (a.ensureAnalyzer analyzer).Ends Store.server s (.ok ()) s') :
    s.Supplied tenant names s' ∧
      (s'.inspected (analyzer.tenant.or a.database)).analyzers.contains analyzer.name = true := by
  obtain ⟨given, middle, attempted, rest⟩ := ends_bind_ok_iff.mp ends
  obtain ⟨_, same, lookup⟩ := ends_attempt_iff.mp attempted
  cases same
  obtain ⟨⟨isHome, same⟩, shown⟩ := Store.ends_lookup lookup
  have looked : s.Supplied tenant names middle := .of_same isHome same
  cases given with
  | ok body =>
      obtain ⟨_, rfl⟩ := ends_pure_iff.mp rest
      refine ⟨looked, ?_⟩
      rw [same]
      exact shown body rfl
  | error e =>
      change (if e.isNotFound then _ else _ : Exchange Unit).Ends _ _ _ _ at rest
      split at rest
      · obtain ⟨report, creates⟩ := ends_define_of_ensure rest
        have ensured := Command.ensured_of_create creates
        refine ⟨looked.trans (ensured.supplied tenant names (by rintro _ ⟨⟩) (by rintro _ ⟨⟩)), ?_⟩
        exact (Database.isSome_stored?_analyzer _
          { analyzer with tenant := analyzer.tenant.or a.database }).symm.trans
            (ensured.isSome_stored? trivial)
      · cases (ends_fail_iff.mp rest).1

/-- A linked collection that was made sure of is there, unless a view has its name. -/
theorem ends_ensureLinked {view : View} {name : String} {names : List String}
    (listed : name ∈ names) (ends : (a.ensureLinked view name).Ends Store.server s (.ok ()) s') :
    s.Supplied (view.tenant.or a.database) names s' ∧
      ((s'.inspected (view.tenant.or a.database)).views.contains name = false →
        (s'.inspected (view.tenant.or a.database)).collections.contains name = true) := by
  obtain ⟨report, creates⟩ := ends_define_of_ensure ends
  have ensured := Command.ensured_of_createIfNotExists creates
  have supplied := ensured.supplied (view.tenant.or a.database) names (by rintro _ ⟨⟩) (by
      rintro _ ⟨⟩
      exact listed)
  refine ⟨supplied, fun free => ?_⟩
  rw [supplied.views_eq] at free
  exact (Database.isSome_stored?_collection _
    { name, tenant := view.tenant.or a.database }).symm.trans (ensured.isSome_stored? fun _ => free)

/-- A view that was made sure of is there, unless a collection has its name. -/
theorem ends_ensure_view {view : View}
    (ends : (a.ensure (.createIfNotExists (.view view))).Ends Store.server s (.ok ()) s')
    (unrivalled : (s.inspected (view.tenant.or a.database)).Unrivalled (.view view)) :
    s.Grows s' ∧ (s'.inspected (view.tenant.or a.database)).views.contains view.name = true := by
  obtain ⟨report, creates⟩ := ends_define_of_ensure ends
  have ensured := Command.ensured_of_createIfNotExists creates
  exact ⟨ensured.grows, (Database.isSome_stored?_view _
    { view with tenant := view.tenant.or a.database }).symm.trans
      (ensured.isSome_stored? unrivalled)⟩

/-- A view that an adapter made sure of in dynamic mode can be used: it is in its database,
with all that its links need, provided that the analyzers given for it live there too and that
no name is taken by another kind of object. -/
theorem ensureView_usable {view : View} {analyzers : List Analyzer}
    (dynamic : a.settings.staticMode = false)
    (together : ∀ analyzer ∈ analyzers, view.Uses analyzer.name →
      (analyzer.tenant.or a.database).getD s.home = (view.tenant.or a.database).getD s.home)
    (unrivalled : view.Unrivalled (s.inspected (view.tenant.or a.database)))
    (ends : (a.ensureView view analyzers).Ends Store.server s (.ok ()) s') :
    view.Usable analyzers (s'.inspected (view.tenant.or a.database)) := by
  let tenant := view.tenant.or a.database
  let names := view.links.keys
  unfold ensureView at ends
  rw [dynamic, if_neg Bool.false_ne_true] at ends
  obtain ⟨_, s₁, analyzed, rest⟩ := ends_bind_ok_iff.mp ends
  obtain ⟨_, s₂, linked, shown⟩ := ends_bind_ok_iff.mp rest
  -- Views are left by the first two stages, so what is taken at the start is taken then.
  have first := ends_forEach (r := fun s s' => s.Supplied tenant names s')
    (q := fun analyzer s =>
      (s.inspected (analyzer.tenant.or a.database)).analyzers.contains analyzer.name = true)
    (fun s => .of_same rfl fun _ => rfl) .trans
    (fun supplied => (supplied.inspected _).analyzers _)
    (fun analyzer _ => ends_ensureAnalyzer tenant names) analyzed
  have second := ends_forEach (r := fun s s' => s.Supplied tenant names s')
    (q := fun name s => (s.inspected tenant).views.contains name = false →
        (s.inspected tenant).collections.contains name = true)
    (fun s => .of_same rfl fun _ => rfl) .trans
    (fun supplied there free =>
      (supplied.inspected _).collections _ (there (supplied.views_eq ▸ free)))
    (fun name listed => ends_ensureLinked listed) linked
  have supplied := first.1.trans second.1
  have free : (s₂.inspected tenant).Unrivalled (.view view) := by
    intro missing
    rw [supplied.views_eq] at missing
    obtain ⟨unused, unlinked⟩ := unrivalled.own missing
    rw [Bool.eq_false_iff]
    intro there
    rcases supplied.created _ there with before | listed
    · cases unused.symm.trans before
    · exact unlinked listed
  obtain ⟨last, isShown⟩ := ends_ensure_view shown free
  -- What the first two stages have made is kept by what comes after.
  refine ⟨isShown, fun name listed => ?_, fun analyzer member uses => ?_⟩
  · cases present : (s.inspected tenant).collections.contains name with
    | true => exact ((supplied.toGrows.trans last).inspected tenant).collections name present
    | false =>
        have noView := unrivalled.linked name listed present
        rw [← supplied.views_eq] at noView
        exact (last.inspected tenant).collections name (second.2 name listed noView)
  · have used : view.analyzerNames.contains analyzer.name = true := by
      simpa using View.mem_analyzerNames_iff.mpr uses
    have own := first.2 analyzer (List.mem_filter.mpr ⟨member, used⟩)
    have here : s₁.inspected (analyzer.tenant.or a.database) = s₁.inspected tenant := by
      unfold Store.inspected
      rw [first.1.home_eq, together analyzer member uses]
    rw [here] at own
    exact ((second.1.toGrows.trans last).inspected tenant).analyzers _ own

/-- An adapter that creates what is missing. -/
def dynamicAdapter : Adapter :=
  { settings := { staticMode := false } }

/-- A view of the tags of users, which are cut at commas. -/
def tagsView (tenant : Option String) : View :=
  { name := "tags"
    links := ⟨[("users", { fields := ⟨[("tags", { analyzers := ["split"] })]⟩ })]⟩
    tenant }

open Command in
theorem ensureView_usable_of_tagsView :
    ∃ s', (dynamicAdapter.ensureView (tagsView none) [splitBy ","]).Ends Store.server commaStore
        (.ok ()) s' ∧
      (tagsView none).Uses "split" ∧
      (tagsView none).Usable [splitBy ","] (s'.inspected none) := by
  have uses : (tagsView none).Uses "split" :=
    ⟨_, List.mem_cons_self, .nested List.mem_cons_self (.own List.mem_cons_self)⟩
  refine ⟨_, ⟨rfl, rfl⟩, uses, ensureView_usable rfl ?_ ?_ ⟨rfl, rfl⟩⟩
  · rintro analyzer member -
    cases List.mem_singleton.mp member
    rfl
  · exact ⟨fun _ => ⟨rfl, by decide⟩, fun _ _ _ => rfl⟩

open Command in
/-- An analyzer that declares no database is looked up in that of the adapter, also if the view
lives in another one. -/
theorem analyzer_missing_for_tagsView :
    ∃ s', (dynamicAdapter.ensureView (tagsView (some "blue")) [splitBy ","]).Ends Store.server
        commaStore (.ok ()) s' ∧
      (tagsView (some "blue")).Uses "split" ∧
      (s'.view (some "blue") "tags").isSome = true ∧
      s'.analyzer (some "blue") "split" = none :=
  ⟨_, ⟨rfl, rfl⟩,
    ⟨_, List.mem_cons_self, .nested List.mem_cons_self (.own List.mem_cons_self)⟩, rfl, rfl⟩

end Adapter

end DocStore
