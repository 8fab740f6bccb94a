/-
Module: DocStore.Proofs.Definition.AnalyzerNames
Purpose: the analyzers that the links of a view name: which they are, and in which order they
  are listed.
Main exports:
  View.Uses, View.mem_analyzerNames_iff, Link.Place, Link.Names, View.Enumerates,
  View.enumerates_analyzerNames, View.analyzerNames_apply
-/
import DocStore.Proofs.Definition.RoundTrip
import Mathlib.Data.List.Induction
import Mathlib.Data.List.Lex
import Mathlib.Data.String.Basic

namespace DocStore

/-! ### The analyzers that a view uses -/

/-- A link names an analyzer, for itself or for one of its fields at any depth. -/
inductive Link.Uses (name : String) : Link → Prop where
  | own {link : Link} (listed : name ∈ link.analyzers) : link.Uses name
  | nested {link inner : Link} {field : String} (member : (field, inner) ∈ link.fields.entries)
      (uses : inner.Uses name) : link.Uses name

/-- One of the links of a view names an analyzer. -/
def View.Uses (v : View) (name : String) : Prop :=
  ∃ entry ∈ v.links.entries, entry.2.Uses name

theorem mem_addName {names : List String} {name added : String} :
    name ∈ addName names added ↔ name ∈ names ∨ name = added := by
  unfold addName
  split
  · next listed =>
      have there : added ∈ names := by simpa using listed
      exact ⟨Or.inl, fun either => either.elim id fun same => same ▸ there⟩
  · simp

theorem mem_foldl_addName {names added : List String} {name : String} :
    name ∈ added.foldl addName names ↔ name ∈ names ∨ name ∈ added := by
  induction added generalizing names with
  | nil => simp
  | cons first rest inductionHypothesis =>
      rw [List.foldl_cons, inductionHypothesis, mem_addName, List.mem_cons, or_assoc]

theorem Link.uses_iff {name : String} {link : Link} :
    link.Uses name ↔ name ∈ link.analyzers ∨ ∃ entry ∈ link.fields.entries, entry.2.Uses name := by
  constructor
  · intro uses
    cases uses with
    | own listed => exact Or.inl listed
    | nested member inner => exact Or.inr ⟨_, member, inner⟩
  · rintro (listed | ⟨_, member, inner⟩)
    · exact .own listed
    · exact .nested member inner

/-! ### Places -/

namespace Link

/-- A place in a link: the names of the fields on the way down to a link inside of it, and a
position among the analyzers of that link. -/
structure Place where
  path : List String
  position : Nat

namespace Place

/-- The order in which a link is gone through, depth first: what a link names itself comes before
its fields, and these come in the order of their names, each with everything inside of it.  So the
paths are in the order of words in a dictionary, with names for letters. -/
def Before (p q : Place) : Prop :=
  p.path < q.path ∨ p.path = q.path ∧ p.position < q.position

/-- A place in a field, seen from the link around it. -/
def under (field : String) (p : Place) : Place :=
  ⟨field :: p.path, p.position⟩

variable {p q : Place} {field later : String}

theorem Before.asymm (before : p.Before q) : ¬ q.Before p := by
  rintro (path | ⟨path, position⟩)
  · rcases before with path' | ⟨path', _⟩
    · exact lt_asymm path path'
    · exact absurd path (path' ▸ lt_irrefl _)
  · rcases before with path' | ⟨_, position'⟩
    · exact absurd path' (path ▸ lt_irrefl _)
    · omega

theorem Before.under (before : p.Before q) : (p.under field).Before (q.under field) := by
  rcases before with path | ⟨path, position⟩
  · exact .inl (List.cons_lt_cons_self.mpr path)
  · exact .inr ⟨congrArg (field :: ·) path, position⟩

theorem under_before_under (behind : field < later) : (p.under field).Before (q.under later) :=
  .inl (List.cons_lt_cons_iff.mpr (.inl behind))

theorem own_before_under (i : Nat) : Before ⟨[], i⟩ (q.under field) :=
  .inl (List.nil_lt_cons _ _)

end Place

/-- A link names an analyzer at a place. -/
inductive Names (name : String) : Link → Place → Prop where
  | own {link : Link} {i : Nat} (listed : link.analyzers[i]? = some name) :
      link.Names name ⟨[], i⟩
  | nested {link inner : Link} {field : String} {p : Place}
      (member : (field, inner) ∈ link.fields.entries) (names : inner.Names name p) :
      link.Names name (p.under field)

/-- What a link uses, it names at some place. -/
theorem uses_iff_exists_names {link : Link} {name : String} :
    link.Uses name ↔ ∃ p, link.Names name p := by
  constructor
  · intro uses
    induction uses with
    | own listed =>
        obtain ⟨i, there⟩ := List.mem_iff_getElem?.mp listed
        exact ⟨_, .own there⟩
    | nested member _ inductionHypothesis =>
        obtain ⟨p, names⟩ := inductionHypothesis
        exact ⟨_, .nested member names⟩
  · rintro ⟨p, names⟩
    induction names with
    | own listed => exact .own (List.mem_of_getElem? listed)
    | nested member _ inductionHypothesis => exact .nested member inductionHypothesis

theorem allWellFormed_iff {links : List (String × Link)} :
    AllWellFormed links ↔ ∀ entry ∈ links, entry.2.WellFormed := by
  induction links with
  | nil => simp [AllWellFormed]
  | cons entry rest inductionHypothesis =>
      rw [AllWellFormed, inductionHypothesis, List.forall_mem_cons]

/-! ### The walk through a link -/

mutual

/-- The analyzers that are met on the way through a link, each with its place. -/
def walk : Link → List (Place × String)
  | ⟨analyzers, ⟨fields⟩, _, _, _⟩ =>
      analyzers.zipIdx.map (fun (name, i) => (⟨[], i⟩, name)) ++ walkAll fields

/-- The analyzers that are met on the way through named links, as fields of one link. -/
def walkAll : List (String × Link) → List (Place × String)
  | [] => []
  | (field, link) :: rest =>
      link.walk.map (fun (p, name) => (p.under field, name)) ++ walkAll rest

end

mutual

/-- On the way through a link, each analyzer is met at the places where the link names it. -/
theorem mem_walk_iff {name : String} {p : Place} :
    (link : Link) → ((p, name) ∈ link.walk ↔ link.Names name p)
  | ⟨analyzers, ⟨fields⟩, _, _, _⟩ => by
      rw [walk, List.mem_append, mem_walkAll_iff fields]
      constructor
      · rintro (own | ⟨⟨field, inner⟩, member, q, names, rfl⟩)
        · obtain ⟨⟨name, i⟩, listed, ⟨⟩⟩ := List.mem_map.mp own
          exact .own (List.mem_zipIdx_iff_getElem?.mp listed)
        · exact .nested member names
      · intro names
        cases names with
        | own listed =>
            exact .inl (List.mem_map.mpr ⟨(name, _), List.mem_zipIdx_iff_getElem?.mpr listed, rfl⟩)
        | nested member names => exact .inr ⟨_, member, _, names, rfl⟩

theorem mem_walkAll_iff {name : String} {p : Place} :
    (links : List (String × Link)) → ((p, name) ∈ walkAll links ↔
      ∃ entry ∈ links, ∃ q, entry.2.Names name q ∧ q.under entry.1 = p)
  | [] => by simp [walkAll]
  | (field, link) :: rest => by
      have head : (p, name) ∈ link.walk.map (fun (q, name) => (q.under field, name)) ↔
          ∃ q, link.Names name q ∧ q.under field = p := by
        simp [← mem_walk_iff link]
      rw [walkAll, List.mem_append, mem_walkAll_iff rest, List.exists_mem_cons_iff, head]

end

mutual

/-- The walk through a well-formed link goes from place to place in order. -/
theorem ordered_walk : (link : Link) → link.WellFormed →
    link.walk.Pairwise fun a b => a.1.Before b.1
  | ⟨analyzers, ⟨fields⟩, _, _, _⟩, wellFormed => by
      rw [walk, List.pairwise_append]
      refine ⟨?own, ordered_walkAll fields wellFormed.1 wellFormed.2, ?across⟩
      case own =>
        have positions : analyzers.zipIdx.Pairwise fun a b => a.2 < b.2 := by
          rw [← List.pairwise_map, List.zipIdx_map_snd]
          exact List.pairwise_lt_range'
        exact List.pairwise_map.mpr (positions.imp fun earlier => .inr ⟨rfl, earlier⟩)
      case across =>
        rintro a own ⟨q, name⟩ inside
        obtain ⟨⟨_, i⟩, _, rfl⟩ := List.mem_map.mp own
        obtain ⟨entry, _, q, _, rfl⟩ := (mem_walkAll_iff fields).mp inside
        exact Place.own_before_under i

theorem ordered_walkAll : (links : List (String × Link)) → (Dict.mk links).Sorted →
    AllWellFormed links → (walkAll links).Pairwise fun a b => a.1.Before b.1
  | [], _, _ => List.Pairwise.nil
  | (field, link) :: rest, sorted, wellFormed => by
      obtain ⟨first, later⟩ := List.pairwise_cons.mp sorted
      rw [walkAll, List.pairwise_append]
      refine ⟨?own, ordered_walkAll rest later wellFormed.2, ?across⟩
      case own =>
        exact List.pairwise_map.mpr ((ordered_walk link wellFormed.1).imp Place.Before.under)
      case across =>
        rintro a own ⟨q, name⟩ behind
        obtain ⟨_, _, rfl⟩ := List.mem_map.mp own
        obtain ⟨entry, member, q, _, rfl⟩ := (mem_walkAll_iff rest).mp behind
        exact Place.under_before_under (first entry member)

end

mutual

/-- The analyzers of a link are added as they are met on the way through it. -/
theorem addAnalyzers_eq {names : List String} :
    (link : Link) → link.addAnalyzers names = (link.walk.map Prod.snd).foldl addName names
  | ⟨analyzers, ⟨fields⟩, _, _, _⟩ => by
      have own : (analyzers.zipIdx.map fun (name, i) => ((⟨[], i⟩, name) : Place × String)).map
          Prod.snd = analyzers := by
        rw [List.map_map]
        exact List.zipIdx_map_fst 0 analyzers
      rw [addAnalyzers, addAllAnalyzers_eq fields, walk, List.map_append, List.foldl_append, own]

theorem addAllAnalyzers_eq {names : List String} :
    (links : List (String × Link)) →
      addAllAnalyzers names links = ((walkAll links).map Prod.snd).foldl addName names
  | [] => rfl
  | (field, link) :: rest => by
      have head : (link.walk.map fun (p, name) => (p.under field, name)).map Prod.snd =
          link.walk.map Prod.snd := by
        rw [List.map_map]
        rfl
      rw [addAllAnalyzers, addAllAnalyzers_eq rest, addAnalyzers_eq link, walkAll, List.map_append,
        List.foldl_append, head]

end

end Link

/-! ### Names in the order of their first places -/

theorem nodup_foldl_addName {names : List String} (once : names.Nodup) (added : List String) :
    (added.foldl addName names).Nodup := by
  induction added generalizing names with
  | nil => exact once
  | cons name rest inductionHypothesis =>
      refine inductionHypothesis ?_
      unfold addName
      split
      · exact once
      · next absent =>
          rw [← List.concat_eq_append]
          exact once.concat (by simpa using absent)

/-- Names that are met at one place after the other are added in the order in which each was met
first. -/
theorem pairwise_foldl_addName {α : Type} {before : α → α → Prop} {met : List (α × String)}
    (ordered : met.Pairwise fun a b => before a.1 b.1) :
    ((met.map Prod.snd).foldl addName []).Pairwise fun a b =>
      ∃ p, (p, a) ∈ met ∧ ∀ q, (q, b) ∈ met → before p q := by
  induction met using List.reverseRecOn with
  | nil => exact List.Pairwise.nil
  | append_singleton met last inductionHypothesis =>
      obtain ⟨p, name⟩ := last
      obtain ⟨front, -, behind⟩ := List.pairwise_append.mp ordered
      -- A name that was met at an earlier place is still met there first.
      have first : ∀ {a b q}, (q, a) ∈ met → (∀ r, (r, b) ∈ met → before q r) →
          ∃ q, (q, a) ∈ met ++ [(p, name)] ∧ ∀ r, (r, b) ∈ met ++ [(p, name)] → before q r := by
        intro a b q member earlier
        refine ⟨q, List.mem_append_left _ member, fun r met' => ?_⟩
        rcases List.mem_append.mp met' with old | new
        · exact earlier r old
        · cases List.mem_singleton.mp new
          exact behind _ member _ List.mem_cons_self
      have kept := (inductionHypothesis front).imp fun ⟨q, member, earlier⟩ => first member earlier
      rw [List.map_append, List.foldl_append, List.map_singleton, List.foldl_cons, List.foldl_nil,
        addName]
      split
      · exact kept
      · next absent =>
          refine List.pairwise_append.mpr ⟨kept, List.pairwise_singleton _ _, ?_⟩
          intro a listed b isName
          cases List.mem_singleton.mp isName
          obtain ⟨⟨q, _⟩, member, rfl⟩ := List.mem_map.mp
            ((mem_foldl_addName.mp listed).resolve_left List.not_mem_nil)
          refine first member fun r member' => absurd ?_ absent
          simpa [mem_foldl_addName] using ⟨r, member'⟩

/-! ### The analyzers of a view -/

namespace View

variable {v : View} {names others : List String}

/-- The links of a view as the fields of one link, which lists no analyzer itself. -/
def root (v : View) : Link :=
  { fields := v.links }

/-- One analyzer is named at a place before all places where another one is. -/
def NamesFirst (v : View) (first second : String) : Prop :=
  ∃ p, v.root.Names first p ∧ ∀ q, v.root.Names second q → p.Before q

/-- A list has all analyzers that a view names, each once, in the order in which they are met
first on the way through the links, depth first. -/
structure Enumerates (v : View) (names : List String) : Prop where
  once : names.Nodup
  exact : ∀ name, name ∈ names ↔ ∃ p, v.root.Names name p
  ordered : names.Pairwise v.NamesFirst

theorem analyzerNames_eq (v : View) :
    v.analyzerNames = (v.root.walk.map Prod.snd).foldl addName [] :=
  Link.addAnalyzers_eq v.root

theorem mem_analyzerNames_iff_names {name : String} :
    name ∈ v.analyzerNames ↔ ∃ p, v.root.Names name p := by
  rw [analyzerNames_eq, mem_foldl_addName]
  simp [← Link.mem_walk_iff]

/-- The analyzers of a view are those that its links use at any depth. -/
theorem mem_analyzerNames_iff {name : String} : name ∈ v.analyzerNames ↔ v.Uses name := by
  rw [mem_analyzerNames_iff_names, ← Link.uses_iff_exists_names, Link.uses_iff]
  simp [root, Uses]

theorem enumerates_analyzerNames (wellFormed : v.root.WellFormed) :
    v.Enumerates v.analyzerNames where
  once := by
    rw [analyzerNames_eq]
    exact nodup_foldl_addName List.nodup_nil _
  exact _ := mem_analyzerNames_iff_names
  ordered := by
    rw [analyzerNames_eq]
    refine (pairwise_foldl_addName (Link.ordered_walk v.root wellFormed)).imp ?_
    rintro a b ⟨p, member, earlier⟩
    exact ⟨p, (Link.mem_walk_iff v.root).mp member, fun q names =>
      earlier q ((Link.mem_walk_iff v.root).mpr names)⟩

theorem NamesFirst.asymm {first second : String} (before : v.NamesFirst first second) :
    ¬ v.NamesFirst second first := by
  obtain ⟨p, named, earlier⟩ := before
  rintro ⟨q, named', earlier'⟩
  exact (earlier q named').asymm (earlier' p named)

/-- There is only one such list. -/
theorem Enumerates.unique (enumerates : v.Enumerates names) (enumerates' : v.Enumerates others) :
    names = others := by
  have same : names.Perm others :=
    (List.perm_ext_iff_of_nodup enumerates.once enumerates'.once).mpr fun name =>
      (enumerates.exact name).trans (enumerates'.exact name).symm
  exact same.eq_of_pairwise (fun _ _ _ _ before after => absurd after before.asymm)
    enumerates.ordered enumerates'.ordered

/-! ### Changed views -/

theorem wellFormed_root_iff :
    v.root.WellFormed ↔ v.links.Sorted ∧ ∀ entry ∈ v.links.entries, entry.2.WellFormed := by
  rw [← Link.allWellFormed_iff]
  exact Iff.rfl

theorem wellFormed_applyOne (wellFormed : v.root.WellFormed) {change : ViewChange}
    (changeWellFormed : change.WellFormed) : (v.applyOne change).root.WellFormed := by
  cases change with
  | addSort sort => exact wellFormed
  | addStore stored => exact wellFormed
  | addLink collection link =>
      obtain ⟨sorted, each⟩ := wellFormed_root_iff.mp wellFormed
      refine wellFormed_root_iff.mpr ⟨sorted.insert collection link, fun entry member => ?_⟩
      rcases Dict.mem_insertEntry member with rfl | old
      · exact changeWellFormed
      · exact each entry old

/-- Well-formed changes leave the links of a view in key order. -/
theorem wellFormed_apply (wellFormed : v.root.WellFormed) {changes : List ViewChange}
    (each : ∀ change ∈ changes, change.WellFormed) : (v.apply changes).root.WellFormed := by
  induction changes generalizing v with
  | nil => exact wellFormed
  | cons change rest inductionHypothesis =>
      obtain ⟨first, later⟩ := List.forall_mem_cons.mp each
      exact inductionHypothesis (wellFormed_applyOne wellFormed first) later

/-- The analyzers of a changed view are listed completely, each once, in the order in which they
are met first on the way through its links; and no other list is. -/
theorem analyzerNames_apply {changes : List ViewChange} (wellFormed : v.root.WellFormed)
    (each : ∀ change ∈ changes, change.WellFormed) :
    (v.apply changes).Enumerates names ↔ names = (v.apply changes).analyzerNames := by
  have enumerates := enumerates_analyzerNames (wellFormed_apply wellFormed each)
  exact ⟨fun other => other.unique enumerates, fun same => same ▸ enumerates⟩

/-- A view of posts that name two analyzers. -/
def postSearch : View where
  name := "search"
  links := ⟨[("posts", { analyzers := ["text_en", "identity"] })]⟩

/-- A body with a title inside of it. -/
def bodyLink : Link where
  analyzers := ["identity"]
  fields := ⟨[("title", { analyzers := ["norm", "text_de"] })]⟩

/-- An article that names analyzers at three depths, some of them more than once. -/
def articleLink : Link where
  analyzers := ["text_de"]
  fields := ⟨[("body", bodyLink), ("tags", { analyzers := ["norm", "split"] })]⟩

def articleChanges : List ViewChange :=
  [.addSort { field := "title" }, .addLink "articles" articleLink]

/-- The articles come before the posts, and what they name is not listed again. -/
theorem analyzerNames_apply_of_articleChanges :
    postSearch.root.WellFormed ∧ (∀ change ∈ articleChanges, change.WellFormed) ∧
      (postSearch.apply articleChanges).Enumerates
        ["text_de", "identity", "norm", "split", "text_en"] := by
  have leaf : ∀ analyzers, Link.WellFormed { analyzers } := fun _ => ⟨List.Pairwise.nil, trivial⟩
  have wellFormed : postSearch.root.WellFormed :=
    ⟨List.pairwise_singleton _ _, leaf _, trivial⟩
  have body : bodyLink.WellFormed := ⟨List.pairwise_singleton _ _, leaf _, trivial⟩
  have article : articleLink.WellFormed :=
    ⟨List.pairwise_pair.mpr (by decide), body, leaf _, trivial⟩
  have each : ∀ change ∈ articleChanges, change.WellFormed :=
    List.forall_mem_cons.mpr ⟨trivial, List.forall_mem_singleton.mpr article⟩
  exact ⟨wellFormed, each, (analyzerNames_apply wellFormed each).mpr (by decide)⟩

end View

end DocStore
