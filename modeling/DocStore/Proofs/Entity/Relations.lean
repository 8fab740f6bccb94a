/-
Module: DocStore.Proofs.Entity.Relations
Purpose: the edge types that a registry infers: when two relations between entity types are
  kept in collections of their own, over any history of the registry.
Main exports:
  OverlappingNames, SeparableNames, SeparableNames.edgeCollectionName_injective, Registry.Call,
  Registry.relations_apart
-/
import DocStore.Entity.Registry
import DocStore.Proofs.Text.Cutting
import Mathlib.Data.Sym.Sym2

namespace DocStore

/-! ### Names of edge collections -/

theorem edgeCollectionName_comm (a b : String) :
    edgeCollectionName a b = edgeCollectionName b a := by
  unfold edgeCollectionName
  by_cases below : a ≤ b
  · by_cases above : b ≤ a
    · rw [String.le_antisymm below above]
    · rw [if_pos below, if_neg above]
  · have above : b ≤ a := (String.le_total a b).resolve_left below
    rw [if_neg below, if_pos above]

/-- The two names of a pair stand one after the other, in one of the two orders. -/
theorem exists_edgeCollectionName_eq (a b : String) :
    ∃ first second, s(first, second) = s(a, b) ∧
      edgeCollectionName a b = snakeCase first ++ "_" ++ snakeCase second := by
  unfold edgeCollectionName
  split
  · exact ⟨a, b, rfl, rfl⟩
  · exact ⟨b, a, Sym2.eq_swap, rfl⟩

/-!
An underscore stands between the two names of a pair and between the words of one name.  So
the same text can be cut in two places: `BlogPost` and `User` make up `blog_post_user`, and so
do `Blog` and `PostUser`.
-/

/-- The last words of `a` are the first ones of `d`, so that `a` and `b` make up the same text
as `c` and `d`. -/
def OverlappingNames (a b c d : String) : Prop :=
  ∃ middle, snakeCase a = snakeCase c ++ "_" ++ middle ∧ snakeCase d = middle ++ "_" ++ snakeCase b

instance (a b c d : String) : Decidable (OverlappingNames a b c d) :=
  decidable_of_iff
    (∃ middle ∈ (snakeCase a).toList.tails, snakeCase a = snakeCase c ++ "_" ++ .ofList middle ∧
      snakeCase d = .ofList middle ++ "_" ++ snakeCase b)
    ⟨fun ⟨middle, _, cut⟩ => ⟨.ofList middle, cut⟩, fun ⟨middle, cut⟩ => by
      refine ⟨middle.toList, (List.mem_tails _ _).mpr ⟨(snakeCase c ++ "_").toList, ?_⟩, ?_⟩
      · simp [cut.1]
      · simpa using cut⟩

/-- Names of entity types of which no two are written alike, and no two pairs overlap. -/
structure SeparableNames (names : List String) : Prop where
  injective : ∀ a ∈ names, ∀ b ∈ names, snakeCase a = snakeCase b → a = b
  apart : ∀ a ∈ names, ∀ b ∈ names, ∀ c ∈ names, ∀ d ∈ names, ¬ OverlappingNames a b c d

instance (names : List String) : Decidable (SeparableNames names) :=
  decidable_of_iff (_ ∧ _) ⟨fun ⟨injective, apart⟩ => ⟨injective, apart⟩, fun separable =>
    ⟨separable.injective, separable.apart⟩⟩

/-- Two pairs that make up the same text have the same names, or they overlap. -/
theorem overlapping_of_join_eq {a b c d : String}
    (same : snakeCase a ++ "_" ++ snakeCase b = snakeCase c ++ "_" ++ snakeCase d) :
    (snakeCase a = snakeCase c ∧ snakeCase b = snakeCase d) ∨ OverlappingNames a b c d ∨
      OverlappingNames c d a b := by
  have joined := congrArg String.toList same
  simp only [String.toList_append, List.append_assoc] at joined
  have overlap : ∀ {a b c d : String} {middle : List Char},
      (snakeCase a).toList = (snakeCase c).toList ++ '_' :: middle →
      (snakeCase d).toList = middle ++ '_' :: (snakeCase b).toList → OverlappingNames a b c d := by
    intro a b c d middle front back
    refine ⟨.ofList middle, String.toList_inj.mp ?_, String.toList_inj.mp ?_⟩
    · simp [front]
    · simp [back]
  rcases Nat.le_total (snakeCase c).toList.length (snakeCase a).toList.length with shorter | shorter
  · rcases Text.append_cons_cases joined shorter with ⟨first, second⟩ | ⟨middle, front, back⟩
    · exact .inl ⟨String.toList_inj.mp first, String.toList_inj.mp second⟩
    · exact .inr (.inl (overlap front back))
  · rcases Text.append_cons_cases joined.symm shorter with ⟨first, second⟩ | ⟨middle, front, back⟩
    · exact .inl ⟨String.toList_inj.mp first.symm, String.toList_inj.mp second.symm⟩
    · exact .inr (.inr (overlap front back))

/-- Different pairs of separable names have edge collections of different names. -/
theorem SeparableNames.edgeCollectionName_injective {names : List String}
    (separable : SeparableNames names) {a b c d : String} (ours : ∀ name ∈ [a, b, c, d], name ∈ names)
    (same : edgeCollectionName a b = edgeCollectionName c d) : s(a, b) = s(c, d) := by
  obtain ⟨first, second, pair, written⟩ := exists_edgeCollectionName_eq a b
  obtain ⟨first', second', pair', written'⟩ := exists_edgeCollectionName_eq c d
  have among : ∀ name ∈ s(a, b), name ∈ names := by
    intro name member
    rcases Sym2.mem_iff.mp member with rfl | rfl
    · exact ours name (by simp)
    · exact ours name (by simp)
  have among' : ∀ name ∈ s(c, d), name ∈ names := by
    intro name member
    rcases Sym2.mem_iff.mp member with rfl | rfl
    · exact ours name (by simp)
    · exact ours name (by simp)
  rw [← pair] at among ⊢
  rw [← pair'] at among' ⊢
  have one := among first (Sym2.mem_mk_left _ _)
  have two := among second (Sym2.mem_mk_right _ _)
  have three := among' first' (Sym2.mem_mk_left _ _)
  have four := among' second' (Sym2.mem_mk_right _ _)
  rw [written, written'] at same
  rcases overlapping_of_join_eq same with ⟨front, back⟩ | overlap | overlap
  · rw [separable.injective _ one _ three front, separable.injective _ two _ four back]
  · exact absurd overlap (separable.apart _ one _ two _ three _ four)
  · exact absurd overlap (separable.apart _ three _ four _ one _ two)

/-! ### Histories of a registry -/

namespace Registry

/-- What is asked of a registry. -/
inductive Call where
  | register (e : Entity)
  | edgeBetween (a b : Entity)

/-- The registry after a call. -/
def serve (r : Registry) : Call → Registry
  | .register e => r.register e
  | .edgeBetween a b => (r.edgeBetween a b).2

/-- The registry after calls. -/
def after (r : Registry) (calls : List Call) : Registry :=
  calls.foldl serve r

section

variable {r : Registry} {calls : List Call} {a b e : Entity} {name : String}

theorem after_append (r : Registry) (first second : List Call) :
    r.after (first ++ second) = (r.after first).after second :=
  List.foldl_append

theorem get?_register (r : Registry) (e : Entity) (name : String) :
    (r.register e).get? name = if name = e.name then some e else r.get? name :=
  Dict.get?_insert _ _ _ _

/-- The edge type of a pair is the known one of its name, or a new one. -/
theorem edgeBetween_fst (r : Registry) (a b : Entity) :
    (r.edgeBetween a b).1 = (r.get? (edgeCollectionName a.name b.name)).getD
      (.edge (edgeCollectionName a.name b.name) (edgeCollectionName a.name b.name)) := by
  unfold edgeBetween
  dsimp only
  cases r.get? (edgeCollectionName a.name b.name) <;> rfl

/-- Asking for an edge type makes it known, and changes nothing else. -/
theorem get?_edgeBetween (r : Registry) (a b : Entity) (name : String) :
    (r.edgeBetween a b).2.get? name =
      if name = edgeCollectionName a.name b.name then some (r.edgeBetween a b).1
      else r.get? name := by
  unfold edgeBetween
  dsimp only
  cases known : r.get? (edgeCollectionName a.name b.name) with
  | some found =>
      dsimp only
      split
      · next same => rw [same, known]
      · rfl
  | none => exact get?_register r (.edge _ _) name

theorem edgeBetween_comm (r : Registry) (a b : Entity) : r.edgeBetween a b = r.edgeBetween b a := by
  unfold edgeBetween
  rw [edgeCollectionName_comm]

/-- An entity type stays known until another one is registered under its name. -/
theorem get?_serve_of_some (known : r.get? name = some e) {call : Call}
    (kept : ∀ other, call = .register other → other.name ≠ name) :
    (r.serve call).get? name = some e := by
  cases call with
  | register other =>
      rw [serve, get?_register, if_neg (Ne.symm (kept other rfl))]
      exact known
  | edgeBetween a b =>
      rw [serve, get?_edgeBetween]
      split
      · next same => rw [edgeBetween_fst, ← same, known, Option.getD_some]
      · exact known

theorem get?_after_of_some (known : r.get? name = some e)
    (kept : ∀ other, .register other ∈ calls → other.name ≠ name) :
    (r.after calls).get? name = some e := by
  induction calls generalizing r with
  | nil => exact known
  | cons call calls inductionHypothesis =>
      refine inductionHypothesis (get?_serve_of_some known fun other is => ?_)
        fun other member => kept other (List.mem_cons_of_mem _ member)
      exact kept other (is ▸ List.mem_cons_self)

/-- Where an entity type of a registry comes from: it was registered, or it was inferred
together with its name. -/
def Known (calls : List Call) (name : String) (e : Entity) : Prop :=
  (.register e ∈ calls ∧ e.name = name) ∨ e = .edge name name

theorem Known.mono {more : List Call} (known : Known calls name e) (all : calls ⊆ more) :
    Known more name e :=
  known.imp (fun ⟨member, named⟩ => ⟨all member, named⟩) id

theorem known_serve {earlier : List Call}
    (before : ∀ name e, r.get? name = some e → Known earlier name e) (call : Call) :
    ∀ name e, (r.serve call).get? name = some e → Known (earlier ++ [call]) name e := by
  intro name e found
  have kept : ∀ {e}, r.get? name = some e → Known (earlier ++ [call]) name e :=
    fun known => (before _ _ known).mono (List.subset_append_left _ _)
  cases call with
  | register other =>
      rw [serve, get?_register] at found
      split at found
      · next same =>
          cases found
          exact .inl ⟨by simp, same.symm⟩
      · exact kept found
  | edgeBetween a b =>
      rw [serve, get?_edgeBetween] at found
      split at found
      · next same =>
          rw [edgeBetween_fst, ← same] at found
          cases known : r.get? name with
          | some other =>
              rw [known, Option.getD_some] at found
              exact kept (known.trans found)
          | none =>
              rw [known, Option.getD_none] at found
              cases found
              exact .inr rfl
      · exact kept found

/-- Whatever a registry knows was registered, or it is an inferred edge type. -/
theorem known_after (calls : List Call) :
    ∀ name e, (after {} calls).get? name = some e → Known calls name e := by
  induction calls using List.reverseRecOn with
  | nil =>
      intro name e found
      cases found
  | append_singleton calls call inductionHypothesis =>
      rw [after_append]
      exact known_serve inductionHypothesis call

/-- The edge type of a pair was registered under the name of the pair, or inferred. -/
theorem known_edgeBetween (calls : List Call) (a b : Entity) :
    Known calls (edgeCollectionName a.name b.name) ((after {} calls).edgeBetween a b).1 := by
  rw [edgeBetween_fst]
  cases known : (after {} calls).get? (edgeCollectionName a.name b.name) with
  | some e => exact known_after calls _ e known
  | none => exact .inr rfl

theorem Known.kind_eq (known : Known calls name e)
    (registered : ∀ e, .register e ∈ calls → e.name = name → e.kind = .edge) : e.kind = .edge := by
  rcases known with ⟨member, named⟩ | rfl
  · exact registered e member named
  · rfl

theorem Known.collection_eq (known : Known calls name e)
    (registered : ∀ e, .register e ∈ calls → e.name = name → e.collection = name) :
    e.collection = name := by
  rcases known with ⟨member, named⟩ | rfl
  · exact registered e member named
  · rfl

end

/-! ### Relations in collections of their own -/

/-- Edge types that are asked for at any two moments of a history.  The order of the two ends
does not matter, and the first answer is kept until another type is registered under its name;
edge types are edge types, if no others are registered under their names; and different pairs
of separable names have different collections, if what is registered under the names of their
edge collections is stored there. -/
theorem relations_apart (before between : List Call) (a b c d : Entity) :
    let name := edgeCollectionName a.name b.name
    let name' := edgeCollectionName c.name d.name
    let first := (after {} before).edgeBetween a b
    let second := (first.2.after between).edgeBetween c d
    first = (after {} before).edgeBetween b a ∧
    (s(a.name, b.name) = s(c.name, d.name) →
      (∀ e, .register e ∈ between → e.name ≠ name) → second.1 = first.1) ∧
    ((∀ e, .register e ∈ before → e.name = name → e.kind = .edge) → first.1.kind = .edge) ∧
    (s(a.name, b.name) ≠ s(c.name, d.name) → SeparableNames [a.name, b.name, c.name, d.name] →
      (∀ e, .register e ∈ before ++ between → e.name = name ∨ e.name = name' →
        e.collection = e.name) →
      first.1.collection ≠ second.1.collection) := by
  intro name name' first second
  have whole : first.2.after between = after {} (before ++ (.edgeBetween a b :: between)) := by
    rw [after_append]
    rfl
  refine ⟨edgeBetween_comm _ a b, fun same kept => ?_, fun registered => ?_,
    fun different separable stored collides => ?_⟩
  · have names : edgeCollectionName c.name d.name = name := by
      rcases Sym2.eq_iff.mp same with ⟨left, right⟩ | ⟨left, right⟩
      · rw [← left, ← right]
      · rw [← left, ← right, edgeCollectionName_comm]
    have memoized : (first.2.after between).get? name = some first.1 :=
      get?_after_of_some (by rw [get?_edgeBetween, if_pos rfl]) kept
    rw [edgeBetween_fst, names, memoized, Option.getD_some]
  · exact (known_edgeBetween before a b).kind_eq registered
  · have ours : first.1.collection = name :=
      (known_edgeBetween before a b).collection_eq fun e member named => by
        rw [stored e (List.mem_append_left _ member) (.inl named), named]
    have theirs : second.1.collection = name' := by
      have known := known_edgeBetween (before ++ (.edgeBetween a b :: between)) c d
      rw [← whole] at known
      refine known.collection_eq fun e member named => ?_
      have registered : .register e ∈ before ++ between := by simpa using member
      rw [stored e registered (.inr named), named]
    rw [ours, theirs] at collides
    exact different (separable.edgeCollectionName_injective (fun _ member => member) collides)

/-- A type whose name begins with that of another one, and an edge type that is registered with
a field of its own before it is asked for: the two relations are kept apart. -/
theorem relations_apart_of_userProfile :
    let user := Entity.document "User" "users"
    let profile := Entity.document "UserProfile" "profiles"
    let post := Entity.document "Post" "posts"
    let written := (Entity.edge "post_user" "post_user").withFields ["role"]
    let first := (after {} [.register user, .register written]).edgeBetween user post
    let second := (first.2.after [.register profile]).edgeBetween profile post
    s(user.name, post.name) ≠ s(profile.name, post.name) ∧
      SeparableNames [user.name, post.name, profile.name, post.name] ∧
      first.1.kind = .edge ∧ first.1.collection ≠ second.1.collection := by
  intro user profile post written first second
  have different : s(user.name, post.name) ≠ s(profile.name, post.name) := by decide
  have separable : SeparableNames [user.name, post.name, profile.name, post.name] := by
    decide +kernel
  have all := relations_apart [.register user, .register written] [.register profile] user post
    profile post
  refine ⟨different, separable, all.2.2.1 ?_, all.2.2.2 different separable ?_⟩
  · intro e member named
    simp only [List.mem_cons, Call.register.injEq, List.not_mem_nil, or_false] at member
    rcases member with rfl | rfl
    · revert named
      decide
    · rfl
  · intro e member named
    simp only [List.cons_append, List.nil_append, List.mem_cons, Call.register.injEq,
      List.not_mem_nil, or_false] at member
    rcases member with rfl | rfl | rfl
    · revert named
      decide
    · rfl
    · revert named
      decide

/-- The relation of posts and their users and that of blogs and their post users are kept in one
collection; and a type of documents that is registered under the name of a pair is taken for the
edge type. -/
theorem relations_mixed :
    let types := [Entity.document "BlogPost" "posts", .document "User" "users",
      .document "Blog" "blogs", .document "PostUser" "authors"]
    let first := (after {} (types.map .register)).edgeBetween types[0] types[1]
    let second := first.2.edgeBetween types[2] types[3]
    let tags := (after {} [.register (.document "post_user" "tags")]).edgeBetween
      (.document "User" "users") (.document "Post" "posts")
    s(types[0].name, types[1].name) ≠ s(types[2].name, types[3].name) ∧
      first.1.collection = "blog_post_user" ∧ second.1.collection = "blog_post_user" ∧
      tags.1.kind = .document := by
  decide +kernel

end Registry

end DocStore
