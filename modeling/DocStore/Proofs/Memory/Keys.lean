/-
Module: DocStore.Proofs.Memory.Keys
Purpose: documents that their keys tell apart.
Main exports:
  DistinctKeys, DistinctKeys.eq_of_same, DistinctKeys.mem_removeAll_iff
-/
import DocStore.Memory.Documents

namespace DocStore

/-- Texts as keys, each of one document only. -/
structure DistinctKeys (documents : List Document) : Prop where
  keyed : ∀ d ∈ documents, ∃ key, d.value "_key" = .str key
  distinct : documents.Pairwise fun a b => a.value "_key" ≠ b.value "_key"

theorem Json.str_same_iff (a : String) (b : Json) : ((Json.str a) == b) = true ↔ b = .str a := by
  change Json.same (.str a) b = true ↔ _
  cases b with
  | str b =>
      simp only [Json.same, beq_iff_eq, Json.str.injEq]
      exact eq_comm
  | _ => simp [Json.same]

theorem Document.hasKey_iff (d : Document) (key : String) :
    d.hasKey key = true ↔ d.value "_key" = .str key := by
  unfold Document.hasKey Json.isTextOf
  cases d.value "_key" <;> simp [Json.text?]

namespace DistinctKeys

variable {documents : List Document}

theorem same_self (keys : DistinctKeys documents) {d : Document} (member : d ∈ documents) :
    (d.value "_key" == d.value "_key") = true := by
  rcases keys.keyed d member with ⟨key, is⟩
  rw [is]
  exact (Json.str_same_iff key _).mpr rfl

/-- A key belongs to one document. -/
theorem eq_of_same (keys : DistinctKeys documents) {d e : Document} (dMember : d ∈ documents)
    (eMember : e ∈ documents) (same : (d.value "_key" == e.value "_key") = true) : d = e := by
  rcases keys.keyed d dMember with ⟨key, is⟩
  rw [is, Json.str_same_iff, ← is] at same
  have distinct := keys.distinct
  clear keys is
  induction documents with
  | nil => cases dMember
  | cons head rest inductionHypothesis =>
      rw [List.pairwise_cons] at distinct
      rcases List.mem_cons.mp dMember with rfl | dRest
      · rcases List.mem_cons.mp eMember with rfl | eRest
        · rfl
        · exact absurd same.symm (distinct.1 e eRest)
      · rcases List.mem_cons.mp eMember with rfl | eRest
        · exact absurd same (distinct.1 d dRest)
        · exact inductionHypothesis dRest eRest distinct.2

theorem sublist (keys : DistinctKeys documents) {part : List Document}
    (sub : part.Sublist documents) : DistinctKeys part :=
  ⟨fun d member => keys.keyed d (sub.mem member), keys.distinct.sublist sub⟩

/-- Removing documents by their keys removes just these documents. -/
theorem mem_removeAll_iff {c : StoredCollection} (keys : DistinctKeys c.documents)
    {found : List Document} (part : ∀ d ∈ found, d ∈ c.documents) (d : Document) :
    d ∈ (c.removeAll found).documents ↔ d ∈ c.documents ∧ d ∉ found := by
  simp only [StoredCollection.removeAll, List.mem_filter, Bool.not_eq_true', List.any_eq_false]
  constructor
  · rintro ⟨member, unlike⟩
    exact ⟨member, fun inFound => unlike d inFound (keys.same_self member)⟩
  · rintro ⟨member, notFound⟩
    refine ⟨member, fun f inFound same => notFound ?_⟩
    rw [← keys.eq_of_same (part f inFound) member same]
    exact inFound

end DistinctKeys

end DocStore
