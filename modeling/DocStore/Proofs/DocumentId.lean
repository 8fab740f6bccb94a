/-
Module: DocStore.Proofs.DocumentId
Purpose: the texts that are read as identifiers of documents and as keys, exactly: what is
  written around a single slash, and what is written without one.
Main exports:
  DocumentId.IsToken, DocumentId.parse?_eq_some_iff, DocumentId.keyOf_eq_ok_iff,
  DocumentId.keyOf_eq_self_iff, DocumentId.read_exact
-/
import DocStore.Error
import DocStore.Proofs.Fallible
import DocStore.Proofs.Text.Cutting

namespace DocStore.DocumentId

open Text

theorem isPart_iff {text : List Char} : isPart text = true ↔ text ≠ [] ∧ '/' ∉ text := by
  simp [isPart]

/-- A text that can stand on either side of the slash. -/
def IsToken (s : String) : Prop :=
  s ≠ "" ∧ '/' ∉ s.toList

theorem isPart_toList_iff {s : String} : isPart s.toList = true ↔ IsToken s := by
  rw [isPart_iff, IsToken, Ne, String.toList_eq_nil_iff]

theorem isToken_ofList_iff {text : List Char} : IsToken (String.ofList text) ↔ isPart text := by
  rw [← isPart_toList_iff, String.toList_ofList]

theorem toList_text (id : DocumentId) :
    id.text.toList = id.collection.toList ++ '/' :: id.key.toList := by
  simp [text]

/-! ### Identifiers -/

/-- What is written is read back. -/
theorem parse?_text {id : DocumentId} (collection : IsToken id.collection)
    (key : IsToken id.key) : parse? id.text = some id := by
  have own : ∀ c ∈ id.collection.toList, (c != '/') = true := fun c member => by
    simpa using ne_of_mem_of_not_mem member collection.2
  have slash : ∀ c ∈ ('/' :: id.key.toList).head?, (c != '/') = false := by
    rintro _ ⟨rfl⟩
    rfl
  unfold parse?
  simp only [toList_text, takeWhile_run own slash, dropWhile_run own slash,
    isPart_toList_iff.mpr collection, isPart_toList_iff.mpr key, Bool.and_self, if_true,
    String.ofList_toList]

/-- Only what is written is read: the text is cut at its first slash, and no other one may be
behind it. -/
theorem eq_text_of_parse? {s : String} {id : DocumentId} (is : parse? s = some id) :
    IsToken id.collection ∧ IsToken id.key ∧ s = id.text := by
  have whole := s.toList.takeWhile_append_dropWhile (p := (· != '/'))
  simp only [parse?] at is
  split at is
  · cases is
  · next c rest cut =>
      split at is
      · next parts =>
          cases is
          rw [Bool.and_eq_true] at parts
          have slash : c = '/' := by
            have stops := List.head?_dropWhile_not (· != '/') s.toList
            simpa [cut] using stops
          refine ⟨isToken_ofList_iff.mpr parts.1, isToken_ofList_iff.mpr parts.2, ?_⟩
          rw [cut, slash] at whole
          rw [← String.toList_inj, toList_text]
          simp only [String.toList_ofList, whole]
      · cases is

theorem parse?_eq_some_iff {s : String} {id : DocumentId} :
    parse? s = some id ↔ IsToken id.collection ∧ IsToken id.key ∧ s = id.text := by
  refine ⟨eq_text_of_parse?, ?_⟩
  rintro ⟨collection, key, rfl⟩
  exact parse?_text collection key

theorem read_eq_ok_iff {s : String} {id : DocumentId} :
    read s = .ok id ↔ IsToken id.collection ∧ IsToken id.key ∧ s = id.text := by
  rw [← parse?_eq_some_iff, read]
  split
  · next found => rw [found, Except.ok.injEq, Option.some.injEq]
  · next none => simp [none]

theorem read_eq_error_iff {s : String} :
    read s = .error (.notTwoParts s) ↔ ∀ id, read s ≠ .ok id := by
  cases outcome : read s with
  | ok id => exact iff_of_false nofun fun other => other id rfl
  | error fault =>
      refine iff_of_true ?_ nofun
      rw [read] at outcome
      split at outcome
      · cases outcome
      · exact outcome.symm

/-! ### Keys -/

/-- A text with a slash is read as an identifier, and one without is a key itself. -/
theorem keyOf_eq_ok_iff {s key : String} :
    keyOf s = .ok key ↔ (∃ collection, read s = .ok ⟨collection, key⟩) ∨ IsToken key ∧ s = key := by
  have slashed : ∀ {id}, read s = .ok id → '/' ∈ s.toList := by
    intro id is
    rw [(read_eq_ok_iff.mp is).2.2, toList_text]
    simp
  unfold keyOf
  split
  · next found =>
      have slash : '/' ∈ s.toList := by simpa using found
      have other : ¬(IsToken key ∧ s = key) := fun ⟨token, same⟩ => token.2 (same ▸ slash)
      rw [or_iff_left other, exceptMap_eq_ok_iff]
      constructor
      · rintro ⟨id, is, rfl⟩
        exact ⟨id.collection, is⟩
      · rintro ⟨collection, is⟩
        exact ⟨_, is, rfl⟩
  · next absent =>
      have noSlash : '/' ∉ s.toList := by simpa using absent
      have other : ¬∃ collection, read s = .ok ⟨collection, key⟩ := fun ⟨_, is⟩ =>
        noSlash (slashed is)
      rw [or_iff_right other]
      split
      · next part =>
          constructor
          · rintro ⟨rfl⟩
            exact ⟨isPart_toList_iff.mp part, rfl⟩
          · rintro ⟨_, rfl⟩
            rfl
      · next noPart =>
          refine iff_of_false nofun ?_
          rintro ⟨token, rfl⟩
          exact noPart (isPart_toList_iff.mpr token)

/-- A key is read as itself exactly if it is a part of an identifier: another one is
refused, or read as an identifier with a shorter key. -/
theorem keyOf_eq_self_iff {key : String} : keyOf key = .ok key ↔ isPart key.toList = true := by
  rw [keyOf_eq_ok_iff, isPart_toList_iff]
  constructor
  · rintro (⟨collection, is⟩ | ⟨token, _⟩)
    · exact (read_eq_ok_iff.mp is).2.1
    · exact token
  · exact fun token => Or.inr ⟨token, rfl⟩

/-! ### What is accepted -/

/-- A text is read as an identifier exactly if it is the written form of one whose two parts are
tokens, and is refused for its format otherwise.  Its key is that of the identifier, or the text
itself if that is a token, and there is no key in any other case. -/
theorem read_exact (s : String) :
    (∀ collection key, read s = .ok ⟨collection, key⟩ ↔
      IsToken collection ∧ IsToken key ∧ s = text ⟨collection, key⟩) ∧
    ((read s).mapError Error.format = .error (.format (.notTwoParts s)) ↔
      ¬∃ collection key, IsToken collection ∧ IsToken key ∧ s = text ⟨collection, key⟩) ∧
    ∀ key, keyOf s = .ok key ↔
      (∃ collection, IsToken collection ∧ IsToken key ∧ s = text ⟨collection, key⟩) ∨
        IsToken key ∧ s = key := by
  refine ⟨fun collection key => read_eq_ok_iff, ?_, fun key => ?_⟩
  · have format : (read s).mapError Error.format = .error (.format (.notTwoParts s)) ↔
        read s = .error (.notTwoParts s) := by
      cases read s <;> simp [Except.mapError]
    rw [format, read_eq_error_iff]
    constructor
    · rintro refused ⟨collection, key, written⟩
      exact refused ⟨collection, key⟩ (read_eq_ok_iff.mpr written)
    · rintro none ⟨collection, key⟩ is
      exact none ⟨collection, key, read_eq_ok_iff.mp is⟩
  · rw [keyOf_eq_ok_iff]
    simp only [read_eq_ok_iff]

end DocStore.DocumentId
