/-
Module: DocStore.Proofs.Adapter.Keys
Purpose: numbers and the names of the store can stand as keys of documents.
Main exports:
  numeric_double, isPart_render, isPart_hexName
-/
import DocStore.Json.Printer
import DocStore.Proofs.DocumentId
import DocStore.Proofs.Memory.Names
import DocStore.Proofs.Query.Legible

namespace DocStore

open Text

namespace Json.Reader

theorem Numeric.isPart {text : List Char} (numeric : Numeric text) :
    DocumentId.isPart text = true := by
  obtain ⟨c, rest, spelled, _⟩ := numeric.head
  rw [DocumentId.isPart_iff]
  refine ⟨?_, fun slash => absurd (numeric.chars '/' slash) (by decide)⟩
  rw [spelled]
  exact List.cons_ne_nil c rest

/-- A sign, or none, in front of digits with more behind them. -/
theorem Numeric.signed {front back : List Char} (negative : Bool) (nonempty : front ≠ [])
    (digits : ∀ c ∈ front, c.isDigit = true) (chars : ∀ c ∈ back, isNumberChar c = true) :
    Numeric ((if negative then "-" else "").toList ++ (front ++ back)) := by
  have unsigned : ∀ c ∈ front ++ back, isNumberChar c = true := fun c member =>
    (List.mem_append.mp member).elim (fun inFront => isNumberChar_of_isDigit (digits c inFront))
      (chars c)
  cases front with
  | nil => exact absurd rfl nonempty
  | cons first rest =>
      cases negative with
      | false =>
          exact ⟨unsigned, first, rest ++ back, rfl, Or.inr (digits first List.mem_cons_self)⟩
      | true =>
          exact ⟨List.forall_mem_cons.mpr ⟨by decide, unsigned⟩, '-', _, rfl, Or.inl rfl⟩

end Json.Reader

open Json.Reader

theorem Decimal.scientific_digits (d : Decimal) : d.scientific.1 ≠ [] ∧
    (∀ c ∈ d.scientific.1, c.isDigit) ∧ ∀ c ∈ d.scientific.2.1, c.isDigit := by
  have digits : ∀ c ∈ digitChars d.digits, c.isDigit := fun c =>
    isDigit_of_mem_digitsOf (n := d.digits)
  refine ⟨?_, fun c member => digits c (List.mem_of_mem_take member),
    fun c member => digits c (List.mem_of_mem_drop member)⟩
  change (digitChars d.digits).take 1 ≠ []
  rw [Ne, List.take_eq_nil_iff]
  rintro (none | empty)
  · cases none
  · exact digitsOf_ne_nil d.digits empty

theorem numeric_double (x : Double) : Numeric x.render.toList := by
  have ofDigits : ∀ {text : List Char}, (∀ c ∈ text, c.isDigit = true) →
      ∀ c ∈ text, isNumberChar c = true := fun digits c member =>
    isNumberChar_of_isDigit (digits c member)
  have zero : ∀ c ∈ ['0'], c.isDigit = true := List.forall_mem_singleton.mpr (by decide)
  have place : ∀ c ∈ ['.', '0'], isNumberChar c = true := List.all_eq_true.mp (by decide)
  have exponent : ∀ n : Nat, ∀ c ∈ (toString n).toList, isNumberChar c = true :=
    fun n => (Literal.numeric_of_numberText (numberText_toString n)).chars
  unfold Double.render
  dsimp only
  split
  · rw [String.toList_append]
    exact Numeric.signed x.negative (List.cons_ne_nil _ _) zero place
  -- Which digits are shortest does not matter: they are digits, and either notation puts at
  -- least one of them in front.
  · generalize Decimal.shortest .toEven x = d
    split
    · have digits := d.positional_digits
      rw [String.toList_append, String.toList_ofList]
      refine Numeric.signed x.negative ?_ ?_ (List.forall_mem_cons.mpr ⟨by decide, ofDigits ?_⟩)
      · split
        · decide
        · next some_digit => simpa using some_digit
      · split
        · exact zero
        · exact digits.1
      · split
        · exact zero
        · exact digits.2
    · obtain ⟨nonempty, first, others⟩ := d.scientific_digits
      simp only [String.toList_append, String.toList_ofList, List.append_assoc]
      refine Numeric.signed x.negative nonempty first ?_
      refine List.forall_mem_append.mpr ⟨?_, List.forall_mem_append.mpr ⟨?_, exponent _⟩⟩
      · split
        · exact fun c member => absurd member List.not_mem_nil
        · exact List.forall_mem_cons.mpr ⟨by decide, ofDigits others⟩
      · split <;> exact List.all_eq_true.mp (by decide)

theorem isPart_hexName (n : Nat) : DocumentId.isPart (hexName n).toList = true := by
  rw [DocumentId.isPart_iff]
  refine ⟨fun empty => ?_, slash_notMem_hexName n⟩
  rw [hexName, String.toList_ofList, List.append_eq_nil_iff] at empty
  exact Nat.toDigits_ne_nil empty.2

theorem isPart_render (number : Number) : DocumentId.isPart number.render.toList = true := by
  cases number with
  | integer value => exact (Literal.numeric_of_numberText (numberText_toString value)).isPart
  | real value => exact (numeric_double value).isPart

end DocStore
