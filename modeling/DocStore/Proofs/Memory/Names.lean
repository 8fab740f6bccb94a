/-
Module: DocStore.Proofs.Memory.Names
Purpose: the names that the store gives to cursors, transactions and documents: they have no
  slashes, and each is given once.
Main exports:
  slash_notMem_hexName, hexName_injective
-/
import DocStore.Memory.Store

namespace DocStore

theorem mem_hexDigits_of_mem_toDigits {n : Nat} {c : Char} (member : c ∈ Nat.toDigits 16 n) :
    c ∈ "0123456789abcdef".toList := by
  induction n using Nat.strongRecOn with
  | ind n inductionHypothesis =>
      have digits : ∀ m < 16, Nat.digitChar m ∈ "0123456789abcdef".toList := by decide
      rw [Nat.toDigits_eq_if (by decide)] at member
      split at member
      · next small =>
          rw [List.mem_singleton] at member
          exact member ▸ digits n small
      · next large =>
          rcases List.mem_append.mp member with front | last
          · exact inductionHypothesis (n / 16) (by omega) front
          · rw [List.mem_singleton] at last
            exact last ▸ digits (n % 16) (Nat.mod_lt n (by decide))

theorem slash_notMem_hexName (n : Nat) : '/' ∉ (hexName n).toList := by
  intro member
  rw [hexName, String.toList_ofList] at member
  rcases List.mem_append.mp member with zeros | digits
  · exact absurd (List.eq_of_mem_replicate zeros) (by decide)
  · exact absurd (mem_hexDigits_of_mem_toDigits digits) (by decide)

/-- The number that hexadecimal digits write. -/
def hexValue (digits : List Char) : Nat :=
  digits.foldl (fun n c => 16 * n + "0123456789abcdef".toList.idxOf c) 0

theorem hexValue_toDigits (n : Nat) : hexValue (Nat.toDigits 16 n) = n := by
  induction n using Nat.strongRecOn with
  | ind n inductionHypothesis =>
      have digits : ∀ m < 16, "0123456789abcdef".toList.idxOf (Nat.digitChar m) = m := by decide
      rw [Nat.toDigits_eq_if (by decide)]
      split
      · next small =>
          unfold hexValue
          rw [List.foldl_cons, List.foldl_nil, digits n small]
          omega
      · next large =>
          have front := inductionHypothesis (n / 16) (by omega)
          unfold hexValue at front ⊢
          rw [List.foldl_append, front, List.foldl_cons, List.foldl_nil,
            digits (n % 16) (Nat.mod_lt n (by decide))]
          omega

/-- Zeros in front do not count. -/
theorem hexValue_replicate_append (zeros : Nat) (digits : List Char) :
    hexValue (List.replicate zeros '0' ++ digits) = hexValue digits := by
  induction zeros with
  | zero => rfl
  | succ zeros inductionHypothesis =>
      rw [List.replicate_succ, List.cons_append]
      exact inductionHypothesis

theorem hexName_injective {m n : Nat} (same : hexName m = hexName n) : m = n := by
  have value : ∀ k, hexValue (hexName k).toList = k := by
    intro k
    rw [hexName, String.toList_ofList, hexValue_replicate_append, hexValue_toDigits]
  rw [← value m, same, value n]

end DocStore
