import Mathlib

/-!
# Numbers as lists of words

A list of words of one width, the least significant first, represents a number below the power of
two that its length and the width give.
-/

namespace Foundation.Words

variable {width : Nat}

/-- The number that a list of words represents. -/
def value : List (BitVec width) → Nat
  | [] => 0
  | word :: rest => 2 ^ width * value rest + word.toNat

@[simp]
theorem value_nil : value ([] : List (BitVec width)) = 0 := rfl

theorem value_cons (word : BitVec width) (rest : List (BitVec width)) :
    value (word :: rest) = 2 ^ width * value rest + word.toNat := rfl

theorem value_lt (words : List (BitVec width)) : value words < 2 ^ (width * words.length) := by
  induction words with
  | nil => simp
  | cons word rest inductionHypothesis =>
      have small := word.isLt
      rw [value_cons, List.length_cons, Nat.mul_succ, Nat.pow_add, Nat.mul_comm (2 ^ (_ * _))]
      calc 2 ^ width * value rest + word.toNat < 2 ^ width * value rest + 2 ^ width := by omega
        _ = 2 ^ width * (value rest + 1) := by ring
        _ ≤ 2 ^ width * 2 ^ (width * rest.length) := Nat.mul_le_mul_left _ inductionHypothesis

theorem value_eq_zero_iff {words : List (BitVec width)} :
    value words = 0 ↔ ∀ word ∈ words, word = 0 := by
  induction words with
  | nil => simp
  | cons word rest inductionHypothesis =>
      have positive := Nat.two_pow_pos width
      have zero : word.toNat = 0 ↔ word = 0 := by
        rw [← BitVec.toNat_inj, BitVec.ofNat_eq_ofNat, BitVec.toNat_ofNat, Nat.zero_mod]
      rw [value_cons, Nat.add_eq_zero_iff, Nat.mul_eq_zero, List.forall_mem_cons,
        ← inductionHypothesis, zero]
      constructor
      · rintro ⟨none | rests, words⟩
        · omega
        · exact ⟨words, rests⟩
      · exact fun both => ⟨.inr both.2, both.1⟩

/-- An operation on the bits of words is the operation on the bits of the numbers. -/
theorem value_zipWith {operation : BitVec width → BitVec width → BitVec width}
    {bits : Nat → Nat → Nat} {bit : Bool → Bool → Bool} (unset : bit false false = false)
    (words : ∀ first second index, (operation first second).toNat.testBit index =
      bit (first.toNat.testBit index) (second.toNat.testBit index))
    (numbers : ∀ first second index,
      (bits first second).testBit index = bit (first.testBit index) (second.testBit index))
    {first second : List (BitVec width)} (length : first.length = second.length) :
    value (List.zipWith operation first second) = bits (value first) (value second) := by
  induction first generalizing second with
  | nil =>
      rw [List.zipWith_nil_left, List.eq_nil_of_length_eq_zero length.symm, value_nil]
      apply Nat.eq_of_testBit_eq
      intro index
      rw [numbers, Nat.zero_testBit, unset]
  | cons word rest inductionHypothesis =>
      cases second with
      | nil => cases length
      | cons other others =>
          rw [List.zipWith_cons_cons, value_cons, value_cons, value_cons,
            inductionHypothesis (Nat.succ.inj length)]
          apply Nat.eq_of_testBit_eq
          intro index
          rw [numbers, Nat.testBit_two_pow_mul_add _ (operation word other).isLt,
            Nat.testBit_two_pow_mul_add _ word.isLt, Nat.testBit_two_pow_mul_add _ other.isLt]
          split_ifs
          · exact words word other index
          · exact numbers _ _ _

theorem value_and {first second : List (BitVec width)} (length : first.length = second.length) :
    value (List.zipWith (· &&& ·) first second) = value first &&& value second :=
  value_zipWith rfl (fun _ _ _ => by rw [BitVec.toNat_and, Nat.testBit_and])
    (fun _ _ _ => Nat.testBit_and ..) length

theorem value_or {first second : List (BitVec width)} (length : first.length = second.length) :
    value (List.zipWith (· ||| ·) first second) = value first ||| value second :=
  value_zipWith rfl (fun _ _ _ => by rw [BitVec.toNat_or, Nat.testBit_or])
    (fun _ _ _ => Nat.testBit_or ..) length

theorem value_xor {first second : List (BitVec width)} (length : first.length = second.length) :
    value (List.zipWith (· ^^^ ·) first second) = value first ^^^ value second :=
  value_zipWith rfl (fun _ _ _ => by rw [BitVec.toNat_xor, Nat.testBit_xor])
    (fun _ _ _ => Nat.testBit_xor ..) length

end Foundation.Words
