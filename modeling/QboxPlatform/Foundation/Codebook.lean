import Mathlib.Data.List.Basic

/-!
# Codebook mode

A block function on the blocks of a list, one after the other.
-/

namespace Foundation

universe u

section Codebook

variable {Item : Type u}

/-- The blocks of an input, each by itself. -/
def codebook (size : Nat) (cipher : List Item → List Item) : (count : Nat) → List Item → List Item
  | 0, _ => []
  | count + 1, input => cipher (input.take size) ++ codebook size cipher count (input.drop size)

variable {size : Nat} {cipher : List Item → List Item}

theorem length_codebook (keeps : ∀ block, (cipher block).length = size) (count : Nat)
    (input : List Item) : (codebook size cipher count input).length = count * size := by
  induction count generalizing input with
  | zero => rw [codebook, List.length_nil, Nat.zero_mul]
  | succ count inductionHypothesis =>
      rw [codebook, List.length_append, keeps, inductionHypothesis, Nat.succ_mul, Nat.add_comm]

theorem codebook_append {first : Nat} (second : Nat) {front : List Item}
    (whole : front.length = first * size) (back : List Item) :
    codebook size cipher (first + second) (front ++ back) =
      codebook size cipher first front ++ codebook size cipher second back := by
  induction first generalizing front with
  | zero =>
      have none : front = [] := List.eq_nil_of_length_eq_zero (by omega)
      rw [none, Nat.zero_add, codebook, List.nil_append, List.nil_append]
  | succ first inductionHypothesis =>
      rw [Nat.succ_mul] at whole
      have rest : (front.drop size).length = first * size := by
        rw [List.length_drop]
        omega
      rw [Nat.succ_add, codebook, codebook, List.take_append_of_le_length (by omega),
        List.drop_append_of_le_length (by omega), inductionHypothesis rest, List.append_assoc]

/-- A block function that takes another one back does so on all the blocks. -/
theorem codebook_inverse {forward backward : List Item → List Item}
    (keeps : ∀ block, (forward block).length = size)
    (inverse : ∀ block, block.length = size → backward (forward block) = block)
    {count : Nat} {input : List Item} (whole : input.length = count * size) :
    codebook size backward count (codebook size forward count input) = input := by
  induction count generalizing input with
  | zero =>
      rw [codebook, List.eq_nil_of_length_eq_zero (whole.trans (Nat.zero_mul size))]
  | succ count inductionHypothesis =>
      rw [Nat.succ_mul] at whole
      have head : (input.take size).length = size := by
        rw [List.length_take]
        omega
      have rest : (input.drop size).length = count * size := by
        rw [List.length_drop]
        omega
      rw [codebook, codebook, List.take_left' (keeps _), List.drop_left' (keeps _), inverse _ head,
        inductionHypothesis rest, List.take_append_drop]

end Codebook

end Foundation
