import Mathlib

/-!
# Digits with a complement checksum

The checksum of a digit string is the sum of what its digits lack to the largest one.  A string
that is nowhere above another one has the larger checksum, unless the two are the same.
-/

namespace Foundation.Checksum

/-- The sum of the complements of the digits. -/
def complement (top : Nat) (digits : List Nat) : Nat := (digits.map (top - ·)).sum

variable {top : Nat}

@[simp]
theorem complement_nil : complement top [] = 0 := rfl

@[simp]
theorem complement_cons (digit : Nat) (rest : List Nat) :
    complement top (digit :: rest) = (top - digit) + complement top rest := by
  simp [complement]

theorem complement_le (digits : List Nat) : complement top digits ≤ top * digits.length := by
  induction digits with
  | nil => simp
  | cons digit rest inductionHypothesis =>
      rw [complement_cons, List.length_cons, Nat.mul_succ]
      have part : top - digit ≤ top := Nat.sub_le top digit
      omega

theorem complement_antitone {lower upper : List Nat} (below : List.Forall₂ (· ≤ ·) lower upper) :
    complement top upper ≤ complement top lower := by
  induction below with
  | nil => exact le_rfl
  | cons digit rest inductionHypothesis =>
      rw [complement_cons, complement_cons]
      exact Nat.add_le_add (Nat.sub_le_sub_left digit top) inductionHypothesis

/-- Strings that are ordered digit by digit, and their checksums as well, are the same. -/
theorem eq_of_below {lower upper : List Nat} (below : List.Forall₂ (· ≤ ·) lower upper)
    (bounded : ∀ digit ∈ upper, digit ≤ top)
    (sums : complement top lower ≤ complement top upper) : lower = upper := by
  induction below with
  | nil => rfl
  | @cons first second lower upper digit rest inductionHypothesis =>
      rw [complement_cons, complement_cons] at sums
      rw [List.forall_mem_cons] at bounded
      have others : complement top upper ≤ complement top lower := complement_antitone rest
      have here := bounded.1
      have same : first = second := by omega
      rw [same, inductionHypothesis bounded.2 (by omega)]

end Foundation.Checksum
