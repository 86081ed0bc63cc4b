import Mathlib

/-!
# The extended Euclidean algorithm

The loop keeps two remainders and, for each, a factor that gives it from the value modulo the
modulus.  The factors alternate in sign, and they and the remainders determine the modulus, which
bounds the factors.
-/

namespace Foundation.Bezout

/-- A remainder that rounds towards zero, brought into the range of the modulus. -/
theorem tmod_corrected {modulus : Int} (positive : 0 < modulus) (value : Int) :
    (if value.tmod modulus < 0 then value.tmod modulus + modulus else value.tmod modulus) =
      value % modulus := by
  have nonneg := Int.emod_nonneg value positive.ne'
  have below := Int.emod_lt_of_pos value positive
  rw [Int.tmod_eq_emod]
  split_ifs <;> omega

/-- What holds of the factors `t`, `newT` and the remainders `r`, `newR` in every round. -/
structure Invariant (value modulus t newT r newR : Int) : Prop where
  congruent : t * value ≡ r [ZMOD modulus]
  newCongruent : newT * value ≡ newR [ZMOD modulus]
  nonneg : 0 ≤ newR
  falls : newR < r
  alternates : t * newT ≤ 0
  grows : |t| ≤ |newT|
  determinant : |t| * newR + |newT| * r = modulus
  divisor : Int.gcd r newR = Int.gcd modulus value

variable {value modulus t newT r newR : Int}

theorem Invariant.start (nonneg : 0 ≤ value) (below : value < modulus) :
    Invariant value modulus 0 1 modulus value where
  congruent := by
    rw [zero_mul]
    exact (Int.modEq_zero_iff_dvd.mpr dvd_rfl).symm
  newCongruent := by rw [one_mul]
  nonneg := nonneg
  falls := below
  alternates := by simp
  grows := by simp
  determinant := by simp
  divisor := rfl

/-- Factors of opposite signs add up in absolute value. -/
theorem abs_sub_mul {first second quotient : Int} (alternates : first * second ≤ 0)
    (positive : 0 ≤ quotient) :
    |first - quotient * second| = |first| + quotient * |second| := by
  rcases le_total 0 first with nonneg | nonpos
  · rcases eq_or_lt_of_le nonneg with rfl | strict
    · simp [abs_mul, abs_of_nonneg positive]
    · have opposite : second ≤ 0 := nonpos_of_mul_nonpos_right alternates strict
      have product : quotient * second ≤ 0 := mul_nonpos_of_nonneg_of_nonpos positive opposite
      rw [abs_of_nonneg (by linarith), abs_of_nonneg nonneg, abs_of_nonpos opposite]
      ring
  · rcases eq_or_lt_of_le nonpos with rfl | strict
    · simp [abs_mul, abs_of_nonneg positive]
    · have opposite : 0 ≤ second := by
        by_contra negative
        exact absurd alternates (not_le.mpr (mul_pos_of_neg_of_neg strict (not_le.mp negative)))
      have product : 0 ≤ quotient * second := mul_nonneg positive opposite
      rw [abs_of_nonpos (by linarith), abs_of_nonpos nonpos, abs_of_nonneg opposite]
      ring

namespace Invariant

/-- One round of the loop. -/
theorem next (invariant : Invariant value modulus t newT r newR) (more : newR ≠ 0) :
    Invariant value modulus newT (t - r.tdiv newR * newT) newR (r - r.tdiv newR * newR) := by
  have positive : 0 < newR := lt_of_le_of_ne invariant.nonneg more.symm
  have above : 0 ≤ r := invariant.nonneg.trans invariant.falls.le
  have quotient : r.tdiv newR = r / newR := Int.tdiv_eq_ediv_of_nonneg above
  have remainder : r - r / newR * newR = r % newR := by
    rw [Int.emod_def, mul_comm newR]
  have counts : 0 ≤ r / newR := Int.ediv_nonneg above invariant.nonneg
  have once : 1 ≤ r / newR := (Int.le_ediv_iff_mul_le positive).mpr (by linarith [invariant.falls])
  rw [quotient]
  refine ⟨invariant.newCongruent, ?_, ?_, ?_, ?_, ?_, ?_, ?_⟩
  · rw [sub_mul, mul_assoc]
    exact invariant.congruent.sub (invariant.newCongruent.mul_left _)
  · rw [remainder]
    exact Int.emod_nonneg r more
  · rw [remainder]
    exact Int.emod_lt_of_pos r positive
  · have squares : 0 ≤ r / newR * (newT * newT) := mul_nonneg counts (mul_self_nonneg newT)
    have alternates := invariant.alternates
    nlinarith
  · rw [abs_sub_mul invariant.alternates counts]
    have least := le_mul_of_one_le_left (abs_nonneg newT) once
    linarith [abs_nonneg t]
  · rw [abs_sub_mul invariant.alternates counts, ← invariant.determinant]
    ring
  · rw [Int.gcd_sub_mul_right_right, Int.gcd_comm, invariant.divisor]

/-- When the loop ends, the remainder is the greatest common divisor. -/
theorem divisor_eq (invariant : Invariant value modulus t newT r 0) :
    r = Int.gcd modulus value := by
  have natural := invariant.divisor
  rw [Int.gcd_zero_right] at natural
  rw [← natural, Int.natAbs_of_nonneg invariant.falls.le]

/-- A factor that gives one is smaller than a modulus that is not. -/
theorem abs_lt (invariant : Invariant value modulus t newT 1 0) (proper : 1 < modulus) :
    |t| < modulus := by
  have last : |newT| = modulus := by
    have determinant := invariant.determinant
    rwa [mul_zero, zero_add, mul_one] at determinant
  apply lt_of_le_of_ne (last ▸ invariant.grows)
  intro whole
  have divides : modulus ∣ t := by
    rw [← whole]
    exact (abs_dvd t t).mpr dvd_rfl
  have zero : t * value ≡ 0 [ZMOD modulus] := Int.modEq_zero_iff_dvd.mpr (divides.mul_right value)
  have one : (1 : Int) ≡ 0 [ZMOD modulus] := invariant.congruent.symm.trans zero
  have small := Int.le_of_dvd one_pos (Int.modEq_zero_iff_dvd.mp one)
  linarith

end Invariant

end Foundation.Bezout
