import Mathlib

/-!
# Signatures over a group of prime order

ECDSA with an arbitrary group in the place of the curve.  A number is read off every element of the
group, the same one off an element and its opposite.
-/

namespace Foundation.Ecdsa

universe u

variable {G : Type u} [AddCommGroup G] {n : Nat}

structure Scheme (G : Type u) [AddCommGroup G] (n : Nat) where
  base : G
  coordinate : G → ZMod n
  order : addOrderOf base = n
  coordinate_neg : ∀ element, coordinate (-element) = coordinate element

namespace Scheme

variable (scheme : Scheme G n)

/-- The element of the group that a verifier computes. -/
def combined (key : G) (e r s : ZMod n) : G :=
  (e * s⁻¹).val • scheme.base + (r * s⁻¹).val • key

def Accepts (key : G) (e r s : ZMod n) : Prop :=
  scheme.combined key e r s ≠ 0 ∧ scheme.coordinate (scheme.combined key e r s) = r

/-- The signature of `e` with the secret `d` and the number `k` that is used once. -/
structure Signs (d k e r s : ZMod n) : Prop where
  nonzero : k ≠ 0
  first : r = scheme.coordinate (k.val • scheme.base)
  second : s = k⁻¹ * (e + r * d)

variable {scheme} {d k e r s : ZMod n}

theorem val_nsmul_eq_zero_iff [NeZero n] : k.val • scheme.base = 0 ↔ k = 0 := by
  rw [← addOrderOf_dvd_iff_nsmul_eq_zero, scheme.order, ← ZMod.natCast_eq_zero_iff,
    ZMod.natCast_zmod_val]

theorem nsmul_val_eq [NeZero n] {first second : Nat} (same : (first : ZMod n) = second) :
    first • scheme.base = second • scheme.base := by
  rw [nsmul_eq_nsmul_iff_modEq, scheme.order]
  exact (ZMod.natCast_eq_natCast_iff _ _ _).mp same

/-- With the key of a secret the verifier comes to one multiple of the base. -/
theorem combined_eq [NeZero n] :
    scheme.combined (d.val • scheme.base) e r s = ((e + r * d) * s⁻¹).val • scheme.base := by
  rw [combined, ← mul_nsmul', ← add_nsmul]
  apply nsmul_val_eq
  push_cast
  simp only [ZMod.natCast_zmod_val]
  ring

theorem neg_val_nsmul [NeZero n] : (-k).val • scheme.base = -(k.val • scheme.base) := by
  apply eq_neg_of_add_eq_zero_left
  rw [← add_nsmul, ← addOrderOf_dvd_iff_nsmul_eq_zero, scheme.order, ← ZMod.natCast_eq_zero_iff]
  push_cast
  rw [ZMod.natCast_zmod_val, ZMod.natCast_zmod_val, neg_add_cancel]

variable [Fact n.Prime]

/-- What is accepted with the key of a secret is a signature with that secret. -/
theorem accepts_iff_signs (nonzero : s ≠ 0) :
    scheme.Accepts (d.val • scheme.base) e r s ↔ ∃ k, scheme.Signs d k e r s := by
  rw [Accepts, combined_eq, Ne, val_nsmul_eq_zero_iff]
  constructor
  · rintro ⟨proper, same⟩
    refine ⟨(e + r * d) * s⁻¹, proper, same.symm, ?_⟩
    have message : e + r * d ≠ 0 := fun zero => proper (by rw [zero, zero_mul])
    rw [mul_inv, inv_inv, mul_comm, mul_inv_cancel_left₀ message]
  · rintro ⟨k, proper, first, second⟩
    have message : e + r * d ≠ 0 := by
      intro zero
      rw [zero, mul_zero] at second
      exact nonzero second
    have same : (e + r * d) * s⁻¹ = k := by
      rw [second, mul_inv, inv_inv, mul_comm, mul_assoc, inv_mul_cancel₀ message, mul_one]
    rw [same]
    exact ⟨proper, first.symm⟩

/-- The opposite numbers sign as well. -/
theorem Signs.neg (signs : scheme.Signs d k e r s) :
    scheme.Signs d (-k) e r (-s) := by
  refine ⟨neg_ne_zero.mpr signs.nonzero, ?_, ?_⟩
  · rw [neg_val_nsmul, scheme.coordinate_neg]
    exact signs.first
  · rw [signs.second, inv_neg, neg_mul]

/-- A signature is as good as the one with the opposite second number. -/
theorem accepts_neg_iff (nonzero : s ≠ 0) :
    scheme.Accepts (d.val • scheme.base) e r (-s) ↔
      scheme.Accepts (d.val • scheme.base) e r s := by
  rw [accepts_iff_signs (neg_ne_zero.mpr nonzero), accepts_iff_signs nonzero]
  constructor
  · rintro ⟨k, signs⟩
    exact ⟨-k, neg_neg s ▸ signs.neg⟩
  · rintro ⟨k, signs⟩
    exact ⟨-k, signs.neg⟩

end Scheme

end Foundation.Ecdsa
