import QboxPlatform.Foundation.WeightedLadder
import QboxPlatform.RseP256Ecdsa.Primes

/-!
# The group of the curve

The group that the functions on points compute in: the points of the curve over the field of `p`
elements.  The generator has the order `n`.
-/

namespace QboxPlatform.RseP256Ecdsa

open Foundation Foundation.ShortWeierstrass

instance : Fact p.toNat.Prime := ⟨p_prime⟩

instance : Fact n.toNat.Prime := ⟨n_prime⟩

abbrev Field := ZMod p.toNat

/-- The points of the curve. -/
abbrev Group := (curve (a.toNat : Field) (b.toNat : Field)).Point

theorem two_ne_zero_field : (2 : Field) ≠ 0 := by
  have nonzero : ((2 : Nat) : Field) ≠ 0 := WeightedLadder.cast_ne_zero (by decide)
  exact_mod_cast nonzero

theorem smooth : Smooth (a.toNat : Field) (b.toNat : Field) := by
  have nonzero : ((16 * (4 * a.toNat ^ 3 + 27 * b.toNat ^ 2) : Nat) : Field) ≠ 0 :=
    WeightedLadder.cast_ne_zero (by decide)
  rw [Smooth]
  exact_mod_cast nonzero

theorem generator_equation :
    (generator.y.toNat : Field) ^ 2 =
      (generator.x.toNat : Field) ^ 3 + a.toNat * generator.x.toNat + b.toNat := by
  have congruent : generator.y.toNat ^ 2 ≡
      generator.x.toNat ^ 3 + a.toNat * generator.x.toNat + b.toNat [MOD p.toNat] := by
    decide
  have cast := (ZMod.natCast_eq_natCast_iff _ _ _).mpr congruent
  exact_mod_cast cast

/-- The generator, as an element of the group. -/
def base : Group :=
  .some generator.x.toNat generator.y.toNat (nonsingular_of_equation smooth generator_equation)

theorem base_at : At base (generator.x.toNat : Field) generator.y.toNat := ⟨_, rfl⟩

/-! ### The order of the generator -/

/-- The bits of `n - 1` below the highest one, from the highest down. -/
def orderBits : List Bool :=
  (List.range 255).map fun index => (n.toNat - 1).testBit (254 - index)

/-- The ladder over the bits of `n - 1` comes to the opposite of the generator. -/
theorem ladder_orderBits :
    WeightedLadder.value orderBits 1 = n.toNat - 1 ∧
    (WeightedLadder.ladder p.toNat a.toNat generator.x.toNat generator.y.toNat orderBits
      ⟨generator.x.toNat, generator.y.toNat, 1⟩).any (fun final =>
        final.x % p.toNat == generator.x.toNat * final.z ^ 2 % p.toNat &&
          (final.y + generator.y.toNat * final.z ^ 3) % p.toNat == 0) = true := by
  decide +kernel

theorem pred_order_nsmul_base : (n.toNat - 1) • base = -base := by
  obtain ⟨final, climbed, checked⟩ := (Option.any_eq_true _ _).mp ladder_orderBits.2
  rw [Bool.and_eq_true, beq_iff_eq, beq_iff_eq] at checked
  have sameX : (final.x : Field) = generator.x.toNat * (final.z : Field) ^ 2 := by
    have cast := (ZMod.natCast_eq_natCast_iff _ _ _).mpr checked.1
    exact_mod_cast cast
  have sameY : (final.y : Field) = -generator.y.toNat * (final.z : Field) ^ 3 := by
    have cast := (ZMod.natCast_eq_zero_iff _ _).mpr (Nat.dvd_of_mod_eq_zero checked.2)
    push_cast at cast
    linear_combination cast
  have start : WeightedLadder.Stands (1 • base) ⟨generator.x.toNat, generator.y.toNat, 1⟩ := by
    rw [one_nsmul, WeightedLadder.Stands, Nat.cast_one]
    exact base_at.weighted
  have stands := WeightedLadder.stands_ladder two_ne_zero_field base_at start climbed
  rw [ladder_orderBits.1] at stands
  exact at_eq (stands.at_of_eq sameX sameY) base_at.neg

theorem order_nsmul_base : n.toNat • base = 0 := by
  have positive : n.toNat = n.toNat - 1 + 1 := (Nat.succ_pred_prime n_prime).symm
  rw [positive, succ_nsmul, pred_order_nsmul_base, neg_add_cancel]

theorem addOrderOf_base : addOrderOf base = n.toNat :=
  addOrderOf_eq_prime order_nsmul_base base_at.ne_zero

/-- Multiples of the generator depend on the scalar modulo the order. -/
theorem nsmul_base_eq_iff {first second : Nat} :
    first • base = second • base ↔ first ≡ second [MOD n.toNat] := by
  rw [nsmul_eq_nsmul_iff_modEq, addOrderOf_base]

theorem nsmul_base_ne_zero {scalar : Nat} (positive : 0 < scalar) (below : scalar < n.toNat) :
    scalar • base ≠ 0 := by
  rw [← addOrderOf_base] at below
  exact nsmul_ne_zero_of_lt_addOrderOf positive.ne' below

end QboxPlatform.RseP256Ecdsa
