import QboxPlatform.RseP256Ecdsa.Group
import QboxPlatform.RseP256Ecdsa.PublicKey

/-!
# Points and elements of the group

The functions on points compute in the group: doubling, adding and multiplying canonical points
gives canonical points that represent the double, the sum and the multiple.
-/

namespace QboxPlatform.RseP256Ecdsa

open Foundation Foundation.ShortWeierstrass

theorem p_eq : ((p.toNat : Nat) : Int) = p := by decide

theorem n_eq : ((n.toNat : Nat) : Int) = n := by decide

theorem n_pos : 0 < n := by decide

theorem cast_mod {modulus : Nat} (positive : 0 < modulus) (value : Int) :
    ((mod value modulus : Int) : ZMod modulus) = value := by
  rw [mod_eq_emod (by exact_mod_cast positive), ZMod.intCast_mod]

theorem cast_mod_p (value : Int) : ((mod value p : Int) : Field) = value := by
  have cast := cast_mod p_prime.pos value
  rwa [p_eq] at cast

theorem mod_p_bounds (value : Int) : 0 ≤ mod value p ∧ mod value p < p := by
  rw [mod_eq_emod p_pos]
  exact ⟨Int.emod_nonneg value p_pos.ne', Int.emod_lt_of_pos value p_pos⟩

theorem cast_toNat {value : Int} (nonneg : 0 ≤ value) :
    ((value.toNat : Nat) : Field) = (value : Field) := by
  rw [← Int.cast_natCast, Int.toNat_of_nonneg nonneg]

/-- Residues that are equal in the field are equal. -/
theorem eq_of_cast_eq {first second : Int} (firstNonneg : 0 ≤ first) (firstBelow : first < p)
    (secondNonneg : 0 ≤ second) (secondBelow : second < p)
    (same : (first : Field) = (second : Field)) : first = second := by
  have congruent := (ZMod.intCast_eq_intCast_iff _ _ _).mp same
  rw [p_eq] at congruent
  have equal : first % p = second % p := congruent
  rwa [Int.emod_eq_of_lt firstNonneg firstBelow, Int.emod_eq_of_lt secondNonneg secondBelow]
    at equal

/-- The rounds are enough, and keep what holds of the variables. -/
theorem Euclid.run_spec {value modulus : Int} {rounds : Nat} {state : Euclid}
    (invariant : Bezout.Invariant value modulus state.t state.newT state.r state.newR)
    (enough : state.newR < rounds) :
    (Euclid.run rounds state).newR = 0 ∧
      Bezout.Invariant value modulus (Euclid.run rounds state).t (Euclid.run rounds state).newT
        (Euclid.run rounds state).r (Euclid.run rounds state).newR := by
  induction rounds generalizing state with
  | zero => exact absurd invariant.nonneg (not_le.mpr enough)
  | succ rounds inductionHypothesis =>
      rw [Euclid.run]
      split_ifs with ends
      · exact ⟨ends, invariant⟩
      · have next : Bezout.Invariant value modulus state.next.t state.next.newT state.next.r
            state.next.newR := invariant.next ends
        apply inductionHypothesis next
        have falls : state.next.newR < state.newR := next.falls
        push_cast at enough
        omega

theorem modInverse_congruent {value modulus : Int} (proper : 1 < modulus)
    (coprime : Int.gcd value modulus = 1) :
    modInverse value modulus * value ≡ 1 [ZMOD modulus] := by
  have positive : 0 < modulus := one_pos.trans proper
  have starts : Bezout.Invariant (value % modulus) modulus 0 1 modulus (value % modulus) :=
    .start (Int.emod_nonneg value positive.ne') (Int.emod_lt_of_pos value positive)
  have enough : value % modulus < ((modulus.toNat + 1 : Nat) : Int) := by
    have below := Int.emod_lt_of_pos value positive
    omega
  obtain ⟨ends, last⟩ :=
    @Euclid.run_spec _ _ _ ⟨0, 1, modulus, value % modulus⟩ starts enough
  rw [ends] at last
  have divisor : (Euclid.run (modulus.toNat + 1) ⟨0, 1, modulus, value % modulus⟩).r = 1 := by
    rw [last.divisor_eq, Int.gcd_comm, Int.emod_def, Int.gcd_sub_mul_left_left, coprime]
    rfl
  have congruent := last.congruent
  rw [divisor] at congruent
  simp only [modInverse, mod_eq_emod positive, divisor, ne_eq, not_true_eq_false, if_false]
  exact (((Int.mod_modEq _ modulus).mul (Int.mod_modEq value modulus).symm)).trans congruent

theorem cast_modInverse {prime : Nat} [Fact prime.Prime] {value : Int}
    (nonzero : (value : ZMod prime) ≠ 0) :
    ((modInverse value prime : Int) : ZMod prime) = (value : ZMod prime)⁻¹ := by
  have isPrime : prime.Prime := Fact.out
  have coprime : Int.gcd value prime = 1 := by
    rw [Int.gcd_comm, Int.gcd, Int.natAbs_natCast, ← Nat.coprime_iff_gcd_eq_one,
      isPrime.coprime_iff_not_dvd]
    intro divides
    exact nonzero ((ZMod.intCast_zmod_eq_zero_iff_dvd value prime).mpr
      (Int.natCast_dvd.mpr divides))
  have congruent := modInverse_congruent (by exact_mod_cast isPrime.one_lt) coprime
  have cast := (ZMod.intCast_eq_intCast_iff _ _ _).mpr congruent
  push_cast at cast
  exact eq_inv_of_mul_eq_one_left cast

theorem cast_modInverse_p {value : Int} (nonzero : (value : Field) ≠ 0) :
    ((modInverse value p : Int) : Field) = (value : Field)⁻¹ := by
  have cast := cast_modInverse nonzero
  rwa [p_eq] at cast

/-- The point stands for the element of the group. -/
def Represents (point : Point) (element : Group) : Prop :=
  (point.infinity = true ∧ element = 0) ∨
    (Canonical point ∧ At element (point.x : Field) (point.y : Field))

variable {point lhs rhs : Point} {element first second : Group}

theorem represents_zero : Represents .zero 0 := .inl ⟨rfl, rfl⟩

theorem a_eq : ((a.toNat : Nat) : Field) = (a : Field) := cast_toNat (by decide)

theorem b_eq : ((b.toNat : Nat) : Field) = (b : Field) := cast_toNat (by decide)

/-- Residues that are the coordinates of an element are a canonical point. -/
theorem represents_of_at {x y : Int} (xBounds : 0 ≤ x ∧ x < p) (yBounds : 0 ≤ y ∧ y < p)
    (located : At element (x : Field) (y : Field)) : Represents ⟨x, y, false⟩ element := by
  right
  refine ⟨⟨rfl, xBounds.1, xBounds.2, yBounds.1, yBounds.2, ?_⟩, located⟩
  have equation := located.equation
  rw [a_eq, b_eq] at equation
  rw [← p_eq]
  apply (ZMod.intCast_eq_intCast_iff _ _ _).mp
  push_cast
  linear_combination equation

theorem represents_generator : Represents generator base := by
  apply represents_of_at (by decide) (by decide)
  exact base_at.congr (cast_toNat (by decide)) (cast_toNat (by decide))

theorem pointDouble_represents (represents : Represents point element) :
    Represents (pointDouble point) (2 • element) := by
  rcases represents with ⟨infinite, rfl⟩ | ⟨canonical, located⟩
  · rw [pointDouble, infinite, Bool.true_or, if_pos rfl, nsmul_zero]
    exact represents_zero
  · by_cases flat : point.y = 0
    · have opposite : (point.y : Field) + point.y = 0 := by
        rw [flat]
        simp
      rw [pointDouble, flat, beq_self_eq_true, Bool.or_true, if_pos rfl, two_nsmul,
        located.add_eq_zero located opposite]
      exact represents_zero
    · have nonzero : (point.y : Field) ≠ 0 := by
        intro zero
        apply flat
        exact eq_of_cast_eq canonical.yNonneg canonical.yBelow le_rfl p_pos (by simpa using zero)
      have upright : (2 : Field) * point.y ≠ 0 := mul_ne_zero two_ne_zero_field nonzero
      have inverse : ((modInverse (2 * point.y) p : Int) : Field) = (2 * (point.y : Field))⁻¹ := by
        rw [cast_modInverse_p (by push_cast; exact upright)]
        push_cast
        rfl
      have tangent : ((mod ((3 * point.x * point.x + a) * modInverse (2 * point.y) p) p : Int) :
          Field) * (2 * point.y) = 3 * (point.x : Field) ^ 2 + (a.toNat : Field) := by
        rw [cast_mod_p, a_eq]
        push_cast
        rw [inverse, mul_assoc, inv_mul_cancel₀ upright]
        ring
      have finite : (point.infinity || point.y == 0) = false := by
        rw [canonical.affine, Bool.false_or, beq_eq_false_iff_ne]
        exact flat
      rw [pointDouble, finite, if_neg Bool.false_ne_true]
      generalize mod ((3 * point.x * point.x + a) * modInverse (2 * point.y) p) p = slope at tangent
      have newX : ((mod (slope * slope - 2 * point.x) p : Int) : Field) =
          (slope : Field) ^ 2 - 2 * point.x := by
        rw [cast_mod_p]
        push_cast
        ring
      apply represents_of_at (mod_p_bounds _) (mod_p_bounds _)
      apply (located.double upright tangent).congr newX.symm
      rw [cast_mod_p]
      push_cast
      rw [newX]

theorem pointAdd_represents (one : Represents lhs first) (other : Represents rhs second) :
    Represents (pointAdd lhs rhs) (first + second) := by
  rcases one with ⟨infinite, rfl⟩ | ⟨canonical, located⟩
  · rw [pointAdd, if_pos infinite, zero_add]
    exact other
  · rw [pointAdd, canonical.affine, if_neg Bool.false_ne_true]
    rcases other with ⟨infinite, rfl⟩ | ⟨canonical', located'⟩
    · rw [if_pos infinite, add_zero]
      exact .inr ⟨canonical, located⟩
    · rw [canonical'.affine, if_neg Bool.false_ne_true]
      by_cases level : lhs.x = rhs.x
      · have above : At second (lhs.x : Field) (rhs.y : Field) := by
          rw [level]
          exact located'
        have sum : mod (lhs.y + rhs.y) p = 0 ↔ (lhs.y : Field) + rhs.y = 0 := by
          have cast := cast_mod_p (lhs.y + rhs.y)
          push_cast at cast
          rw [← cast]
          have bounds := mod_p_bounds (lhs.y + rhs.y)
          refine ⟨fun zero => by rw [zero, Int.cast_zero], fun zero => ?_⟩
          exact eq_of_cast_eq bounds.1 bounds.2 le_rfl p_pos (by simpa using zero)
        rw [if_pos level]
        by_cases opposite : mod (lhs.y + rhs.y) p = 0
        · rw [if_pos opposite, located.add_eq_zero above (sum.mp opposite)]
          exact represents_zero
        · have sameY := located.eq_of_add_ne_zero above (mt sum.mpr opposite)
          have same : first = second := at_eq located (sameY ▸ above)
          rw [if_neg opposite, ← same, ← two_nsmul]
          exact pointDouble_represents (.inr ⟨canonical, located⟩)
      · have apart : (lhs.x : Field) ≠ rhs.x := fun same =>
          level (eq_of_cast_eq canonical.xNonneg canonical.xBelow canonical'.xNonneg
            canonical'.xBelow same)
        have difference : (rhs.x : Field) - lhs.x ≠ 0 := sub_ne_zero.mpr apart.symm
        have inverse : ((modInverse (rhs.x - lhs.x) p : Int) : Field) =
            ((rhs.x : Field) - lhs.x)⁻¹ := by
          rw [cast_modInverse_p (by push_cast; exact difference)]
          push_cast
          rfl
        have chord : ((mod ((rhs.y - lhs.y) * modInverse (rhs.x - lhs.x) p) p : Int) : Field) *
            (rhs.x - lhs.x) = rhs.y - lhs.y := by
          rw [cast_mod_p]
          push_cast
          rw [inverse, mul_assoc, inv_mul_cancel₀ difference, mul_one]
        rw [if_neg level]
        generalize mod ((rhs.y - lhs.y) * modInverse (rhs.x - lhs.x) p) p = slope at chord
        have newX : ((mod (slope * slope - lhs.x - rhs.x) p : Int) : Field) =
            (slope : Field) ^ 2 - lhs.x - rhs.x := by
          rw [cast_mod_p]
          push_cast
          ring
        apply represents_of_at (mod_p_bounds _) (mod_p_bounds _)
        apply (located.add located' apart chord).congr newX.symm
        rw [cast_mod_p]
        push_cast
        rw [newX]

/-- What is left of the scalar multiplies the point. -/
theorem multiplyLoop_represents {rounds scalar : Nat} (enough : scalar ≤ rounds)
    (result : Represents lhs first) (doubles : Represents point element) :
    Represents (multiplyLoop rounds scalar lhs point) (first + scalar • element) := by
  induction rounds generalizing scalar lhs point first element with
  | zero =>
      rw [Nat.le_zero.mp enough, zero_nsmul, add_zero]
      exact result
  | succ rounds inductionHypothesis =>
      rw [multiplyLoop]
      by_cases zero : scalar = 0
      · rw [if_pos zero, zero, zero_nsmul, add_zero]
        exact result
      · rw [if_neg zero]
        have halved : scalar >>> 1 = scalar / 2 := Nat.shiftRight_one scalar
        have parity : scalar &&& 1 = scalar % 2 := Nat.and_one_is_mod scalar
        have added : Represents (if scalar &&& 1 ≠ 0 then pointAdd lhs point else lhs)
            (first + (scalar % 2) • element) := by
          rw [parity]
          rcases Nat.mod_two_eq_zero_or_one scalar with even | odd
          · rw [even, if_neg (not_not.mpr rfl), zero_nsmul, add_zero]
            exact result
          · rw [odd, if_pos one_ne_zero, one_nsmul]
            exact pointAdd_represents result doubles
        have total : first + scalar • element =
            first + (scalar % 2) • element + (scalar / 2) • (2 • element) := by
          rw [add_assoc, ← mul_nsmul', ← add_nsmul, Nat.mul_comm, Nat.mod_add_div]
        rw [total]
        dsimp only
        rw [halved]
        by_cases last : scalar / 2 = 0
        · rw [if_neg (not_not.mpr last), last, zero_nsmul, add_zero]
          have stops := inductionHypothesis (Nat.zero_le _) added doubles
          rwa [zero_nsmul, add_zero] at stops
        · rw [if_pos last]
          exact inductionHypothesis (by omega) added (pointDouble_represents doubles)

theorem scalarMultiply_represents (represents : Represents point element) (scalar : Int) :
    Represents (scalarMultiply point scalar) ((mod scalar n).toNat • element) := by
  have multiple := multiplyLoop_represents (le_refl (mod scalar n).toNat) represents_zero
    represents
  rwa [zero_add] at multiple

end QboxPlatform.RseP256Ecdsa
