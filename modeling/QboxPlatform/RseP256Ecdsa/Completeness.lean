import QboxPlatform.RseP256Ecdsa.DerSignature
import QboxPlatform.RseP256Ecdsa.PointArithmetic

/-!
# Honest signatures are accepted

A signer has a secret `d` and publishes `d` times the generator.  For every hash and every `k` the
signature is accepted, in the encodings that the parsers read.
-/

namespace QboxPlatform.RseP256Ecdsa

open Foundation Foundation.ShortWeierstrass

/-- The point of an element. -/
def coordinates : Group → Point
  | .zero => .zero
  | .some x y _ => { x := x.val, y := y.val, infinity := false }

noncomputable def publicPoint (d : Nat) : Point := coordinates (d • base)

noncomputable def signatureR (k : Nat) : Nat := (coordinates (k • base)).x.toNat % n.toNat

noncomputable def signatureS (d k e : Nat) : Nat :=
  ((k : ZMod n.toNat)⁻¹ * (e + signatureR k * d)).val

variable {point : Point} {element : Group}

theorem cast_val (x : Field) : ((x.val : Int) : Field) = x := by
  rw [Int.cast_natCast, ZMod.natCast_zmod_val]

theorem val_bounds (x : Field) : 0 ≤ (x.val : Int) ∧ (x.val : Int) < p := by
  have below : x.val < p.toNat := ZMod.val_lt x
  have same := p_eq
  omega

theorem represents_coordinates (element : Group) : Represents (coordinates element) element := by
  cases element with
  | zero => exact represents_zero
  | some x y nonsingular =>
      apply represents_of_at (val_bounds x) (val_bounds y)
      exact At.congr ⟨nonsingular, rfl⟩ (cast_val x).symm (cast_val y).symm

theorem Represents.canonical (represents : Represents point element) (finite : element ≠ 0) :
    Canonical point ∧ At element (point.x : Field) (point.y : Field) :=
  represents.resolve_left fun infinite => finite infinite.2

/-- Points of one element have one first coordinate. -/
theorem Represents.x_eq {other : Point} (represents : Represents point element)
    (again : Represents other element) (finite : element ≠ 0) : point.x = other.x := by
  obtain ⟨canonical, located⟩ := represents.canonical finite
  obtain ⟨canonical', located'⟩ := again.canonical finite
  exact eq_of_cast_eq canonical.xNonneg canonical.xBelow canonical'.xNonneg canonical'.xBelow
    (located.unique located').1

theorem length_coordinate {value : Int} (below : value < p) :
    (BigEndian.padded 32 value.toNat).length = 32 := by
  apply BigEndian.length_padded
  have bound : p ≤ 256 ^ 32 := by decide
  have positive : (0 : Int) < 256 ^ 32 := by decide
  omega

theorem pointBehind_uncompressed (canonical : Canonical point) :
    pointBehind (uncompressed point) 0 = point := by
  have first := length_coordinate canonical.xBelow
  have second := length_coordinate canonical.yBelow
  have x : ((uncompressed point).drop 1).take 32 = BigEndian.padded 32 point.x.toNat := by
    rw [uncompressed, List.drop_one, List.tail_cons, List.take_left' first]
  have y : ((uncompressed point).drop 33).take 32 = BigEndian.padded 32 point.y.toNat := by
    rw [uncompressed, List.drop_succ_cons, List.drop_left' first, List.take_of_length_le second.le]
  rw [pointBehind, Nat.zero_add, Nat.zero_add, x, y, BigEndian.number_padded,
    BigEndian.number_padded, Int.toNat_of_nonneg canonical.xNonneg,
    Int.toNat_of_nonneg canonical.yNonneg, ← canonical.affine]

/-- A canonical point is read back from its uncompressed form. -/
theorem parsePublicKeyPoint_uncompressed (canonical : Canonical point) :
    parsePublicKeyPoint (uncompressed point) = .ok point := by
  have first := length_coordinate canonical.xBelow
  have second := length_coordinate canonical.yBelow
  have size : (uncompressed point).length = 65 := by
    rw [uncompressed, List.length_cons, List.length_append, first, second]
  have behind := pointBehind_uncompressed canonical
  refine (parsePublicKeyPoint_eq_ok_iff (by omega)).mpr ⟨0, ⟨⟨by omega, rfl, ?_⟩, ?_⟩, behind.symm⟩
  · rw [behind]
    exact (isOnCurve_iff canonical.affine).mpr canonical.equation
  · exact fun j before => absurd before (Nat.not_lt_zero j)

theorem cast_mod_n (value : Int) : ((mod value n : Int) : ZMod n.toNat) = value := by
  have cast := cast_mod n_prime.pos value
  rwa [n_eq] at cast

theorem cast_toNat_mod_n (value : Int) :
    (((mod value n).toNat : Nat) : ZMod n.toNat) = (value : ZMod n.toNat) := by
  have nonneg : 0 ≤ mod value n := by
    rw [mod_eq_emod n_pos]
    exact Int.emod_nonneg value n_pos.ne'
  rw [← Int.cast_natCast, Int.toNat_of_nonneg nonneg, cast_mod_n]

theorem cast_scalar_ne_zero {scalar : Nat} (positive : 1 ≤ scalar) (below : (scalar : Int) < n) :
    (scalar : ZMod n.toNat) ≠ 0 := by
  intro zero
  have divides := (ZMod.natCast_eq_zero_iff _ _).mp zero
  have least := Nat.le_of_dvd positive divides
  have same := n_eq
  omega

variable {d k e r s : Nat}

/-- The scalars that the signature gives combine to `k`. -/
theorem scalars_congruent {u1 u2 : Int} (sRange : 1 ≤ s ∧ (s : Int) < n)
    (kRange : 1 ≤ k ∧ (k : Int) < n)
    (signed : (s : ZMod n.toNat) = (k : ZMod n.toNat)⁻¹ * (e + r * d))
    (first : (u1 : ZMod n.toNat) = e * (s : ZMod n.toNat)⁻¹)
    (second : (u2 : ZMod n.toNat) = r * (s : ZMod n.toNat)⁻¹) :
    (mod u1 n).toNat + d * (mod u2 n).toNat ≡ k [MOD n.toNat] := by
  have nonzero := cast_scalar_ne_zero sRange.1 sRange.2
  have nonzero' := cast_scalar_ne_zero kRange.1 kRange.2
  have message : (k : ZMod n.toNat) * s = e + r * d := by
    rw [signed, ← mul_assoc, mul_inv_cancel₀ nonzero', one_mul]
  apply (ZMod.natCast_eq_natCast_iff _ _ _).mp
  push_cast
  rw [cast_toNat_mod_n, cast_toNat_mod_n, first, second]
  calc (e : ZMod n.toNat) * (s : ZMod n.toNat)⁻¹ + d * (r * (s : ZMod n.toNat)⁻¹)
      = (e + r * d) * (s : ZMod n.toNat)⁻¹ := by ring
    _ = k * s * (s : ZMod n.toNat)⁻¹ := by rw [message]
    _ = k := by rw [mul_assoc, mul_inv_cancel₀ nonzero, mul_one]

theorem checkSignature_honest (represents : Represents point (d • base))
    (kRange : 1 ≤ k ∧ (k : Int) < n) (sRange : 1 ≤ s ∧ (s : Int) < n)
    (signed : (s : ZMod n.toNat) = (k : ZMod n.toNat)⁻¹ * (e + signatureR k * d)) :
    checkSignature point e (signatureR k) s = true := by
  have nonzero : ((s : Int) : ZMod n.toNat) ≠ 0 := by
    rw [Int.cast_natCast]
    exact cast_scalar_ne_zero sRange.1 sRange.2
  have inverse : ((modInverse s n : Int) : ZMod n.toNat) = (s : ZMod n.toNat)⁻¹ := by
    have cast := cast_modInverse nonzero
    rwa [n_eq, Int.cast_natCast] at cast
  have invertible : modInverse s n ≠ 0 := by
    intro zero
    rw [zero, Int.cast_zero] at inverse
    exact inv_ne_zero (Int.cast_natCast (R := ZMod n.toNat) s ▸ nonzero) inverse.symm
  have first : ((mod (e * modInverse s n) n : Int) : ZMod n.toNat) =
      e * (s : ZMod n.toNat)⁻¹ := by
    rw [cast_mod_n]
    push_cast
    rw [inverse]
  have second : ((mod (signatureR k * modInverse s n) n : Int) : ZMod n.toNat) =
      signatureR k * (s : ZMod n.toNat)⁻¹ := by
    rw [cast_mod_n]
    push_cast
    rw [inverse]
  have congruent := scalars_congruent sRange kRange signed first second
  have sum := pointAdd_represents
    (scalarMultiply_represents represents_generator (mod (e * modInverse s n) n))
    (scalarMultiply_represents represents (mod (signatureR k * modInverse s n) n))
  rw [← mul_nsmul, ← add_nsmul, nsmul_base_eq_iff.mpr congruent] at sum
  have finite : k • base ≠ 0 := nsmul_base_ne_zero kRange.1 (by have same := n_eq; omega)
  have same := sum.x_eq (represents_coordinates (k • base)) finite
  have affine := (sum.canonical finite).1.affine
  have nonneg := ((represents_coordinates (k • base)).canonical finite).1.xNonneg
  simp only [checkSignature, invertible, affine, if_false, Bool.false_eq_true, beq_iff_eq]
  rw [same, mod_eq_emod n_pos, signatureR]
  push_cast
  rw [Int.toNat_of_nonneg nonneg, n_eq]

theorem signatureR_one : signatureR 1 = generator.x.toNat % n.toNat := by
  have represents : Represents generator (1 • base) := by
    rw [one_nsmul]
    exact represents_generator
  have finite : 1 • base ≠ 0 := nsmul_base_ne_zero one_pos (by decide)
  rw [signatureR, (represents_coordinates (1 • base)).x_eq represents finite]

theorem signatureR_one_ne_zero : signatureR 1 ≠ 0 := by
  rw [signatureR_one]
  decide

theorem signatureS_one (e : Nat) :
    signatureS 1 1 e = (e + generator.x.toNat % n.toNat) % n.toNat := by
  rw [signatureS, signatureR_one, Nat.cast_one, inv_one, one_mul, mul_one, ← Nat.cast_add,
    ZMod.val_natCast]

/-- The signature of a hash by a secret is accepted with the public key. -/
theorem verify_honest (d k : Nat) (hash : List Byte) (dRange : 1 ≤ d ∧ (d : Int) < n)
    (kRange : 1 ≤ k ∧ (k : Int) < n) (sized : hash.length = 32) (rNonzero : signatureR k ≠ 0)
    (sNonzero : signatureS d k (BigEndian.number hash) ≠ 0) :
    verify (uncompressed (publicPoint d)) hash
      (derSignature (signatureR k) (signatureS d k (BigEndian.number hash))) = some true := by
  have order := n_eq
  have finite : d • base ≠ 0 := nsmul_base_ne_zero dRange.1 (by omega)
  have represents := represents_coordinates (d • base)
  have key := parsePublicKeyPoint_uncompressed (represents.canonical finite).1
  have rBelow : signatureR k < n.toNat := Nat.mod_lt _ n_prime.pos
  have sBelow : signatureS d k (BigEndian.number hash) < n.toNat := ZMod.val_lt _
  have signature := @parseEcdsaDerSignature_derSignature (signatureR k)
    (signatureS d k (BigEndian.number hash)) ⟨by omega, by omega⟩ ⟨by omega, by omega⟩
  have message : fromBe hash 0 hash.length = .ok (BigEndian.number hash : Int) := by
    rw [fromBe_eq (by omega), List.drop_zero, List.take_length]
  have signed : (signatureS d k (BigEndian.number hash) : ZMod n.toNat) =
      (k : ZMod n.toNat)⁻¹ * (BigEndian.number hash + signatureR k * d) := by
    rw [signatureS, ZMod.natCast_zmod_val]
  have checked := checkSignature_honest represents kRange
    ⟨Nat.one_le_iff_ne_zero.mpr sNonzero, by omega⟩ signed
  rw [verify, if_neg (not_not.mpr sized), publicPoint, key, ok_bind, signature, ok_bind]
  dsimp only
  rw [message, ok_bind, checked]
  rfl

/-- The secret and the number of the signature are one, and the hash is zero. -/
theorem verify_honest_sample :
    verify (uncompressed (publicPoint 1)) (List.replicate 32 0)
      (derSignature (signatureR 1) (signatureS 1 1 (BigEndian.number (List.replicate 32 0)))) =
        some true := by
  have sNonzero : signatureS 1 1 (BigEndian.number (List.replicate 32 0)) ≠ 0 := by
    rw [BigEndian.number_replicate_zero, signatureS_one]
    decide
  exact verify_honest 1 1 (List.replicate 32 0) (by decide) (by decide) (by decide)
    signatureR_one_ne_zero sNonzero

end QboxPlatform.RseP256Ecdsa
