import QboxPlatform.Foundation.Ecdsa
import QboxPlatform.RseP256Ecdsa.Completeness

/-!
# What is accepted

Verification decides the equation of the scheme over the group of the curve.  With the key of a
secret it accepts the signatures that are made with that secret, and no others.
-/

namespace QboxPlatform.RseP256Ecdsa

open Foundation Foundation.ShortWeierstrass Foundation.Ecdsa

theorem coordinates_neg_x (element : Group) :
    (coordinates (-element)).x = (coordinates element).x := by
  by_cases zero : element = 0
  · rw [zero, neg_zero]
  · obtain ⟨-, located⟩ := (represents_coordinates element).canonical zero
    obtain ⟨canonical, located'⟩ :=
      (represents_coordinates (-element)).canonical (neg_ne_zero.mpr zero)
    obtain ⟨canonical'', -⟩ := (represents_coordinates element).canonical zero
    exact eq_of_cast_eq canonical.xNonneg canonical.xBelow canonical''.xNonneg canonical''.xBelow
      (located'.unique located.neg).1

/-- The scheme of the curve: the number of an element is its first coordinate modulo `n`. -/
noncomputable def scheme : Scheme Group n.toNat where
  base := base
  coordinate element := ((coordinates element).x : ZMod n.toNat)
  order := addOrderOf_base
  coordinate_neg element := by rw [coordinates_neg_x]

variable {point : Point} {element : Group} {e r s : Int}

theorem toNat_mod_n (value : Int) : (mod value n).toNat = (value : ZMod n.toNat).val := by
  have residue := ZMod.val_intCast (n := n.toNat) value
  rw [n_eq] at residue
  rw [mod_eq_emod n_pos, ← residue, Int.toNat_natCast]

theorem mod_n_eq_iff (value : Int) (range : 1 ≤ r ∧ r < n) :
    mod value n = r ↔ (value : ZMod n.toNat) = (r : ZMod n.toNat) := by
  rw [mod_eq_emod n_pos, ZMod.intCast_eq_intCast_iff, n_eq, Int.ModEq,
    Int.emod_eq_of_lt (by omega : 0 ≤ r) range.2]

theorem cast_ne_zero_of_range (range : 1 ≤ s ∧ s < n) : (s : ZMod n.toNat) ≠ 0 := by
  have natural : ((s.toNat : Nat) : Int) = s := Int.toNat_of_nonneg (by omega)
  have nonzero := @cast_scalar_ne_zero s.toNat (by omega) (by omega)
  rwa [← Int.cast_natCast, natural] at nonzero

theorem cast_modInverse_n (range : 1 ≤ s ∧ s < n) :
    ((modInverse s n : Int) : ZMod n.toNat) = (s : ZMod n.toNat)⁻¹ := by
  have cast := cast_modInverse (cast_ne_zero_of_range range)
  rwa [n_eq] at cast

/-- The check of a signature decides the equation of the scheme. -/
theorem checkSignature_iff (represents : Represents point element) (rRange : 1 ≤ r ∧ r < n)
    (sRange : 1 ≤ s ∧ s < n) :
    checkSignature point e r s = true ↔ scheme.Accepts element e r s := by
  have inverse := cast_modInverse_n sRange
  have invertible : modInverse s n ≠ 0 := by
    intro zero
    rw [zero, Int.cast_zero] at inverse
    exact inv_ne_zero (cast_ne_zero_of_range sRange) inverse.symm
  have first : (mod (mod (e * modInverse s n) n) n).toNat =
      ((e : ZMod n.toNat) * (s : ZMod n.toNat)⁻¹).val := by
    rw [toNat_mod_n, cast_mod_n]
    push_cast
    rw [inverse]
  have second : (mod (mod (r * modInverse s n) n) n).toNat =
      ((r : ZMod n.toNat) * (s : ZMod n.toNat)⁻¹).val := by
    rw [toNat_mod_n, cast_mod_n]
    push_cast
    rw [inverse]
  have sum := pointAdd_represents
    (scalarMultiply_represents represents_generator (mod (e * modInverse s n) n))
    (scalarMultiply_represents represents (mod (r * modInverse s n) n))
  rw [first, second] at sum
  change Represents _ (scheme.combined element e r s) at sum
  simp only [checkSignature, invertible, if_false, Scheme.Accepts]
  generalize pointAdd (scalarMultiply generator (mod (e * modInverse s n) n))
    (scalarMultiply point (mod (r * modInverse s n) n)) = found at sum
  by_cases zero : scheme.combined element e r s = 0
  · have infinite : found.infinity = true := by
      rcases sum with ⟨infinite, -⟩ | ⟨-, located⟩
      · exact infinite
      · exact absurd zero located.ne_zero
    simp [infinite, zero]
  · obtain ⟨canonical, -⟩ := sum.canonical zero
    have same := sum.x_eq (represents_coordinates (scheme.combined element e r s)) zero
    rw [canonical.affine, if_neg Bool.false_ne_true, beq_iff_eq, same, mod_n_eq_iff _ rRange]
    exact (and_iff_right zero).symm

/-- Canonical points are the points of elements of the group. -/
theorem exists_represents (affine : point.infinity = false) (onCurve : isOnCurve point = true)
    (xRange : 0 ≤ point.x ∧ point.x < p) (yRange : 0 ≤ point.y ∧ point.y < p) :
    ∃ element, Represents point element := by
  have congruent := (isOnCurve_iff affine).mp onCurve
  have canonical : Canonical point :=
    ⟨affine, xRange.1, xRange.2, yRange.1, yRange.2, congruent⟩
  rw [← p_eq] at congruent
  have equal := (ZMod.intCast_eq_intCast_iff _ _ _).mpr congruent
  push_cast at equal
  have equation : (point.y : Field) ^ 2 =
      (point.x : Field) ^ 3 + (a.toNat : Field) * point.x + (b.toNat : Field) := by
    rw [a_eq, b_eq]
    linear_combination equal
  exact ⟨.some _ _ (nonsingular_of_equation smooth equation), .inr ⟨canonical, _, rfl⟩⟩

variable {publicKey hash signature : List Byte}

theorem verify_eq_true_iff (parsed : parsePublicKeyPoint publicKey = .ok point) :
    verify publicKey hash signature = some true ↔
      hash.length = 32 ∧ ∃ r s, parseEcdsaDerSignature signature = .ok (r, s) ∧
        checkSignature point (BigEndian.number hash) r s = true := by
  by_cases sized : hash.length = 32
  · have message : fromBe hash 0 hash.length = .ok (BigEndian.number hash : Int) := by
      rw [fromBe_eq (by omega), List.drop_zero, List.take_length]
    rw [verify, if_neg (not_not.mpr sized), parsed, ok_bind]
    cases read : parseEcdsaDerSignature signature with
    | error failure =>
        refine iff_of_false ?_ (by simp)
        cases failure with
        | rejected => exact fun accepted => Bool.false_ne_true (Option.some.inj accepted)
        | outOfBounds => exact fun accepted => Option.some_ne_none _ accepted.symm
    | ok numbers =>
        obtain ⟨r, s⟩ := numbers
        rw [ok_bind]
        dsimp only
        rw [message, ok_bind]
        simp [sized, pure, Except.pure]
  · rw [verify, if_pos sized]
    simp [sized]

/-- Verification with the key of an element decides the equation of the scheme. -/
theorem verify_iff_accepts (parsed : parsePublicKeyPoint publicKey = .ok point)
    (represents : Represents point element) (addressable : signature.length < 2 ^ 64) :
    verify publicKey hash signature = some true ↔
      hash.length = 32 ∧ ∃ r s : Int, parseEcdsaDerSignature signature = .ok (r, s) ∧
        scheme.Accepts element (BigEndian.number hash) r s := by
  rw [verify_eq_true_iff parsed]
  refine and_congr_right fun _ => exists_congr fun r => exists_congr fun s => ?_
  refine and_congr_right fun read => ?_
  obtain ⟨-, rLow, rHigh, sLow, sHigh⟩ := encoding_of_parseEcdsaDerSignature addressable read
  rw [checkSignature_iff represents ⟨rLow, rHigh⟩ ⟨sLow, sHigh⟩]
  push_cast
  rfl

/-- A key whose coordinates are residues names an element of the group, and verification with it
decides the equation of the scheme for the two numbers of the signature. -/
theorem verify_decides (publicKey : List Byte) (keyAddressable : publicKey.length < 2 ^ 64)
    (point : Point) (parsed : parsePublicKeyPoint publicKey = .ok point) (xBelow : point.x < p)
    (yBelow : point.y < p) :
    ∃ element : Group, At element (point.x : Field) (point.y : Field) ∧
      ∀ hash signature : List Byte, signature.length < 2 ^ 64 →
        (verify publicKey hash signature = some true ↔
          hash.length = 32 ∧ ∃ r s : Int, parseEcdsaDerSignature signature = .ok (r, s) ∧
            scheme.Accepts element (BigEndian.number hash) r s) := by
  obtain ⟨i, ⟨⟨inside, marked, onCurve⟩, -⟩, rfl⟩ :=
    (parsePublicKeyPoint_eq_ok_iff keyAddressable).mp parsed
  obtain ⟨element, represents⟩ := exists_represents rfl onCurve
    ⟨Int.natCast_nonneg _, xBelow⟩ ⟨Int.natCast_nonneg _, yBelow⟩
  have located : At element ((pointBehind publicKey i).x : Field)
      ((pointBehind publicKey i).y : Field) := by
    rcases represents with ⟨infinite, -⟩ | ⟨-, located⟩
    · cases infinite
    · exact located
  exact ⟨element, located, fun hash signature => verify_iff_accepts parsed represents⟩

theorem verify_decides_generator :
    ∃ element : Group, At element (generator.x : Field) (generator.y : Field) ∧
      ∀ hash signature : List Byte, signature.length < 2 ^ 64 →
        (verify (uncompressed generator) hash signature = some true ↔
          hash.length = 32 ∧ ∃ r s : Int, parseEcdsaDerSignature signature = .ok (r, s) ∧
            scheme.Accepts element (BigEndian.number hash) r s) :=
  verify_decides (uncompressed generator) (by decide) generator
    (parsePublicKeyPoint_uncompressed (represents_generator.canonical base_at.ne_zero).1)
    (by decide) (by decide)

section Secret

variable {d : Nat}

theorem parsePublicKeyPoint_publicPoint (dRange : 1 ≤ d ∧ (d : Int) < n) :
    parsePublicKeyPoint (uncompressed (publicPoint d)) = .ok (publicPoint d) := by
  have order := n_eq
  have finite : d • base ≠ 0 := nsmul_base_ne_zero dRange.1 (by omega)
  exact parsePublicKeyPoint_uncompressed ((represents_coordinates (d • base)).canonical finite).1

theorem val_natCast (dRange : 1 ≤ d ∧ (d : Int) < n) : ((d : ZMod n.toNat)).val = d := by
  have order := n_eq
  exact ZMod.val_natCast_of_lt (by omega)

theorem cast_signatureR (k : Nat) :
    (signatureR k : ZMod n.toNat) = scheme.coordinate (k • base) := by
  have nonneg : 0 ≤ (coordinates (k • base)).x := by
    rcases represents_coordinates (k • base) with ⟨-, zero⟩ | ⟨canonical, -⟩
    · rw [zero]
      exact le_rfl
    · exact canonical.xNonneg
  rw [signatureR, ZMod.natCast_mod, ← Int.cast_natCast, Int.toNat_of_nonneg nonneg]
  rfl

theorem cast_signatureS (k e : Nat) :
    (signatureS d k e : ZMod n.toNat) = (k : ZMod n.toNat)⁻¹ * (e + signatureR k * d) := by
  rw [signatureS, ZMod.natCast_zmod_val]

/-- Numbers of the range are determined by their residues. -/
theorem eq_of_cast_n_eq {value : Nat} (range : 1 ≤ r ∧ r < n) (below : value < n.toNat)
    (same : (r : ZMod n.toNat) = value) : r = value := by
  have order := n_eq
  have congruent :=
    (ZMod.intCast_eq_intCast_iff r (value : Int) n.toNat).mp (by exact_mod_cast same)
  rw [Int.ModEq, n_eq, Int.emod_eq_of_lt (by omega) range.2,
    Int.emod_eq_of_lt (by omega) (by omega)] at congruent
  exact congruent

/-- The signatures of the scheme are those of the signer. -/
theorem signs_iff {e : Nat} (rRange : 1 ≤ r ∧ r < n) (sRange : 1 ≤ s ∧ s < n) :
    (∃ k, scheme.Signs d k e r s) ↔
      ∃ k : Nat, 1 ≤ k ∧ (k : Int) < n ∧ r = signatureR k ∧ s = signatureS d k e := by
  have order := n_eq
  constructor
  · rintro ⟨k, nonzero, first, second⟩
    have below : k.val < n.toNat := ZMod.val_lt k
    have positive : k.val ≠ 0 := (ZMod.val_ne_zero k).mpr nonzero
    have sameR : r = signatureR k.val := by
      have residue : signatureR k.val < n.toNat := Nat.mod_lt _ n_prime.pos
      refine eq_of_cast_n_eq rRange residue ?_
      rw [cast_signatureR]
      exact first
    refine ⟨k.val, Nat.one_le_iff_ne_zero.mpr positive, by omega, sameR, ?_⟩
    have residue : signatureS d k.val e < n.toNat := ZMod.val_lt _
    refine eq_of_cast_n_eq sRange residue ?_
    rw [cast_signatureS, second, sameR, ZMod.natCast_zmod_val, Int.cast_natCast]
  · rintro ⟨k, positive, below, rfl, rfl⟩
    refine ⟨k, cast_scalar_ne_zero positive below, ?_, ?_⟩
    · rw [Int.cast_natCast, cast_signatureR, val_natCast ⟨positive, below⟩]
      rfl
    · rw [Int.cast_natCast, cast_signatureS, Int.cast_natCast]

theorem represents_publicPoint (dRange : 1 ≤ d ∧ (d : Int) < n) :
    Represents (publicPoint d) ((d : ZMod n.toNat).val • scheme.base) := by
  rw [val_natCast dRange]
  exact represents_coordinates (d • base)

/-- With the key of a secret exactly the signatures of the hash with that secret are accepted. -/
theorem verify_iff_signed (d : Nat) (dRange : 1 ≤ d ∧ (d : Int) < n) (hash signature : List Byte)
    (addressable : signature.length < 2 ^ 64) :
    verify (uncompressed (publicPoint d)) hash signature = some true ↔
      hash.length = 32 ∧ ∃ k : Nat, 1 ≤ k ∧ (k : Int) < n ∧
        parseEcdsaDerSignature signature =
          .ok ((signatureR k : Int), (signatureS d k (BigEndian.number hash) : Int)) := by
  rw [verify_iff_accepts (parsePublicKeyPoint_publicPoint dRange) (represents_publicPoint dRange)
    addressable]
  refine and_congr_right fun _ => ?_
  constructor
  · rintro ⟨r, s, read, accepts⟩
    obtain ⟨-, rLow, rHigh, sLow, sHigh⟩ := encoding_of_parseEcdsaDerSignature addressable read
    have signs := (Scheme.accepts_iff_signs (cast_ne_zero_of_range ⟨sLow, sHigh⟩)).mp accepts
    obtain ⟨k, positive, below, rfl, rfl⟩ := (signs_iff ⟨rLow, rHigh⟩ ⟨sLow, sHigh⟩).mp signs
    exact ⟨k, positive, below, read⟩
  · rintro ⟨k, positive, below, read⟩
    obtain ⟨-, rLow, rHigh, sLow, sHigh⟩ := encoding_of_parseEcdsaDerSignature addressable read
    refine ⟨_, _, read, (Scheme.accepts_iff_signs (cast_ne_zero_of_range ⟨sLow, sHigh⟩)).mpr ?_⟩
    exact (signs_iff ⟨rLow, rHigh⟩ ⟨sLow, sHigh⟩).mpr ⟨k, positive, below, rfl, rfl⟩

theorem signatureR_one_range : 1 ≤ signatureR 1 ∧ (signatureR 1 : Int) < n := by
  have order := n_eq
  have nonzero := signatureR_one_ne_zero
  have below : signatureR 1 < n.toNat := Nat.mod_lt _ n_prime.pos
  omega

theorem signatureS_one_range : 1 ≤ signatureS 1 1 1 ∧ (signatureS 1 1 1 : Int) < n := by
  rw [signatureS_one]
  decide

/-- The secret and the number of the signature are one, and so is the hash. -/
theorem verify_iff_signed_sample :
    verify (uncompressed (publicPoint 1)) (BigEndian.padded 32 1)
      (derSignature (signatureR 1) (signatureS 1 1 1)) = some true := by
  have short := length_derSignature_le signatureR_one_range.2 signatureS_one_range.2
  refine (verify_iff_signed 1 (by decide) _ _ (by omega)).mpr
    ⟨BigEndian.length_padded (by decide), 1, by decide, by decide, ?_⟩
  rw [BigEndian.number_padded]
  exact parseEcdsaDerSignature_derSignature signatureR_one_range signatureS_one_range

/-- The check of a signature in its DER form. -/
theorem verify_derSignature_iff (dRange : 1 ≤ d ∧ (d : Int) < n) {r s : Nat}
    (rRange : 1 ≤ r ∧ (r : Int) < n) (sRange : 1 ≤ s ∧ (s : Int) < n) :
    verify (uncompressed (publicPoint d)) hash (derSignature r s) = some true ↔
      hash.length = 32 ∧ scheme.Accepts ((d : ZMod n.toNat).val • scheme.base)
        (BigEndian.number hash) ((r : Int) : ZMod n.toNat) ((s : Int) : ZMod n.toNat) := by
  have short := length_derSignature_le rRange.2 sRange.2
  rw [verify_iff_accepts (parsePublicKeyPoint_publicPoint dRange)
    (represents_publicPoint dRange) (by omega), parseEcdsaDerSignature_derSignature rRange sRange]
  simp

/-- A signature and the one with the opposite second number are accepted alike. -/
theorem verify_negated (d r s : Nat) (dRange : 1 ≤ d ∧ (d : Int) < n)
    (rRange : 1 ≤ r ∧ (r : Int) < n) (sRange : 1 ≤ s ∧ (s : Int) < n) (hash : List Byte) :
    verify (uncompressed (publicPoint d)) hash (derSignature r (n.toNat - s)) = some true ↔
      verify (uncompressed (publicPoint d)) hash (derSignature r s) = some true := by
  have order := n_eq
  have oppositeRange : 1 ≤ n.toNat - s ∧ ((n.toNat - s : Nat) : Int) < n := by omega
  have opposite : (((n.toNat - s : Nat) : Int) : ZMod n.toNat) = -((s : Int) : ZMod n.toNat) := by
    rw [Int.cast_natCast, Nat.cast_sub (by omega), ZMod.natCast_self, zero_sub, Int.cast_natCast]
  rw [verify_derSignature_iff dRange rRange oppositeRange,
    verify_derSignature_iff dRange rRange sRange, opposite]
  refine and_congr_right fun _ => Scheme.accepts_neg_iff (cast_ne_zero_of_range ?_)
  omega

/-- An accepted signature, and the other one that is accepted with it. -/
theorem verify_negated_sample :
    verify (uncompressed (publicPoint 1)) (BigEndian.padded 32 1)
        (derSignature (signatureR 1) (signatureS 1 1 1)) = some true ∧
      verify (uncompressed (publicPoint 1)) (BigEndian.padded 32 1)
        (derSignature (signatureR 1) (n.toNat - signatureS 1 1 1)) = some true := by
  have accepted : verify (uncompressed (publicPoint 1)) (BigEndian.padded 32 1)
      (derSignature (signatureR 1) (signatureS 1 1 1)) = some true := by
    refine (verify_derSignature_iff (by decide) signatureR_one_range signatureS_one_range).mpr
      ⟨BigEndian.length_padded (by decide), ?_⟩
    have rRange : (1 : Int) ≤ signatureR 1 ∧ (signatureR 1 : Int) < n := by
      exact_mod_cast signatureR_one_range
    have sRange : (1 : Int) ≤ signatureS 1 1 1 ∧ (signatureS 1 1 1 : Int) < n := by
      exact_mod_cast signatureS_one_range
    rw [BigEndian.number_padded, Scheme.accepts_iff_signs (cast_ne_zero_of_range sRange),
      signs_iff rRange sRange]
    exact ⟨1, by decide, by decide, rfl, rfl⟩
  exact ⟨accepted, (verify_negated 1 _ _ (by decide) signatureR_one_range signatureS_one_range
    (BigEndian.padded 32 1)).mpr accepted⟩

end Secret

end QboxPlatform.RseP256Ecdsa
