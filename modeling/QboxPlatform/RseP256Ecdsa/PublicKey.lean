import QboxPlatform.RseP256Ecdsa.DerFields
import QboxPlatform.RseP256Ecdsa.Verify
import QboxPlatform.Foundation.Bezout

/-!
# The point of a public key

The point that is taken from a key is the first one in it that satisfies the equation of the curve.
The equation is tested modulo `p`, so that the coordinates need not be residues.
-/

namespace QboxPlatform.RseP256Ecdsa

open Foundation

theorem mod_eq_emod {modulus : Int} (positive : 0 < modulus) (value : Int) :
    mod value modulus = value % modulus :=
  Bezout.tmod_corrected positive value

theorem p_pos : 0 < p := by decide

/-- A point that is not at infinity, by residues that satisfy the equation of the curve. -/
structure Canonical (point : Point) : Prop where
  affine : point.infinity = false
  xNonneg : 0 ≤ point.x
  xBelow : point.x < p
  yNonneg : 0 ≤ point.y
  yBelow : point.y < p
  equation : point.y * point.y ≡ point.x * point.x * point.x + a * point.x + b [ZMOD p]

theorem isOnCurve_iff {point : Point} (affine : point.infinity = false) :
    isOnCurve point = true ↔
      point.y * point.y ≡ point.x * point.x * point.x + a * point.x + b [ZMOD p] := by
  simp only [isOnCurve, affine, Bool.false_eq_true, if_false, mod_eq_emod p_pos, beq_iff_eq]
  rfl

/-- The point behind the byte at `i`. -/
def pointBehind (key : List Byte) (i : Nat) : Point where
  x := BigEndian.number ((key.drop (i + 1)).take 32)
  y := BigEndian.number ((key.drop (i + 33)).take 32)
  infinity := false

/-- The byte that marks an uncompressed point, and a point of the curve behind it. -/
def Candidate (key : List Byte) (i : Nat) : Prop :=
  i + 65 ≤ key.length ∧ key[i]? = some 0x04 ∧ isOnCurve (pointBehind key i) = true

/-- The first candidate. -/
def FirstCandidate (key : List Byte) (i : Nat) : Prop :=
  Candidate key i ∧ ∀ j < i, ¬ Candidate key j

instance (key : List Byte) (i : Nat) : Decidable (Candidate key i) :=
  inferInstanceAs (Decidable (_ ∧ _))

/-! ### What the parser finds -/

variable {key : List Byte} {i : Nat} {point : Point}

theorem readPoint_eq (inside : i + 65 ≤ key.length) :
    readPoint key i = .ok (pointBehind key i) := by
  rw [readPoint, fromBe_eq (by omega), ok_bind, fromBe_eq (by omega), ok_bind]
  rfl

theorem readPoint_outside (begins : i + 1 ≤ key.length) (outside : key.length < i + 65) :
    readPoint key i = .error .outOfBounds := by
  rw [readPoint]
  rcases Nat.lt_or_ge key.length (i + 33) with short | long
  · rw [fromBe, fromBeLoop_outside 0 begins short, error_bind]
  · rw [fromBe_eq (by omega : i + 1 + 32 ≤ key.length), ok_bind, fromBe,
      fromBeLoop_outside 0 long outside, error_bind]

/-- Nothing is found where a point does not fit any more. -/
theorem findPoint_behind (rounds : Nat) (outside : key.length < i + 65) :
    findPoint key rounds i ≠ .ok point := by
  induction rounds generalizing i with
  | zero => exact fun found => nomatch found
  | succ rounds inductionHypothesis =>
      rw [findPoint]
      split_ifs with refused
      · exact fun found => nomatch found
      · rcases Nat.lt_or_ge i key.length with here | behind
        · rw [readByte_of_lt here, ok_bind]
          by_cases mark : key[i] = 0x04
          · rw [if_neg (not_not.mpr mark), readPoint_outside here outside, error_bind]
            exact fun found => nomatch found
          · rw [if_pos mark]
            exact inductionHypothesis (by omega)
        · rw [readByte_of_le behind, error_bind]
          exact fun found => nomatch found

theorem findPoint_candidate {rounds : Nat} (addressable : key.length < 2 ^ 64)
    (candidate : Candidate key i) : findPoint key (rounds + 1) i = .ok (pointBehind key i) := by
  obtain ⟨inside, mark, onCurve⟩ := candidate
  rw [findPoint, Nat.mod_eq_of_lt (by omega), if_neg (by omega), readByte_of_some mark, ok_bind,
    if_neg (not_not.mpr rfl), readPoint_eq inside, ok_bind, if_pos onCurve]
  rfl

theorem findPoint_skip {rounds : Nat} (addressable : key.length < 2 ^ 64)
    (inside : i + 65 ≤ key.length) (other : ¬ Candidate key i) :
    findPoint key (rounds + 1) i = findPoint key rounds (i + 1) := by
  have here : i < key.length := by omega
  rw [findPoint, Nat.mod_eq_of_lt (by omega), if_neg (by omega), readByte_of_lt here, ok_bind]
  by_cases mark : key[i] = 0x04
  · rw [if_neg (not_not.mpr mark), readPoint_eq inside, ok_bind, if_neg]
    intro onCurve
    exact other ⟨inside, by rw [List.getElem?_eq_getElem here, mark], onCurve⟩
  · rw [if_pos mark]

/-- From an offset on, the first candidate is found. -/
theorem findPoint_eq_ok_iff {rounds : Nat} (addressable : key.length < 2 ^ 64)
    (enough : key.length < i + rounds) :
    findPoint key rounds i = .ok point ↔
      ∃ j, i ≤ j ∧ Candidate key j ∧ (∀ k, i ≤ k → k < j → ¬ Candidate key k) ∧
        point = pointBehind key j := by
  induction rounds generalizing i with
  | zero =>
      refine iff_of_false (fun found => nomatch found) ?_
      rintro ⟨j, later, ⟨inside, -⟩, -⟩
      omega
  | succ rounds inductionHypothesis =>
      rcases Nat.lt_or_ge key.length (i + 65) with outside | inside
      · refine iff_of_false (findPoint_behind _ outside) ?_
        rintro ⟨j, later, ⟨fits, -⟩, -⟩
        omega
      · by_cases candidate : Candidate key i
        · rw [findPoint_candidate addressable candidate]
          constructor
          · intro found
            cases found
            exact ⟨i, le_rfl, candidate, fun k later before => absurd later (by omega), rfl⟩
          · rintro ⟨j, later, -, first, rfl⟩
            rcases Nat.eq_or_lt_of_le later with rfl | more
            · rfl
            · exact absurd candidate (first i le_rfl more)
        · rw [findPoint_skip addressable inside candidate, inductionHypothesis (by omega)]
          refine exists_congr fun j => ?_
          constructor
          · rintro ⟨later, found, first, same⟩
            refine ⟨by omega, found, fun k from_i before => ?_, same⟩
            rcases Nat.eq_or_lt_of_le from_i with rfl | more
            · exact candidate
            · exact first k more before
          · rintro ⟨later, found, first, same⟩
            refine ⟨?_, found, fun k more before => first k (by omega) before, same⟩
            rcases Nat.eq_or_lt_of_le later with rfl | more
            · exact absurd found candidate
            · exact more

/-- The point of a key is that of its first candidate. -/
theorem parsePublicKeyPoint_eq_ok_iff (addressable : key.length < 2 ^ 64) :
    parsePublicKeyPoint key = .ok point ↔
      ∃ i, FirstCandidate key i ∧ point = pointBehind key i := by
  have found : findPoint key (key.length + 1) 0 = .ok point ↔
      ∃ i, FirstCandidate key i ∧ point = pointBehind key i := by
    rw [findPoint_eq_ok_iff addressable (by omega)]
    simp only [Nat.zero_le, true_and, true_implies, FirstCandidate, and_assoc]
  unfold parsePublicKeyPoint
  split_ifs with short
  · refine iff_of_false (fun found => nomatch found) ?_
    rintro ⟨i, ⟨⟨inside, -⟩, -⟩, -⟩
    omega
  · have here : 0 < key.length := by omega
    rw [readByte_of_lt here, ok_bind]
    split_ifs with single
    · rw [← found, readPoint_eq (by omega), ok_bind]
      by_cases onCurve : isOnCurve (pointBehind key 0) = true
      · have candidate : Candidate key 0 :=
          ⟨by omega, by rw [List.getElem?_eq_getElem here, single.2], onCurve⟩
        rw [if_pos onCurve, findPoint_candidate addressable candidate]
        rfl
      · have other : ¬ Candidate key 0 := fun candidate => onCurve candidate.2.2
        rw [if_neg onCurve, findPoint_skip addressable (by omega) other]
        exact iff_of_false (fun found => nomatch found) (findPoint_behind _ (by omega))
    · exact found

/-! ### Canonical points -/

theorem canonical_pointBehind_iff (candidate : Candidate key i) :
    Canonical (pointBehind key i) ↔ (pointBehind key i).x < p ∧ (pointBehind key i).y < p := by
  constructor
  · exact fun canonical => ⟨canonical.xBelow, canonical.yBelow⟩
  · rintro ⟨xBelow, yBelow⟩
    exact ⟨rfl, Int.natCast_nonneg _, xBelow, Int.natCast_nonneg _, yBelow,
      (isOnCurve_iff rfl).mp candidate.2.2⟩

/-- The point of a key is canonical exactly when the coordinates of the first candidate are below
`p`. -/
theorem point_canonical_iff (key : List Byte) (addressable : key.length < 2 ^ 64) :
    (∀ point, parsePublicKeyPoint key = .ok point → Canonical point) ↔
      ∀ i, FirstCandidate key i → (pointBehind key i).x < p ∧ (pointBehind key i).y < p := by
  constructor
  · intro canonical i first
    apply (canonical_pointBehind_iff first.1).mp
    exact canonical _ ((parsePublicKeyPoint_eq_ok_iff addressable).mpr ⟨i, first, rfl⟩)
  · intro below point parsed
    obtain ⟨i, first, rfl⟩ := (parsePublicKeyPoint_eq_ok_iff addressable).mp parsed
    exact (canonical_pointBehind_iff first.1).mpr (below i first)

/-- The uncompressed form of a point: its coordinates, in 32 bytes each, behind a mark. -/
def uncompressed (point : Point) : List Byte :=
  0x04 :: (BigEndian.padded 32 point.x.toNat ++ BigEndian.padded 32 point.y.toNat)

theorem point_canonical_iff_sample : Canonical generator := by
  have canonical := (point_canonical_iff (uncompressed generator) (by decide +kernel)).mpr ?_
  · exact canonical generator (by decide +kernel)
  · rintro i ⟨⟨inside, -⟩, -⟩
    have size : (uncompressed generator).length = 65 := by
      decide +kernel
    obtain rfl : i = 0 := by omega
    decide +kernel

/-- A point of the curve is taken with its first coordinate `p` in the place of zero. -/
theorem not_point_canonical :
    ¬ ∀ key : List Byte, key.length < 2 ^ 64 →
      ∀ point, parsePublicKeyPoint key = .ok point → Canonical point := by
  intro every
  let point : Point :=
    ⟨p, 0x66485c780e2f83d72433bd5d84a06bb6541c2af31dae871728bf856a174f93f4, false⟩
  have canonical := every (uncompressed point) (by decide +kernel) point (by decide +kernel)
  exact absurd canonical.xBelow (lt_irrefl p)

end QboxPlatform.RseP256Ecdsa
