import QboxPlatform.Foundation.Checksum
import QboxPlatform.RseLmsAccel.LmsCompleteness

/-!
# No digest is signed by advancing the chains of another

Whoever knows a signature can walk each chain further, to larger digits.  The checksum makes
some digit of any other digest smaller.
-/

namespace QboxPlatform.RseLmsAccel

open Foundation

/-- The digits that `lmots_candidate` takes from the hash of a message: its bytes and those of
the checksum. -/
def lmotsDigits (qHash : Digest) : List Byte :=
  qHash.toList ++ storeBe16 ((checksum qHash.toList).setWidth 16)

/-- The digits are where the chains of `lmots_candidate` start. -/
theorem lmotsCandidate_eq (hash : List Byte → Digest) {msg sig keyId leafId : List Byte}
    (length : sig.length = lmotsSigLen) (type : loadBe32 sig = lmotsSha256N32W8) :
    lmotsCandidate hash msg sig keyId leafId =
      some (hash (keyId ++ leafId ++ dPublic ++
        (List.range lmotsP).flatMap fun index =>
          hashDigit hash keyId leafId index
            ((lmotsDigits (hash (keyId ++ leafId ++ dMessage ++ (sig.drop 4).take hashLen ++
              msg))).getD index 0)
            (((sig.drop (4 + hashLen)).drop (index * hashLen)).take hashLen))) :=
  if_neg (not_or.mpr ⟨not_not.mpr length, not_not.mpr type⟩)

/-- The digit with an index. -/
def digitAt (qHash : Digest) (index : Nat) : Nat := ((lmotsDigits qHash).getD index 0).toNat

/-- The bytes of a digest as numbers. -/
def digestDigits (qHash : Digest) : List Nat := qHash.toList.map BitVec.toNat

theorem checksum_toNat (qHash : Digest) :
    (checksum qHash.toList).toNat = Checksum.complement 255 (digestDigits qHash) ∧
      Checksum.complement 255 (digestDigits qHash) < 2 ^ 16 := by
  have bound := @Checksum.complement_le 255 (digestDigits qHash)
  have size : (digestDigits qHash).length = 32 := by
    rw [digestDigits, List.length_map, List.Vector.toList_length]
    rfl
  rw [size] at bound
  have small : Checksum.complement 255 (digestDigits qHash) < 2 ^ 16 := by omega
  refine ⟨?_, small⟩
  have sum : (qHash.toList.map fun digit => 255 - digit.toNat).sum =
      Checksum.complement 255 (digestDigits qHash) := by
    rw [Checksum.complement, digestDigits, List.map_map]
    rfl
  rw [LmsScheme.checksum_eq, sum, BitVec.toNat_ofNat, Nat.mod_eq_of_lt (by omega)]

theorem digitAt_digest (qHash : Digest) {index : Nat} (inside : index < hashLen) :
    digitAt qHash index = (digestDigits qHash).getD index 0 := by
  have length : qHash.toList.length = hashLen := qHash.toList_length
  rw [digitAt, lmotsDigits, List.getD_append _ _ _ _ (by omega), digestDigits,
    List.getD_eq_getElem _ _ (by omega), List.getD_eq_getElem _ _ (by simpa [length] using inside),
    List.getElem_map]

/-- The last two digits are the checksum. -/
theorem digitAt_checksum (qHash : Digest) :
    digitAt qHash 32 * 256 + digitAt qHash 33 =
      Checksum.complement 255 (digestDigits qHash) := by
  obtain ⟨value, small⟩ := checksum_toNat qHash
  have length : qHash.toList.length = 32 := qHash.toList_length
  have word : (checksum qHash.toList).setWidth 16 =
      BitVec.ofNat 16 (Checksum.complement 255 (digestDigits qHash)) := by
    apply BitVec.eq_of_toNat_eq
    rw [BitVec.toNat_setWidth, value, BitVec.toNat_ofNat]
  have bytes : lmotsDigits qHash = qHash.toList ++
      LmsScheme.numberString 2 (Checksum.complement 255 (digestDigits qHash)) := by
    rw [lmotsDigits, word, LmsScheme.storeBe16_ofNat]
  have high : (lmotsDigits qHash).getD 32 0 =
      BitVec.ofNat 8 (Checksum.complement 255 (digestDigits qHash) / 256) := by
    rw [bytes, List.getD_append_right _ _ _ _ (by omega), length]
    rfl
  have low : (lmotsDigits qHash).getD 33 0 =
      BitVec.ofNat 8 (Checksum.complement 255 (digestDigits qHash)) := by
    rw [bytes, List.getD_append_right _ _ _ _ (by omega), length]
    simp [LmsScheme.numberString, List.range_succ]
  rw [digitAt, digitAt, high, low, BitVec.toNat_ofNat, BitVec.toNat_ofNat]
  omega

/-- A digest with no digit above that of another digest is the same. -/
theorem eq_of_digitAt_le {first second : Digest}
    (below : ∀ index < lmotsP, digitAt first index ≤ digitAt second index) : first = second := by
  have lengthOf (qHash : Digest) : (digestDigits qHash).length = hashLen := by
    rw [digestDigits, List.length_map, List.Vector.toList_length]
  have digits : List.Forall₂ (· ≤ ·) (digestDigits first) (digestDigits second) := by
    rw [List.forall₂_iff_get]
    refine ⟨by rw [lengthOf, lengthOf], fun index left right => ?_⟩
    rw [lengthOf] at left
    have ordered := below index (left.trans (by decide))
    rw [digitAt_digest _ left, digitAt_digest _ left, List.getD_eq_getElem _ _ (by rwa [lengthOf]),
      List.getD_eq_getElem _ _ (by rwa [lengthOf])] at ordered
    exact ordered
  have sums : Checksum.complement 255 (digestDigits first) ≤
      Checksum.complement 255 (digestDigits second) := by
    have high := below 32 (by decide)
    have low := below 33 (by decide)
    rw [← digitAt_checksum, ← digitAt_checksum]
    omega
  have bounded : ∀ digit ∈ digestDigits second, digit ≤ 255 := by
    intro digit member
    obtain ⟨byte, -, rfl⟩ := List.mem_map.mp member
    exact Nat.le_of_lt_succ byte.isLt
  have same := Checksum.eq_of_below digits bounded sums
  apply List.Vector.eq
  exact List.map_injective_iff.mpr (fun _ _ => BitVec.eq_of_toNat_eq) same

/-- The checksum fits its two bytes, and of two digests each has a digit below that of the
other. -/
theorem lmotsDigits_incomparable :
    (∀ qHash : Digest, (checksum qHash.toList).toNat < 2 ^ 16) ∧
      ∀ first second : Digest, first ≠ second →
        (∃ index < lmotsP, digitAt first index < digitAt second index) ∧
          ∃ index < lmotsP, digitAt second index < digitAt first index := by
  constructor
  · intro qHash
    obtain ⟨value, small⟩ := checksum_toNat qHash
    rwa [value]
  · intro first second different
    constructor
    · by_contra none
      push Not at none
      exact different (eq_of_digitAt_le none).symm
    · by_contra none
      push Not at none
      exact different (eq_of_digitAt_le none)

end QboxPlatform.RseLmsAccel
