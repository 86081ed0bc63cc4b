import Mathlib

/-!
# Ranges of addresses

Distances between addresses that wrap, contiguous ranges, and the elements of one size that lie at
a fixed signed distance from each other.
-/

namespace Foundation

namespace Ranges

variable {width : Nat} {source dest target : BitVec width}

theorem toNat_sub_ofNat_add {count : Nat} (small : count ≤ (target - dest).toNat) :
    (target - (dest + BitVec.ofNat width count)).toNat = (target - dest).toNat - count := by
  have fits := (target - dest).isLt
  have split : target - (dest + BitVec.ofNat width count) =
      (target - dest) - BitVec.ofNat width count := by
    rw [sub_add_eq_sub_sub]
  have size : (BitVec.ofNat width count).toNat = count := by
    rw [BitVec.toNat_ofNat, Nat.mod_eq_of_lt (by omega)]
  rw [split, BitVec.toNat_sub_of_le (by rwa [BitVec.le_def, size]), size]

theorem toNat_sub_ofNat_add_of_lt {count : Nat} (before : (target - dest).toNat < count)
    (fits : count ≤ 2 ^ width) :
    (target - (dest + BitVec.ofNat width count)).toNat =
      2 ^ width - (count - (target - dest).toNat) := by
  have split : target - (dest + BitVec.ofNat width count) =
      (target - dest) - BitVec.ofNat width count := by
    rw [sub_add_eq_sub_sub]
  rw [split, BitVec.toNat_sub, BitVec.toNat_ofNat]
  rcases Nat.lt_or_eq_of_le fits with less | rfl
  · rw [Nat.mod_eq_of_lt less, Nat.mod_eq_of_lt (by omega)]
    omega
  · rw [Nat.mod_self, Nat.sub_zero, Nat.add_mod_left, Nat.mod_eq_of_lt before]
    omega

theorem toNat_add_ofNat_sub {count : Nat} (fits : count < 2 ^ width) :
    (dest + BitVec.ofNat width count - dest).toNat = count := by
  rw [add_sub_cancel_left, BitVec.toNat_ofNat, Nat.mod_eq_of_lt fits]

theorem toNat_sub_pos (different : source ≠ dest) : 0 < (dest - source).toNat := by
  apply Nat.pos_of_ne_zero
  intro zero
  exact different (sub_eq_zero.mp (BitVec.eq_of_toNat_eq zero)).symm

theorem ofNat_injOn {one other : Nat} (oneFits : one < 2 ^ width) (otherFits : other < 2 ^ width)
    (equal : BitVec.ofNat width one = BitVec.ofNat width other) : one = other := by
  have counts := congrArg BitVec.toNat equal
  simpa [BitVec.toNat_ofNat, Nat.mod_eq_of_lt oneFits, Nat.mod_eq_of_lt otherFits] using counts

theorem ofNat_toNat_sub : BitVec.ofNat width (dest - source).toNat = dest - source := by
  rw [BitVec.ofNat_toNat, BitVec.setWidth_eq]

/-- A contiguous range. -/
def block (start : BitVec width) (size : Nat) : Set (BitVec width) :=
  {target | (target - start).toNat < size}

/-- Elements whose distance is counted in their size. -/
def cells (start : BitVec width) (increment : Int) (size count : Nat) : Set (BitVec width) :=
  {target | ∃ index < count,
    target ∈ block (start + BitVec.ofInt width (index * (increment * size))) size}

variable {start shift : BitVec width} {increment : Int} {size count : Nat}

@[simp]
theorem mem_block : target ∈ block start size ↔ (target - start).toNat < size := Iff.rfl

@[simp]
theorem block_zero : block start 0 = ∅ := by
  ext target
  simp

@[simp]
theorem cells_zero : cells start increment size 0 = ∅ := by
  ext target
  simp [cells]

/-- The first element, and the others behind it. -/
theorem cells_succ (start : BitVec width) (increment : Int) (size count : Nat) :
    cells start increment size (count + 1) =
      block start size ∪
        cells (start + BitVec.ofInt width (increment * size)) increment size count := by
  have later : ∀ index : Nat,
      start + BitVec.ofInt width (((index + 1 : Nat) : Int) * (increment * size)) =
        start + BitVec.ofInt width (increment * size) +
          BitVec.ofInt width (index * (increment * size)) := by
    intro index
    rw [Nat.cast_add, Nat.cast_one, add_mul, one_mul, add_comm (_ * _), BitVec.ofInt_add,
      add_assoc]
  ext target
  constructor
  · rintro ⟨index, inside, member⟩
    cases index with
    | zero =>
        left
        simpa using member
    | succ index =>
        right
        rw [later] at member
        exact ⟨index, by omega, member⟩
  · rintro (member | ⟨index, inside, member⟩)
    · refine ⟨0, Nat.succ_pos _, ?_⟩
      simpa using member
    · refine ⟨index + 1, by omega, ?_⟩
      rwa [later]

/-- Two blocks next to each other. -/
theorem block_add (first second : Nat) :
    block start (first + second) =
      block start first ∪ block (start + BitVec.ofNat width first) second := by
  ext target
  simp only [Set.mem_union, mem_block]
  rcases Nat.lt_or_ge (target - start).toNat first with inFirst | behind
  · exact iff_of_true (by omega) (Or.inl inFirst)
  · rw [toNat_sub_ofNat_add behind]
    omega

/-- Elements next to each other. -/
theorem cells_one (start : BitVec width) (size count : Nat) :
    cells start 1 size count = block start (count * size) := by
  induction count generalizing start with
  | zero => simp
  | succ count inductionHypothesis =>
      have whole : (count + 1) * size = size + count * size := by
        rw [Nat.succ_mul, Nat.add_comm]
      rw [cells_succ, one_mul, BitVec.ofInt_natCast, inductionHypothesis, whole, block_add]

/-- Elements on top of each other. -/
theorem cells_stay (several : 0 < count) : cells start 0 size count = block start size := by
  ext target
  constructor
  · rintro ⟨index, inside, member⟩
    simpa using member
  · intro member
    refine ⟨0, several, ?_⟩
    simpa using member

theorem ofInt_injOn {one other : Int} (near : |one - other| < 2 ^ width)
    (equal : BitVec.ofInt width one = BitVec.ofInt width other) : one = other := by
  have positive : (0 : Int) < 2 ^ width := by positivity
  have remainders : one % 2 ^ width = other % 2 ^ width := by
    have counts := congrArg BitVec.toNat equal
    rw [BitVec.toNat_ofInt, BitVec.toNat_ofInt] at counts
    have oneBound := Int.emod_nonneg one positive.ne'
    have otherBound := Int.emod_nonneg other positive.ne'
    push_cast at counts
    omega
  have divides : (2 : Int) ^ width ∣ one - other := Int.ModEq.dvd (Int.ModEq.symm remainders)
  exact sub_eq_zero.mp (Int.eq_zero_of_abs_lt_dvd divides near)

/-- The addresses of the single bytes. -/
theorem mem_cells_iff (fits : size ≤ 2 ^ width) :
    target ∈ cells start increment size count ↔
      ∃ index < count, ∃ offset < size,
        target = start + BitVec.ofInt width (index * (increment * size) + offset) := by
  constructor
  · rintro ⟨index, inside, member⟩
    refine ⟨index, inside, _, member, ?_⟩
    rw [BitVec.ofInt_add, BitVec.ofInt_natCast, ofNat_toNat_sub, ← add_assoc, add_sub_cancel]
  · rintro ⟨index, inside, offset, small, rfl⟩
    refine ⟨index, inside, ?_⟩
    rw [mem_block, BitVec.ofInt_add, BitVec.ofInt_natCast, ← add_assoc,
      toNat_add_ofNat_sub (by omega)]
    exact small

/-- How far two bytes can lie apart. -/
theorem abs_offset_lt {index offset : Int} (inside : |index| ≤ count) (small : |offset| < size) :
    |index * (increment * size) + offset| < |increment| * size * count + size := by
  have sum := abs_add_le (index * (increment * size)) offset
  have product : |index * (increment * size)| ≤ |increment| * size * count := by
    rw [abs_mul, abs_mul, Nat.abs_cast, mul_comm]
    gcongr
  omega

/-- An element is fixed by its number and the place in it. -/
theorem offset_injective (moves : increment ≠ 0) {index other offset place : Nat}
    (small : offset < size) (placeSmall : place < size)
    (equal : (index : Int) * (increment * size) + offset = other * (increment * size) + place) :
    index = other ∧ offset = place := by
  have positive : (0 : Int) < size := by omega
  have places : (offset : Int) = place := by
    have remainders := congrArg (fun sum : Int => sum % size) equal
    simp only [← mul_assoc, Int.mul_add_emod_self_right] at remainders
    rwa [Int.emod_eq_of_lt (by omega) (by omega), Int.emod_eq_of_lt (by omega) (by omega)]
      at remainders
  refine ⟨?_, by omega⟩
  rw [places, add_left_inj] at equal
  have cancelled := mul_right_cancel₀ (mul_ne_zero moves positive.ne') equal
  exact_mod_cast cancelled

/-- Elements that do not lie on top of each other. -/
theorem ncard_cells (moves : increment ≠ 0)
    (fits : |increment| * size * count + size ≤ 2 ^ width) :
    (cells start increment size count).ncard = count * size := by
  rcases Nat.eq_zero_or_pos count with rfl | several
  · simp
  have sizeFits : size ≤ 2 ^ width := by
    have positive : 0 ≤ |increment| * size * count := by positivity
    exact_mod_cast (le_add_of_nonneg_left positive).trans fits
  have image : cells start increment size count =
      (fun place : Nat × Nat =>
        start + BitVec.ofInt width (place.1 * (increment * size) + place.2)) ''
        (Finset.range count ×ˢ Finset.range size : Finset (Nat × Nat)) := by
    ext target
    rw [mem_cells_iff sizeFits]
    simp [eq_comm, and_assoc]
  rw [image, Set.InjOn.ncard_image, Set.ncard_coe_finset, Finset.card_product,
    Finset.card_range, Finset.card_range]
  intro one oneMember other otherMember equal
  simp only [Finset.coe_product, Finset.coe_range, Set.mem_prod, Set.mem_Iio]
    at oneMember otherMember
  have near : |(one.1 : Int) * (increment * size) + one.2 -
      (other.1 * (increment * size) + other.2)| < 2 ^ width := by
    have indices : |(one.1 : Int) - other.1| ≤ count := by
      rw [abs_le]
      omega
    have offsets : |(one.2 : Int) - other.2| < size := by
      rw [abs_lt]
      omega
    have apart := (@abs_offset_lt increment _ _ _ _ indices offsets).trans_le fits
    rwa [sub_mul, sub_add_sub_comm] at apart
  have same := offset_injective moves oneMember.2 otherMember.2
    (ofInt_injOn near (add_left_cancel equal))
  exact Prod.ext same.1 same.2

theorem ncard_block (fits : size + size ≤ 2 ^ width) : (block start size).ncard = size := by
  have single := @ncard_cells width start 1 size 1 one_ne_zero (by
    rw [abs_one, one_mul, Nat.cast_one, mul_one]
    exact_mod_cast fits)
  rwa [cells_one, one_mul] at single

theorem cells_shift (start shift : BitVec width) (increment : Int) (size count : Nat) :
    target + shift ∈ cells (start + shift) increment size count ↔
      target ∈ cells start increment size count := by
  have moved : ∀ offset : BitVec width, target + shift - (start + shift + offset) =
      target - (start + offset) := by
    intro offset
    abel
  simp only [cells, Set.mem_ofPred_eq, mem_block, moved]

/-- A shift that is not zero comes to the middle of the address space. -/
theorem exists_multiple_eq_middle (nonzero : shift ≠ 0) :
    ∃ times : Nat, BitVec.ofNat width (times * shift.toNat) =
      BitVec.ofNat width (2 ^ (width - 1)) := by
  have positive : shift.toNat ≠ 0 := fun zero => nonzero (BitVec.eq_of_toNat_eq zero)
  obtain ⟨twos, odd, ⟨half, rfl⟩, split⟩ := Nat.exists_eq_two_pow_mul_odd positive
  have small : twos < width := by
    apply (Nat.pow_lt_pow_iff_right Nat.one_lt_two).mp
    apply Nat.lt_of_le_of_lt _ shift.isLt
    rw [split]
    exact Nat.le_mul_of_pos_right _ (Nat.succ_pos _)
  refine ⟨2 ^ (width - 1 - twos), ?_⟩
  apply BitVec.eq_of_toNat_eq
  have whole : 2 ^ (width - 1 - twos) * shift.toNat = 2 ^ (width - 1) + 2 ^ width * half := by
    have sum : width - 1 - twos + twos = width - 1 := by omega
    have next : 2 ^ width = 2 ^ (width - 1) * 2 := by
      rw [← pow_succ, Nat.sub_add_cancel (by omega)]
    rw [split, ← mul_assoc, ← pow_add, sum, next]
    ring
  rw [whole, BitVec.toNat_ofNat, BitVec.toNat_ofNat, Nat.add_mul_mod_self_left]

/-- A range around an address cannot be shifted into itself. -/
theorem shift_eq_zero {range : Set (BitVec width)} (member : start ∈ range)
    (near : ∀ target ∈ range, ∃ offset : Int, |offset| < 2 ^ (width - 1) ∧
      target = start + BitVec.ofInt width offset)
    (closed : ∀ target ∈ range, target + shift ∈ range) : shift = 0 := by
  have reached : ∀ times : Nat, start + BitVec.ofNat width (times * shift.toNat) ∈ range := by
    intro times
    induction times with
    | zero => simpa using member
    | succ times inductionHypothesis =>
        have next := closed _ inductionHypothesis
        have same : BitVec.ofNat width shift.toNat = shift := by
          rw [BitVec.ofNat_toNat, BitVec.setWidth_eq]
        rwa [add_assoc, ← same, BitVec.toNat_ofNat, Nat.mod_eq_of_lt shift.isLt,
          ← BitVec.ofNat_add, ← Nat.succ_mul] at next
  by_contra nonzero
  obtain ⟨times, middle⟩ := exists_multiple_eq_middle nonzero
  have there := reached times
  rw [middle] at there
  obtain ⟨offset, small, place⟩ := near _ there
  have equal := add_left_cancel place
  rw [← BitVec.ofInt_natCast] at equal
  have positive : (0 : Int) < 2 ^ (width - 1) := by positivity
  have wide : 0 < width := by
    apply Nat.pos_of_ne_zero
    rintro rfl
    exact nonzero (BitVec.eq_of_toNat_eq (by omega))
  have widen : (2 : Int) ^ (width - 1) * 2 = 2 ^ width := by
    rw [← pow_succ, Nat.sub_add_cancel wide]
  have bounds := abs_lt.mp small
  have same := ofInt_injOn (by rw [abs_lt]; push_cast; omega) equal
  push_cast at same
  omega

end Ranges

end Foundation
