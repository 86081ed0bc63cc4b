import QboxPlatform.Foundation.Ranges

/-!
# Copying in chunks

A copy from a range of addresses to another one that reads and writes a chunk at a time.  Where
the ranges overlap, a chunk may read what an earlier one has written, so that the result can depend
on the size of the chunks.
-/

namespace Foundation

namespace ChunkedCopy

open Ranges

variable {width : Nat} {Item : Type*}

/-- One chunk, read before it is written; addresses wrap. -/
def move (source dest : BitVec width) (length : Nat) (memory : BitVec width → Item) :
    BitVec width → Item :=
  fun target =>
    if (target - dest).toNat < length then memory (source + (target - dest)) else memory target

/-- Chunks of at most a given size, in ascending order. -/
def copy (chunk : Nat) (source dest : BitVec width) (remaining : Nat)
    (memory : BitVec width → Item) : BitVec width → Item :=
  if chunk = 0 ∨ remaining = 0 then memory
  else
    let length := min remaining chunk
    copy chunk (source + BitVec.ofNat width length) (dest + BitVec.ofNat width length)
      (remaining - length) (move source dest length memory)
termination_by remaining
decreasing_by omega

variable {chunk : Nat} {source dest target : BitVec width} {remaining : Nat}
  {memory : BitVec width → Item}

@[simp]
theorem copy_zero : copy chunk source dest 0 memory = memory := by
  rw [copy, if_pos (Or.inr rfl)]

theorem copy_of_pos (positive : 0 < chunk) (more : 0 < remaining) :
    copy chunk source dest remaining memory =
      copy chunk (source + BitVec.ofNat width (min remaining chunk))
        (dest + BitVec.ofNat width (min remaining chunk)) (remaining - min remaining chunk)
        (move source dest (min remaining chunk) memory) := by
  rw [copy, if_neg (by omega)]

theorem copy_of_le (positive : 0 < chunk) (last : remaining ≤ chunk) :
    copy chunk source dest remaining memory = move source dest remaining memory := by
  rcases Nat.eq_zero_or_pos remaining with rfl | more
  · rw [copy_zero]
    funext target
    rw [move, if_neg (Nat.not_lt_zero _)]
  · rw [copy_of_pos positive more, Nat.min_eq_left last, Nat.sub_self, copy_zero]

/-! ### Chunks that do not see each other -/

theorem copy_outside (outside : remaining ≤ (target - dest).toNat) :
    copy chunk source dest remaining memory target = memory target := by
  induction source, dest, remaining, memory using copy.induct chunk with
  | case1 source dest remaining memory finished => rw [copy, if_pos finished]
  | case2 source dest remaining memory more length inductionHypothesis =>
      have small : length ≤ remaining := Nat.min_le_left _ _
      rw [copy_of_pos (by omega) (by omega), inductionHypothesis, move,
        if_neg (by omega)]
      rw [toNat_sub_ofNat_add (by omega)]
      omega

theorem copy_first (positive : 0 < chunk) (fits : remaining ≤ 2 ^ width) {index : Nat}
    (inChunk : index < chunk) (inRange : index < remaining) :
    copy chunk source dest remaining memory (dest + BitVec.ofNat width index) =
      memory (source + BitVec.ofNat width index) := by
  have place := @toNat_add_ofNat_sub _ dest index (show index < 2 ^ width by omega)
  rw [copy_of_pos positive (by omega), copy_outside, move, if_pos (by omega), add_sub_cancel_left]
  rw [toNat_sub_ofNat_add_of_lt (by omega) (by omega)]
  omega

/-- The source and the destination are the same, or the destination starts behind a part of the
source of this length. -/
def Apart (source dest : BitVec width) (length : Nat) : Prop :=
  source = dest ∨ length ≤ (dest - source).toNat

theorem Apart.mono {length shorter : Nat} (apart : Apart source dest length)
    (less : shorter ≤ length) : Apart source dest shorter :=
  apart.imp_right (Nat.le_trans less)

theorem Apart.shift {length count : Nat} (apart : Apart source dest length) :
    Apart (source + BitVec.ofNat width count) (dest + BitVec.ofNat width count) length := by
  rcases apart with rfl | apart
  · exact Or.inl rfl
  · right
    rwa [add_sub_add_right_eq_sub]

theorem move_add {first second : Nat} (apart : Apart source dest (first + second))
    (fits : first + second ≤ 2 ^ width) :
    move (source + BitVec.ofNat width first) (dest + BitVec.ofNat width first) second
        (move source dest first memory) =
      move source dest (first + second) memory := by
  funext target
  simp only [move]
  rcases Nat.lt_or_ge (target - dest).toNat first with inFirst | behind
  · rw [toNat_sub_ofNat_add_of_lt inFirst (by omega), if_neg (by omega), if_pos inFirst,
      if_pos (by omega)]
  · have position : source + BitVec.ofNat width first +
        (target - (dest + BitVec.ofNat width first)) = source + (target - dest) := by
      abel
    rw [toNat_sub_ofNat_add behind, position]
    rcases Nat.lt_or_ge (target - dest).toNat (first + second) with inSecond | outside
    · rw [if_pos (by omega), if_pos inSecond, if_neg]
      have place : source + (target - dest) - dest = (target - dest) - (dest - source) := by
        abel
      rw [place, Nat.not_lt]
      rcases apart with rfl | apart
      · rwa [sub_self, sub_zero]
      · rw [BitVec.toNat_sub]
        have small := (dest - source).isLt
        rw [Nat.mod_eq_of_lt (by omega)]
        omega
    · rw [if_neg (by omega), if_neg (by omega), if_neg (by omega)]

theorem copy_eq_move (positive : 0 < chunk) (fits : remaining ≤ 2 ^ width)
    (apart : Apart source dest remaining) :
    copy chunk source dest remaining memory = move source dest remaining memory := by
  induction source, dest, remaining, memory using copy.induct chunk with
  | case1 source dest remaining memory finished =>
      rw [copy_of_le positive (by omega)]
  | case2 source dest remaining memory more length inductionHypothesis =>
      have small : length ≤ remaining := Nat.min_le_left _ _
      have whole : length + (remaining - length) = remaining := by omega
      have rest := inductionHypothesis (by omega) (apart.shift.mono (by omega))
      rw [copy_of_pos positive (by omega), rest]
      rw [← whole] at apart fits
      rw [move_add apart fits, whole]

/-! ### Byte by byte -/

theorem copy_one_succ (count : Nat) :
    copy 1 source dest (count + 1) memory =
      copy 1 (source + BitVec.ofNat width 1) (dest + BitVec.ofNat width 1) count
        (move source dest 1 memory) := by
  have more : 0 < count + 1 := Nat.succ_pos count
  rw [copy_of_pos Nat.one_pos more, Nat.min_eq_right (by omega), Nat.add_sub_cancel]

theorem copy_one_add (first second : Nat) :
    copy 1 (source + BitVec.ofNat width first) (dest + BitVec.ofNat width first) second
        (copy 1 source dest first memory) =
      copy 1 source dest (first + second) memory := by
  induction first generalizing source dest memory with
  | zero => simp
  | succ first inductionHypothesis =>
      have later : ∀ base : BitVec width, base + BitVec.ofNat width (first + 1) =
          base + BitVec.ofNat width 1 + BitVec.ofNat width first := by
        intro base
        rw [BitVec.ofNat_add, add_assoc, add_comm (BitVec.ofNat width 1)]
      rw [copy_one_succ, later, later, inductionHypothesis, Nat.add_right_comm, copy_one_succ]

theorem copy_eq_bytewise (positive : 0 < chunk) (fits : remaining ≤ 2 ^ width)
    (apart : Apart source dest (min remaining chunk)) :
    copy chunk source dest remaining memory = copy 1 source dest remaining memory := by
  induction source, dest, remaining, memory using copy.induct chunk with
  | case1 source dest remaining memory finished =>
      have empty : remaining = 0 := by omega
      rw [empty, copy_zero, copy_zero]
  | case2 source dest remaining memory more length inductionHypothesis =>
      have small : length ≤ remaining := Nat.min_le_left _ _
      have whole : length + (remaining - length) = remaining := by omega
      have shorter : min (remaining - length) chunk ≤ min remaining chunk := by omega
      have front : move source dest length memory = copy 1 source dest length memory :=
        (copy_eq_move Nat.one_pos (by omega) apart).symm
      rw [copy_of_pos positive (by omega), inductionHypothesis (by omega)
        (apart.shift.mono shorter), front, copy_one_add, whole]

/-! ### The size of the chunks -/

theorem copy_one_at_distance (fits : remaining ≤ 2 ^ width) (different : source ≠ dest)
    (near : (dest - source).toNat < remaining) :
    copy 1 source dest remaining memory (dest + (dest - source)) = memory source := by
  have positive := toNat_sub_pos different
  have whole : (dest - source).toNat + (remaining - (dest - source).toNat) = remaining := by
    omega
  have arrived : source + BitVec.ofNat width (dest - source).toNat = dest := by
    rw [ofNat_toNat_sub]
    abel
  have back : copy 1 source dest remaining memory
      (dest + BitVec.ofNat width (dest - source).toNat + BitVec.ofNat width 0) =
      copy 1 source dest (dest - source).toNat memory (dest + BitVec.ofNat width 0) := by
    rw [← whole, ← copy_one_add, copy_first Nat.one_pos (by omega) Nat.one_pos (by omega), arrived]
  have front : copy 1 source dest (dest - source).toNat memory (dest + BitVec.ofNat width 0) =
      memory (source + BitVec.ofNat width 0) :=
    copy_first Nat.one_pos (by omega) Nat.one_pos positive
  rw [front, ofNat_toNat_sub] at back
  simpa using back

theorem copy_at_second (fits : remaining ≤ 2 ^ width) (near : (dest - source).toNat < chunk)
    (different : source ≠ dest) (several : chunk < remaining) :
    copy chunk source dest remaining memory (dest + BitVec.ofNat width chunk) =
      memory (source + BitVec.ofNat width (chunk - (dest - source).toNat)) := by
  have positive := toNat_sub_pos different
  have size : (BitVec.ofNat width chunk).toNat = chunk := by
    rw [BitVec.toNat_ofNat, Nat.mod_eq_of_lt (by omega)]
  have gap : source + BitVec.ofNat width chunk - dest =
      BitVec.ofNat width chunk - (dest - source) := by abel
  have place : (source + BitVec.ofNat width chunk - dest).toNat =
      chunk - (dest - source).toNat := by
    rw [gap, BitVec.toNat_sub_of_le (by rw [BitVec.le_def, size]; omega), size]
  have next : copy chunk source dest remaining memory
      (dest + BitVec.ofNat width chunk + BitVec.ofNat width 0) =
      move source dest chunk memory (source + BitVec.ofNat width chunk + BitVec.ofNat width 0) := by
    rw [copy_of_pos (by omega) (by omega), Nat.min_eq_right (by omega),
      copy_first (by omega) (by omega) (by omega) (by omega)]
  simp only [BitVec.add_zero] at next
  rw [next, move, if_pos (by omega), ← place, BitVec.ofNat_toNat, BitVec.setWidth_eq]

/-- Two sizes of chunks give the same for every contents exactly if no chunk sees another one, or
there is one chunk only. -/
theorem copy_eq_copy_iff [Nontrivial Item] {small large : Nat} (positive : 0 < small)
    (less : small < large) (fits : remaining ≤ 2 ^ width) :
    (∀ memory : BitVec width → Item,
        copy small source dest remaining memory = copy large source dest remaining memory) ↔
      remaining ≤ small ∨ Apart source dest (min remaining large) := by
  constructor
  · intro same
    by_contra overlapping
    obtain ⟨several, close⟩ := not_or.mp overlapping
    obtain ⟨different, near⟩ := not_or.mp close
    obtain ⟨one, other, distinct⟩ := exists_pair_ne Item
    have positiveDistance := toNat_sub_pos different
    rcases Nat.lt_or_ge (dest - source).toNat small with inFirst | behind
    · -- The second of the small chunks starts inside the first of the large ones.
      have again := congrFun (same fun address =>
        if address = source + BitVec.ofNat width small then one else other)
          (dest + BitVec.ofNat width small)
      rw [copy_at_second fits inFirst different (by omega), copy_first (by omega) fits less
        (by omega), if_pos rfl, if_neg] at again
      · exact distinct again.symm
      · intro equal
        have counts := ofNat_injOn (by omega) (by omega) (add_left_cancel equal)
        omega
    · -- The first byte of the source comes back, or the one at the destination is copied.
      have again := congrFun (same fun address => if address = source then one else other)
        (dest + (dest - source))
      have near : (dest - source).toNat < min remaining large := by omega
      rw [copy_eq_bytewise positive fits (Or.inr (by omega)),
        copy_one_at_distance fits different (by omega), if_pos rfl] at again
      rw [← ofNat_toNat_sub, copy_first (by omega) fits (by omega) (by omega), if_neg] at again
      · exact distinct again
      · intro equal
        rw [ofNat_toNat_sub] at equal
        exact different (sub_eq_zero.mp (add_eq_left.mp equal)).symm
  · rintro (single | apart) memory
    · rw [copy_of_le positive single, copy_of_le (by omega) (by omega)]
    · rw [copy_eq_bytewise positive fits (apart.mono (by omega)),
        copy_eq_bytewise (by omega) fits apart]

end ChunkedCopy

end Foundation
