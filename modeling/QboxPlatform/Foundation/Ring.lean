import Mathlib

/-!
# Rings of slots and the pointers that wrap around them

A bounded queue in an array.  Both ends count modulo twice the number of slots, which is a power
of two: the low bits of a count are a slot, and the bit above them tells a full ring from an
empty one.
-/

namespace Foundation.Ring

universe u

section Slots

variable {Entry : Type u} {capacity consumed : Nat} {cells cells' : Nat → Entry}
  {entries : List Entry}

/-- The entries lie in the ring in order, the first one in the slot of the given count. -/
structure Holds (capacity : Nat) (cells : Nat → Entry) (consumed : Nat)
    (entries : List Entry) : Prop where
  bounded : entries.length ≤ capacity
  stored : ∀ index (inside : index < entries.length),
    cells ((consumed + index) % capacity) = entries[index]

theorem slot_ne {first second : Nat} (ordered : first < second)
    (within : second < first + capacity) : first % capacity ≠ second % capacity := by
  intro same
  have divides : capacity ∣ second - first := (Nat.modEq_iff_dvd' ordered.le).mp same
  have large := Nat.le_of_dvd (by omega) divides
  omega

namespace Holds

theorem nil : Holds capacity cells consumed [] :=
  ⟨Nat.zero_le _, nofun⟩

/-- The slot behind the last entry belongs to no entry. -/
theorem free (holds : Holds capacity cells consumed entries)
    (room : entries.length < capacity) {index : Nat} (inside : index < entries.length) :
    (consumed + index) % capacity ≠ (consumed + entries.length) % capacity := by
  have := holds.bounded
  exact slot_ne (by omega) (by omega)

/-- Whatever happens in the slot behind the last entry. -/
theorem of_free (holds : Holds capacity cells consumed entries)
    (room : entries.length < capacity)
    (kept : ∀ slot < capacity, slot ≠ (consumed + entries.length) % capacity →
      cells' slot = cells slot) :
    Holds capacity cells' consumed entries := by
  refine ⟨holds.bounded, ?_⟩
  intro index inside
  rw [kept _ (Nat.mod_lt _ (by omega)) (holds.free room inside)]
  exact holds.stored index inside

theorem push (holds : Holds capacity cells consumed entries) {entry : Entry}
    (room : entries.length < capacity)
    (written : cells' ((consumed + entries.length) % capacity) = entry)
    (kept : ∀ slot < capacity, slot ≠ (consumed + entries.length) % capacity →
      cells' slot = cells slot) :
    Holds capacity cells' consumed (entries ++ [entry]) := by
  refine ⟨by simpa using room, ?_⟩
  intro index inside
  rcases Nat.lt_or_eq_of_le (Nat.le_of_lt_succ (by simpa using inside)) with old | rfl
  · rw [List.getElem_append_left old]
    exact (holds.of_free room kept).stored index old
  · simpa using written

theorem drop (holds : Holds capacity cells consumed entries) (count : Nat) :
    Holds capacity cells (consumed + count) (entries.drop count) := by
  refine ⟨?_, ?_⟩
  · have := holds.bounded
    rw [List.length_drop]
    omega
  · intro index inside
    rw [List.length_drop] at inside
    rw [List.getElem_drop, Nat.add_assoc]
    exact holds.stored (count + index) (by omega)

/-- The entries are what the slots hold. -/
theorem map_range (holds : Holds capacity cells consumed entries) :
    (List.range entries.length).map (fun index => cells ((consumed + index) % capacity)) =
      entries := by
  apply List.ext_getElem (by simp)
  intro index _ inside
  simpa using holds.stored index inside

end Holds

end Slots

section Pointers

variable {w log2 : Nat}

/-- The slot of a pointer. -/
def index (log2 : Nat) (pointer : BitVec w) : BitVec w :=
  pointer &&& (1#w <<< log2 - 1#w)

/-- The wrap bit of a pointer. -/
def wrap (log2 : Nat) (pointer : BitVec w) : BitVec w :=
  pointer &&& 1#w <<< log2

/-- The pointer to the next slot. -/
def next (log2 : Nat) (pointer : BitVec w) : BitVec w :=
  if index log2 pointer + 1#w = 1#w <<< log2 then
    wrap log2 pointer ^^^ 1#w <<< log2
  else wrap log2 pointer ||| (index log2 pointer + 1#w)

/-- How far one pointer is ahead of another one. -/
def ahead (log2 : Nat) (front back : BitVec w) : Nat :=
  (front - back).toNat % 2 ^ (log2 + 1)

/-- The pointer agrees with an unbounded count. -/
def Counts (log2 : Nat) (pointer : BitVec w) (count : Nat) : Prop :=
  pointer.toNat ≡ count [MOD 2 ^ (log2 + 1)]

theorem toNat_one_shiftLeft (fits : log2 < w) : (1#w <<< log2).toNat = 2 ^ log2 := by
  rw [← BitVec.twoPow_eq, BitVec.toNat_twoPow_of_lt fits]

theorem toNat_index (fits : log2 < w) (pointer : BitVec w) :
    (index log2 pointer).toNat = pointer.toNat % 2 ^ log2 := by
  have one : (1#w).toNat = 1 := Nat.one_mod_two_pow (by omega)
  have small : 1#w ≤ 1#w <<< log2 := by
    rw [BitVec.le_def, one, toNat_one_shiftLeft fits]
    exact Nat.one_le_two_pow
  rw [index, BitVec.toNat_and, BitVec.toNat_sub_of_le small, toNat_one_shiftLeft fits, one,
    Nat.and_two_pow_sub_one_eq_mod]

theorem toNat_wrap (fits : log2 < w) (pointer : BitVec w) :
    (wrap log2 pointer).toNat = 2 ^ log2 * (pointer.toNat / 2 ^ log2 % 2) := by
  rw [wrap, BitVec.toNat_and, toNat_one_shiftLeft fits, Nat.and_two_pow, Nat.toNat_testBit,
    Nat.mul_comm]

/-- A pointer is its wrap bit above its slot. -/
theorem mod_eq_wrap_add_index (fits : log2 < w) (pointer : BitVec w) :
    pointer.toNat % 2 ^ (log2 + 1) =
      (wrap log2 pointer).toNat + (index log2 pointer).toNat := by
  rw [toNat_wrap fits, toNat_index fits, Nat.mod_pow_succ, Nat.add_comm]

theorem toNat_next (fits : log2 < w) (pointer : BitVec w) :
    (next log2 pointer).toNat = (pointer.toNat + 1) % 2 ^ (log2 + 1) := by
  have below : pointer.toNat % 2 ^ log2 < 2 ^ log2 := Nat.mod_lt _ (Nat.two_pow_pos log2)
  have bounded : 2 ^ log2 < 2 ^ w := Nat.pow_lt_pow_right (by omega) fits
  have one : (1#w).toNat = 1 := Nat.one_mod_two_pow (by omega)
  have successor : (index log2 pointer + 1#w).toNat = pointer.toNat % 2 ^ log2 + 1 := by
    rw [BitVec.toNat_add, toNat_index fits, one, Nat.mod_eq_of_lt (by omega)]
  have split : (pointer.toNat + 1) % 2 ^ (log2 + 1) =
      (2 ^ log2 * (pointer.toNat / 2 ^ log2 % 2) + pointer.toNat % 2 ^ log2 + 1) %
        (2 ^ log2 * 2) := by
    rw [← Nat.mod_add_mod, mod_eq_wrap_add_index fits, toNat_wrap fits, toNat_index fits,
      Nat.pow_succ]
  have bit := Nat.mod_two_eq_zero_or_one (pointer.toNat / 2 ^ log2)
  rw [split]
  unfold next
  by_cases last : pointer.toNat % 2 ^ log2 + 1 = 2 ^ log2
  · -- the last slot: the index becomes zero and the wrap bit flips
    have wraps : index log2 pointer + 1#w = 1#w <<< log2 := by
      apply BitVec.eq_of_toNat_eq
      rw [successor, last, toNat_one_shiftLeft fits]
    rw [if_pos wraps, BitVec.toNat_xor, toNat_wrap fits, toNat_one_shiftLeft fits, Nat.add_assoc,
      last]
    rcases bit with clear | set
    · rw [clear, Nat.mul_zero, Nat.zero_xor, Nat.zero_add, Nat.mod_eq_of_lt (by omega)]
    · rw [set, Nat.mul_one, Nat.xor_self, ← Nat.mul_two, Nat.mod_self]
  · have stays : index log2 pointer + 1#w ≠ 1#w <<< log2 := by
      intro wraps
      apply last
      rw [← successor, wraps, toNat_one_shiftLeft fits]
    have small : 2 ^ log2 * (pointer.toNat / 2 ^ log2 % 2) + pointer.toNat % 2 ^ log2 + 1 <
        2 ^ log2 * 2 := by
      rcases bit with clear | set
      · rw [clear]
        omega
      · rw [set]
        omega
    rw [if_neg stays, BitVec.toNat_or, toNat_wrap fits, successor,
      ← Nat.two_pow_add_eq_or_of_lt (by omega), ← Nat.add_assoc, Nat.mod_eq_of_lt small]

/-- A pointer that moved ahead counts what it passed. -/
theorem counts_add_ahead (fits : log2 < w) {front back : BitVec w} {count : Nat}
    (counts : Counts log2 back count) : Counts log2 front (count + ahead log2 front back) := by
  have divides : 2 ^ (log2 + 1) ∣ 2 ^ w := Nat.pow_dvd_pow 2 fits
  calc front.toNat
      ≡ 2 ^ w + front.toNat [MOD 2 ^ (log2 + 1)] := by
        have shifted := ((Nat.modEq_zero_iff_dvd.mpr divides).add_right front.toNat).symm
        rwa [Nat.zero_add] at shifted
    _ = back.toNat + (2 ^ w - back.toNat + front.toNat) := by
        have := back.isLt
        omega
    _ ≡ count + ahead log2 front back [MOD 2 ^ (log2 + 1)] := by
        refine Nat.ModEq.add counts ?_
        rw [ahead, BitVec.toNat_sub, Nat.mod_mod_of_dvd _ divides]
        exact (Nat.mod_modEq _ _).symm

theorem ahead_of_counts (fits : log2 < w) {front back : BitVec w}
    {produced consumed : Nat} (producer : Counts log2 front produced)
    (consumer : Counts log2 back consumed) (ordered : consumed ≤ produced)
    (bounded : produced ≤ consumed + 2 ^ log2) :
    ahead log2 front back = produced - consumed := by
  have larger : 2 ^ log2 < 2 ^ (log2 + 1) := Nat.pow_lt_pow_succ (by omega)
  have passed : Counts log2 front (consumed + ahead log2 front back) :=
    counts_add_ahead fits consumer
  have congruent : consumed + ahead log2 front back ≡ consumed + (produced - consumed)
      [MOD 2 ^ (log2 + 1)] := by
    rw [Nat.add_sub_cancel' ordered]
    exact passed.symm.trans producer
  have same := Nat.ModEq.add_left_cancel' consumed congruent
  exact same.eq_of_lt_of_lt (Nat.mod_lt _ (Nat.two_pow_pos _)) (by omega)

theorem index_eq_iff (fits : log2 < w) {front back : BitVec w} :
    index log2 front = index log2 back ↔ front.toNat ≡ back.toNat [MOD 2 ^ log2] := by
  rw [← BitVec.toNat_inj, toNat_index fits, toNat_index fits]
  rfl

theorem index_eq_and_wrap_eq_iff (fits : log2 < w) {front back : BitVec w} :
    (index log2 front = index log2 back ∧ wrap log2 front = wrap log2 back) ↔
      front.toNat ≡ back.toNat [MOD 2 ^ (log2 + 1)] := by
  have slots := @index_eq_iff w log2 fits front back
  rw [Nat.ModEq, mod_eq_wrap_add_index fits, mod_eq_wrap_add_index fits]
  constructor
  · rintro ⟨sameIndex, sameWrap⟩
    rw [sameIndex, sameWrap]
  · intro same
    have sameIndex : index log2 front = index log2 back := by
      apply slots.mpr
      have whole : front.toNat ≡ back.toNat [MOD 2 ^ (log2 + 1)] := by
        rw [Nat.ModEq, mod_eq_wrap_add_index fits, mod_eq_wrap_add_index fits, same]
      exact whole.of_dvd (Nat.pow_dvd_pow 2 (Nat.le_succ log2))
    rw [sameIndex] at same
    exact ⟨sameIndex, BitVec.eq_of_toNat_eq (Nat.add_right_cancel same)⟩

/-- The slots agree and the wrap bits differ exactly when every slot is taken. -/
theorem full_iff (fits : log2 < w) {front back : BitVec w}
    {produced consumed : Nat} (producer : Counts log2 front produced)
    (consumer : Counts log2 back consumed) (ordered : consumed ≤ produced)
    (bounded : produced ≤ consumed + 2 ^ log2) :
    (index log2 front = index log2 back ∧ wrap log2 front ≠ wrap log2 back) ↔
      produced = consumed + 2 ^ log2 := by
  have larger : 2 ^ log2 < 2 ^ (log2 + 1) := Nat.pow_lt_pow_succ (by omega)
  have positive := Nat.two_pow_pos log2
  have divides : 2 ^ log2 ∣ 2 ^ (log2 + 1) := Nat.pow_dvd_pow 2 (Nat.le_succ log2)
  have sameSlot : index log2 front = index log2 back ↔ 2 ^ log2 ∣ produced - consumed := by
    rw [index_eq_iff fits, ← Nat.modEq_iff_dvd' ordered]
    constructor
    · intro same
      exact (consumer.of_dvd divides).symm.trans (same.symm.trans (producer.of_dvd divides))
    · intro same
      exact (producer.of_dvd divides).trans (same.symm.trans (consumer.of_dvd divides).symm)
  have samePointer : (index log2 front = index log2 back ∧ wrap log2 front = wrap log2 back) ↔
      produced = consumed := by
    rw [index_eq_and_wrap_eq_iff fits]
    constructor
    · intro same
      have counts : consumed ≡ produced [MOD 2 ^ (log2 + 1)] :=
        consumer.symm.trans (same.symm.trans producer)
      have := Nat.eq_zero_of_dvd_of_lt ((Nat.modEq_iff_dvd' ordered).mp counts) (by omega)
      omega
    · rintro rfl
      exact producer.trans consumer.symm
  rw [sameSlot] at samePointer ⊢
  constructor
  · rintro ⟨multiple, wraps⟩
    have apart : produced ≠ consumed := fun same => wraps (samePointer.mpr same).2
    have := Nat.le_of_dvd (by omega) multiple
    omega
  · rintro rfl
    refine ⟨by simp, fun wraps => ?_⟩
    have := samePointer.mp ⟨by simp, wraps⟩
    omega

end Pointers

end Foundation.Ring
