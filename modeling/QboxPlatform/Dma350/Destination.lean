import QboxPlatform.Dma350.Burst

/-!
# Where the DMA-350 writes

`FILL` and `COPY` decode their destination separately.  A copy takes both words of the address and
of the count, and elements of the size in the control register; a fill takes the low words only,
and elements of eight bytes.
-/

namespace QboxPlatform.Dma350

open Foundation Foundation.Ranges

variable {Memory : Type*} {bus : Bus Memory}

theorem written_stridedFillLoop (reliable : bus.Reliable) (data : List Byte)
    (destInc : BitVec 16) (count : Nat) (address : BitVec 64) (state : Memory × Bus.WriteLog) :
    Bus.written (stridedFillLoop bus.logged data destInc count address state).2.2 =
      Bus.written state.2 ∪ cells address destInc.toInt data.length count := by
  induction count generalizing address state with
  | zero => simp [stridedFillLoop]
  | succ count inductionHypothesis =>
      obtain ⟨next, accepted, log⟩ := reliable.logged_write state address data
      simp only [stridedFillLoop, accepted, if_true]
      rw [inductionHypothesis, log, Bus.written_concat, cells_succ, Set.union_assoc]

theorem written_fillBurst (reliable : bus.Reliable) {chunk : List Byte} (nonempty : chunk ≠ [])
    (remaining : Nat) (address : BitVec 64) (state : Memory × Bus.WriteLog) :
    Bus.written (fillBurst bus.logged chunk address remaining state).2.2 =
      Bus.written state.2 ∪ block address remaining := by
  induction remaining using Nat.strong_induction_on generalizing address state with
  | _ remaining inductionHypothesis =>
      rcases Nat.eq_zero_or_pos remaining with rfl | more
      · rw [fillBurst, if_pos (Or.inl rfl)]
        simp
      · have positive := List.length_pos_iff.mpr nonempty
        have whole : min remaining chunk.length + (remaining - min remaining chunk.length) =
            remaining := by omega
        have size : (chunk.take (min remaining chunk.length)).length =
            min remaining chunk.length := by
          rw [List.length_take]
          omega
        obtain ⟨next, accepted, log⟩ := reliable.logged_write state address
          (chunk.take (min remaining chunk.length))
        rw [fillBurst, if_neg (by rw [not_or]; exact ⟨by omega, nonempty⟩)]
        simp only [accepted, if_true]
        rw [inductionHypothesis _ (by omega), log, Bus.written_concat, size, Set.union_assoc,
          ← block_add, whole]

theorem written_copyElements (reliable : bus.Reliable) (sourceInc destInc : BitVec 16)
    {size : Nat} (count : Nat) (source dest : BitVec 64) {transfer : List Byte}
    (fits : size ≤ transfer.length) (state : Memory × Bus.WriteLog) :
    Bus.written
        (copyElements bus.logged sourceInc destInc size count source dest transfer state).2.2 =
      Bus.written state.2 ∪ cells dest destInc.toInt size count := by
  induction count generalizing source dest transfer state with
  | zero => simp [copyElements]
  | succ count inductionHypothesis =>
      obtain ⟨data, middle, delivered, length, kept⟩ := reliable.logged_read state source
        (transfer.take size)
      obtain ⟨next, accepted, log⟩ := reliable.logged_write middle dest data
      rw [List.length_take, Nat.min_eq_left fits] at length
      have refilled : size ≤ (data ++ transfer.drop size).length := by
        rw [List.length_append]
        omega
      simp only [copyElements, delivered, accepted, if_true]
      rw [inductionHypothesis _ _ refilled, log, kept, Bus.written_concat, length, cells_succ,
        Set.union_assoc]

theorem written_copyBurst (reliable : bus.Reliable) (remaining : Nat) (source dest : BitVec 64)
    {chunk : List Byte} (nonempty : chunk ≠ []) (state : Memory × Bus.WriteLog) :
    Bus.written (copyBurst bus.logged source dest remaining chunk state).2.2 =
      Bus.written state.2 ∪ block dest remaining := by
  induction remaining using Nat.strong_induction_on generalizing source dest chunk state with
  | _ remaining inductionHypothesis =>
      rcases Nat.eq_zero_or_pos remaining with rfl | more
      · rw [copyBurst, if_pos (Or.inl rfl)]
        simp
      · have positive := List.length_pos_iff.mpr nonempty
        have whole : min remaining chunk.length + (remaining - min remaining chunk.length) =
            remaining := by omega
        obtain ⟨data, middle, delivered, length, kept⟩ := reliable.logged_read state source
          (chunk.take (min remaining chunk.length))
        obtain ⟨next, accepted, log⟩ := reliable.logged_write middle dest data
        rw [List.length_take, Nat.min_eq_left (Nat.min_le_right _ _)] at length
        have refilled : data ++ chunk.drop (min remaining chunk.length) ≠ [] := by
          rw [← List.length_pos_iff, List.length_append]
          omega
        rw [copyBurst, if_neg (by rw [not_or]; exact ⟨by omega, nonempty⟩)]
        simp only [delivered, accepted, if_true]
        rw [inductionHypothesis _ (by omega) _ _ refilled, log, kept, Bus.written_concat, length,
          Set.union_assoc, ← block_add, whole]

/-- Every write of the log holds its part of a word that is repeated from an address on. -/
def Repeats (fillValue : BitVec 32) (start : BitVec 64) (log : Bus.WriteLog) : Prop :=
  ∀ entry ∈ log, ∀ index < entry.2.length,
    entry.2.getD index 0 =
      byteOf fillValue ((entry.1 + BitVec.ofNat 64 index - start).toNat % 4)

/-- Where an address lies in its word: the carry out of the address space is a whole word. -/
theorem phase_add (first second : BitVec 64) :
    (first + second).toNat % 4 = (first.toNat + second.toNat) % 4 := by
  rw [BitVec.toNat_add, Nat.mod_mod_of_dvd _ (by decide)]

theorem phase_ofNat (value : Nat) : (BitVec.ofNat 64 value).toNat % 4 = value % 4 := by
  rw [BitVec.toNat_ofNat, Nat.mod_mod_of_dvd _ (by decide)]

theorem repeats_concat {fillValue : BitVec 32} {start address : BitVec 64} {log : Bus.WriteLog}
    (repeats : Repeats fillValue start log) (aligned : (address - start).toNat % 4 = 0)
    (length : Nat) : Repeats fillValue start (log ++ [(address, fillChunk length fillValue)]) := by
  intro entry member
  rcases List.mem_append.mp member with old | new
  · exact repeats entry old
  · rw [List.mem_singleton] at new
    subst new
    intro index inside
    have place : address + BitVec.ofNat 64 index - start =
        (address - start) + BitVec.ofNat 64 index := by
      rw [add_sub_right_comm]
    have phase := phase_ofNat index
    rw [List.getD_eq_getElem _ _ inside, getElem_fillChunk, place, phase_add]
    congr 1
    omega

/-- A whole number of words further on, the word is repeated in the same way. -/
theorem Repeats.shift {fillValue : BitVec 32} {start shift : BitVec 64} {log : Bus.WriteLog}
    (repeats : Repeats fillValue start log) (aligned : shift.toNat % 4 = 0) :
    Repeats fillValue (start + shift) log := by
  intro entry member index inside
  have phase : ∀ place : BitVec 64, (place - (start + shift)).toNat % 4 =
      (place - start).toNat % 4 := by
    intro place
    have back := phase_add (place - (start + shift)) shift
    rw [sub_add_eq_sub_sub, sub_add_cancel] at back
    rw [sub_add_eq_sub_sub, back]
    omega
  rw [phase]
  exact repeats entry member index inside

theorem repeats_stridedFillLoop (reliable : bus.Reliable) (fillValue : BitVec 32)
    (destInc : BitVec 16) (count : Nat) {start address : BitVec 64}
    {state : Memory × Bus.WriteLog} (repeats : Repeats fillValue start state.2)
    (aligned : (address - start).toNat % 4 = 0) :
    Repeats fillValue start
      (stridedFillLoop bus.logged (fillChunk 8 fillValue) destInc count address state).2.2 := by
  induction count generalizing address state with
  | zero => exact repeats
  | succ count inductionHypothesis =>
      obtain ⟨next, accepted, log⟩ := reliable.logged_write state address (fillChunk 8 fillValue)
      simp only [stridedFillLoop, accepted, if_true]
      apply inductionHypothesis
      · rw [log]
        exact repeats_concat repeats aligned 8
      · have place : ∀ offset : BitVec 64, address + offset - start = (address - start) + offset :=
          fun offset => add_sub_right_comm _ _ _
        rw [place, BitVec.toNat_add, BitVec.toNat_ofInt, length_fillChunk]
        omega

theorem repeats_fillBurst (reliable : bus.Reliable) (fillValue : BitVec 32) {length : Nat}
    (positive : 0 < length) (wordwise : length % 4 = 0) (remaining : Nat)
    {start address : BitVec 64} {state : Memory × Bus.WriteLog}
    (repeats : Repeats fillValue start state.2) (aligned : (address - start).toNat % 4 = 0) :
    Repeats fillValue start
      (fillBurst bus.logged (fillChunk length fillValue) address remaining state).2.2 := by
  induction remaining using Nat.strong_induction_on generalizing address state with
  | _ remaining inductionHypothesis =>
      rcases Nat.eq_zero_or_pos remaining with rfl | more
      · rw [fillBurst, if_pos (Or.inl rfl)]
        exact repeats
      · have whole : ¬ (remaining = 0 ∨ fillChunk length fillValue = []) := by
          rw [not_or, ← ne_eq, ← ne_eq, ← List.length_pos_iff, length_fillChunk]
          exact ⟨by omega, positive⟩
        obtain ⟨next, accepted, log⟩ := reliable.logged_write state address
          (fillChunk (min remaining length) fillValue)
        rw [fillBurst, if_neg whole]
        simp only [length_fillChunk, take_fillChunk (Nat.min_le_right _ _), accepted, if_true]
        have logged : Repeats fillValue start next.2 := by
          rw [log]
          exact repeats_concat repeats aligned _
        rcases Nat.lt_or_ge remaining length with last | several
        · rw [Nat.min_eq_left last.le, Nat.sub_self, fillBurst, if_pos (Or.inl rfl)]
          exact logged
        · rw [Nat.min_eq_right several]
          apply inductionHypothesis _ (by omega) logged
          have phase := phase_ofNat length
          rw [add_sub_right_comm, phase_add]
          omega

/-- The low word of the number of destination elements, as `execute_fill` reads it. -/
def fillCount (regs : Image) (channelBase : Nat) : Nat :=
  ((regs.load32 (channelBase + chXsize) >>> 16) &&& 0xffff#32).toNat

/-- The high word of the number of destination elements. -/
def fillCountHigh (regs : Image) (channelBase : Nat) : Nat :=
  ((regs.load32 (channelBase + chXsizehi) >>> 16) &&& 0xffff#32).toNat

def destIncrement (regs : Image) (channelBase : Nat) : BitVec 16 :=
  signExtend16 (regs.load32 (channelBase + chXaddrinc) >>> 16)

def transferBytes (regs : Image) (channelBase : Nat) : Nat :=
  transferBytesFromCtrl (regs.load32 (channelBase + chCtrl))

theorem written_executeFill (reliable : bus.Reliable) (regs : Image) (channelBase : Nat)
    (memory : Memory) :
    Bus.written (executeFill bus.logged regs channelBase (memory, [])).2.2 =
      cells ((regs.load32 (channelBase + chDesaddr)).setWidth 64)
        (destIncrement regs channelBase).toInt 8 (fillCount regs channelBase) := by
  have nonempty : fillChunk fillChunkBytes (regs.load32 (channelBase + chFillval)) ≠ [] := by
    rw [← List.length_pos_iff, length_fillChunk]
    exact Nat.succ_pos _
  simp only [executeFill, executeStridedFill]
  split_ifs with none strided
  · rw [fillCount, none, cells_zero, Bus.written_nil]
  · rw [written_stridedFillLoop reliable, length_fillChunk, Bus.written_nil, Set.empty_union]
    rfl
  · have single : destIncrement regs channelBase = 1 := not_not.mp strided
    have one : (1 : BitVec 16).toInt = 1 := by decide
    rw [written_fillBurst reliable nonempty, Bus.written_nil, Set.empty_union, single, one,
      cells_one]
    rfl

theorem repeats_executeFill (reliable : bus.Reliable) (regs : Image) (channelBase : Nat)
    (memory : Memory) :
    Repeats (regs.load32 (channelBase + chFillval))
      ((regs.load32 (channelBase + chDesaddr)).setWidth 64)
      (executeFill bus.logged regs channelBase (memory, [])).2.2 := by
  have empty : ∀ start, Repeats (regs.load32 (channelBase + chFillval)) start
      (memory, ([] : Bus.WriteLog)).2 := by
    intro start entry member
    cases member
  have aligned : ∀ start : BitVec 64, (start - start).toNat % 4 = 0 := by
    intro start
    rw [sub_self]
    rfl
  simp only [executeFill, executeStridedFill]
  split_ifs
  · exact empty _
  · exact repeats_stridedFillLoop reliable _ _ _ (empty _) (aligned _)
  · exact repeats_fillBurst reliable _ (Nat.succ_pos _) rfl _ (empty _) (aligned _)

theorem written_executeCopy (reliable : bus.Reliable) {regs : Image} {channelBase : Nat}
    (memory : Memory)
    (enough : (destXsize regs channelBase).toNat ≤ (sourceXsize regs channelBase).toNat) :
    Bus.written (executeCopy bus.logged regs channelBase (memory, [])).2.2 =
      cells (channelAddress regs channelBase chDesaddr) (destIncrement regs channelBase).toInt
        (transferBytes regs channelBase) (destXsize regs channelBase).toNat := by
  have fits : transferBytesFromCtrl (regs.load32 (channelBase + chCtrl)) ≤
      (List.replicate 128 (0 : Byte)).length := transferBytes_le _
  have nonempty : List.replicate copyChunkBytes (0 : Byte) ≠ [] := by
    rw [← List.length_pos_iff, List.length_replicate]
    exact Nat.succ_pos _
  simp only [executeCopy, Nat.min_eq_right enough]
  split_ifs with none ones
  · rw [none, cells_zero, Bus.written_nil]
  · have single : destIncrement regs channelBase = 1 := ones.2
    have one : (1 : BitVec 16).toInt = 1 := by decide
    rw [written_copyBurst reliable _ _ _ nonempty, Bus.written_nil, Set.empty_union, single, one,
      cells_one]
    rfl
  · rw [written_copyElements reliable _ _ _ _ _ fits, Bus.written_nil, Set.empty_union]
    rfl

theorem masked_lt (word : BitVec 32) : (word &&& 0xffff#32).toNat < 2 ^ 16 := by
  have small : (word &&& 0xffff#32).toNat ≤ (0xffff#32).toNat := by
    rw [BitVec.toNat_and]
    exact Nat.and_le_right
  exact Nat.lt_succ_of_le small

/-- The count of a copy has a high word. -/
theorem destXsize_toNat (regs : Image) (channelBase : Nat) :
    (destXsize regs channelBase).toNat =
      fillCount regs channelBase + 0x10000 * fillCountHigh regs channelBase := by
  have low := masked_lt (regs.load32 (channelBase + chXsize) >>> 16)
  have high := masked_lt (regs.load32 (channelBase + chXsizehi) >>> 16)
  have shifted : (((regs.load32 (channelBase + chXsizehi) >>> 16) &&& 0xffff#32) <<< 16).toNat =
      fillCountHigh regs channelBase <<< 16 := by
    rw [BitVec.toNat_shiftLeft, fillCountHigh, Nat.mod_eq_of_lt]
    rw [Nat.shiftLeft_eq]
    omega
  rw [destXsize, BitVec.toNat_or, shifted, Nat.or_comm, ← Nat.shiftLeft_add_eq_or_of_lt low,
    Nat.shiftLeft_eq, Nat.add_comm, Nat.mul_comm]
  rfl

/-- The address of a copy has a high word. -/
theorem channelAddress_eq_add (regs : Image) (channelBase lowOffset : Nat) :
    channelAddress regs channelBase lowOffset =
      (regs.load32 (channelBase + lowOffset)).setWidth 64 +
        (regs.load32 (channelBase + lowOffset + 4)).setWidth 64 <<< 32 := by
  rw [channelAddress, BitVec.add_eq_or_of_and_eq_zero]
  apply BitVec.eq_of_getLsbD_eq
  intro bit inside
  simp only [BitVec.getLsbD_and, BitVec.getLsbD_setWidth, BitVec.getLsbD_shiftLeft]
  rcases Nat.lt_or_ge bit 32 with low | high
  · simp [low]
  · rw [BitVec.getLsbD_of_ge _ _ high]
    simp

theorem high_shift_eq_zero_iff (word : BitVec 32) :
    (word.setWidth 64 : BitVec 64) <<< 32 = 0 ↔ word = 0 := by
  constructor
  · intro zero
    have value := congrArg BitVec.toNat zero
    have small := word.isLt
    have none : (0 : BitVec 64).toNat = 0 := rfl
    rw [BitVec.toNat_shiftLeft, BitVec.toNat_setWidth, Nat.mod_eq_of_lt (by omega),
      Nat.shiftLeft_eq, Nat.mod_eq_of_lt (by omega), none] at value
    have nothing : word.toNat = 0 := by omega
    exact BitVec.eq_of_toNat_eq nothing
  · rintro rfl
    rfl

section Geometry

variable {start shift : BitVec 64} {increment : BitVec 16} {size low high : Nat}

theorem increment_abs_le (increment : BitVec 16) : |increment.toInt| ≤ 2 ^ 15 := by
  have lower := BitVec.le_toInt increment
  have upper := @BitVec.toInt_lt _ increment
  rw [abs_le]
  omega

/-- The elements of a channel are far from filling half of the address space. -/
theorem extent_le (increment : BitVec 16) {count : Nat} (small : size ≤ 8) (few : count < 2 ^ 32) :
    |increment.toInt| * size * count + size < 2 ^ 63 := by
  have near := increment_abs_le increment
  have product : |increment.toInt| * size * count ≤ 2 ^ 15 * 8 * 2 ^ 32 := by
    gcongr
    · exact_mod_cast small
    · exact_mod_cast few.le
  omega

theorem start_mem_cells {increment : Int} {count : Nat} (positive : 0 < size)
    (several : 0 < count) : start ∈ cells start increment size count := by
  refine ⟨0, several, ?_⟩
  simpa using positive

/-- Elements of a channel that are shifted onto themselves are not shifted. -/
theorem shift_eq_zero_of_cells_eq (several : 0 < low) (few : low < 2 ^ 16)
    (same : cells start increment.toInt 8 low = cells (start + shift) increment.toInt 8 low) :
    shift = 0 := by
  have extent := extent_le increment (le_refl 8) (show low < 2 ^ 32 by omega)
  have fits : 8 ≤ 2 ^ 64 := by omega
  have member : start ∈ cells start increment.toInt 8 low := start_mem_cells (by omega) several
  apply shift_eq_zero member
  · intro target member
    obtain ⟨index, inside, offset, small, rfl⟩ := (mem_cells_iff fits).mp member
    have indexBound : |(index : Int)| ≤ low := by
      rw [Nat.abs_cast]
      exact_mod_cast inside.le
    have offsetBound : |(offset : Int)| < (8 : Nat) := by
      rw [Nat.abs_cast]
      exact_mod_cast small
    have near := @abs_offset_lt increment.toInt 8 low _ _ indexBound offsetBound
    exact ⟨_, near.trans extent, rfl⟩
  · intro target member
    rw [same]
    exact (cells_shift start shift _ _ _).mpr member

/-- An odd multiple of a number of 16 bits has no high word alone. -/
theorem odd_mul_ne {odd : Nat} (coprime : Nat.Coprime (2 ^ 16) odd) (few : low < 2 ^ 16)
    (several : low ≠ 0) : odd * low ≠ 2 ^ 16 * high := by
  intro equal
  have divides : 2 ^ 16 ∣ low := coprime.dvd_of_dvd_mul_left ⟨high, equal⟩
  exact absurd (Nat.le_of_dvd (Nat.pos_of_ne_zero several) divides) few.not_ge

/-- Elements that do not stay in place have their number and size in common with as many bytes. -/
theorem moving_cells_eq (few : low < 2 ^ 16) (fewHigh : high < 2 ^ 16) (several : low ≠ 0)
    {exponent : Nat} (small : exponent ≤ 3) (moves : increment.toInt ≠ 0)
    (same : cells start increment.toInt 8 low =
      cells (start + shift) increment.toInt (2 ^ exponent) (low + 0x10000 * high)) :
    exponent = 3 ∧ high = 0 := by
  have sizeBound : 2 ^ exponent ≤ 8 := Nat.pow_le_pow_right Nat.two_pos small
  have sizes : low * 8 = (low + 0x10000 * high) * 2 ^ exponent := by
    have firstFits := (extent_le increment (le_refl 8) (show low < 2 ^ 32 by omega)).le
    have secondFits := (extent_le increment sizeBound
      (show low + 0x10000 * high < 2 ^ 32 by omega)).le
    have numbers := congrArg Set.ncard same
    rwa [ncard_cells moves (firstFits.trans (by norm_num)),
      ncard_cells moves (secondFits.trans (by norm_num))] at numbers
  interval_cases exponent
  · exact (@odd_mul_ne low high 7 (by decide) few several (by linarith)).elim
  · exact (@odd_mul_ne low high 3 (by decide) few several (by linarith)).elim
  · omega
  · omega

theorem staying_cells_eq (several : low ≠ 0) {exponent : Nat} (small : exponent ≤ 3)
    (same : cells start 0 8 low =
      cells (start + shift) 0 (2 ^ exponent) (low + 0x10000 * high)) : exponent = 3 := by
  have sizeBound : 2 ^ exponent ≤ 8 := Nat.pow_le_pow_right Nat.two_pos small
  rw [cells_stay (by omega), cells_stay (by omega)] at same
  have sizes := congrArg Set.ncard same
  rw [ncard_block (by omega), ncard_block (by omega)] at sizes
  exact (Nat.pow_right_injective (le_refl 2) (sizes.symm.trans (by norm_num : 8 = 2 ^ 3)))

/-- Elements of eight bytes at the low address, and as many as the low word of the count says,
are those of the other size, address and count only if the high words are zero. -/
theorem cells_eq_cells_iff (few : low < 2 ^ 16) (fewHigh : high < 2 ^ 16) {exponent : Nat}
    (small : exponent ≤ 3) :
    cells start increment.toInt 8 low =
        cells (start + shift) increment.toInt (2 ^ exponent) (low + 0x10000 * high) ↔
      (low = 0 ∧ high = 0) ∨
        (low ≠ 0 ∧ shift = 0 ∧ exponent = 3 ∧ (high = 0 ∨ increment = 0)) := by
  have stays : increment.toInt = 0 ↔ increment = 0 :=
    @BitVec.toInt_inj 16 increment 0
  constructor
  · intro same
    rcases Nat.eq_zero_or_pos low with rfl | several
    · left
      by_contra more
      have member : start + shift ∈
          cells (start + shift) increment.toInt (2 ^ exponent) (0 + 0x10000 * high) :=
        start_mem_cells (Nat.two_pow_pos _) (by omega)
      rw [← same, cells_zero] at member
      exact member
    · right
      have parts : exponent = 3 ∧ (high = 0 ∨ increment = 0) := by
        by_cases moves : increment.toInt = 0
        · rw [moves] at same
          exact ⟨staying_cells_eq several.ne' small same, Or.inr (stays.mp moves)⟩
        · obtain ⟨double, none⟩ := moving_cells_eq few fewHigh several.ne' small moves same
          exact ⟨double, Or.inl none⟩
      obtain ⟨rfl, alike⟩ := parts
      have shifted : cells start increment.toInt 8 low =
          cells (start + shift) increment.toInt 8 low := by
        rcases alike with rfl | rfl
        · exact same
        · rw [stays.mpr rfl] at same ⊢
          rw [same, cells_stay (by omega), cells_stay several]
          rfl
      exact ⟨several.ne', shift_eq_zero_of_cells_eq several few shifted, rfl, alike⟩
  · rintro (⟨rfl, rfl⟩ | ⟨several, rfl, rfl, rfl | rfl⟩)
    · simp
    · rw [Nat.mul_zero, Nat.add_zero, add_zero]
      rfl
    · rw [stays.mpr rfl, cells_stay (by omega), cells_stay (by omega), add_zero]
      rfl

end Geometry

/-- Registers of a copy that name the destination of a fill. -/
structure SameDestination (regs copyRegs : Image) (channelBase : Nat) : Prop where
  address :
    channelAddress copyRegs channelBase chDesaddr = channelAddress regs channelBase chDesaddr
  xsize : destXsize copyRegs channelBase = destXsize regs channelBase
  increment : destIncrement copyRegs channelBase = destIncrement regs channelBase
  transfer : transferBytes copyRegs channelBase = transferBytes regs channelBase

/-- `TRANSIZE`. -/
def transize (regs : Image) (channelBase : Nat) : Nat :=
  (regs.load32 (channelBase + chCtrl) &&& 0x7).toNat

/-- A fill writes the bytes of a copy, with the fill value repeated from the start of the
destination on, exactly if the high words of the address and of the count do not matter and the
elements have eight bytes. -/
theorem fill_like_copy_iff (reliable : bus.Reliable) (memory : Memory) {regs copyRegs : Image}
    {channelBase : Nat} (small : transize regs channelBase ≤ 3)
    (same : SameDestination regs copyRegs channelBase)
    (enough : (destXsize regs channelBase).toNat ≤ (sourceXsize copyRegs channelBase).toNat) :
    (Bus.written (executeFill bus.logged regs channelBase (memory, [])).2.2 =
        Bus.written (executeCopy bus.logged copyRegs channelBase (memory, [])).2.2 ∧
      Repeats (regs.load32 (channelBase + chFillval)) (channelAddress regs channelBase chDesaddr)
        (executeFill bus.logged regs channelBase (memory, [])).2.2) ↔
      (fillCount regs channelBase = 0 ∧ fillCountHigh regs channelBase = 0) ∨
        (fillCount regs channelBase ≠ 0 ∧ regs.load32 (channelBase + chDesaddrhi) = 0 ∧
          transize regs channelBase = 3 ∧
          (fillCountHigh regs channelBase = 0 ∨ destIncrement regs channelBase = 0)) := by
  have copied := written_executeCopy reliable memory (same.xsize ▸ enough)
  rw [same.address, same.xsize, same.increment, same.transfer, destXsize_toNat,
    channelAddress_eq_add] at copied
  have few : fillCount regs channelBase < 2 ^ 16 := masked_lt _
  have fewHigh : fillCountHigh regs channelBase < 2 ^ 16 := masked_lt _
  have size : transferBytes regs channelBase = 2 ^ transize regs channelBase := by
    rw [transferBytes, transferBytesFromCtrl, Nat.one_shiftLeft, transize]
  have cells := @cells_eq_cells_iff ((regs.load32 (channelBase + chDesaddr)).setWidth 64)
    ((regs.load32 (channelBase + chDesaddr + 4)).setWidth 64 <<< 32)
    (destIncrement regs channelBase) _ _ few fewHigh _ small
  have pattern : Repeats (regs.load32 (channelBase + chFillval))
      (channelAddress regs channelBase chDesaddr)
      (executeFill bus.logged regs channelBase (memory, [])).2.2 := by
    rw [channelAddress_eq_add]
    apply (repeats_executeFill reliable regs channelBase memory).shift
    rw [BitVec.toNat_shiftLeft, Nat.shiftLeft_eq]
    omega
  rw [written_executeFill reliable, copied, size, cells, high_shift_eq_zero_iff,
    and_iff_left pattern]
  rfl

/-- The first channel, with one element of eight bytes to be written. -/
def singleElement (ctrl desaddrhi : BitVec 32) : Image :=
  let zero : Image := fun _ => 0
  let control := zero.store32 (chBase + chCtrl) ctrl
  let low := control.store32 (chBase + chDesaddr) 0x20
  let address := low.store32 (chBase + chDesaddrhi) desaddrhi
  let counted := address.store32 (chBase + chXsize) 0x00010001
  let stepped := counted.store32 (chBase + chXaddrinc) 0x00010000
  stepped.store32 (chBase + chFillval) 0xa5a55a5a

/-- The same channel with three elements, each of them behind a gap of the same size. -/
def stridedElements (ctrl : BitVec 32) : Image :=
  let counted := (singleElement ctrl 0).store32 (chBase + chXsize) 0x00030003
  counted.store32 (chBase + chXaddrinc) 0x00020000

theorem fill_like_copy_strided :
    Bus.written (executeFill Bus.ram.logged (stridedElements 0x01200603) chBase
          (fun _ => 0, [])).2.2 =
        Bus.written (executeCopy Bus.ram.logged (stridedElements 0x01200203) chBase
          (fun _ => 0, [])).2.2 ∧
      Repeats ((stridedElements 0x01200603).load32 (chBase + chFillval))
        (channelAddress (stridedElements 0x01200603) chBase chDesaddr)
        (executeFill Bus.ram.logged (stridedElements 0x01200603) chBase (fun _ => 0, [])).2.2 :=
  (fill_like_copy_iff Bus.ram_reliable _ (by decide) ⟨by decide, by decide, by decide, by decide⟩
    (by decide)).mpr (Or.inr (by decide))

/-- Above the first 4 GiB, the fill goes to another place than the copy. -/
theorem fill_unlike_copy_high :
    transize (singleElement 0x01200603 1) chBase ≤ 3 ∧
      SameDestination (singleElement 0x01200603 1) (singleElement 0x01200203 1) chBase ∧
      (destXsize (singleElement 0x01200603 1) chBase).toNat ≤
        (sourceXsize (singleElement 0x01200203 1) chBase).toNat ∧
      Bus.written (executeFill Bus.ram.logged (singleElement 0x01200603 1) chBase
          (fun _ => 0, [])).2.2 ≠
        Bus.written (executeCopy Bus.ram.logged (singleElement 0x01200203 1) chBase
          (fun _ => 0, [])).2.2 := by
  refine ⟨by decide, ⟨by decide, by decide, by decide, by decide⟩, by decide, ?_⟩
  intro same
  have count : fillCount (singleElement 0x01200603 1) chBase = 1 := by decide
  have copyCount : (destXsize (singleElement 0x01200203 1) chBase).toNat = 1 := by decide
  have size : transferBytes (singleElement 0x01200203 1) chBase = 8 := by decide
  have low : ((singleElement 0x01200603 1).load32 (chBase + chDesaddr)).setWidth 64 =
      (0x20 : BitVec 64) := by decide
  have high : channelAddress (singleElement 0x01200203 1) chBase chDesaddr = 0x100000020 := by
    decide
  rw [written_executeFill Bus.ram_reliable, written_executeCopy Bus.ram_reliable _ (by decide),
    count, copyCount, size, low, high] at same
  have member : (0x20 : BitVec 64) ∈
      cells 0x20 (destIncrement (singleElement 0x01200603 1) chBase).toInt 8 1 :=
    start_mem_cells (by decide) Nat.one_pos
  rw [same] at member
  obtain ⟨index, first, inside⟩ := member
  obtain rfl : index = 0 := by omega
  simp at inside

end QboxPlatform.Dma350
