import QboxPlatform.Dma350.Channel
import QboxPlatform.Foundation.ChunkedCopy

/-!
# Bursts of the DMA-350

Increments of one are served in chunks that are longer than an element.  A filled range does not
show it; a copied one does where the destination starts inside the part of the source that is still
to be read.
-/

namespace QboxPlatform.Dma350

open Foundation

variable {Memory : Type*} {bus : Bus Memory} {content : Memory → BitVec 64 → Byte}

theorem ofInt_one_mul (size : Nat) :
    BitVec.ofInt 64 ((1 : BitVec 16).toInt * (size : Int)) = BitVec.ofNat 64 size := by
  have one : (1 : BitVec 16).toInt = 1 := by decide
  rw [one, one_mul, BitVec.ofInt_natCast]

theorem transferBytes_pos (ctrl : BitVec 32) : 0 < transferBytesFromCtrl ctrl := by
  rw [transferBytesFromCtrl, Nat.one_shiftLeft]
  exact Nat.two_pow_pos _

theorem transferBytes_le (ctrl : BitVec 32) : transferBytesFromCtrl ctrl ≤ 128 := by
  have small : (ctrl &&& 0x7).toNat ≤ 7 := by
    rw [BitVec.toNat_and]
    exact Nat.and_le_right
  rw [transferBytesFromCtrl, Nat.one_shiftLeft]
  exact Nat.pow_le_pow_right (by omega) small

/-- A chunk that is read and written moves its bytes. -/
theorem content_write_slice (writable : bus.Writable content) (memory : Memory)
    (source dest : BitVec 64) (length : Nat) :
    content (bus.write memory dest (Bus.slice (content memory) source length)).2 =
      ChunkedCopy.move source dest length (content memory) := by
  funext target
  rw [writable.content_write, ChunkedCopy.move]
  by_cases inside : (target - dest).toNat < length
  · rw [if_pos inside, List.getD_eq_getElem _ _ (by rwa [Bus.length_slice])]
    simp only [Bus.slice, List.getElem_map, List.getElem_range, BitVec.ofNat_toNat,
      BitVec.setWidth_eq]
  · rw [if_neg inside, List.getD_eq_default]
    rw [Bus.length_slice]
    omega

theorem copyBurst_of_pos (writable : bus.Writable content) {source dest : BitVec 64}
    {remaining : Nat} {chunk : List Byte} {memory : Memory} (more : 0 < remaining)
    (nonempty : 0 < chunk.length) :
    copyBurst bus source dest remaining chunk memory =
      copyBurst bus (source + BitVec.ofNat 64 (min remaining chunk.length))
        (dest + BitVec.ofNat 64 (min remaining chunk.length))
        (remaining - min remaining chunk.length)
        (Bus.slice (content memory) source (min remaining chunk.length) ++
          chunk.drop (min remaining chunk.length))
        (bus.write memory dest
          (Bus.slice (content memory) source (min remaining chunk.length))).2 := by
  have whole : ¬ (remaining = 0 ∨ chunk = []) := by
    rw [not_or, ← ne_eq, ← ne_eq, ← List.length_pos_iff]
    exact ⟨by omega, nonempty⟩
  have size : (chunk.take (min remaining chunk.length)).length = min remaining chunk.length := by
    rw [List.length_take]
    omega
  rw [copyBurst, if_neg whole]
  simp only [writable.read_eq, size, writable.write_ok, if_true]

theorem length_refilled {source : BitVec 64} {length : Nat} {chunk : List Byte}
    (fits : length ≤ chunk.length) (bytes : BitVec 64 → Byte) :
    (Bus.slice bytes source length ++ chunk.drop length).length = chunk.length := by
  rw [List.length_append, Bus.length_slice, List.length_drop]
  omega

/-- The burst copies in chunks of the length of its buffer. -/
theorem copyBurst_content (writable : bus.Writable content) {source dest : BitVec 64}
    {remaining : Nat} {chunk : List Byte} {memory : Memory} (nonempty : 0 < chunk.length) :
    (copyBurst bus source dest remaining chunk memory).1 = true ∧
      content (copyBurst bus source dest remaining chunk memory).2 =
        ChunkedCopy.copy chunk.length source dest remaining (content memory) := by
  induction remaining using Nat.strong_induction_on generalizing source dest chunk memory with
  | _ remaining inductionHypothesis =>
      rcases Nat.eq_zero_or_pos remaining with rfl | more
      · rw [copyBurst, if_pos (Or.inl rfl), ChunkedCopy.copy_zero]
        exact ⟨rfl, rfl⟩
      · have fits : min remaining chunk.length ≤ chunk.length := Nat.min_le_right _ _
        have refilled := @length_refilled source _ _ fits (content memory)
        rw [copyBurst_of_pos writable more nonempty, ChunkedCopy.copy_of_pos nonempty more,
          ← content_write_slice writable]
        have later := @inductionHypothesis (remaining - min remaining chunk.length) (by omega)
          (source + BitVec.ofNat 64 (min remaining chunk.length))
          (dest + BitVec.ofNat 64 (min remaining chunk.length)) _
          (bus.write memory dest
            (Bus.slice (content memory) source (min remaining chunk.length))).2
          (refilled.symm ▸ nonempty)
        rwa [refilled] at later

theorem copyElements_succ (writable : bus.Writable content) {source dest : BitVec 64}
    {sourceInc destInc : BitVec 16} {size count : Nat} {transfer : List Byte} {memory : Memory}
    (fits : size ≤ transfer.length) :
    copyElements bus sourceInc destInc size (count + 1) source dest transfer memory =
      copyElements bus sourceInc destInc size count
        (source + BitVec.ofInt 64 (sourceInc.toInt * (size : Int)))
        (dest + BitVec.ofInt 64 (destInc.toInt * (size : Int)))
        (Bus.slice (content memory) source size ++ transfer.drop size)
        (bus.write memory dest (Bus.slice (content memory) source size)).2 := by
  have length : (transfer.take size).length = size := by
    rw [List.length_take]
    omega
  simp only [copyElements, writable.read_eq, length, writable.write_ok, if_true]

/-- The loop over elements copies in chunks of the size of an element. -/
theorem copyElements_content (writable : bus.Writable content) {source dest : BitVec 64}
    {size count : Nat} {transfer : List Byte} {memory : Memory} (positive : 0 < size)
    (fits : size ≤ transfer.length) :
    (copyElements bus 1 1 size count source dest transfer memory).1 = true ∧
      content (copyElements bus 1 1 size count source dest transfer memory).2 =
        ChunkedCopy.copy size source dest (count * size) (content memory) := by
  induction count generalizing source dest transfer memory with
  | zero =>
      rw [Nat.zero_mul, ChunkedCopy.copy_zero]
      exact ⟨rfl, rfl⟩
  | succ count inductionHypothesis =>
      have more : 0 < (count + 1) * size := Nat.mul_pos (Nat.succ_pos count) positive
      have whole : (count + 1) * size = count * size + size := Nat.succ_mul count size
      have first : min ((count + 1) * size) size = size := by omega
      have rest : (count + 1) * size - size = count * size := by omega
      have refilled := @length_refilled source _ _ fits (content memory)
      rw [copyElements_succ writable fits, ChunkedCopy.copy_of_pos positive more, first, rest,
        ← content_write_slice writable, ofInt_one_mul]
      exact inductionHypothesis (refilled.symm ▸ fits)

/-- A range that holds a repeated word. -/
def patterned (dest : BitVec 64) (total : Nat) (fillValue : BitVec 32)
    (bytes : BitVec 64 → Byte) : BitVec 64 → Byte :=
  fun target =>
    if (target - dest).toNat < total then byteOf fillValue ((target - dest).toNat % 4)
    else bytes target

@[simp]
theorem patterned_zero (dest : BitVec 64) (fillValue : BitVec 32) (bytes : BitVec 64 → Byte) :
    patterned dest 0 fillValue bytes = bytes := by
  funext target
  rw [patterned, if_neg (Nat.not_lt_zero _)]

@[simp]
theorem length_fillChunk (count : Nat) (fillValue : BitVec 32) :
    (fillChunk count fillValue).length = count := by
  simp [fillChunk]

theorem getElem_fillChunk {count index : Nat} {fillValue : BitVec 32}
    (inside : index < (fillChunk count fillValue).length) :
    (fillChunk count fillValue)[index] = byteOf fillValue (index % 4) := by
  simp only [fillChunk, List.getElem_map, List.getElem_range]
  rw [Nat.and_two_pow_sub_one_eq_mod index 2]

theorem take_fillChunk {taken count : Nat} (fits : taken ≤ count) (fillValue : BitVec 32) :
    (fillChunk count fillValue).take taken = fillChunk taken fillValue := by
  rw [fillChunk, ← List.map_take, List.take_range, Nat.min_eq_left fits, fillChunk]

theorem content_write_fillChunk (writable : bus.Writable content) (memory : Memory)
    (dest : BitVec 64) (length : Nat) (fillValue : BitVec 32) :
    content (bus.write memory dest (fillChunk length fillValue)).2 =
      patterned dest length fillValue (content memory) := by
  funext target
  rw [writable.content_write, patterned]
  by_cases inside : (target - dest).toNat < length
  · rw [if_pos inside, List.getD_eq_getElem _ _ (by rwa [length_fillChunk]), getElem_fillChunk]
  · rw [if_neg inside, List.getD_eq_default]
    rw [length_fillChunk]
    omega

/-- A pattern goes on behind a whole number of words. -/
theorem patterned_add (dest : BitVec 64) {first : Nat} (second : Nat) (fillValue : BitVec 32)
    (bytes : BitVec 64 → Byte) (aligned : first % 4 = 0) (small : first < 2 ^ 64) :
    patterned (dest + BitVec.ofNat 64 first) second fillValue
        (patterned dest first fillValue bytes) =
      patterned dest (first + second) fillValue bytes := by
  funext target
  simp only [patterned]
  rcases Nat.lt_or_ge (target - dest).toNat first with inFirst | behind
  · have place := Ranges.toNat_sub_ofNat_add_of_lt inFirst (Nat.le_of_lt small)
    have phase : (target - (dest + BitVec.ofNat 64 first)).toNat % 4 =
        (target - dest).toNat % 4 := by omega
    rw [phase, if_pos inFirst, ite_self, if_pos (by omega)]
  · have place := Ranges.toNat_sub_ofNat_add behind
    have phase : (target - (dest + BitVec.ofNat 64 first)).toNat % 4 =
        (target - dest).toNat % 4 := by omega
    rw [phase, if_neg (Nat.not_lt.mpr behind), place]
    by_cases inside : (target - dest).toNat < first + second
    · rw [if_pos (by omega), if_pos inside]
    · rw [if_neg (by omega), if_neg inside]

theorem fillBurst_content (writable : bus.Writable content) {length : Nat}
    {fillValue : BitVec 32} {dest : BitVec 64} {remaining : Nat} {memory : Memory}
    (positive : 0 < length) (aligned : length % 4 = 0) (small : length < 2 ^ 64) :
    (fillBurst bus (fillChunk length fillValue) dest remaining memory).1 = true ∧
      content (fillBurst bus (fillChunk length fillValue) dest remaining memory).2 =
        patterned dest remaining fillValue (content memory) := by
  induction remaining using Nat.strong_induction_on generalizing dest memory with
  | _ remaining inductionHypothesis =>
      rcases Nat.eq_zero_or_pos remaining with rfl | more
      · rw [fillBurst, if_pos (Or.inl rfl), patterned_zero]
        exact ⟨rfl, rfl⟩
      · have whole : ¬ (remaining = 0 ∨ fillChunk length fillValue = []) := by
          rw [not_or, ← ne_eq, ← ne_eq, ← List.length_pos_iff, length_fillChunk]
          exact ⟨by omega, positive⟩
        have fits : min remaining length ≤ length := Nat.min_le_right _ _
        have later := @inductionHypothesis (remaining - min remaining length) (by omega)
          (dest + BitVec.ofNat 64 (min remaining length))
          (bus.write memory dest (fillChunk (min remaining length) fillValue)).2
        rw [fillBurst, if_neg whole]
        simp only [length_fillChunk, take_fillChunk fits, writable.write_ok, if_true]
        refine ⟨later.1, later.2.trans ?_⟩
        rw [content_write_fillChunk writable]
        rcases Nat.lt_or_ge remaining length with last | several
        · rw [Nat.min_eq_left last.le, Nat.sub_self, patterned_zero]
        · rw [Nat.min_eq_right several, patterned_add dest _ _ _ aligned small]
          rw [Nat.add_sub_cancel' several]

theorem stridedFill_content (writable : bus.Writable content) {fillValue : BitVec 32}
    {dest : BitVec 64} {count : Nat} {memory : Memory} :
    (executeStridedFill bus dest count 1 fillValue memory).1 = true ∧
      content (executeStridedFill bus dest count 1 fillValue memory).2 =
        patterned dest (count * 8) fillValue (content memory) := by
  induction count generalizing dest memory with
  | zero =>
      rw [Nat.zero_mul, patterned_zero]
      exact ⟨rfl, rfl⟩
  | succ count inductionHypothesis =>
      have later := @inductionHypothesis (dest + BitVec.ofNat 64 8)
        (bus.write memory dest (fillChunk 8 fillValue)).2
      simp only [executeStridedFill, stridedFillLoop, writable.write_ok, if_true,
        length_fillChunk, ofInt_one_mul] at later ⊢
      refine ⟨later.1, later.2.trans ?_⟩
      rw [content_write_fillChunk writable, patterned_add dest _ _ _ rfl (by omega)]
      congr 1
      omega

/-- The element loop in a plain memory. -/
theorem copyElements_ram (source dest : BitVec 64) (count ctrl : BitVec 32)
    (memory : BitVec 64 → Byte) :
    copyElements Bus.ram 1 1 (transferBytesFromCtrl ctrl) count.toNat source dest
        (List.replicate 128 0) memory =
      (true, ChunkedCopy.copy (transferBytesFromCtrl ctrl) source dest
        (count.toNat * transferBytesFromCtrl ctrl) memory) := by
  have fits : transferBytesFromCtrl ctrl ≤ (List.replicate 128 (0 : Byte)).length :=
    transferBytes_le ctrl
  have outcome := @copyElements_content _ _ _ Bus.ram_writable source dest
    (transferBytesFromCtrl ctrl) count.toNat _ memory (transferBytes_pos ctrl) fits
  exact Prod.ext outcome.1 outcome.2

theorem copyBurst_ram (source dest : BitVec 64) (remaining : Nat) (memory : BitVec 64 → Byte) :
    copyBurst Bus.ram source dest remaining (List.replicate copyChunkBytes 0) memory =
      (true, ChunkedCopy.copy copyChunkBytes source dest remaining memory) := by
  have length : (List.replicate copyChunkBytes (0 : Byte)).length = copyChunkBytes :=
    List.length_replicate
  have nonempty : 0 < (List.replicate copyChunkBytes (0 : Byte)).length := by
    rw [length]
    exact Nat.succ_pos _
  have outcome := @copyBurst_content _ _ _ Bus.ram_writable source dest remaining _ memory nonempty
  rw [length] at outcome
  exact Prod.ext outcome.1 outcome.2

theorem fillBurst_ram (dest : BitVec 64) (count : Nat) (fillValue : BitVec 32)
    (memory : BitVec 64 → Byte) :
    fillBurst Bus.ram (fillChunk fillChunkBytes fillValue) dest (count * 8) memory =
      executeStridedFill Bus.ram dest count 1 fillValue memory := by
  have aligned : fillChunkBytes % 4 = 0 := rfl
  have burst := @fillBurst_content _ _ _ Bus.ram_writable fillChunkBytes fillValue dest (count * 8)
    memory (Nat.succ_pos _) aligned (by decide)
  have strided := @stridedFill_content _ _ _ Bus.ram_writable fillValue dest count memory
  exact Prod.ext (burst.1.trans strided.1.symm) (burst.2.trans strided.2.symm)

/-- In a plain memory, both ways of filling with an increment of one end alike, and both ways of
copying exactly where the destination does not start inside what a chunk reads. -/
theorem bursts_agree_iff (source dest fillDest : BitVec 64)
    (count ctrl fillCount fillValue : BitVec 32) :
    (∀ memory : BitVec 64 → Byte,
        copyBurst Bus.ram source dest (count.toNat * transferBytesFromCtrl ctrl)
            (List.replicate copyChunkBytes 0) memory =
          copyElements Bus.ram 1 1 (transferBytesFromCtrl ctrl) count.toNat source dest
            (List.replicate 128 0) memory ∧
        fillBurst Bus.ram (fillChunk fillChunkBytes fillValue) fillDest (fillCount.toNat * 8)
            memory =
          executeStridedFill Bus.ram fillDest fillCount.toNat 1 fillValue memory) ↔
      source = dest ∨ count.toNat ≤ 1 ∨
        min (count.toNat * transferBytesFromCtrl ctrl) copyChunkBytes ≤
          (dest - source).toNat := by
  have positive := transferBytes_pos ctrl
  have small := transferBytes_le ctrl
  have counted := count.isLt
  have shorter : transferBytesFromCtrl ctrl < copyChunkBytes := by
    have chunk : copyChunkBytes = 1024 := rfl
    omega
  have fits : count.toNat * transferBytesFromCtrl ctrl ≤ 2 ^ 64 :=
    (Nat.mul_le_mul counted.le small).trans (by omega)
  have single : count.toNat * transferBytesFromCtrl ctrl ≤ transferBytesFromCtrl ctrl ↔
      count.toNat ≤ 1 := by
    constructor
    · intro less
      exact Nat.le_of_mul_le_mul_right (less.trans (Nat.one_mul _).ge) positive
    · intro less
      exact (Nat.mul_le_mul_right _ less).trans (Nat.one_mul _).le
  have several : Nontrivial Byte := ⟨0, 1, by decide⟩
  have sizes := @ChunkedCopy.copy_eq_copy_iff 64 Byte source dest _ _ _ _ positive shorter fits
  simp only [fillBurst_ram, and_true, copyBurst_ram, copyElements_ram, Prod.mk.injEq, true_and]
  rw [or_left_comm, ← single]
  exact (forall_congr' fun memory => eq_comm).trans sizes

/-- Two bytes are copied to the next address: byte by byte, the second one is read after the first
one has been written over it. -/
theorem bursts_differ :
    copyBurst Bus.ram 0 1 ((2 : BitVec 32).toNat * transferBytesFromCtrl 0x00200200)
        (List.replicate copyChunkBytes 0) (fun address => address.setWidth 8) ≠
      copyElements Bus.ram 1 1 (transferBytesFromCtrl 0x00200200) (2 : BitVec 32).toNat 0 1
        (List.replicate 128 0) (fun address => address.setWidth 8) := by
  have single : transferBytesFromCtrl 0x00200200 = 1 := by decide
  intro same
  rw [copyBurst_ram, copyElements_ram, Prod.mk.injEq, single] at same
  have third := congrFun same.2 2
  have two : (2 : BitVec 32).toNat * 1 = 1 + 1 := by decide
  rw [two, ChunkedCopy.copy_of_le (by decide) (by decide), ChunkedCopy.copy_one_succ,
    ChunkedCopy.copy_of_le Nat.one_pos (le_refl 1)] at third
  simp [ChunkedCopy.move] at third

end QboxPlatform.Dma350
