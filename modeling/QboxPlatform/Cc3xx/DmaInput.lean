import QboxPlatform.Cc3xx.Engines

/-!
# What a DMA input delivers

A consumer that extends a message by each chunk has the message extended by the bytes of the
whole transfer, however the transfer is cut into chunks.
-/

namespace QboxPlatform.Cc3xx

open Foundation

namespace Core

variable {Memory : Type}

/-- A relation between the core and the message given so far that the consumer keeps is kept by a
transfer, and the transfer completes. -/
theorem dmaInput_extends {bus : Bus Memory} {content : Memory → BitVec 64 → Byte}
    (readable : bus.Readable content) {consume : Core Memory → List Byte → Core Memory}
    {fed : Core Memory → List Byte → Prop}
    (consumed : ∀ core message data, fed core message → fed (consume core data) (message ++ data))
    (keepsMemory : ∀ core data, (consume core data).memory = core.memory) {core : Core Memory}
    {message : List Byte} (initially : fed core message) (source : BitVec 64) (remaining : Nat)
    {chunk : List Byte} (full : chunk.length = dmaChunkBytes) :
    (dmaInput bus consume core source remaining chunk).1 = true ∧
      fed (dmaInput bus consume core source remaining chunk).2
        (message ++ Bus.slice (content core.memory) source remaining) := by
  induction remaining using Nat.strongRecOn generalizing core message source chunk with
  | ind remaining inductionHypothesis =>
      rw [dmaInput]
      by_cases exhausted : remaining = 0
      · rw [if_pos exhausted, exhausted]
        refine ⟨rfl, ?_⟩
        rw [Bus.slice, List.range_zero, List.map_nil, List.append_nil]
        exact initially
      · rw [if_neg exhausted]
        simp only [readable.read_eq, if_true, List.length_take, full]
        have least : min (min remaining dmaChunkBytes) dmaChunkBytes =
            min remaining dmaChunkBytes := Nat.min_eq_left (Nat.min_le_right _ _)
        have positive : 0 < min remaining dmaChunkBytes :=
          Nat.lt_min.mpr ⟨Nat.pos_of_ne_zero exhausted, by decide⟩
        have split := Bus.slice_add (content core.memory) source (min remaining dmaChunkBytes)
          (remaining - min remaining dmaChunkBytes)
        rw [Nat.add_sub_cancel' (Nat.min_le_left _ _)] at split
        rw [least, split, ← List.append_assoc]
        have chunkFed := consumed core message
          (Bus.slice (content core.memory) source (min remaining dmaChunkBytes)) initially
        have stillFull : (Bus.slice (content core.memory) source (min remaining dmaChunkBytes) ++
            chunk.drop (min remaining dmaChunkBytes)).length = dmaChunkBytes := by
          rw [List.length_append, List.length_drop, Bus.length_slice, full]
          omega
        have rest := inductionHypothesis (remaining - min remaining dmaChunkBytes) (by omega)
          chunkFed (source + BitVec.ofNat 64 (min remaining dmaChunkBytes)) stillFull
        rw [keepsMemory] at rest
        exact rest

end Core

end QboxPlatform.Cc3xx
