import QboxPlatform.Cc3xx.Access

/-!
# Transfers through the AES

The DMA path of the AES works in chunks, in every mode.  A transfer writes what the mode makes of
the source bytes, and a sequence of transfers what it makes of all of them.
-/

namespace QboxPlatform.Cc3xx

open Foundation

theorem Block.toBytes_ofBytes {bytes : List Byte} (whole : bytes.length = 16) :
    (Block.ofBytes bytes).toBytes = bytes := by
  apply List.ext_getElem (by rw [length_toBytes, whole])
  intro index inside _
  rw [← List.getD_eq_getElem _ 0, ← List.getD_eq_getElem _ 0]
  have below : index < 16 := inside
  interval_cases index <;> rfl

/-- The block that a key of a supported size makes of a block. -/
def encrypted (key : List Byte) (block : Block) : Block :=
  (aesEncryptBlock key block).getD .zero

theorem aesEncryptBlock_eq {key : List Byte}
    (supported : key.length = 16 ∨ key.length = 24 ∨ key.length = 32) (block : Block) :
    aesEncryptBlock key block = some (encrypted key block) := by
  rw [encrypted, aesEncryptBlock, aesExpandKey, if_pos supported]
  rfl

/-- What the AES makes of a stream from a state on, and the state behind so many bytes.  The lengths
that a mode takes may be cut behind complete blocks. -/
structure BlockMode (State : Type) where
  Takes : Nat → Prop
  output : State → List Byte → List Byte
  after : State → Nat → State
  length_output : ∀ state {input}, Takes input.length →
    (output state input).length = input.length
  output_nil : ∀ state, output state [] = []
  after_zero : ∀ state, after state 0 = state
  takes_cut : ∀ {first second}, (16 ∣ first ∨ second = 0) → Takes (first + second) →
    Takes first ∧ Takes second
  output_append : ∀ state {front back}, (16 ∣ front.length ∨ back = []) →
    Takes (front.length + back.length) →
      output state (front ++ back) = output state front ++ output (after state front.length) back
  after_add : ∀ state {first second}, (16 ∣ first ∨ second = 0) →
    after state (first + second) = after (after state first) second

namespace Core

variable {Memory : Type}

/-- The ranges of a transfer are the same, or do not meet. -/
def Apart (source dest : BitVec 64) (length : Nat) : Prop :=
  source = dest ∨
    length ≤ (source - dest).toNat ∧ (source - dest).toNat + length ≤ 2 ^ 64

theorem Apart.step {source dest : BitVec 64} {first second : Nat}
    (apart : Apart source dest (first + second)) :
    Apart (source + BitVec.ofNat 64 first) (dest + BitVec.ofNat 64 first) second := by
  rcases apart with rfl | ⟨above, below⟩
  · exact Or.inl rfl
  · right
    rw [add_sub_add_right_eq_sub]
    omega

theorem toNat_sub_add {target base : BitVec 64} {count : Nat}
    (below : count ≤ (target - base).toNat) :
    (target - (base + BitVec.ofNat 64 count)).toNat = (target - base).toNat - count := by
  have bounded : (target - base).toNat < 2 ^ 64 := (target - base).isLt
  have small : (BitVec.ofNat 64 count).toNat = count := by
    rw [BitVec.toNat_ofNat, Nat.mod_eq_of_lt (by omega)]
  rw [sub_add_eq_sub_sub, BitVec.toNat_sub_of_le, small]
  rw [BitVec.le_def, small]
  exact below

/-- Bytes before a range lie past its end, counted around the address space. -/
theorem wrapped_sub {base : BitVec 64} {first second index : Nat}
    (bounded : first + second ≤ 2 ^ 64) (inside : index < first) :
    second ≤ (base + BitVec.ofNat 64 index - (base + BitVec.ofNat 64 first)).toNat := by
  rw [add_sub_add_left_eq_sub, BitVec.toNat_sub, BitVec.toNat_ofNat, BitVec.toNat_ofNat]
  omega

/-- The source bytes still to be read lie outside the destination bytes already written. -/
theorem Apart.outside {source dest : BitVec 64} {first second index : Nat}
    (apart : Apart source dest (first + second)) (bounded : first + second ≤ 2 ^ 64)
    (inside : index < second) :
    first ≤ (source + BitVec.ofNat 64 first + BitVec.ofNat 64 index - dest).toNat := by
  have together : source + BitVec.ofNat 64 first + BitVec.ofNat 64 index - dest =
      (source - dest) + BitVec.ofNat 64 (first + index) := by
    rw [BitVec.ofNat_add, add_assoc, add_sub_right_comm]
  rw [together, BitVec.toNat_add, BitVec.toNat_ofNat, Nat.add_mod_mod]
  rcases apart with rfl | ⟨above, below⟩
  · have origin : (source - source).toNat = 0 := by rw [sub_self]; rfl
    rw [origin, Nat.zero_add, Nat.mod_eq_of_lt (by omega)]
    exact Nat.le_add_right _ _
  · rw [Nat.mod_eq_of_lt (by omega)]
    omega

/-- The chunks of a transfer write what the mode makes of the source bytes as they were before the
transfer, and nothing else. -/
theorem aesChunks_eq {State : Type} {bus : Bus Memory} {content : Memory → BitVec 64 → Byte}
    (writable : bus.Writable content) (mode : BlockMode State)
    {transform : State → List Byte → Option (List Byte × State)}
    (transforms : ∀ state input, mode.Takes input.length →
      transform state input = some (mode.output state input, mode.after state input.length))
    (core : Core Memory) {source dest : BitVec 64} (remaining : Nat) (takes : mode.Takes remaining)
    (bounded : remaining ≤ 2 ^ 64) (apart : Apart source dest remaining) {chunk : List Byte}
    (full : chunk.length = dmaChunkBytes) (state : State) :
    ∃ memory,
      aesChunks bus transform core source dest remaining chunk state =
        (some (mode.after state remaining), { core with memory := memory }) ∧
      Bus.slice (content memory) dest remaining =
        mode.output state (Bus.slice (content core.memory) source remaining) ∧
      ∀ target, remaining ≤ (target - dest).toNat →
        content memory target = content core.memory target := by
  induction remaining using Nat.strongRecOn generalizing core source dest chunk state with
  | ind remaining inductionHypothesis =>
      rw [aesChunks]
      by_cases exhausted : remaining = 0
      · rw [if_pos exhausted]
        refine ⟨core.memory, ?_, ?_, fun _ _ => rfl⟩
        · rw [exhausted, mode.after_zero]
        · rw [exhausted, Bus.slice, Bus.slice, List.range_zero, List.map_nil, List.map_nil,
            mode.output_nil]
      · rw [if_neg exhausted]
        obtain ⟨first, firstDef⟩ : ∃ first, first = min remaining dmaChunkBytes := ⟨_, rfl⟩
        obtain ⟨second, split⟩ : ∃ second, remaining = first + second :=
          Nat.exists_eq_add_of_le (firstDef ▸ Nat.min_le_left _ _)
        have whole : 16 ∣ first ∨ second = 0 := by
          rcases Nat.le_total remaining dmaChunkBytes with last | more
          · right
            rw [Nat.min_eq_left last] at firstDef
            omega
          · left
            rw [firstDef, Nat.min_eq_right more]
            decide
        have positive : 0 < first := by
          rw [firstDef]
          exact Nat.lt_min.mpr ⟨Nat.pos_of_ne_zero exhausted, by decide⟩
        have small : first ≤ dmaChunkBytes := firstDef ▸ Nat.min_le_right _ _
        obtain ⟨takesFirst, takesSecond⟩ := mode.takes_cut whole (split ▸ takes)
        obtain ⟨input, inputDef⟩ : ∃ input, input = Bus.slice (content core.memory) source first :=
          ⟨_, rfl⟩
        have inputLength : input.length = first := by rw [inputDef, Bus.length_slice]
        have takesInput : mode.Takes input.length := inputLength.symm ▸ takesFirst
        have outputLength := mode.length_output state takesInput
        rw [inputLength] at outputLength
        subst split
        simp only [← firstDef, writable.read_eq, if_true, List.length_take, full,
          Nat.min_eq_left small, ← inputDef, transforms state input takesInput, writable.write_ok,
          Nat.add_sub_cancel_left]
        have stillFull : (input ++ chunk.drop first).length = dmaChunkBytes := by
          rw [List.length_append, List.length_drop, inputLength, full]
          omega
        obtain ⟨memory, chunks, written, others⟩ := inductionHypothesis second (by omega)
          { core with memory := (bus.write core.memory dest (mode.output state input)).2 }
          takesSecond (by omega) apart.step stillFull (mode.after state first)
        refine ⟨memory, ?_, ?_, ?_⟩
        · rw [inputLength, mode.after_add state whole]
          exact chunks
        · have head : Bus.slice (content memory) dest first = mode.output state input := by
            have kept := Bus.slice_congr fun index (inside : index < first) =>
              others (dest + BitVec.ofNat 64 index) (wrapped_sub bounded inside)
            have stored := writable.slice_write core.memory dest
              (outputLength.trans_le (by omega : first ≤ 2 ^ 64))
            rw [outputLength] at stored
            exact kept.trans stored
          have unread : Bus.slice
              (content (bus.write core.memory dest (mode.output state input)).2)
              (source + BitVec.ofNat 64 first) second =
                Bus.slice (content core.memory) (source + BitVec.ofNat 64 first) second := by
            apply Bus.slice_congr
            intro index inside
            apply writable.content_write_outside
            rw [outputLength]
            exact apart.outside bounded inside
          have cut : 16 ∣ input.length ∨
              Bus.slice (content core.memory) (source + BitVec.ofNat 64 first) second = [] := by
            rw [inputLength]
            apply whole.imp_right
            rintro rfl
            rfl
          have takesBoth : mode.Takes (input.length + (Bus.slice (content core.memory)
              (source + BitVec.ofNat 64 first) second).length) := by
            rwa [inputLength, Bus.length_slice]
          rw [Bus.slice_add, Bus.slice_add, head, written, unread, ← inputDef,
            mode.output_append state cut takesBoth, inputLength]
        · intro target outside
          have beyond : second ≤ (target - (dest + BitVec.ofNat 64 first)).toNat := by
            rw [toNat_sub_add (by omega)]
            omega
          rw [others target beyond]
          apply writable.content_write_outside
          omega

/-- A DMA transfer: what the memory is when it starts, and the words that software writes. -/
structure AesTransfer (Memory : Type) where
  memory : Memory
  source : BitVec 32
  dest : BitVec 32
  length : BitVec 32

namespace AesTransfer

variable (content : Memory → BitVec 64 → Byte) (transfer : AesTransfer Memory)

/-- The source bytes when the transfer starts. -/
def data : List Byte :=
  Bus.slice (content transfer.memory) (transfer.source.setWidth 64) transfer.length.toNat

/-- The destination bytes of a memory. -/
def output (memory : Memory) : List Byte :=
  Bus.slice (content memory) (transfer.dest.setWidth 64) transfer.length.toNat

/-- The source is the destination, or disjoint from it. -/
def Separated : Prop :=
  transfer.source = transfer.dest ∨
    transfer.source.toNat + transfer.length.toNat ≤ transfer.dest.toNat ∨
    transfer.dest.toNat + transfer.length.toNat ≤ transfer.source.toNat

end AesTransfer

/-- Software writes both addresses and both lengths; the last write starts the transfer. -/
def aesTransfer (bus : Bus Memory) (core : Core Memory) (transfer : AesTransfer Memory) :
    Core Memory :=
  ((({ core with memory := transfer.memory }.write32 bus dinSrcLliWord0 transfer.source).write32
    bus doutDstLliWord0 transfer.dest).write32 bus doutDstLliWord1 transfer.length).write32 bus
    dinSrcLliWord1 transfer.length

/-- Consecutive transfers, with the bytes that each has written when it is over. -/
def aesTransfers (bus : Bus Memory) (content : Memory → BitVec 64 → Byte) (core : Core Memory) :
    List (AesTransfer Memory) → List Byte × Core Memory
  | [] => ([], core)
  | transfer :: rest =>
      let next := core.aesTransfer bus transfer
      let (written, final) := aesTransfers bus content next rest
      (transfer.output content next.memory ++ written, final)

/-- One of the engines that write the output of the AES to the memory is selected. -/
def AesSelected (core : Core Memory) : Prop :=
  core.engine = engineAes ∨ core.engine = engineAesAndHash ∨
    core.engine = engineAesToHashAndDout

theorem aesKey_supported (core : Core Memory) :
    core.aesKey.length = 16 ∨ core.aesKey.length = 24 ∨ core.aesKey.length = 32 := by
  rw [aesKey, Image.length_read, aesKeySizeBytes]
  split <;> decide

theorem aesKey_congr {before after : Core Memory}
    (control : after.load32 aesControl = before.load32 aesControl)
    (same : ∀ index, aesKey0 ≤ index → index < aesKey0 + 32 →
      after.regs index = before.regs index) : after.aesKey = before.aesKey := by
  have sizes : after.aesKeySizeBytes = before.aesKeySizeBytes := by
    rw [aesKeySizeBytes, aesKeySizeBytes, control]
  have bounded := before.aesKey_supported
  rw [aesKey, Image.length_read] at bounded
  rw [aesKey, aesKey, sizes]
  apply Image.read_congr
  intro index above below
  exact same index above (by omega)

theorem hashDmaInput_of_ne (bus : Bus Memory) {core : Core Memory} {triggerOffset : Nat}
    (other : core.engine ≠ engineHash ∨ triggerOffset ≠ dinSrcLliWord1) :
    core.hashDmaInput bus triggerOffset = core := by
  rw [hashDmaInput, if_pos]
  exact other.imp_right fun trigger => Or.inr (Or.inr trigger)

theorem cmacDmaInput_of_ne (bus : Bus Memory) {core : Core Memory} {triggerOffset : Nat}
    (other : core.aesMode ≠ aesModeCmac ∨ triggerOffset ≠ dinSrcLliWord1) :
    core.cmacDmaInput bus triggerOffset = core := by
  rw [cmacDmaInput, if_pos]
  exact Or.inr (Or.inr other)

theorem AesSelected.ne_hash {core : Core Memory} (selected : core.AesSelected) :
    core.engine ≠ engineHash := by
  rcases selected with engine | engine | engine <;> rw [engine] <;> decide

/-- The write of the output length only shows a transfer that moves nothing. -/
theorem write32_doutDstLliWord1 (bus : Bus Memory) (core : Core Memory) (value : BitVec 32) :
    ∃ stores : List (Nat × BitVec 32), (∀ store ∈ stores, store.1 ∈ statusRegisters) ∧
      core.write32 bus doutDstLliWord1 value =
        (core.store32 doutDstLliWord1 value).storeAll stores := by
  have other : doutDstLliWord1 ≠ dinSrcLliWord1 := by decide
  obtain ⟨stores, status, complete⟩ :=
    (core.store32 doutDstLliWord1 value).completeDmaTransfer_eq bus doutDstLliWord1
  rw [hashDmaInput_of_ne bus (Or.inr other), aesDmaOutput, if_pos (Or.inl other),
    cmacDmaInput_of_ne bus (Or.inr other)] at complete
  exact ⟨stores, status, complete⟩

/-- The registers of a programmed transfer. -/
structure Programmed (core : Core Memory) (source dest length : BitVec 32) : Prop where
  source : core.load32 dinSrcLliWord0 = source
  dest : core.load32 doutDstLliWord0 = dest
  inLength : core.load32 dinSrcLliWord1 = length
  outLength : core.load32 doutDstLliWord1 = length

/-- The path that a programmed transfer takes; an empty one moves nothing. -/
theorem aesDmaOutput_eq (bus : Bus Memory) {core : Core Memory} {source dest length : BitVec 32}
    (selected : core.AesSelected) (programmed : Programmed core source dest length) :
    core.aesDmaOutput bus dinSrcLliWord1 =
      if length.toNat = 0 then core
      else if core.aesMode = aesModeEcb then
        core.aesEcbXcrypt bus (source.setWidth 64) (dest.setWidth 64) length.toNat
      else if core.aesMode = aesModeCtr then
        core.aesCtrXcrypt bus (source.setWidth 64) (dest.setWidth 64) length.toNat
      else core := by
  unfold aesDmaOutput
  dsimp only
  rw [dmaSource, programmed.source, programmed.dest, programmed.inLength, programmed.outLength,
    Nat.min_self]
  by_cases empty : length.toNat = 0
  · rw [if_pos (Or.inr (Or.inr empty)), if_pos empty]
  · rw [if_neg empty, if_neg]
    rintro (other | other | other)
    · exact other rfl
    · exact other selected
    · exact empty other

theorem AesTransfer.Separated.apart {transfer : AesTransfer Memory}
    (separated : transfer.Separated) :
    Apart (transfer.source.setWidth 64) (transfer.dest.setWidth 64) transfer.length.toNat := by
  have sourceSmall := transfer.source.isLt
  have destSmall := transfer.dest.isLt
  have lengthSmall := transfer.length.isLt
  rcases separated with same | disjoint
  · exact Or.inl (by rw [same])
  · right
    rw [BitVec.toNat_sub, BitVec.toNat_setWidth, BitVec.toNat_setWidth]
    omega

theorem load32_store32_same (core : Core Memory) (offset : Nat) (value : BitVec 32) :
    (core.store32 offset value).load32 offset = value :=
  Image.load32_store32 _ _ _

/-- The writes before the one that starts a transfer program its registers. -/
theorem programmed_registers (core : Core Memory) (source dest length : BitVec 32)
    {stores : List (Nat × BitVec 32)} (status : ∀ store ∈ stores, store.1 ∈ statusRegisters) :
    Programmed (((((core.store32 dinSrcLliWord0 source).store32 doutDstLliWord0 dest).store32
      doutDstLliWord1 length).storeAll stores).store32 dinSrcLliWord1 length) source dest
      length := by
  have apart : ∀ register ∈ statusRegisters,
      ∀ word ∈ [dinSrcLliWord0, doutDstLliWord0, doutDstLliWord1],
        word + 4 ≤ register ∨ register + 4 ≤ word := by decide
  refine ⟨?_, ?_, load32_store32_same _ _ _, ?_⟩
  · rw [load32_store32_of_disjoint _ _ (by decide), load32_storeAll_of_disjoint,
      load32_store32_of_disjoint _ _ (by decide), load32_store32_of_disjoint _ _ (by decide),
      load32_store32_same]
    exact fun store member => apart _ (status store member) _ (by decide)
  · rw [load32_store32_of_disjoint _ _ (by decide), load32_storeAll_of_disjoint,
      load32_store32_of_disjoint _ _ (by decide), load32_store32_same]
    exact fun store member => apart _ (status store member) _ (by decide)
  · rw [load32_store32_of_disjoint _ _ (by decide), load32_storeAll_of_disjoint,
      load32_store32_same]
    exact fun store member => apart _ (status store member) _ (by decide)

section Transfers

variable {State : Type} {mode : BlockMode State} {Ready : State → Core Memory → Prop}
  {bus : Bus Memory} {content : Memory → BitVec 64 → Byte}

/-- A mode is what the AES does in the cores that are ready for it: the registers that set it up lie
below those of the DMA, and a programmed transfer leaves the core ready for the next one. -/
structure Drives (mode : BlockMode State) (Ready : State → Core Memory → Prop) (bus : Bus Memory)
    (content : Memory → BitVec 64 → Byte) : Prop where
  selected : ∀ {state core}, Ready state core → core.AesSelected
  notCmac : ∀ {state core}, Ready state core → core.aesMode ≠ aesModeCmac
  ofMemory : ∀ {state core}, Ready state core → ∀ memory, Ready state { core with memory := memory }
  store32 : ∀ {state core}, Ready state core → ∀ {offset : Nat} (value : BitVec 32),
    aesControl + 4 ≤ offset → Ready state (core.store32 offset value)
  moves : ∀ {state core source dest length}, Ready state core →
    Programmed core source dest length → mode.Takes length.toNat →
    Apart (source.setWidth 64) (dest.setWidth 64) length.toNat →
      Ready (mode.after state length.toNat) (core.aesDmaOutput bus dinSrcLliWord1) ∧
        Bus.slice (content (core.aesDmaOutput bus dinSrcLliWord1).memory) (dest.setWidth 64)
            length.toNat =
          mode.output state (Bus.slice (content core.memory) (source.setWidth 64) length.toNat)

namespace Drives

variable {state : State} {core : Core Memory}

theorem storeAll (drives : Drives mode Ready bus content) (ready : Ready state core)
    {stores : List (Nat × BitVec 32)} (above : ∀ store ∈ stores, aesControl + 4 ≤ store.1) :
    Ready state (core.storeAll stores) := by
  induction stores generalizing core with
  | nil => exact ready
  | cons store rest inductionHypothesis =>
      have first := drives.store32 ready store.2 (above store List.mem_cons_self)
      exact inductionHypothesis first fun later member =>
        above later (List.mem_cons_of_mem _ member)

theorem storeStatus (drives : Drives mode Ready bus content) (ready : Ready state core)
    {stores : List (Nat × BitVec 32)} (status : ∀ store ∈ stores, store.1 ∈ statusRegisters) :
    Ready state (core.storeAll stores) := by
  have above : ∀ register ∈ statusRegisters, aesControl + 4 ≤ register := by decide
  exact drives.storeAll ready fun store member => above _ (status store member)

/-- A programmed transfer, started. -/
theorem completeDmaTransfer (drives : Drives mode Ready bus content) (ready : Ready state core)
    {source dest length : BitVec 32} (programmed : Programmed core source dest length)
    (takes : mode.Takes length.toNat)
    (apart : Apart (source.setWidth 64) (dest.setWidth 64) length.toNat) :
    Ready (mode.after state length.toNat) (core.completeDmaTransfer bus dinSrcLliWord1) ∧
      Bus.slice (content (core.completeDmaTransfer bus dinSrcLliWord1).memory)
          (dest.setWidth 64) length.toNat =
        mode.output state
          (Bus.slice (content core.memory) (source.setWidth 64) length.toNat) := by
  obtain ⟨moved, written⟩ := drives.moves ready programmed takes apart
  obtain ⟨stores, status, complete⟩ := core.completeDmaTransfer_eq bus dinSrcLliWord1
  rw [hashDmaInput_of_ne bus (Or.inl (drives.selected ready).ne_hash),
    cmacDmaInput_of_ne bus (Or.inl (drives.notCmac moved))] at complete
  rw [complete, storeAll_memory]
  exact ⟨drives.storeStatus moved status, written⟩

/-- A transfer that software programs and starts. -/
theorem transfer (drives : Drives mode Ready bus content) (ready : Ready state core)
    {transfer : AesTransfer Memory} (separated : transfer.Separated)
    (takes : mode.Takes transfer.length.toNat) :
    Ready (mode.after state transfer.length.toNat) (core.aesTransfer bus transfer) ∧
      transfer.output content (core.aesTransfer bus transfer).memory =
        mode.output state (transfer.data content) := by
  have sourceAbove : aesControl + 4 ≤ dinSrcLliWord0 := by decide
  have destAbove : aesControl + 4 ≤ doutDstLliWord0 := by decide
  have outAbove : aesControl + 4 ≤ doutDstLliWord1 := by decide
  have inAbove : aesControl + 4 ≤ dinSrcLliWord1 := by decide
  have addressed := drives.store32 (drives.store32 (drives.ofMemory ready transfer.memory)
    transfer.source sourceAbove) transfer.dest destAbove
  obtain ⟨stores, status, outLength⟩ := write32_doutDstLliWord1 bus
    (({ core with memory := transfer.memory }.store32 dinSrcLliWord0 transfer.source).store32
      doutDstLliWord0 transfer.dest) transfer.length
  have prepared := drives.store32 (drives.storeStatus
    (drives.store32 addressed transfer.length outAbove) status) transfer.length inAbove
  have started := drives.completeDmaTransfer prepared
    (programmed_registers _ transfer.source transfer.dest transfer.length status) takes
    separated.apart
  have steps : core.aesTransfer bus transfer =
      ((((({ core with memory := transfer.memory }.store32 dinSrcLliWord0
        transfer.source).store32 doutDstLliWord0 transfer.dest).store32 doutDstLliWord1
        transfer.length).storeAll stores).store32 dinSrcLliWord1
        transfer.length).completeDmaTransfer bus dinSrcLliWord1 := by
    rw [aesTransfer, write32_dinSrcLliWord0, write32_doutDstLliWord0, outLength,
      write32_dinSrcLliWord1]
  rw [steps]
  refine ⟨started.1, started.2.trans ?_⟩
  rw [Core.store32, storeAll_memory]
  rfl

/-- Transfers of complete blocks, the last one excepted. -/
theorem transfers (drives : Drives mode Ready bus content) (state : State)
    (ready : Ready state core) {transfers : List (AesTransfer Memory)}
    (separated : ∀ transfer ∈ transfers, transfer.Separated)
    (whole : ∀ transfer ∈ transfers.dropLast, 16 ∣ transfer.length.toNat)
    (takes : mode.Takes (transfers.flatMap (AesTransfer.data content)).length) :
    Ready (mode.after state (transfers.flatMap (AesTransfer.data content)).length)
        (core.aesTransfers bus content transfers).2 ∧
      (core.aesTransfers bus content transfers).1 =
        mode.output state (transfers.flatMap (AesTransfer.data content)) := by
  induction transfers generalizing core state with
  | nil =>
      rw [List.flatMap_nil, List.length_nil, mode.after_zero, mode.output_nil]
      exact ⟨ready, rfl⟩
  | cons transfer rest inductionHypothesis =>
      have wholeRest : ∀ later ∈ rest.dropLast, 16 ∣ later.length.toNat := by
        intro later member
        apply whole
        cases rest with
        | nil => cases member
        | cons second others => exact List.mem_cons_of_mem _ member
      have cut : 16 ∣ (transfer.data content).length ∨
          rest.flatMap (AesTransfer.data content) = [] := by
        rw [AesTransfer.data, Bus.length_slice]
        cases rest with
        | nil => exact Or.inr rfl
        | cons second others => exact Or.inl (whole transfer List.mem_cons_self)
      have cutLength : 16 ∣ (transfer.data content).length ∨
          (rest.flatMap (AesTransfer.data content)).length = 0 :=
        cut.imp_right List.length_eq_zero_iff.mpr
      rw [List.flatMap_cons, List.length_append] at takes
      obtain ⟨takesFirst, takesRest⟩ := mode.takes_cut cutLength takes
      have lengths : (transfer.data content).length = transfer.length.toNat :=
        Bus.length_slice _ _ _
      obtain ⟨moved, written⟩ := drives.transfer ready (separated transfer List.mem_cons_self)
        (lengths ▸ takesFirst)
      obtain ⟨final, writtenRest⟩ := inductionHypothesis _ moved
        (fun later member => separated later (List.mem_cons_of_mem _ member)) wholeRest takesRest
      rw [← lengths] at final writtenRest
      rw [List.flatMap_cons, mode.output_append state cut takes, List.length_append,
        mode.after_add state cutLength]
      refine ⟨final, ?_⟩
      rw [← written, ← writtenRest]
      rfl

end Drives

end Transfers

end Core

end QboxPlatform.Cc3xx
