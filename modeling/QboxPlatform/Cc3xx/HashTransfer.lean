import QboxPlatform.Cc3xx.Digest
import QboxPlatform.Cc3xx.DmaInput

/-!
# Hashing through the DMA

Software selects the hash engine, starts SHA-256, and gives the message as a sequence of DMA
transfers.  The core cuts each transfer into chunks.  After the padding the hash registers have
the hash of the message, whatever the transfers, and the accelerator computes the same digest.
-/

namespace QboxPlatform.Cc3xx

open Foundation

namespace Core

variable {Memory : Type}

/-- The words of the `HASH_H` registers. -/
def hashWords (core : Core Memory) : List Word :=
  (List.range 8).map fun index => core.load32 (hashH + index * 4)

/-- Software selects the engine and starts a hash without automatic padding. -/
def hashStart (bus : Bus Memory) (core : Core Memory) : Core Memory :=
  ((core.write32 bus cryptoCtl engineHash).write32 bus autoHwPadding 0).write32 bus hashControl
    hashAlgSha256

/-- A DMA transfer: what the memory is when it starts, and the two words that software writes. -/
structure HashTransfer (Memory : Type) where
  memory : Memory
  source : BitVec 32
  length : BitVec 32

/-- The bytes that a transfer covers. -/
def HashTransfer.data (content : Memory → BitVec 64 → Byte) (transfer : HashTransfer Memory) :
    List Byte :=
  Bus.slice (content transfer.memory) (transfer.source.setWidth 64) transfer.length.toNat

/-- Software writes the address, and then the length, which starts the transfer. -/
def hashTransfer (bus : Bus Memory) (core : Core Memory) (transfer : HashTransfer Memory) :
    Core Memory :=
  ({ core with memory := transfer.memory }.write32 bus dinSrcLliWord0 transfer.source).write32 bus
    dinSrcLliWord1 transfer.length

/-- Consecutive stores of words are read back at their places. -/
theorem load32_storeAll_words (core : Core Memory) (base start : Nat) (words : List Word)
    {index : Nat} (inside : index < words.length) :
    (core.storeAll ((words.zipIdx start).map fun (word, position) =>
      (base + position * 4, word))).load32 (base + (start + index) * 4) = words[index] := by
  induction words generalizing core start index with
  | nil => cases inside
  | cons word rest inductionHypothesis =>
      rw [List.zipIdx_cons, List.map_cons, storeAll_cons]
      cases index with
      | zero =>
          rw [load32_storeAll_of_disjoint]
          · exact Image.load32_store32 _ _ _
          · intro store member
            obtain ⟨⟨later, position⟩, listed, rfl⟩ := List.mem_map.mp member
            have past := List.le_snd_of_mem_zipIdx listed
            dsimp only at past ⊢
            omega
      | succ index =>
          rw [List.getElem_cons_succ, ← Nat.add_assoc, Nat.add_right_comm]
          exact inductionHypothesis _ (start + 1) (Nat.lt_of_succ_lt_succ inside)

theorem hashWords_storeSha256H (core : Core Memory) :
    core.storeSha256H.hashWords = core.sha256.h.toList := by
  apply List.ext_getElem (by rw [hashWords, List.length_map, List.length_range]; rfl)
  intro index _ inside
  have stored := core.load32_storeAll_words hashH 0 core.sha256.h.toList inside
  rw [Nat.zero_add] at stored
  simp only [hashWords, List.getElem_map, List.getElem_range]
  exact stored

/-- The stores of a chaining value stay in the `HASH_H` registers. -/
theorem hashH_store {words : Sha256Words} {store : Nat × Word}
    (member : store ∈ words.toList.zipIdx.map fun (word, index) => (hashH + index * 4, word)) :
    hashH ≤ store.1 ∧ store.1 + 4 ≤ hashH + 32 := by
  obtain ⟨⟨word, index⟩, listed, rfl⟩ := List.mem_map.mp member
  have below : index < 0 + 8 := List.snd_lt_add_of_mem_zipIdx listed
  dsimp only
  omega

theorem hashCurrentLen_storeHashCurrentLen (core : Core Memory) (value : BitVec 64) :
    (core.storeHashCurrentLen value).hashCurrentLen = value := by
  have low : (core.storeHashCurrentLen value).load32 hashCurLen0 = value.setWidth 32 := by
    have later := (core.store32 hashCurLen0 (value.setWidth 32)).load32_store32_of_disjoint
      ((value >>> 32).setWidth 32) (Or.inl (by decide : hashCurLen0 + 4 ≤ hashCurLen1))
    exact later.trans (Image.load32_store32 _ _ _)
  have high : (core.storeHashCurrentLen value).load32 hashCurLen1 =
      (value >>> 32).setWidth 32 := Image.load32_store32 _ _ _
  rw [hashCurrentLen, low, high]
  apply BitVec.eq_of_getLsbD_eq
  intro bit below
  simp only [BitVec.getLsbD_or, BitVec.getLsbD_setWidth, BitVec.getLsbD_shiftLeft,
    BitVec.getLsbD_ushiftRight]
  grind

theorem hashWords_congr {before after : Core Memory}
    (same : ∀ offset, hashH ≤ offset → offset + 4 ≤ hashH + 32 →
      after.load32 offset = before.load32 offset) : after.hashWords = before.hashWords := by
  apply List.map_congr_left
  intro index member
  have below := List.mem_range.mp member
  apply same <;> omega

theorem hashCurrentLen_congr {before after : Core Memory}
    (same : ∀ offset, hashCurLen0 ≤ offset → offset ≤ hashCurLen1 →
      after.load32 offset = before.load32 offset) :
    after.hashCurrentLen = before.hashCurrentLen := by
  rw [hashCurrentLen, same _ le_rfl (by decide), same _ (by decide) le_rfl, hashCurrentLen]

theorem hashWords_storeHashCurrentLen (core : Core Memory) (value : BitVec 64) :
    (core.storeHashCurrentLen value).hashWords = core.hashWords := by
  apply hashWords_congr
  intro offset above below
  apply load32_storeAll_of_disjoint
  simp only [List.mem_cons, List.not_mem_nil, or_false, forall_eq_or_imp, forall_eq, hashCurLen0,
    hashCurLen1, hashH] at below ⊢
  omega

theorem sha256Update_eq {core : Core Memory} (active : core.sha256.active = true)
    (unfinished : core.sha256.finalized = false) (data : List Byte) :
    core.sha256Update data =
      let state := core.sha256.update data
      let counted := { core with sha256 := state }.storeHashCurrentLen state.bytes
      if 64 ≤ core.sha256.block.length + data.length then counted.storeSha256H else counted := by
  rw [sha256Update, active, unfinished]
  rfl

theorem sha256Finish_eq {core : Core Memory} (active : core.sha256.active = true)
    (unfinished : core.sha256.finalized = false) :
    core.sha256Finish = { core with sha256 := core.sha256.finish }.storeSha256H.storeHashCurrentLen
      core.sha256.bytes := by
  rw [sha256Finish, active, unfinished]
  rfl

theorem write32_autoHwPadding (bus : Bus Memory) (core : Core Memory) (value : BitVec 32) :
    core.write32 bus autoHwPadding value = core.store32 autoHwPadding value := rfl

theorem write32_cryptoCtl (bus : Bus Memory) (core : Core Memory) (value : BitVec 32) :
    core.write32 bus cryptoCtl value = core.cryptoCtlWrite value := rfl

theorem write32_hashControl (bus : Bus Memory) (core : Core Memory) :
    core.write32 bus hashControl hashAlgSha256 =
      (core.store32 hashControl hashAlgSha256).sha256Reset := rfl

/-- The engine is fed with a message; software may have asked for the padding. -/
structure Hashing (core : Core Memory) (padding : Bool) (message : List Byte) : Prop where
  selected : core.engine = engineHash
  streams : core.sha256.Streams message
  padding : (core.load32 autoHwPadding &&& 0x1 != 0) = padding

/-- The registers show the hash and the length of a message. -/
structure Hashed (core : Core Memory) (message : List Byte) : Prop where
  words : core.hashWords = (Sha256.hash message).toList
  length : core.hashCurrentLen = BitVec.ofNat 64 message.length

/-- The registers that show the outcome of a hash. -/
def ShowsHash (offset : Nat) : Prop :=
  hashH < offset + 4 ∧ offset < hashH + 32 ∨ hashCurLen0 < offset + 4 ∧ offset < hashCurLen1 + 4

section Apart

variable {stores : List (Nat × BitVec 32)}

theorem hashWords_storeAll (core : Core Memory) (apart : ∀ store ∈ stores, ¬ShowsHash store.1) :
    (core.storeAll stores).hashWords = core.hashWords := by
  apply hashWords_congr
  intro offset above below
  apply load32_storeAll_of_disjoint
  intro store member
  have outside := apart store member
  rw [ShowsHash] at outside
  omega

theorem hashCurrentLen_storeAll (core : Core Memory)
    (apart : ∀ store ∈ stores, ¬ShowsHash store.1) :
    (core.storeAll stores).hashCurrentLen = core.hashCurrentLen := by
  apply hashCurrentLen_congr
  intro offset above below
  apply load32_storeAll_of_disjoint
  intro store member
  have outside := apart store member
  rw [ShowsHash] at outside
  omega

theorem Hashed.storeAll {core : Core Memory} {message : List Byte} (hashed : Hashed core message)
    (apart : ∀ store ∈ stores, ¬ShowsHash store.1) : Hashed (core.storeAll stores) message :=
  ⟨(hashWords_storeAll core apart).trans hashed.words,
    (hashCurrentLen_storeAll core apart).trans hashed.length⟩

end Apart

namespace Hashing

variable {core : Core Memory} {padding : Bool} {message : List Byte}

theorem ofMemory (hashing : Hashing core padding message) (memory : Memory) :
    Hashing { core with memory := memory } padding message :=
  ⟨hashing.selected, hashing.streams, hashing.padding⟩

theorem store32 (hashing : Hashing core padding message) {offset : Nat} (value : BitVec 32)
    (apart : autoHwPadding + 4 ≤ offset ∨ offset + 4 ≤ autoHwPadding) :
    Hashing (core.store32 offset value) padding message where
  selected := hashing.selected
  streams := hashing.streams
  padding := by
    rw [load32_store32_of_disjoint core value apart]
    exact hashing.padding

theorem storeAll (hashing : Hashing core padding message) {stores : List (Nat × BitVec 32)}
    (apart : ∀ store ∈ stores, autoHwPadding + 4 ≤ store.1 ∨ store.1 + 4 ≤ autoHwPadding) :
    Hashing (core.storeAll stores) padding message := by
  induction stores generalizing core with
  | nil => exact hashing
  | cons store rest inductionHypothesis =>
      have first := hashing.store32 store.2 (apart store List.mem_cons_self)
      exact inductionHypothesis first fun later member =>
        apart later (List.mem_cons_of_mem _ member)

/-- Software sets the automatic padding for the transfers to come. -/
theorem requestPadding (hashing : Hashing core padding message) :
    Hashing (core.store32 autoHwPadding 1) true message where
  selected := hashing.selected
  streams := hashing.streams
  padding := by
    rw [Core.load32, Core.store32, Image.load32_store32]
    rfl

/-- A chunk of data extends the message. -/
theorem update (hashing : Hashing core padding message) (data : List Byte) :
    Hashing (core.sha256Update data) padding (message ++ data) := by
  have updated : Hashing { core with sha256 := core.sha256.update data } padding
      (message ++ data) :=
    ⟨hashing.selected, hashing.streams.update data, hashing.padding⟩
  have counted : Hashing ({ core with sha256 := core.sha256.update data }.storeHashCurrentLen
      (core.sha256.update data).bytes) padding (message ++ data) :=
    updated.storeAll (by simp [autoHwPadding, hashCurLen0, hashCurLen1])
  rw [sha256Update_eq hashing.streams.active hashing.streams.unfinished]
  dsimp only
  split
  · apply counted.storeAll
    intro store member
    have inside := hashH_store member
    simp only [autoHwPadding, hashH] at inside ⊢
    omega
  · exact counted

theorem finish (hashing : Hashing core padding message) : Hashed core.sha256Finish message := by
  rw [sha256Finish_eq hashing.streams.active hashing.streams.unfinished]
  refine ⟨?_, ?_⟩
  · rw [hashWords_storeHashCurrentLen, hashWords_storeSha256H]
    exact congrArg Sha256.Variables.toList hashing.streams.finish
  · rw [hashCurrentLen_storeHashCurrentLen]
    exact hashing.streams.holds.counted

end Hashing

theorem sha256Update_memory (core : Core Memory) (data : List Byte) :
    (core.sha256Update data).memory = core.memory := by
  unfold sha256Update
  split
  · rfl
  · dsimp only
    split
    · rw [storeSha256H, storeAll_memory, storeHashCurrentLen, storeAll_memory]
    · rw [storeHashCurrentLen, storeAll_memory]

theorem sha256Finish_engine (core : Core Memory) : core.sha256Finish.engine = core.engine := by
  unfold sha256Finish
  split
  · rfl
  · rw [storeHashCurrentLen, storeAll_engine, storeSha256H, storeAll_engine]

/-- A transfer extends the message by the bytes of the memory, however it is cut into chunks. -/
theorem dmaInput_hashing {bus : Bus Memory} {content : Memory → BitVec 64 → Byte}
    (readable : bus.Readable content) {core : Core Memory} {padding : Bool}
    {message : List Byte} (hashing : Hashing core padding message) (source : BitVec 64)
    (remaining : Nat) :
    (dmaInput bus sha256Update core source remaining emptyChunk).1 = true ∧
      Hashing (dmaInput bus sha256Update core source remaining emptyChunk).2 padding
        (message ++ Bus.slice (content core.memory) source remaining) :=
  @dmaInput_extends _ _ _ readable _ (fun core message => Hashing core padding message)
    (fun _ _ data hashing => hashing.update data) sha256Update_memory _ _ hashing source remaining
    _ List.length_replicate

theorem aesDmaOutput_of_hash (bus : Bus Memory) {core : Core Memory}
    (selected : core.engine = engineHash) (triggerOffset : Nat) :
    core.aesDmaOutput bus triggerOffset = core := by
  rw [aesDmaOutput, if_pos]
  rw [selected]
  exact Or.inr (Or.inl (by decide))

theorem cmacDmaInput_of_hash (bus : Bus Memory) {core : Core Memory}
    (selected : core.engine = engineHash) (triggerOffset : Nat) :
    core.cmacDmaInput bus triggerOffset = core := by
  rw [cmacDmaInput, if_pos]
  rw [selected]
  exact Or.inr (Or.inl (by decide))

/-- With the hash engine selected a transfer is its hash input and some status stores. -/
theorem completeDmaTransfer_of_hash (bus : Bus Memory) {core : Core Memory} (triggerOffset : Nat)
    (selected : (core.hashDmaInput bus triggerOffset).engine = engineHash) :
    ∃ stores : List (Nat × BitVec 32), (∀ store ∈ stores, hostRgfIrr ≤ store.1) ∧
      core.completeDmaTransfer bus triggerOffset =
        (core.hashDmaInput bus triggerOffset).storeAll stores := by
  obtain ⟨stores, status, complete⟩ := core.completeDmaTransfer_eq bus triggerOffset
  rw [aesDmaOutput_of_hash bus selected, cmacDmaInput_of_hash bus selected] at complete
  have above : ∀ register ∈ statusRegisters, hostRgfIrr ≤ register := by decide
  exact ⟨stores, fun store member => above _ (status store member), complete⟩

/-- The core when a transfer has been programmed. -/
def programmed (core : Core Memory) (transfer : HashTransfer Memory) : Core Memory :=
  ({ core with memory := transfer.memory }.store32 dinSrcLliWord0 transfer.source).store32
    dinSrcLliWord1 transfer.length

theorem hashTransfer_eq (bus : Bus Memory) (core : Core Memory)
    (transfer : HashTransfer Memory) :
    core.hashTransfer bus transfer =
      (core.programmed transfer).completeDmaTransfer bus dinSrcLliWord1 := rfl

section Transfers

variable {bus : Bus Memory} {content : Memory → BitVec 64 → Byte} {core : Core Memory}
  {message : List Byte}

theorem Hashing.programmed {padding : Bool} (hashing : Hashing core padding message)
    (transfer : HashTransfer Memory) : Hashing (core.programmed transfer) padding message :=
  ((hashing.ofMemory transfer.memory).store32 transfer.source (Or.inl (by decide))).store32
    transfer.length (Or.inl (by decide))

/-- The core when the engine has consumed the bytes of a transfer. -/
def fedBy (bus : Bus Memory) (core : Core Memory) (transfer : HashTransfer Memory) :
    Core Memory :=
  (dmaInput bus sha256Update (core.programmed transfer) (transfer.source.setWidth 64)
    transfer.length.toNat emptyChunk).2

/-- The input of a programmed transfer. -/
theorem hashDmaInput_programmed (readable : bus.Readable content) {padding : Bool}
    (hashing : Hashing core padding message) (transfer : HashTransfer Memory) :
    Hashing (core.fedBy bus transfer) padding (message ++ transfer.data content) ∧
      (core.programmed transfer).hashDmaInput bus dinSrcLliWord1 =
        if padding then (core.fedBy bus transfer).sha256Finish else core.fedBy bus transfer := by
  have ready := hashing.programmed transfer
  have source : (core.programmed transfer).load32 dinSrcLliWord0 = transfer.source := by
    apply Eq.trans (load32_store32_of_disjoint _ _ (Or.inl (by decide)))
    exact Image.load32_store32 _ _ _
  have length : (core.programmed transfer).load32 dinSrcLliWord1 = transfer.length :=
    Image.load32_store32 _ _ _
  obtain ⟨completed, fed⟩ := dmaInput_hashing readable ready (transfer.source.setWidth 64)
    transfer.length.toNat
  refine ⟨fed, ?_⟩
  rw [hashDmaInput, if_neg, dmaSource, source, length]
  · dsimp only
    rw [completed, fed.padding, Bool.true_and]
    rfl
  · rintro (other | inactive | finalized | other)
    · exact other ready.selected
    · exact Bool.noConfusion (ready.streams.active.symm.trans inactive)
    · exact Bool.noConfusion (ready.streams.unfinished.symm.trans finalized)
    · exact other rfl

theorem Hashing.transfer (readable : bus.Readable content)
    (hashing : Hashing core false message) (transfer : HashTransfer Memory) :
    Hashing (core.hashTransfer bus transfer) false (message ++ transfer.data content) := by
  obtain ⟨extended, input⟩ := hashDmaInput_programmed readable hashing transfer
  rw [if_neg Bool.false_ne_true] at input
  have selected : ((core.programmed transfer).hashDmaInput bus dinSrcLliWord1).engine =
      engineHash := by
    rw [input]
    exact extended.selected
  obtain ⟨stores, above, complete⟩ := completeDmaTransfer_of_hash bus dinSrcLliWord1 selected
  rw [hashTransfer_eq, complete, input]
  apply extended.storeAll
  intro store member
  exact Or.inl (le_trans (by decide) (above store member))

/-- With automatic padding a transfer ends the message. -/
theorem Hashing.lastTransfer (readable : bus.Readable content)
    (hashing : Hashing core true message) (transfer : HashTransfer Memory) :
    Hashed (core.hashTransfer bus transfer) (message ++ transfer.data content) := by
  obtain ⟨extended, input⟩ := hashDmaInput_programmed readable hashing transfer
  rw [if_pos rfl] at input
  have selected : ((core.programmed transfer).hashDmaInput bus dinSrcLliWord1).engine =
      engineHash := by
    rw [input, sha256Finish_engine]
    exact extended.selected
  obtain ⟨stores, above, complete⟩ := completeDmaTransfer_of_hash bus dinSrcLliWord1 selected
  rw [hashTransfer_eq, complete, input]
  apply extended.finish.storeAll
  intro store member shown
  have apart := above store member
  simp only [ShowsHash, hashH, hashCurLen0, hashCurLen1, hostRgfIrr] at shown apart
  omega

theorem Hashing.transfers (readable : bus.Readable content)
    (hashing : Hashing core false message) (transfers : List (HashTransfer Memory)) :
    Hashing (transfers.foldl (hashTransfer bus) core) false
      (message ++ transfers.flatMap (HashTransfer.data content)) := by
  induction transfers generalizing core message with
  | nil =>
      rw [List.flatMap_nil, List.append_nil]
      exact hashing
  | cons transfer rest inductionHypothesis =>
      rw [List.flatMap_cons, ← List.append_assoc]
      exact inductionHypothesis (hashing.transfer readable transfer)

theorem hashing_hashStart (bus : Bus Memory) (core : Core Memory) :
    Hashing (core.hashStart bus) false [] := by
  have unpadded : ((core.write32 bus cryptoCtl engineHash).write32 bus autoHwPadding 0).load32
      autoHwPadding = 0 := Image.load32_store32 _ _ _
  have started : Hashing
      { ((core.write32 bus cryptoCtl engineHash).write32 bus autoHwPadding 0).store32 hashControl
          hashAlgSha256 with sha256 := .started } false [] := by
    refine ⟨?_, .started, ?_⟩
    · rw [write32_autoHwPadding, write32_cryptoCtl]
      change (cryptoCtlWrite core engineHash).engine = engineHash
      rw [cryptoCtlWrite, storeAll_engine]
      rfl
    · have kept := load32_store32_of_disjoint
        ((core.write32 bus cryptoCtl engineHash).write32 bus autoHwPadding 0) hashAlgSha256
        (Or.inl (by decide : autoHwPadding + 4 ≤ hashControl))
      rw [unpadded] at kept
      change (Core.load32 (Core.store32 _ hashControl hashAlgSha256) autoHwPadding &&& 0x1 != 0) =
        false
      rw [kept]
      rfl
  rw [hashStart, write32_hashControl]
  apply Hashing.storeAll
  · exact started.storeAll (by simp [autoHwPadding, hashCurLen0, hashCurLen1])
  · intro store member
    have inside := hashH_store member
    simp only [autoHwPadding, hashH] at inside ⊢
    omega

/-- Software asks for the padding. -/
theorem Hashing.pad {padding : Bool} (hashing : Hashing core padding message) :
    Hashed (core.write32 bus hashPadCfg 4) message := by
  have stored := hashing.store32 4 (Or.inl (by decide : autoHwPadding + 4 ≤ hashPadCfg))
  have write : core.write32 bus hashPadCfg 4 = (core.store32 hashPadCfg 4).sha256Finish := by
    change (if _ ∧ (core.store32 hashPadCfg 4).sha256.active = true then _ else _) = _
    rw [if_pos ⟨by decide, stored.streams.active⟩]
  rw [write]
  exact stored.finish

end Transfers

/-- The registers of the core show the length and the hash of a message. -/
structure ShowsDigest (core : Core Memory) (message : List Byte) : Prop where
  words : core.hashWords = (Sha256.hash message).toList
  digest : core.hashWords.flatMap RseLmsAccel.storeBe32 = Sha256.digest message
  length : core.hashCurrentLen.toNat = message.length

theorem Hashed.showsDigest {core : Core Memory} {message : List Byte}
    (hashed : Hashed core message) (short : message.length < 2 ^ 61) :
    ShowsDigest core message where
  words := hashed.words
  digest := by
    rw [hashed.words]
    rfl
  length := by
    rw [hashed.length, BitVec.toNat_ofNat]
    exact Nat.mod_eq_of_lt (by omega)

/-- Both engines compute SHA-256 of a message of fewer than `2 ^ 61` bytes, however it is split:
the core over its DMA transfers, with the padding asked for explicitly or left to the last
transfer, and the accelerator over its updates. -/
theorem streamed_sha256 {bus : Bus Memory} {content : Memory → BitVec 64 → Byte}
    (readable : bus.Readable content) (core : Core Memory) (message : List Byte)
    (short : message.length < 2 ^ 61) :
    (∀ transfers : List (HashTransfer Memory),
      transfers.flatMap (HashTransfer.data content) = message →
        ShowsDigest ((transfers.foldl (hashTransfer bus) (core.hashStart bus)).write32 bus
          hashPadCfg 4) message) ∧
      (∀ (front : List (HashTransfer Memory)) (last : HashTransfer Memory),
        (front ++ [last]).flatMap (HashTransfer.data content) = message →
          ShowsDigest (((front.foldl (hashTransfer bus) (core.hashStart bus)).write32 bus
            autoHwPadding 1).hashTransfer bus last) message) ∧
      ∀ pieces : List (List Byte), pieces.flatten = message →
        (pieces.foldl RseLmsAccel.Sha256.update RseLmsAccel.Sha256.reset).finish =
          Sha256.digest message := by
  have start := hashing_hashStart bus core
  refine ⟨?_, ?_, ?_⟩
  · intro transfers covered
    have fed := start.transfers readable transfers
    rw [List.nil_append, covered] at fed
    exact fed.pad.showsDigest short
  · intro front last covered
    have fed := (start.transfers readable front).requestPadding.lastTransfer readable last
    rw [List.flatMap_append, List.flatMap_singleton] at covered
    rw [List.nil_append, covered] at fed
    exact fed.showsDigest short
  · intro pieces covered
    have fed := RseLmsAccel.Sha256.Streams.reset.updates pieces
    rw [List.nil_append, covered] at fed
    exact fed.finish

/-- Three bytes in two transfers. -/
theorem streamed_sha256_abc :
    ShowsDigest
      (([⟨fun address => if address = 0 then 0x61 else 0x62, 0, 2⟩, ⟨fun _ => 0x63, 7, 1⟩].foldl
        (hashTransfer Bus.ram) ((reset fun _ => 0).hashStart Bus.ram)).write32 Bus.ram hashPadCfg
          4) [0x61, 0x62, 0x63] :=
  (streamed_sha256 Bus.ram_writable.toReadable (reset fun _ => 0) [0x61, 0x62, 0x63]
    (by decide)).1 _ (by decide)

end Core

end QboxPlatform.Cc3xx
