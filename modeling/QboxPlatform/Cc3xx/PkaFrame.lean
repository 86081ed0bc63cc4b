import QboxPlatform.Cc3xx.Access

/-!
# What leaves the modulus alone

The modulus depends on mapping register 0 and on the SRAM, and the cache on the two fields beside
them.  Stores past the first register, the engines and the DMA touch none of these.
-/

namespace QboxPlatform.Cc3xx

open Foundation

namespace Core

variable {Memory : Type}

/-- The core has the same mapping register 0, SRAM and modulus cache. -/
structure SamePka (before after : Core Memory) : Prop where
  sram : after.pkaSram = before.pkaSram
  cache : after.pkaModulusCache = before.pkaModulusCache
  nBase : after.load32 0 = before.load32 0

namespace SamePka

theorem refl (core : Core Memory) : SamePka core core := ⟨rfl, rfl, rfl⟩

theorem trans {first second third : Core Memory} (left : SamePka first second)
    (right : SamePka second third) : SamePka first third :=
  ⟨right.sram.trans left.sram, right.cache.trans left.cache, right.nBase.trans left.nBase⟩

theorem ite {condition : Prop} [Decidable condition] {core first second : Core Memory}
    (taken : SamePka core first) (skipped : SamePka core second) :
    SamePka core (if condition then first else second) := by
  split
  · exact taken
  · exact skipped

theorem store32 (core : Core Memory) {offset : Nat} (value : BitVec 32)
    (past : 4 ≤ offset) : SamePka core (core.store32 offset value) :=
  ⟨rfl, rfl, core.load32_store32_of_disjoint value (Or.inl (by omega))⟩

theorem storeAll (core : Core Memory) {stores : List (Nat × BitVec 32)}
    (past : ∀ store ∈ stores, 4 ≤ store.1) : SamePka core (core.storeAll stores) := by
  induction stores generalizing core with
  | nil => exact refl core
  | cons store rest inductionHypothesis =>
      have head := SamePka.store32 core store.2 (past store List.mem_cons_self)
      exact head.trans (inductionHypothesis _ fun other member =>
        past other (List.mem_cons_of_mem _ member))

end SamePka

/-! ### The engines -/

theorem samePka_storeHashCurrentLen (core : Core Memory) (value : BitVec 64) :
    SamePka core (core.storeHashCurrentLen value) :=
  SamePka.storeAll core (by simp [hashCurLen0, hashCurLen1])

theorem samePka_storeSha256H (core : Core Memory) : SamePka core core.storeSha256H := by
  apply SamePka.storeAll
  intro store member
  obtain ⟨⟨word, index⟩, -, rfl⟩ := List.mem_map.mp member
  simp only [hashH]
  omega

theorem samePka_sha256 (core : Core Memory) (state : Sha256State) :
    SamePka core { core with sha256 := state } := ⟨rfl, rfl, rfl⟩

theorem samePka_sha256Reset (core : Core Memory) : SamePka core core.sha256Reset :=
  (samePka_sha256 core _).trans
    ((samePka_storeHashCurrentLen _ _).trans (samePka_storeSha256H _))

theorem samePka_sha256Update (core : Core Memory) (data : List Byte) :
    SamePka core (core.sha256Update data) := by
  unfold sha256Update
  split
  · exact SamePka.refl core
  · have counted := (samePka_sha256 core (core.sha256.update data)).trans
      (samePka_storeHashCurrentLen _ (core.sha256.update data).bytes)
    dsimp only
    split
    · exact counted.trans (samePka_storeSha256H _)
    · exact counted

theorem samePka_sha256Finish (core : Core Memory) : SamePka core core.sha256Finish := by
  unfold sha256Finish
  split
  · exact SamePka.refl core
  · exact (samePka_sha256 core _).trans
      ((samePka_storeSha256H _).trans (samePka_storeHashCurrentLen _ _))

theorem samePka_memory (core : Core Memory) (memory : Memory) :
    SamePka core { core with memory := memory } := ⟨rfl, rfl, rfl⟩

/-- A DMA input leaves alone what its consumer leaves alone. -/
theorem samePka_dmaInput (bus : Bus Memory)
    {consume : Core Memory → List Byte → Core Memory}
    (consumed : ∀ core data, SamePka core (consume core data)) (core : Core Memory)
    (source : BitVec 64) (remaining : Nat) (chunk : List Byte) :
    SamePka core (dmaInput bus consume core source remaining chunk).2 := by
  fun_induction dmaInput bus consume core source remaining chunk with
  | case1 => exact SamePka.refl _
  | case2 =>
      rename_i inductionHypothesis
      exact (samePka_memory _ _).trans ((consumed _ _).trans inductionHypothesis)
  | case3 => exact samePka_memory _ _

theorem samePka_aesChunks {Chaining : Type} (bus : Bus Memory)
    (transform : Chaining → List Byte → Option (List Byte × Chaining)) (core : Core Memory)
    (source dest : BitVec 64) (remaining : Nat) (chunk : List Byte) (chaining : Chaining) :
    SamePka core (aesChunks bus transform core source dest remaining chunk chaining).2 := by
  fun_induction aesChunks bus transform core source dest remaining chunk chaining with
  | case1 => exact SamePka.refl _
  | case2 | case4 | case5 => exact ⟨rfl, rfl, rfl⟩
  | case3 =>
      rename_i inductionHypothesis
      exact (samePka_memory _ _).trans inductionHypothesis

theorem samePka_of_aesChunks {Chaining : Type} {bus : Bus Memory}
    {transform : Chaining → List Byte → Option (List Byte × Chaining)}
    {core moved : Core Memory} {source dest : BitVec 64} {remaining : Nat} {chunk : List Byte}
    {chaining : Chaining} {last : Option Chaining}
    (outcome : aesChunks bus transform core source dest remaining chunk chaining =
      (last, moved)) : SamePka core moved := by
  have chunks := samePka_aesChunks bus transform core source dest remaining chunk chaining
  rwa [outcome] at chunks

theorem samePka_hashDmaInput (bus : Bus Memory) (core : Core Memory) (triggerOffset : Nat) :
    SamePka core (core.hashDmaInput bus triggerOffset) := by
  unfold hashDmaInput
  split
  · exact SamePka.refl core
  · have fed := samePka_dmaInput bus samePka_sha256Update core core.dmaSource
      (core.load32 dinSrcLliWord1).toNat emptyChunk
    dsimp only
    split
    · exact fed.trans (samePka_sha256Finish _)
    · exact fed

theorem samePka_regsWrite (core : Core Memory) {offset : Nat} (data : List Byte)
    (past : 4 ≤ offset) :
    SamePka core { core with regs := core.regs.write offset data } :=
  ⟨rfl, rfl, core.regs.load32_write_of_disjoint data (Or.inl (by omega))⟩

theorem samePka_aesCtrXcrypt (bus : Bus Memory) (core : Core Memory) (source dest : BitVec 64)
    (len : Nat) : SamePka core (core.aesCtrXcrypt bus source dest len) := by
  unfold aesCtrXcrypt
  dsimp only
  split <;> rename_i outcome
  · refine (samePka_of_aesChunks outcome).trans
      ((samePka_regsWrite _ _ (by decide)).trans (SamePka.storeAll _ ?_))
    simp [aesRemainingBytes, aesBusy]
  · exact samePka_of_aesChunks outcome

theorem samePka_aesEcbXcrypt (bus : Bus Memory) (core : Core Memory) (source dest : BitVec 64)
    (len : Nat) : SamePka core (core.aesEcbXcrypt bus source dest len) := by
  unfold aesEcbXcrypt
  split
  · exact SamePka.refl core
  · dsimp only
    split <;> rename_i outcome
    · exact (samePka_of_aesChunks outcome).trans
        (SamePka.storeAll _ (by simp [aesRemainingBytes, aesBusy]))
    · exact samePka_of_aesChunks outcome

theorem samePka_aesDmaOutput (bus : Bus Memory) (core : Core Memory) (triggerOffset : Nat) :
    SamePka core (core.aesDmaOutput bus triggerOffset) := by
  unfold aesDmaOutput
  dsimp only
  split_ifs
  · exact SamePka.refl core
  · exact samePka_aesEcbXcrypt bus core _ _ _
  · exact samePka_aesCtrXcrypt bus core _ _ _
  · exact SamePka.refl core

theorem samePka_cmacDmaInput (bus : Bus Memory) (core : Core Memory) (triggerOffset : Nat) :
    SamePka core (core.cmacDmaInput bus triggerOffset) := by
  unfold cmacDmaInput
  split
  · exact SamePka.refl core
  · apply samePka_dmaInput bus
    exact fun _ _ => ⟨rfl, rfl, rfl⟩

theorem samePka_cmacFinish (core : Core Memory) : SamePka core core.cmacFinish := by
  unfold cmacFinish
  split
  · exact SamePka.refl core
  · have finished (tagged : Core Memory) :
        SamePka tagged { tagged.store32 aesBusy 0 with cmacActive := false } :=
      (SamePka.store32 tagged 0 (by decide)).trans ⟨rfl, rfl, rfl⟩
    cases aesCmac core.aesKey core.cmacData with
    | none => exact finished core
    | some tag => exact (samePka_regsWrite core _ (by decide)).trans (finished _)

theorem samePka_completeDmaTransfer (bus : Bus Memory) (core : Core Memory)
    (triggerOffset : Nat) : SamePka core (core.completeDmaTransfer bus triggerOffset) := by
  have hashed := samePka_hashDmaInput bus core triggerOffset
  have moved := samePka_aesDmaOutput bus (core.hashDmaInput bus triggerOffset) triggerOffset
  refine hashed.trans (moved.trans ((samePka_cmacDmaInput bus _ triggerOffset).trans
    (SamePka.storeAll _ ?_)))
  simp [hostRgfIrr, dinMemDmaBusy, dinSramDmaBusy, doutMemDmaBusy, doutSramDmaBusy, fifoInEmpty,
    doutFifoEmpty, hostCcIsIdle]

/-! ### The register accesses -/

theorem samePka_updateRngAfterWrite (core : Core Memory) (offset : Nat) (value : BitVec 32) :
    SamePka core (core.updateRngAfterWrite offset value) := by
  have stored {offset : Nat} (value : BitVec 32) (past : 4 ≤ offset) :
      SamePka core (core.store32 offset value) := .store32 core value past
  unfold updateRngAfterWrite
  refine .ite ((stored value (by decide)).trans (.store32 _ 0 (by decide))) ?_
  refine .ite (stored _ (by decide)) ?_
  refine .ite ?_ ?_
  · dsimp only
    exact .ite ((stored value (by decide)).trans (.store32 _ _ (by decide)))
      (stored value (by decide))
  refine .ite (stored value (by decide)) ?_
  exact .ite (stored value (by decide)) (.refl core)

theorem samePka_updateHashAfterWrite (core : Core Memory) (offset : Nat) (value : BitVec 32)
    (past : 4 ≤ offset) : SamePka core (core.updateHashAfterWrite offset value) := by
  have stored := SamePka.store32 core value past
  have control : SamePka core (core.store32 hashControl value) := .store32 core value (by decide)
  have padding : SamePka core (core.store32 hashPadCfg value) := .store32 core value (by decide)
  unfold updateHashAfterWrite
  dsimp only
  refine .ite (.ite (stored.trans (samePka_sha256 _ _)) stored) ?_
  refine .ite (.ite (stored.trans (samePka_sha256 _ _)) stored) ?_
  refine .ite (.ite (control.trans (samePka_sha256Reset _))
    (control.trans (samePka_sha256 _ _))) ?_
  refine .ite (.ite (padding.trans (samePka_sha256Finish _)) padding) ?_
  exact .ite (.store32 core value (by decide)) (.refl core)

theorem samePka_cryptoCtlWrite (core : Core Memory) (value : BitVec 32) :
    SamePka core (core.cryptoCtlWrite value) := by
  have stored : SamePka core { core.store32 cryptoCtl value with engine := value &&& 0x1f } :=
    (SamePka.store32 core value (by decide)).trans ⟨rfl, rfl, rfl⟩
  exact stored.trans (SamePka.storeAll _ (by simp [cryptoBusy, hashBusy, hostCcIsIdle]))

/-- The offsets at which `write32` reaches the modulus or its cache. -/
def reachesPka (offset : Nat) : Prop :=
  offset = 0 ∨ offset = pkaSwReset ∨ offset = pkaSramWdata ∨ offset = pkaOpcode

theorem samePka_write32 (bus : Bus Memory) (core : Core Memory) {offset : Nat}
    (value : BitVec 32) (aligned : offset % 4 = 0) (elsewhere : ¬reachesPka offset) :
    SamePka core (core.write32 bus offset value) := by
  simp only [reachesPka, not_or] at elsewhere
  obtain ⟨notBase, notReset, notData, notOpcode⟩ := elsewhere
  have past : 4 ≤ offset := by omega
  have stored {offset : Nat} (past : 4 ≤ offset) : SamePka core (core.store32 offset value) :=
    .store32 core value past
  unfold write32
  rw [if_neg notReset, if_neg notData, if_neg notOpcode, if_neg notBase]
  refine .ite ((stored (by decide)).trans ⟨rfl, rfl, rfl⟩) ?_
  refine .ite ((stored (by decide)).trans ⟨rfl, rfl, rfl⟩) ?_
  refine .ite (samePka_updateRngAfterWrite core offset value) ?_
  refine .ite (.store32 core _ (by decide)) ?_
  refine .ite (samePka_updateHashAfterWrite core offset value past) ?_
  refine .ite (.ite ((stored (by decide)).trans ⟨rfl, rfl, rfl⟩) (stored (by decide))) ?_
  refine .ite (.ite ((stored (by decide)).trans (samePka_cmacFinish _)) (stored (by decide))) ?_
  refine .ite (samePka_cryptoCtlWrite core value) ?_
  refine .ite ((stored past).trans (samePka_completeDmaTransfer bus _ offset)) ?_
  exact .ite (samePka_updateHashAfterWrite core offset value past) (stored past)

theorem samePka_pkaSramDataRead (core : Core Memory) :
    SamePka core core.pkaSramDataRead.2 := by
  have moved : SamePka core { core with pkaReadAddr := core.pkaReadAddr + 1 } := ⟨rfl, rfl, rfl⟩
  exact moved.trans (SamePka.store32 _ _ (show 4 ≤ pkaSramRdata by decide))

theorem samePka_read (core : Core Memory) (offset len : Nat) (debug : Bool) :
    SamePka core (core.read offset len debug).2 := by
  have loaded : SamePka core
      (if debug = false ∧ len = 4 ∧ offset = pkaSramRdata then core.pkaSramDataRead
      else (core.regs.read offset len, core)).2 := by
    split
    · exact samePka_pkaSramDataRead core
    · exact SamePka.refl core
  unfold read
  dsimp only
  split
  · exact loaded.trans (SamePka.store32 _ _ (show 4 ≤ rngIsr by decide))
  · exact loaded

end Core

end QboxPlatform.Cc3xx
