import QboxPlatform.Mmu720ae.Device

/-!
# What the operations of the core leave in the registers

Stores go to both pages, but every access is folded onto the first one, so a register is read
from the first page alone.
-/

namespace QboxPlatform.Mmu720ae

open Foundation

namespace Core

variable (core : Core)

/-- In the first page a store is a plain write. -/
theorem regs_store_of_low (offset : Nat) (data : List Byte) {index : Nat}
    (low : index < page1Offset) :
    (core.store offset data).regs index = core.regs.write offset data index := by
  unfold store
  dsimp only
  split
  · exact Image.write_outside _ _ _ (Or.inl (by omega))
  · rfl

theorem load32_store32 {offset : Nat} (value : BitVec 32) (low : offset + 4 ≤ page1Offset) :
    (core.store32 offset value).load32 offset = value := by
  have plain : (core.store32 offset value).load32 offset =
      (core.regs.store32 offset value).load32 offset :=
    Image.load32_congr fun _ _ _ => core.regs_store_of_low offset _ (by omega)
  rw [plain, Image.load32_store32]

theorem load32_store32_of_disjoint {offset register : Nat} (value : BitVec 32)
    (low : register + 4 ≤ page1Offset)
    (disjoint : register + 4 ≤ offset ∨ offset + 4 ≤ register) :
    (core.store32 offset value).load32 register = core.load32 register := by
  have plain : (core.store32 offset value).load32 register =
      (core.regs.store32 offset value).load32 register :=
    Image.load32_congr fun _ _ _ => core.regs_store_of_low offset _ (by omega)
  rw [plain, Image.load32_store32_of_disjoint _ _ disjoint, load32]

theorem load64_store32_of_disjoint {offset register : Nat} (value : BitVec 32)
    (low : register + 8 ≤ page1Offset)
    (disjoint : register + 8 ≤ offset ∨ offset + 4 ≤ register) :
    (core.store32 offset value).load64 register = core.load64 register := by
  have plain : (core.store32 offset value).load64 register =
      (core.regs.store32 offset value).load64 register :=
    Image.load64_congr fun _ _ _ => core.regs_store_of_low offset _ (by omega)
  rw [plain, Image.store32, Image.load64_write_of_disjoint _ _ (by simpa using disjoint), load64]

@[simp]
theorem load32_updateIrq (register : Nat) :
    core.updateIrq.load32 register = core.load32 register := rfl

@[simp]
theorem load64_updateIrq (register : Nat) :
    core.updateIrq.load64 register = core.load64 register := rfl

/-! ### The event queue -/

/-- The event queue is set up in the same way. -/
structure SameSetup (before after : Core) : Prop where
  cr0ack : after.load32 cr0ack = before.load32 cr0ack
  evtqBase : after.load64 evtqBase = before.load64 evtqBase

namespace SameSetup

variable {before after : Core}

theorem log2Entries (same : SameSetup before after) :
    after.eventQueueLog2Entries = before.eventQueueLog2Entries := by
  rw [eventQueueLog2Entries, same.evtqBase, eventQueueLog2Entries]

theorem base (same : SameSetup before after) :
    after.eventQueueBase = before.eventQueueBase := by
  rw [eventQueueBase, same.evtqBase, eventQueueBase]

theorem configured (same : SameSetup before after) :
    after.eventQueueConfigured = before.eventQueueConfigured := by
  simp only [eventQueueConfigured, eventQueueEnabled, same.cr0ack, same.log2Entries, same.base]

end SameSetup

section Abort

theorem sameSetup_recordEventQueueAbort : SameSetup core core.recordEventQueueAbort := by
  constructor
  · simp (disch := decide) only [recordEventQueueAbort, storeGerror, load32_updateIrq,
      load32_store32_of_disjoint]
    rfl
  · simp (disch := decide) only [recordEventQueueAbort, storeGerror, load64_updateIrq,
      load64_store32_of_disjoint]
    rfl

theorem evtqProd_recordEventQueueAbort :
    core.recordEventQueueAbort.load32 evtqProd = core.load32 evtqProd := by
  simp (disch := decide) only [recordEventQueueAbort, storeGerror, load32_updateIrq,
    load32_store32_of_disjoint]
  rfl

theorem evtqCons_recordEventQueueAbort :
    core.recordEventQueueAbort.load32 evtqCons = core.load32 evtqCons := by
  simp (disch := decide) only [recordEventQueueAbort, storeGerror, load32_updateIrq,
    load32_store32_of_disjoint]
  rfl

theorem gerror_recordEventQueueAbort :
    core.recordEventQueueAbort.load32 gerror = core.load32 gerror ||| gerrorEvtqAbtErr := by
  simp (disch := decide) only [recordEventQueueAbort, storeGerror, load32_updateIrq,
    load32_store32_of_disjoint, load32_store32]
  rfl

end Abort

section Record

theorem sameSetup_completeEventQueueWrite :
    SameSetup core (core.completeEventQueueWrite true) := by
  constructor
  · simp (disch := decide) only [completeEventQueueWrite, load32_updateIrq,
      load32_store32_of_disjoint, Bool.not_true, Bool.false_eq_true, if_false]
    rfl
  · simp (disch := decide) only [completeEventQueueWrite, load64_updateIrq,
      load64_store32_of_disjoint, Bool.not_true, Bool.false_eq_true, if_false]
    rfl

theorem evtqProd_completeEventQueueWrite :
    (core.completeEventQueueWrite true).load32 evtqProd = core.eventQueueNextProd := by
  simp (disch := decide) only [completeEventQueueWrite, load32_updateIrq, load32_store32,
    Bool.not_true, Bool.false_eq_true, if_false]
  rfl

theorem evtqCons_completeEventQueueWrite :
    (core.completeEventQueueWrite true).load32 evtqCons = core.load32 evtqCons := by
  simp (disch := decide) only [completeEventQueueWrite, load32_updateIrq,
    load32_store32_of_disjoint, Bool.not_true, Bool.false_eq_true, if_false]
  rfl

end Record

/-! ### Writes through the port -/

/-- The registers that a word write does more, or less, to than storing the value. -/
def specialRegisters : List Nat :=
  ignoredRegisters ++ [cr0, irqCtrl, gbpa, gerrorn, cmdqProd, evtqCons, priqCons]

/-- The write only stores its bytes: it is no word write, or one to a plain register. -/
def PlainWrite (normalized : Nat) (data : List Byte) : Prop :=
  ¬(data.length = 4 ∧ normalized % 4 = 0 ∧ normalized ∈ specialRegisters)

instance (normalized : Nat) (data : List Byte) : Decidable (PlainWrite normalized data) :=
  inferInstanceAs (Decidable ¬_)

theorem write32_of_plain {normalized : Nat} (value : BitVec 32)
    (plain : normalized ∉ specialRegisters) :
    core.write32 normalized value = core.store32 normalized value := by
  simp only [specialRegisters, List.mem_append, List.mem_cons, List.not_mem_nil, or_false,
    not_or] at plain
  obtain ⟨ignored, notCr0, notIrqCtrl, notGbpa, notGerrorn, notCmdqProd, notEvtqCons,
    notPriqCons⟩ := plain
  simp only [write32, ignored, notCr0, notIrqCtrl, notGbpa, notGerrorn, notCmdqProd, notEvtqCons,
    notPriqCons, or_self, if_false]

/-- A plain write stores its bytes and changes nothing beside the registers. -/
theorem writeAt_of_plain {normalized : Nat} {data : List Byte}
    (plain : PlainWrite normalized data) :
    (core.writeAt normalized data).combinedIrq = core.combinedIrq ∧
      ∀ index < page1Offset,
        (core.writeAt normalized data).regs index = core.regs.write normalized data index := by
  unfold writeAt
  split
  · next word =>
      have encoded := toBytes_ofBytes data (show 8 * data.length ≤ 32 by omega)
      rw [word.1] at encoded
      rw [core.write32_of_plain _ fun special => plain ⟨word.1, word.2, special⟩, store32, encoded]
      exact ⟨rfl, fun index low => core.regs_store_of_low normalized data low⟩
  · split
    · next doubleWord =>
        have encoded := toBytes_ofBytes data (show 8 * data.length ≤ 64 by omega)
        rw [doubleWord.1] at encoded
        rw [write64, store64, encoded]
        exact ⟨rfl, fun index low => core.regs_store_of_low normalized data low⟩
    · exact ⟨rfl, fun _ _ => rfl⟩

/-- A write that is not plain goes through `write32`. -/
theorem writeAt_of_special {normalized : Nat} {data : List Byte}
    (special : ¬PlainWrite normalized data) :
    normalized ∈ specialRegisters ∧
      core.writeAt normalized data = core.write32 normalized (ofBytes 32 data) := by
  obtain ⟨length, aligned, member⟩ := not_not.mp special
  exact ⟨member, if_pos ⟨length, aligned⟩⟩

end Core

end QboxPlatform.Mmu720ae
