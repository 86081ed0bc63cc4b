import QboxPlatform.Mmu720ae.EventQueue

/-!
# The level of the combined interrupt

The level is kept beside the registers and computed anew by some operations only.  The other
writes leave it as it was, and then it is the level of the registers exactly if their bytes do
not change what the level depends on.
-/

namespace QboxPlatform.Mmu720ae

open Foundation

/-- The registers that the level depends on. -/
structure LevelRegisters where
  irqCtrl : BitVec 32
  gerror : BitVec 32
  cr0ack : BitVec 32
  evtqBase : BitVec 64
  evtqProd : BitVec 32
  evtqCons : BitVec 32

namespace LevelRegisters

def of (regs : Image) : LevelRegisters where
  irqCtrl := regs.load32 Mmu720ae.irqCtrl
  gerror := regs.load32 Mmu720ae.gerror
  cr0ack := regs.load32 Mmu720ae.cr0ack
  evtqBase := regs.load64 Mmu720ae.evtqBase
  evtqProd := regs.load32 Mmu720ae.evtqProd
  evtqCons := regs.load32 Mmu720ae.evtqCons

variable (registers : LevelRegisters)

/-- An error is active and may interrupt. -/
def errorLevel : Bool :=
  registers.irqCtrl &&& irqCtrlGerrorIrqen != 0 && registers.gerror &&& gerrorErrMask != 0

/-- The event queue is enabled, has a size and a base. -/
def queueReady : Bool :=
  registers.cr0ack &&& cr0Evtqen != 0 &&
    decide (1 ≤ (registers.evtqBase &&& qBaseLog2sizeMask).toNat) &&
    decide ((registers.evtqBase &&& qBaseLog2sizeMask).toNat ≤ 30) &&
    registers.evtqBase &&& qBaseAddrMask != 0

/-- Events are queued and may interrupt. -/
def eventLevel : Bool :=
  registers.irqCtrl &&& irqCtrlEvtqIrqen != 0 && registers.queueReady &&
    registers.evtqProd != registers.evtqCons

def level : Bool := registers.errorLevel || registers.eventLevel

end LevelRegisters

/-- The offsets of the registers that the level depends on. -/
def LevelOffset (index : Nat) : Prop :=
  (cr0ack ≤ index ∧ index < cr0ack + 4) ∨ (irqCtrl ≤ index ∧ index < irqCtrl + 4) ∨
    (gerror ≤ index ∧ index < gerror + 4) ∨ (evtqBase ≤ index ∧ index < evtqCons + 4)

theorem LevelRegisters.of_congr {first second : Image}
    (same : ∀ index, LevelOffset index → first index = second index) :
    LevelRegisters.of first = LevelRegisters.of second := by
  simp only [LevelOffset, Mmu720ae.cr0ack, Mmu720ae.irqCtrl, Mmu720ae.gerror, Mmu720ae.evtqBase,
    Mmu720ae.evtqCons] at same
  simp only [LevelRegisters.of, LevelRegisters.mk.injEq, Mmu720ae.cr0ack, Mmu720ae.irqCtrl,
    Mmu720ae.gerror, Mmu720ae.evtqBase, Mmu720ae.evtqProd, Mmu720ae.evtqCons]
  refine ⟨?_, ?_, ?_, ?_, ?_, ?_⟩
  · exact Image.load32_congr fun index above below => same index (by omega)
  · exact Image.load32_congr fun index above below => same index (by omega)
  · exact Image.load32_congr fun index above below => same index (by omega)
  · exact Image.load64_congr fun index above below => same index (by omega)
  · exact Image.load32_congr fun index above below => same index (by omega)
  · exact Image.load32_congr fun index above below => same index (by omega)

namespace Core

variable {core : Core}

/-- The level is the one of the registers. -/
def LevelExact (core : Core) : Prop :=
  core.combinedIrq = (LevelRegisters.of core.regs).level

instance (core : Core) : Decidable core.LevelExact := inferInstanceAs (Decidable (_ = _))

theorem levelExact_updateIrq (core : Core) : core.updateIrq.LevelExact := by
  have size : ∀ count : Nat, (decide (0 < count) && decide (count < 31)) =
      (decide (1 ≤ count) && decide (count ≤ 30)) := by
    intro count
    rw [← Bool.decide_and, ← Bool.decide_and]
    exact decide_eq_decide.mpr (by omega)
  have ready : core.eventQueueConfigured = (LevelRegisters.of core.regs).queueReady := by
    rw [eventQueueConfigured, Bool.and_assoc core.eventQueueEnabled, size, ← Bool.and_assoc]
    rfl
  have pending : core.eventQueuePending =
      ((LevelRegisters.of core.regs).queueReady &&
        core.load32 evtqProd != core.load32 evtqCons) := by
    rw [eventQueuePending, ready]
  rw [LevelExact, updateIrq, pending, ← Bool.and_assoc]
  rfl

/-- The write at a position leaves the level exact: a plain write puts no bytes into the registers
that change the level, and neither does a write of `CR0` by what it acknowledges. -/
def KeepsLevel (core : Core) (normalized : Nat) (data : List Byte) : Prop :=
  if PlainWrite normalized data then
    (LevelRegisters.of (core.regs.write normalized data)).level =
      (LevelRegisters.of core.regs).level
  else
    normalized = cr0 →
      { LevelRegisters.of core.regs with
          cr0ack := ofBytes 32 data &&& cr0ImplementedMask }.level =
        (LevelRegisters.of core.regs).level

/-- Stores beside the level registers, and no new level. -/
theorem levelExact_congr {next : Core} (combinedIrq : next.combinedIrq = core.combinedIrq)
    (same : ∀ index, LevelOffset index → next.regs index = core.regs index)
    (exact : core.LevelExact) : next.LevelExact := by
  rw [LevelExact, combinedIrq, LevelRegisters.of_congr same]
  exact exact

theorem page1Offset_of_levelOffset {index : Nat} (watched : LevelOffset index) :
    index < page1Offset := by
  simp only [LevelOffset, Mmu720ae.cr0ack, Mmu720ae.irqCtrl, Mmu720ae.gerror, Mmu720ae.evtqBase,
    Mmu720ae.evtqCons] at watched
  rw [page1Offset]
  omega

theorem levelExact_store32 {offset : Nat} (value : BitVec 32)
    (beside : ∀ index, LevelOffset index → index < offset ∨ offset + 4 ≤ index)
    (exact : core.LevelExact) : (core.store32 offset value).LevelExact := by
  refine @levelExact_congr core _ rfl ?_ exact
  intro index watched
  rw [store32, regs_store_of_low _ _ _ (page1Offset_of_levelOffset watched)]
  exact Image.write_outside _ _ _ (by simpa using beside index watched)

/-- What a write of `CR0` does to the level registers. -/
theorem levelRegisters_write32_cr0 (core : Core) (value : BitVec 32) :
    (core.write32 cr0 value).combinedIrq = core.combinedIrq ∧
      LevelRegisters.of (core.write32 cr0 value).regs =
        { LevelRegisters.of core.regs with cr0ack := value &&& cr0ImplementedMask } := by
  have stored : (core.write32 cr0 value).combinedIrq = core.combinedIrq ∧
      (core.write32 cr0 value).regs =
        ((core.store32 cr0 (value &&& cr0ImplementedMask)).store32 cr0ack
          (value &&& cr0ImplementedMask)).regs := by
    rw [write32, if_neg (by decide), if_pos rfl]
    dsimp only
    split <;> exact ⟨rfl, rfl⟩
  have kept : ∀ register, register + 4 ≤ page1Offset →
      (register + 4 ≤ cr0 ∨ cr0ack + 4 ≤ register) →
      ((core.store32 cr0 (value &&& cr0ImplementedMask)).store32 cr0ack
        (value &&& cr0ImplementedMask)).load32 register = core.load32 register := by
    intro register low beside
    simp only [Mmu720ae.cr0, Mmu720ae.cr0ack] at beside ⊢
    rw [load32_store32_of_disjoint _ _ low (by omega),
      load32_store32_of_disjoint _ _ low (by omega)]
  refine ⟨stored.1, ?_⟩
  rw [stored.2]
  simp only [LevelRegisters.of, LevelRegisters.mk.injEq]
  refine ⟨kept _ (by decide) (by decide), kept _ (by decide) (by decide), ?_, ?_,
    kept _ (by decide) (by decide), kept _ (by decide) (by decide)⟩
  · exact load32_store32 _ _ (by decide)
  · exact (load64_store32_of_disjoint _ _ (by decide) (by decide)).trans
      (load64_store32_of_disjoint _ _ (by decide) (by decide))

theorem levelExact_write32_of_ne {normalized : Nat} (value : BitVec 32)
    (special : normalized ∈ specialRegisters) (other : normalized ≠ cr0)
    (exact : core.LevelExact) : (core.write32 normalized value).LevelExact := by
  simp only [specialRegisters, List.mem_append, List.mem_cons, List.not_mem_nil, or_false]
    at special
  rcases special with ignored | rfl | rfl | rfl | rfl | rfl | rfl | rfl
  · rwa [write32, if_pos ignored]
  · exact absurd rfl other
  · exact levelExact_updateIrq _
  · apply levelExact_store32 _ _ exact
    simp only [LevelOffset, Mmu720ae.cr0ack, Mmu720ae.irqCtrl, Mmu720ae.gerror, Mmu720ae.evtqBase,
      Mmu720ae.evtqCons, gbpa]
    omega
  · exact levelExact_updateIrq _
  · have beside : ∀ index, LevelOffset index → index < cmdqProd ∨ cmdqCons + 4 ≤ index := by
      simp only [LevelOffset, Mmu720ae.cr0ack, Mmu720ae.irqCtrl, Mmu720ae.gerror,
        Mmu720ae.evtqBase, Mmu720ae.evtqCons, cmdqProd, cmdqCons]
      omega
    have stored : ((core.store32 cmdqProd value).store32 cmdqCons value).LevelExact := by
      apply levelExact_store32
      · intro index watched
        have := beside index watched
        simp only [cmdqProd, cmdqCons] at this ⊢
        omega
      · apply levelExact_store32 _ _ exact
        intro index watched
        have := beside index watched
        simp only [cmdqProd, cmdqCons] at this ⊢
        omega
    exact stored
  · exact levelExact_updateIrq _
  · exact levelExact_updateIrq _

theorem levelExact_writeAt {normalized : Nat} {data : List Byte} (exact : core.LevelExact) :
    (core.writeAt normalized data).LevelExact ↔ core.KeepsLevel normalized data := by
  unfold KeepsLevel
  split
  · next plain =>
      obtain ⟨combinedIrq, regs⟩ := core.writeAt_of_plain plain
      have registers := LevelRegisters.of_congr
        fun index watched => regs index (page1Offset_of_levelOffset watched)
      rw [LevelExact, combinedIrq, registers, exact]
      exact eq_comm
  · next special =>
      obtain ⟨member, written⟩ := core.writeAt_of_special special
      rw [written]
      by_cases control : normalized = cr0
      · obtain ⟨combinedIrq, registers⟩ :=
          core.levelRegisters_write32_cr0 (ofBytes 32 data)
        rw [control, LevelExact, combinedIrq, registers, exact]
        exact ⟨fun same _ => same.symm, fun same => (same rfl).symm⟩
      · exact iff_of_true (levelExact_write32_of_ne _ member control exact)
          fun same => absurd same control

end Core

namespace Device

variable {params : Params} {device : Device}

/-- The event leaves the level exact.  Only accepted writes of registers can fail to. -/
def KeepsLevel (device : Device) : Event → Prop
  | .registers (.write offset data) =>
      ∀ normalized, Core.normalizeOffset offset data.length = some normalized →
        device.core.KeepsLevel normalized data
  | .registers (.read _ _) => True
  | .registers (.ignore _ _) => True
  | .request _ _ _ => True
  | .debugRequest _ _ => True
  | .reset _ => True

theorem levelExact_request {next : Device} (tbu : Tbu) (payload : TbuRequest)
    (outcome : WriteOutcome) (exact : device.core.LevelExact)
    (stepped : device.step params (.request tbu payload outcome) = some next) :
    next.core.LevelExact := by
  cases blocked : device.core.smmuEnabled with
  | false =>
      obtain rfl := Option.some.inj stepped
      simpa [tbuBTransport, blocked] using exact
  | true =>
      rcases request_cases tbu payload outcome blocked stepped with
        ⟨-, -, core⟩ | ⟨record, address, -, ⟨-, -, core⟩ | ⟨leftover, -, -, core⟩⟩
      · rw [core]
        exact Core.levelExact_updateIrq _
      · rw [core]
        exact Core.levelExact_updateIrq _
      · rw [core]
        exact Core.levelExact_updateIrq _

/-- Reset stores to the identification registers and to `GERRORN` only. -/
theorem levelExact_reset (core : Core) : core.reset.LevelExact := by
  have beside : ∀ register, register + 4 ≤ cr0ack ∨ register = gerrorn →
      ∀ index, LevelOffset index → index < register ∨ register + 4 ≤ index := by
    simp only [LevelOffset, Mmu720ae.cr0ack, Mmu720ae.irqCtrl, Mmu720ae.gerror, Mmu720ae.evtqBase,
      Mmu720ae.evtqCons, gerrorn]
    omega
  unfold Core.reset
  dsimp only
  repeat
    refine Core.levelExact_store32 _ (beside _ (by decide)) ?_
  exact (by decide : false = (LevelRegisters.of fun _ => 0).level)

theorem levelExact_registers {next : Device} (access : Access) (exact : device.core.LevelExact)
    (stepped : device.step params (.registers access) = some next) :
    next.core.LevelExact ↔ device.KeepsLevel (.registers access) := by
  rcases registers_cases stepped with
    ⟨same, rejected⟩ | ⟨offset, data, normalized, rfl, position, written⟩
  · rw [same]
    refine iff_of_true exact ?_
    cases access with
    | write offset data =>
        intro normalized accepted
        rw [rejected offset data rfl] at accepted
        cases accepted
    | read offset len => trivial
    | ignore offset len => trivial
  · rw [written, Core.levelExact_writeAt exact]
    simp only [KeepsLevel, position, Option.some.injEq, forall_eq']

theorem levelExact_step {next : Device} (event : Event) (exact : device.core.LevelExact)
    (stepped : device.step params event = some next) :
    next.core.LevelExact ↔ device.KeepsLevel event := by
  cases event with
  | registers access => exact levelExact_registers access exact stepped
  | request tbu payload outcome =>
      exact iff_of_true (levelExact_request tbu payload outcome exact stepped) trivial
  | debugRequest tbu payload =>
      refine iff_of_true ?_ trivial
      obtain rfl := Option.some.inj stepped
      unfold tbuTransportDbg
      split <;> exact exact
  | reset level =>
      refine iff_of_true ?_ trivial
      obtain rfl := Option.some.inj stepped
      unfold doreset
      split
      · rw [core_updateIrq]
        exact levelExact_reset _
      · exact exact

/-- A run from a reset keeps the level exact in every state exactly if no write that skips the
computation of the level changes what the level is computed from. -/
theorem always_levelExact_iff (params : Params) (memory : Image) (events : List Event) :
    Always (Device.step params) (fun device => device.core.LevelExact) (new memory) events ↔
      Along (Device.step params) KeepsLevel (new memory) events :=
  always_iff_along (fun _ event _ exact stepped => levelExact_step event exact stepped)
    (levelExact_reset _)

/-- Software enables the queue and its interrupt, a request is recorded, and software disables
the queue. -/
def disabledQueue : List Event :=
  [.registers (.write 0xa0 (toBytes 8 0x100001#64)), .registers (.write 0x50 (toBytes 4 4#32)),
    .registers (.write 0x20 (toBytes 4 5#32)), .request .ace1 ⟨0x12345000, false, none⟩ .stored,
    .registers (.write 0x20 (toBytes 4 0#32))]

theorem not_always_levelExact_disabledQueue :
    ¬Always (Device.step {}) (fun device => device.core.LevelExact) (new fun _ => 0)
      disabledQueue := by
  intro always
  have reached := always_iff_prefix.mp always disabledQueue [] _ (List.append_nil _).symm rfl
  revert reached
  decide

end Device

end QboxPlatform.Mmu720ae
