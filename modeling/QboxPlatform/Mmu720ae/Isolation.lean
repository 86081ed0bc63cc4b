import QboxPlatform.Mmu720ae.Protected

/-!
# Isolation

Requester transactions pass while the SMMU is disabled, and not once it is enabled.  Which of the
two it is, the events alone say.
-/

namespace QboxPlatform.Mmu720ae

open Foundation

/-- What an event makes of the enable bit, if it is one that touches it: a word write to the
control register, another write that stores a byte over its acknowledgement, or a reset. -/
def enabling : Event → Option Bool
  | .registers (.write offset data) =>
      (Core.normalizeOffset offset data.length).bind fun normalized =>
        if data.length = 4 ∧ normalized = cr0 then some ((ofBytes 32 data).getLsbD 0)
        else if Core.PlainWrite normalized data ∧ normalized ≤ cr0ack ∧
            cr0ack < normalized + data.length then
          some ((data.getD (cr0ack - normalized) 0).getLsbD 0)
        else none
  | .reset true => some false
  | _ => none

namespace Core

variable {core : Core}

theorem smmuEnabled_eq (core : Core) :
    core.smmuEnabled = (core.load32 cr0ack).getLsbD 0 := by
  rw [Bool.eq_iff_iff, smmuEnabled, bne_iff_ne]
  exact and_bit_ne_zero_iff (core.load32 cr0ack) (by decide)

theorem smmuEnabled_byte (core : Core) :
    core.smmuEnabled = (core.regs cr0ack).getLsbD 0 := by
  have first := core.regs.byteOf_load32 cr0ack (show 0 < 4 by decide)
  rw [smmuEnabled_eq, ← Nat.add_zero cr0ack, ← first, getLsbD_byteOf]
  rfl

theorem smmuEnabled_congr {after : Core} (same : after.load32 cr0ack = core.load32 cr0ack) :
    after.smmuEnabled = core.smmuEnabled := by
  rw [smmuEnabled_eq, same, smmuEnabled_eq]

theorem smmuEnabled_write32_cr0 (core : Core) (value : BitVec 32) :
    (core.write32 cr0 value).smmuEnabled = value.getLsbD 0 := by
  have notIgnored : cr0 ∉ ignoredRegisters := by decide
  have implemented : cr0ImplementedMask.getLsbD 0 = true := by decide
  have stored : (core.write32 cr0 value).load32 cr0ack = value &&& cr0ImplementedMask := by
    rw [write32, if_neg notIgnored, if_pos rfl]
    dsimp only
    split
    · exact load32_store32 _ _ (by decide)
    · exact load32_store32 _ _ (by decide)
  rw [smmuEnabled_eq, stored, BitVec.getLsbD_and, implemented, Bool.and_true]

/-- The other registers that a word write treats apart leave the enable bit alone. -/
theorem cr0ack_write32 {offset : Nat} (special : offset ∈ specialRegisters)
    (other : offset ≠ cr0) (value : BitVec 32) :
    (core.write32 offset value).load32 cr0ack = core.load32 cr0ack := by
  simp only [specialRegisters, List.mem_append, List.mem_cons, List.not_mem_nil, or_false]
    at special
  rcases special with ignored | rfl | rfl | rfl | rfl | rfl | rfl | rfl
  · rw [write32, if_pos ignored]
  · exact absurd rfl other
  · rw [write32, if_neg (by decide), if_neg (by decide), if_pos rfl]
    simp (disch := decide) only [load32_updateIrq, load32_store32_of_disjoint]
  · rw [write32, if_neg (by decide), if_neg (by decide), if_neg (by decide), if_pos rfl]
    simp (disch := decide) only [load32_store32_of_disjoint]
  · rw [write32, if_neg (by decide), if_neg (by decide), if_neg (by decide), if_neg (by decide),
      if_pos rfl]
    simp (disch := decide) only [storeGerror, load32_updateIrq, load32_store32_of_disjoint]
  · rw [write32, if_neg (by decide), if_neg (by decide), if_neg (by decide), if_neg (by decide),
      if_neg (by decide), if_pos rfl]
    have stored := load32_store32_of_disjoint (core.store32 cmdqProd value) value
      (show cr0ack + 4 ≤ page1Offset by decide) (show _ ∨ cmdqCons + 4 ≤ cr0ack by decide)
    rw [load32_store32_of_disjoint core value (by decide) (by decide)] at stored
    exact stored
  · rw [write32, if_neg (by decide), if_neg (by decide), if_neg (by decide), if_neg (by decide),
      if_neg (by decide), if_neg (by decide), if_pos (Or.inl rfl)]
    simp (disch := decide) only [load32_updateIrq, load32_store32_of_disjoint]
  · rw [write32, if_neg (by decide), if_neg (by decide), if_neg (by decide), if_neg (by decide),
      if_neg (by decide), if_neg (by decide), if_pos (Or.inr rfl)]
    simp (disch := decide) only [load32_updateIrq, load32_store32_of_disjoint]

theorem smmuEnabled_writeAt (core : Core) (normalized : Nat) (data : List Byte) :
    (core.writeAt normalized data).smmuEnabled =
      if data.length = 4 ∧ normalized = cr0 then (ofBytes 32 data).getLsbD 0
      else if PlainWrite normalized data ∧ normalized ≤ cr0ack ∧
          cr0ack < normalized + data.length then
        (data.getD (cr0ack - normalized) 0).getLsbD 0
      else core.smmuEnabled := by
  by_cases plain : PlainWrite normalized data
  · have notControl : ¬(data.length = 4 ∧ normalized = cr0) := by
      rintro ⟨length, rfl⟩
      exact plain ⟨length, rfl, by decide⟩
    have byte := (core.writeAt_of_plain plain).2 cr0ack (by decide)
    rw [if_neg notControl, smmuEnabled_byte, byte]
    by_cases covers : normalized ≤ cr0ack ∧ cr0ack < normalized + data.length
    · obtain ⟨index, position⟩ := Nat.exists_eq_add_of_le covers.1
      have inside : index < data.length := by omega
      rw [if_pos ⟨plain, covers⟩, position, Image.write_inside _ _ _ inside,
        Nat.add_sub_cancel_left, List.getD_eq_getElem _ _ inside]
    · rw [if_neg fun both => covers both.2, Image.write_outside _ _ _ (by omega),
        smmuEnabled_byte]
  · obtain ⟨member, written⟩ := core.writeAt_of_special plain
    rw [written]
    by_cases isControl : normalized = cr0
    · subst isControl
      rw [if_pos ⟨(not_not.mp plain).1, rfl⟩, smmuEnabled_write32_cr0]
    · rw [if_neg fun both => isControl both.2, if_neg fun both => plain both.1]
      exact smmuEnabled_congr (cr0ack_write32 member isControl _)

end Core

namespace Device

variable {params : Params} {device next final : Device}

theorem smmuEnabled_request (tbu : Tbu) (payload : TbuRequest) (outcome : WriteOutcome)
    (stepped : device.step params (.request tbu payload outcome) = some next) :
    next.core.smmuEnabled = device.core.smmuEnabled := by
  cases blocked : device.core.smmuEnabled with
  | false =>
      obtain rfl := Option.some.inj stepped
      simp [tbuBTransport, blocked]
  | true =>
      have counted : (device.countedRequest params tbu payload).smmuEnabled = true := blocked
      rw [← counted]
      rcases request_cases tbu payload outcome blocked stepped with
        ⟨-, -, core⟩ | ⟨record, address, -, ⟨-, -, core⟩ | ⟨leftover, -, -, core⟩⟩
      · rw [core]
        exact Core.smmuEnabled_congr (Core.sameSetup_recordEventQueueAbort _).cr0ack
      · rw [core]
        exact Core.smmuEnabled_congr (Core.sameSetup_completeEventQueueWrite _).cr0ack
      · rw [core]
        exact Core.smmuEnabled_congr (Core.sameSetup_recordEventQueueAbort _).cr0ack

theorem smmuEnabled_reset (core : Core) : core.reset.smmuEnabled = false := by
  have closed : core.reset.regs = (Device.new fun _ => 0).core.regs := rfl
  rw [Core.smmuEnabled_byte, closed]
  decide

theorem smmuEnabled_step {event : Event} (stepped : device.step params event = some next) :
    next.core.smmuEnabled = (enabling event).getD device.core.smmuEnabled := by
  cases event with
  | registers access =>
      rcases registers_cases stepped with
        ⟨same, rejected⟩ | ⟨offset, data, normalized, rfl, position, written⟩
      · rw [same]
        cases access with
        | write offset data =>
            rw [enabling, rejected offset data rfl]
            rfl
        | read offset len => rfl
        | ignore offset len => rfl
      · rw [written, Core.smmuEnabled_writeAt, enabling, position, Option.bind_some]
        split_ifs <;> rfl
  | request tbu payload outcome => exact smmuEnabled_request tbu payload outcome stepped
  | debugRequest tbu payload =>
      obtain rfl := Option.some.inj stepped
      unfold tbuTransportDbg
      split <;> rfl
  | reset level =>
      obtain rfl := Option.some.inj stepped
      cases level with
      | true =>
          rw [doreset, if_pos rfl, core_updateIrq, smmuEnabled_reset]
          rfl
      | false => rfl

/-- The last event that touches the enable bit decides. -/
theorem smmuEnabled_run {events : List Event}
    (reached : run (step params) device events = some final) :
    final.core.smmuEnabled =
      (events.filterMap enabling).getLast?.getD device.core.smmuEnabled := by
  induction events generalizing device with
  | nil =>
      cases reached
      rfl
  | cons event rest inductionHypothesis =>
      obtain ⟨next, stepped, onwards⟩ := run_cons_eq_some.mp reached
      rw [inductionHypothesis onwards, smmuEnabled_step stepped]
      cases touched : enabling event with
      | none =>
          rw [List.filterMap_cons_none touched]
          rfl
      | some value =>
          rw [List.filterMap_cons_some touched, List.getLast?_cons]
          cases (rest.filterMap enabling).getLast? with
          | none => rfl
          | some last => rfl

theorem smmuEnabled_new (memory : Image) : (Device.new memory).core.smmuEnabled = false :=
  smmuEnabled_reset _

/-- After any run a requester at any port is refused if the last event that touched the enable bit
has set it, and otherwise its transaction goes on and leaves no trace in the device. -/
theorem isolation (memory : Image) {events : List Event}
    (reached : run (step params) (Device.new memory) events = some device) (tbu : Tbu)
    (payload : TbuRequest) (outcome : WriteOutcome) :
    ((events.filterMap enabling).getLast? = some true →
      (device.tbuBTransport params tbu payload outcome).1 = .commandError ∧
        (device.tbuTransportDbg params tbu payload).1 = .commandError) ∧
    ((events.filterMap enabling).getLast? ≠ some true →
      device.tbuBTransport params tbu payload outcome = (.forwarded, device) ∧
        device.tbuTransportDbg params tbu payload = (.forwarded, device)) := by
  have enabled := smmuEnabled_run reached
  rw [smmuEnabled_new] at enabled
  constructor
  · intro last
    rw [last, Option.getD_some] at enabled
    simp only [tbuBTransport, tbuTransportDbg, enabled, if_true, and_self]
  · intro last
    have disabled : device.core.smmuEnabled = false := by
      rw [enabled]
      cases decided : (events.filterMap enabling).getLast? with
      | none => rfl
      | some value =>
          cases value with
          | true => exact absurd decided last
          | false => rfl
    simp only [tbuBTransport, tbuTransportDbg, disabled, Bool.false_eq_true, if_false, and_self]

/-- The control register is written, and then a byte of its acknowledgement. -/
def enablingRun : List Event :=
  [.registers (.write 0x20 [1, 0, 0, 0]), .registers (.write 0x24 [1]), .reset false]

theorem isolation_enabled :
    ∃ device, run (step {}) (Device.new fun _ => 0) enablingRun = some device ∧
      (device.tbuBTransport {} .lti00 ⟨0x1000, true, none⟩ .stored).1 = .commandError ∧
        (device.tbuTransportDbg {} .lti00 ⟨0x1000, true, none⟩).1 = .commandError :=
  ⟨_, rfl, (@isolation {} _ (fun _ => 0) enablingRun rfl .lti00 ⟨0x1000, true, none⟩ .stored).1
    (by decide)⟩

end Device

end QboxPlatform.Mmu720ae
