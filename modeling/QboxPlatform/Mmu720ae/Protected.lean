import QboxPlatform.Mmu720ae.Interrupt

/-!
# Read-only and shadow registers

Word writes look at the register they go to: they ignore the identification registers, copy a
control register into the one that acknowledges it, and keep the acknowledged errors beside the
active ones.  Every other write only stores its bytes.
-/

namespace QboxPlatform.Mmu720ae

open Foundation

/-- The identification registers and their values. -/
def identification : List (Nat × BitVec 32) :=
  [(idr0, idr0Value), (idr1, idr1Value), (idr3, 0), (idr5, idr5Value), (iidr, 0x720ae000),
    (aidr, 0x00000003)]

/-- The values that the registers are to keep among each other. -/
structure Coherent (regs : Image) : Prop where
  identification : ∀ entry ∈ identification, regs.load32 entry.1 = entry.2
  acknowledged : regs.load32 cr0ack = regs.load32 cr0
  implemented : regs.load32 cr0ack &&& ~~~cr0ImplementedMask = 0
  irqAcknowledged : regs.load32 irqCtrlack = regs.load32 irqCtrl
  errors : regs.load32 gerrorn = gerrorErrMask &&& ~~~regs.load32 gerror

/-- The offsets of these registers. -/
def ProtectedOffset (index : Nat) : Prop :=
  index < idr1 + 4 ∨ (idr3 ≤ index ∧ index < idr3 + 4) ∨ (idr5 ≤ index ∧ index < cr0ack + 4) ∨
    (irqCtrl ≤ index ∧ index < irqCtrlack + 4) ∨ (gerror ≤ index ∧ index < gerrorn + 4)

theorem protectedOffset_of_identification {entry : Nat × BitVec 32}
    (member : entry ∈ identification) {index : Nat} (above : entry.1 ≤ index)
    (below : index < entry.1 + 4) : ProtectedOffset index := by
  simp only [ProtectedOffset, identification, List.mem_cons, List.not_mem_nil, or_false, idr0,
    idr1, idr3, idr5, iidr, aidr, cr0ack, irqCtrl, irqCtrlack, gerror, gerrorn] at member ⊢
  rcases member with rfl | rfl | rfl | rfl | rfl | rfl <;> dsimp only at above below <;> omega

theorem page1Offset_of_protectedOffset {index : Nat} (guarded : ProtectedOffset index) :
    index < page1Offset := by
  simp only [ProtectedOffset, idr1, idr3, idr5, cr0ack, irqCtrl, irqCtrlack, gerror, gerrorn]
    at guarded
  rw [page1Offset]
  omega

theorem Coherent.congr {first second : Image}
    (same : ∀ index, ProtectedOffset index → first index = second index)
    (coherent : Coherent second) : Coherent first := by
  have word : ∀ register, (∀ index, register ≤ index → index < register + 4 →
      ProtectedOffset index) → first.load32 register = second.load32 register := by
    intro register guarded
    exact Image.load32_congr fun index above below => same index (guarded index above below)
  have control : ∀ register ∈ [cr0, cr0ack, irqCtrl, irqCtrlack, gerror, gerrorn],
      first.load32 register = second.load32 register := by
    intro register member
    apply word
    intro index above below
    simp only [ProtectedOffset, List.mem_cons, List.not_mem_nil, or_false, idr1, idr3, idr5, cr0,
      cr0ack, irqCtrl, irqCtrlack, gerror, gerrorn] at member ⊢
    omega
  refine ⟨?_, ?_, ?_, ?_, ?_⟩
  · intro entry member
    rw [word _ fun index above below => protectedOffset_of_identification member above below]
    exact coherent.identification entry member
  · rw [control _ (by simp), control _ (by simp)]
    exact coherent.acknowledged
  · rw [control _ (by simp)]
    exact coherent.implemented
  · rw [control _ (by simp), control _ (by simp)]
    exact coherent.irqAcknowledged
  · rw [control _ (by simp), control _ (by simp)]
    exact coherent.errors

/-- Some byte of the access lies in the two words at a register. -/
def TouchesPair (normalized len register : Nat) : Prop :=
  normalized < register + 8 ∧ register < normalized + len

/-- What a write that only stores its bytes has to respect: it changes no byte of an
identification register, and a pair of registers that it touches still fits together. -/
structure RespectsProtected (regs : Image) (normalized : Nat) (data : List Byte) : Prop where
  identification : ∀ entry ∈ identification, ∀ index, entry.1 ≤ index → index < entry.1 + 4 →
    regs.write normalized data index = regs index
  control : TouchesPair normalized data.length cr0 →
    (regs.write normalized data).load32 cr0ack = (regs.write normalized data).load32 cr0 ∧
      (regs.write normalized data).load32 cr0ack &&& ~~~cr0ImplementedMask = 0
  interrupts : TouchesPair normalized data.length irqCtrl →
    (regs.write normalized data).load32 irqCtrlack = (regs.write normalized data).load32 irqCtrl
  errors : TouchesPair normalized data.length gerror →
    (regs.write normalized data).load32 gerrorn =
      gerrorErrMask &&& ~~~(regs.write normalized data).load32 gerror

theorem load32_write_of_not_touches {regs : Image} {normalized register : Nat}
    {data : List Byte} (apart : ¬TouchesPair normalized data.length register) :
    (regs.write normalized data).load32 register = regs.load32 register ∧
      (regs.write normalized data).load32 (register + 4) = regs.load32 (register + 4) := by
  unfold TouchesPair at apart
  constructor
  · exact Image.load32_write_of_disjoint _ _ (by omega)
  · exact Image.load32_write_of_disjoint _ _ (by omega)

theorem coherent_write_iff {regs : Image} {normalized : Nat} {data : List Byte}
    (coherent : Coherent regs) :
    Coherent (regs.write normalized data) ↔ RespectsProtected regs normalized data := by
  constructor
  · intro written
    refine ⟨?_, fun _ => ⟨written.acknowledged, written.implemented⟩,
      fun _ => written.irqAcknowledged, fun _ => written.errors⟩
    intro entry member index above below
    obtain ⟨position, rfl⟩ := Nat.exists_eq_add_of_le above
    have inside : position < 4 := by omega
    rw [← (regs.write normalized data).byteOf_load32 _ inside, ← regs.byteOf_load32 _ inside,
      written.identification entry member, coherent.identification entry member]
  · intro respects
    refine ⟨?_, ?_, ?_, ?_, ?_⟩
    · intro entry member
      rw [Image.load32_congr (respects.identification entry member)]
      exact coherent.identification entry member
    · by_cases touched : TouchesPair normalized data.length cr0
      · exact (respects.control touched).1
      · obtain ⟨first, second⟩ := @load32_write_of_not_touches regs _ _ _ touched
        exact second.trans (coherent.acknowledged.trans first.symm)
    · by_cases touched : TouchesPair normalized data.length cr0
      · exact (respects.control touched).2
      · obtain ⟨-, second⟩ := @load32_write_of_not_touches regs _ _ _ touched
        exact (congrArg (· &&& ~~~cr0ImplementedMask) second).trans coherent.implemented
    · by_cases touched : TouchesPair normalized data.length irqCtrl
      · exact respects.interrupts touched
      · obtain ⟨first, second⟩ := @load32_write_of_not_touches regs _ _ _ touched
        exact second.trans (coherent.irqAcknowledged.trans first.symm)
    · by_cases touched : TouchesPair normalized data.length gerror
      · exact respects.errors touched
      · obtain ⟨first, second⟩ := @load32_write_of_not_touches regs _ _ _ touched
        rw [first]
        exact second.trans coherent.errors

namespace Core

variable {core : Core}

theorem coherent_store32_of_beside {offset : Nat} (value : BitVec 32)
    (beside : ∀ index, ProtectedOffset index → index < offset ∨ offset + 4 ≤ index)
    (coherent : Coherent core.regs) : Coherent (core.store32 offset value).regs := by
  apply coherent.congr
  intro index guarded
  rw [store32, regs_store_of_low _ _ _ (page1Offset_of_protectedOffset guarded)]
  exact Image.write_outside _ _ _ (by simpa using beside index guarded)

/-- A register and the one behind it are stored, and still fit together. -/
theorem coherent_storePair {register : Nat} {first second : BitVec 32}
    (coherent : Coherent core.regs)
    (pair : (register = cr0 ∧ second = first ∧ second &&& ~~~cr0ImplementedMask = 0) ∨
      (register = irqCtrl ∧ second = first) ∨
      (register = gerror ∧ second = gerrorErrMask &&& ~~~first)) :
    Coherent ((core.store32 register first).store32 (register + 4) second).regs := by
  have low : register + 8 ≤ page1Offset := by
    rcases pair with ⟨rfl, -⟩ | ⟨rfl, -⟩ | ⟨rfl, -⟩ <;> decide
  have front : ((core.store32 register first).store32 (register + 4) second).load32 register =
      first := by
    rw [load32_store32_of_disjoint _ _ (by omega) (by omega), load32_store32 _ _ (by omega)]
  have back : ((core.store32 register first).store32 (register + 4) second).load32
      (register + 4) = second := load32_store32 _ _ (by omega)
  have kept : ∀ other, other + 4 ≤ page1Offset → other + 4 ≤ register ∨ register + 8 ≤ other →
      ((core.store32 register first).store32 (register + 4) second).load32 other =
        core.load32 other := by
    intro other below apart
    rw [load32_store32_of_disjoint _ _ below (by omega),
      load32_store32_of_disjoint _ _ below (by omega)]
  have identified : ∀ entry ∈ identification,
      ((core.store32 register first).store32 (register + 4) second).load32 entry.1 = entry.2 := by
    intro entry member
    rw [kept]
    · exact coherent.identification entry member
    · have guarded := protectedOffset_of_identification member (Nat.le_add_right _ 3) (by omega)
      have := page1Offset_of_protectedOffset guarded
      omega
    · simp only [identification, List.mem_cons, List.not_mem_nil, or_false] at member
      left
      rcases pair with ⟨rfl, -⟩ | ⟨rfl, -⟩ | ⟨rfl, -⟩ <;>
        rcases member with rfl | rfl | rfl | rfl | rfl | rfl <;> decide
  rcases pair with ⟨rfl, same, implemented⟩ | ⟨rfl, same⟩ | ⟨rfl, inverse⟩
  · refine ⟨identified, back.trans (same.trans front.symm), ?_, ?_, ?_⟩
    · exact (congrArg (· &&& ~~~cr0ImplementedMask) back).trans implemented
    · exact (kept irqCtrlack (by decide) (by decide)).trans
        (coherent.irqAcknowledged.trans (kept irqCtrl (by decide) (by decide)).symm)
    · exact (kept gerrorn (by decide) (by decide)).trans (coherent.errors.trans
        (congrArg (gerrorErrMask &&& ~~~·) (kept gerror (by decide) (by decide)).symm))
  · refine ⟨identified, ?_, ?_, back.trans (same.trans front.symm), ?_⟩
    · exact (kept cr0ack (by decide) (by decide)).trans
        (coherent.acknowledged.trans (kept cr0 (by decide) (by decide)).symm)
    · exact (congrArg (· &&& ~~~cr0ImplementedMask) (kept cr0ack (by decide) (by decide))).trans
        coherent.implemented
    · exact (kept gerrorn (by decide) (by decide)).trans (coherent.errors.trans
        (congrArg (gerrorErrMask &&& ~~~·) (kept gerror (by decide) (by decide)).symm))
  · refine ⟨identified, ?_, ?_, ?_, ?_⟩
    · exact (kept cr0ack (by decide) (by decide)).trans
        (coherent.acknowledged.trans (kept cr0 (by decide) (by decide)).symm)
    · exact (congrArg (· &&& ~~~cr0ImplementedMask) (kept cr0ack (by decide) (by decide))).trans
        coherent.implemented
    · exact (kept irqCtrlack (by decide) (by decide)).trans
        (coherent.irqAcknowledged.trans (kept irqCtrl (by decide) (by decide)).symm)
    · exact back.trans (inverse.trans (congrArg (gerrorErrMask &&& ~~~·) front.symm))

theorem coherent_storeGerror (coherent : Coherent core.regs) (value : BitVec 32) :
    Coherent (core.storeGerror value).regs := by
  unfold storeGerror
  dsimp only
  rw [load32_store32 _ _ (by decide)]
  exact coherent_storePair coherent (Or.inr (Or.inr ⟨rfl, rfl⟩))

theorem coherent_recordEventQueueAbort (coherent : Coherent core.regs) :
    Coherent core.recordEventQueueAbort.regs :=
  @coherent_storeGerror { core with eventQueueAbortCount := core.eventQueueAbortCount + 1 }
    coherent _

theorem coherent_completeEventQueueWrite (coherent : Coherent core.regs) :
    Coherent (core.completeEventQueueWrite true).regs := by
  refine @coherent_store32_of_beside
    { core with eventRecordCount := core.eventRecordCount + 1 } evtqProd _ ?_ coherent
  simp only [ProtectedOffset, idr1, idr3, idr5, cr0ack, irqCtrl, irqCtrlack, gerror, gerrorn,
    evtqProd]
  omega

theorem coherent_write32 {normalized : Nat} (value : BitVec 32)
    (special : normalized ∈ specialRegisters) (coherent : Coherent core.regs) :
    Coherent (core.write32 normalized value).regs := by
  simp only [specialRegisters, List.mem_append, List.mem_cons, List.not_mem_nil, or_false]
    at special
  have beside : ∀ register ∈ [gbpa, cmdqProd, cmdqCons, evtqCons, priqCons],
      ∀ index, ProtectedOffset index → index < register ∨ register + 4 ≤ index := by
    simp only [ProtectedOffset, List.mem_cons, List.not_mem_nil, or_false, idr1, idr3, idr5,
      cr0ack, irqCtrl, irqCtrlack, gerror, gerrorn, gbpa, cmdqProd, cmdqCons, evtqCons, priqCons]
    omega
  rcases special with ignored | rfl | rfl | rfl | rfl | rfl | rfl | rfl
  · rwa [write32, if_pos ignored]
  · have stored := @coherent_storePair core cr0 (value &&& cr0ImplementedMask) _ coherent
      (Or.inl ⟨rfl, rfl, by simp [BitVec.and_assoc]⟩)
    rw [write32, if_neg (by decide), if_pos rfl]
    dsimp only
    split <;> exact stored
  · rw [write32, if_neg (by decide), if_neg (by decide), if_pos rfl]
    dsimp only
    rw [load32_store32 _ _ (by decide)]
    exact coherent_storePair coherent (Or.inr (Or.inl ⟨rfl, rfl⟩))
  · exact coherent_store32_of_beside _ (beside gbpa (by simp)) coherent
  · exact coherent_storeGerror coherent _
  · exact coherent_store32_of_beside _ (beside cmdqCons (by simp))
      (coherent_store32_of_beside _ (beside cmdqProd (by simp)) coherent)
  · exact coherent_store32_of_beside _ (beside evtqCons (by simp)) coherent
  · exact coherent_store32_of_beside _ (beside priqCons (by simp)) coherent

theorem coherent_writeAt_iff {normalized : Nat} {data : List Byte}
    (coherent : Coherent core.regs) :
    Coherent (core.writeAt normalized data).regs ↔
      (PlainWrite normalized data → RespectsProtected core.regs normalized data) := by
  by_cases plain : PlainWrite normalized data
  · have stored := (core.writeAt_of_plain plain).2
    have same : Coherent (core.writeAt normalized data).regs ↔
        Coherent (core.regs.write normalized data) := by
      constructor
      · exact Coherent.congr
          fun index guarded => (stored index (page1Offset_of_protectedOffset guarded)).symm
      · exact Coherent.congr
          fun index guarded => stored index (page1Offset_of_protectedOffset guarded)
    rw [same, coherent_write_iff coherent]
    exact ⟨fun respects _ => respects, fun respects => respects plain⟩
  · obtain ⟨member, written⟩ := core.writeAt_of_special plain
    rw [written]
    exact iff_of_true (coherent_write32 _ member coherent) fun absurdly => absurd absurdly plain

theorem coherent_reset (core : Core) : Coherent core.reset.regs := by
  have closed : core.reset.regs = (Device.new fun _ => 0).core.regs := rfl
  rw [closed]
  exact ⟨by decide, by decide, by decide, by decide, by decide⟩

end Core

namespace Device

variable {params : Params} {device : Device}

/-- Only accepted writes that just store their bytes can break the registers. -/
def RespectsProtected (device : Device) : Event → Prop
  | .registers (.write offset data) =>
      ∀ normalized, Core.normalizeOffset offset data.length = some normalized →
        Core.PlainWrite normalized data →
          Mmu720ae.RespectsProtected device.core.regs normalized data
  | .registers (.read _ _) => True
  | .registers (.ignore _ _) => True
  | .request _ _ _ => True
  | .debugRequest _ _ => True
  | .reset _ => True

theorem coherent_request {next : Device} (tbu : Tbu) (payload : TbuRequest)
    (outcome : WriteOutcome) (coherent : Coherent device.core.regs)
    (stepped : device.step params (.request tbu payload outcome) = some next) :
    Coherent next.core.regs := by
  cases blocked : device.core.smmuEnabled with
  | false =>
      obtain rfl := Option.some.inj stepped
      simpa [tbuBTransport, blocked] using coherent
  | true =>
      have counted : Coherent (device.countedRequest params tbu payload).regs := coherent
      rcases request_cases tbu payload outcome blocked stepped with
        ⟨-, -, core⟩ | ⟨record, address, -, ⟨-, -, core⟩ | ⟨leftover, -, -, core⟩⟩
      · rw [core]
        exact Core.coherent_recordEventQueueAbort counted
      · rw [core]
        exact Core.coherent_completeEventQueueWrite counted
      · rw [core]
        exact Core.coherent_recordEventQueueAbort counted

theorem coherent_step {next : Device} (event : Event) (coherent : Coherent device.core.regs)
    (stepped : device.step params event = some next) :
    Coherent next.core.regs ↔ device.RespectsProtected event := by
  cases event with
  | registers access =>
      rcases registers_cases stepped with
        ⟨same, rejected⟩ | ⟨offset, data, normalized, rfl, position, written⟩
      · rw [same]
        refine iff_of_true coherent ?_
        cases access with
        | write offset data =>
            intro normalized accepted
            rw [rejected offset data rfl] at accepted
            cases accepted
        | read offset len => trivial
        | ignore offset len => trivial
      · rw [written, Core.coherent_writeAt_iff coherent]
        simp only [RespectsProtected, position, Option.some.injEq, forall_eq']
  | request tbu payload outcome =>
      exact iff_of_true (coherent_request tbu payload outcome coherent stepped) trivial
  | debugRequest tbu payload =>
      refine iff_of_true ?_ trivial
      obtain rfl := Option.some.inj stepped
      unfold tbuTransportDbg
      split <;> exact coherent
  | reset level =>
      refine iff_of_true ?_ trivial
      obtain rfl := Option.some.inj stepped
      unfold doreset
      split
      · rw [core_updateIrq]
        exact Core.coherent_reset _
      · exact coherent

/-- A run from a reset keeps the registers coherent in every state exactly if no write that just
stores its bytes changes an identification register or leaves a pair of registers unfit. -/
theorem always_coherent_iff (params : Params) (memory : Image) (events : List Event) :
    Always (Device.step params) (fun device => Coherent device.core.regs) (new memory) events ↔
      Along (Device.step params) RespectsProtected (new memory) events :=
  always_iff_along (fun _ event _ coherent stepped => coherent_step event coherent stepped)
    (Core.coherent_reset _)

/-- A byte write to the first identification register. -/
theorem not_always_coherent_byteWrite :
    ¬Always (Device.step {}) (fun device => Coherent device.core.regs) (new fun _ => 0)
      [.registers (.write 0 [0xff])] := by
  intro always
  have reached := always_iff_prefix.mp always [.registers (.write 0 [0xff])] [] _
    (List.append_nil _).symm rfl
  have identified := reached.identification (idr0, idr0Value) (by simp [identification])
  revert identified
  decide

end Device

end QboxPlatform.Mmu720ae
