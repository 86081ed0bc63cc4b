import QboxPlatform.Mhu.Device

/-!
# What a step does to the two frames

Every step either changes a frame through its channel setters, each time followed by the
interrupt update, or copies bytes into the register image of one frame.  The invariants of
the frames are all proved from this.
-/

namespace QboxPlatform.Mhu

open Foundation Psa Relation

universe u

namespace Frame

/-- One setter call. -/
def Sets (before after : Frame) : Prop :=
  ∃ channel change, after = before.updateChannel channel change

theorem sets_foldl {Item : Type*} {step : Frame → Item → Frame}
    (each : ∀ frame item, ReflTransGen Sets frame (step frame item)) (items : List Item)
    (frame : Frame) : ReflTransGen Sets frame (items.foldl step frame) := by
  induction items generalizing frame with
  | nil => exact .refl
  | cons item rest inductionHypothesis => exact (each frame item).trans (inductionHypothesis _)

theorem sets_updateChannel (frame : Frame) (channel : Nat) (change : Channel → Channel) :
    ReflTransGen Sets frame (frame.updateChannel channel change) :=
  .single ⟨channel, change, rfl⟩

section Setters

variable (frame : Frame) (channel : Nat) (value : BitVec 32)

theorem sets_setStatus : ReflTransGen Sets frame (frame.setStatus channel value) :=
  sets_updateChannel frame channel fun regs => { regs with status := value }

theorem sets_setStatusBits : ReflTransGen Sets frame (frame.setStatusBits channel value) :=
  sets_updateChannel frame channel fun regs => { regs with status := regs.status ||| value }

theorem sets_clearStatusBits : ReflTransGen Sets frame (frame.clearStatusBits channel value) :=
  sets_updateChannel frame channel fun regs => { regs with status := regs.status &&& ~~~value }

theorem sets_setMaskBits : ReflTransGen Sets frame (frame.setMaskBits channel value) :=
  sets_updateChannel frame channel fun regs => { regs with mask := regs.mask ||| value }

theorem sets_clearMaskBits : ReflTransGen Sets frame (frame.clearMaskBits channel value) :=
  sets_updateChannel frame channel fun regs => { regs with mask := regs.mask &&& ~~~value }

theorem sets_setIntStatusBits :
    ReflTransGen Sets frame (frame.setIntStatusBits channel value) :=
  sets_updateChannel frame channel fun regs =>
    { regs with intStatus := regs.intStatus ||| value }

theorem sets_clearIntStatusBits :
    ReflTransGen Sets frame (frame.clearIntStatusBits channel value) :=
  sets_updateChannel frame channel fun regs =>
    { regs with intStatus := regs.intStatus &&& ~~~value }

theorem sets_setIntEnable : ReflTransGen Sets frame (frame.setIntEnable channel value) :=
  sets_updateChannel frame channel fun regs => { regs with intEnable := value }

theorem sets_setCtrl : ReflTransGen Sets frame (frame.setCtrl channel value) :=
  sets_updateChannel frame channel fun regs => { regs with ctrl := value }

end Setters

theorem sets_clearAllStatus (frame : Frame) : ReflTransGen Sets frame frame.clearAllStatus :=
  sets_foldl (fun frame channel => sets_setStatus frame channel 0) _ _

theorem sets_loadMessageWords (remaining channel : Nat) (message : List Byte) (frame : Frame) :
    ReflTransGen Sets frame (loadMessageWords remaining channel message frame) := by
  induction remaining generalizing channel message frame with
  | zero => exact .refl
  | succ remaining inductionHypothesis =>
      unfold loadMessageWords
      split_ifs
      · exact .refl
      · exact (sets_setStatus frame channel _).trans (inductionHypothesis _ _ _)

theorem sets_loadMessage (frame : Frame) (message : List Byte) :
    ReflTransGen Sets frame (frame.loadMessage message) := by
  unfold loadMessage
  dsimp only
  refine .trans ?_ (sets_setStatus _ _ _)
  refine .trans ?_ (sets_loadMessageWords _ _ _ _)
  exact (sets_clearAllStatus frame).trans (sets_setStatus _ _ _)

end Frame

namespace Port

/-- Setter calls and then the interrupt update. -/
def Updates (before after : Port) : Prop :=
  ∃ frame, ReflTransGen Frame.Sets before.frame frame ∧
    after = Port.updateCombinedIrq { before with frame := frame }

/-- Any number of such updates. -/
def Evolves : Port → Port → Prop := ReflTransGen Updates

theorem Evolves.refl (port : Port) : port.Evolves port := ReflTransGen.refl

theorem Evolves.trans {first second third : Port} (before : first.Evolves second)
    (after : second.Evolves third) : first.Evolves third :=
  ReflTransGen.trans before after

theorem evolves_change (port : Port) {operation : Frame → Frame}
    (sets : ReflTransGen Frame.Sets port.frame (operation port.frame)) :
    port.Evolves (port.change operation) :=
  .single ⟨_, sets, rfl⟩

theorem evolves_signalDoorbellChannel (port : Port) (channel : Nat) (value : BitVec 32) :
    port.Evolves (port.signalDoorbellChannel channel value) := by
  unfold signalDoorbellChannel
  split_ifs
  · exact .refl port
  · exact port.evolves_change (Frame.sets_setStatusBits _ _ _)

theorem evolves_signalDoorbell (port : Port) (bit : Nat) :
    port.Evolves (port.signalDoorbell bit) := by
  unfold signalDoorbell
  split_ifs
  · exact .refl port
  · exact port.evolves_signalDoorbellChannel _ _

theorem evolves_clearPostboxDoorbellChannel (config : Config) (port : Port) (channel : Nat)
    (mask : BitVec 32) : port.Evolves (port.clearPostboxDoorbellChannel config channel mask) := by
  unfold clearPostboxDoorbellChannel
  split_ifs with undecoded
  · exact .refl port
  · apply port.evolves_change
    dsimp only
    split_ifs
    · exact (Frame.sets_clearStatusBits _ _ _).trans (Frame.sets_setIntStatusBits _ _ _)
    · exact Frame.sets_clearStatusBits _ _ _

theorem evolves_clearPostboxTransfer (port : Port) : port.Evolves port.clearPostboxTransfer :=
  port.evolves_change ((Frame.sets_clearAllStatus _).trans (Frame.sets_setIntStatusBits _ _ _))

theorem evolves_loadMbxMessage (port : Port) (message : List Byte) :
    port.Evolves (port.loadMbxMessage message) :=
  port.evolves_change (Frame.sets_loadMessage _ _)

theorem evolves_completions (config : Config) (completions : List Completion) (port : Port) :
    port.Evolves (completions.foldl
      (fun port completion =>
        port.clearPostboxDoorbellChannel config completion.channel completion.mask) port) := by
  induction completions generalizing port with
  | nil => exact .refl port
  | cons completion rest inductionHypothesis =>
      exact (port.evolves_clearPostboxDoorbellChannel config _ _).trans (inductionHypothesis _)

end Port

/-- A 4-byte write that `write32` does not decode on the given side. -/
def Side.storesRaw (side : Side) (frame : Frame) (offset : Nat) : Prop :=
  ∀ channel regOffset, frame.decodeDbchOffset offset = some (channel, regOffset) →
    regOffset ≠ (match side with | .pbx => dbcwSet | .mbx => dbcwClr) ∧
      regOffset ≠ dbcwIntClr ∧ regOffset ≠ dbcwIntEn ∧ regOffset ≠ dbcwCtrl

namespace MhuPair

variable {Memory : Type u} {config : Config} {bus : Bus Memory}

/-- Both frames evolve. -/
def Evolves (before after : MhuPair Memory) : Prop :=
  before.pbx.Evolves after.pbx ∧ before.mbx.Evolves after.mbx

theorem Evolves.refl (mhu : MhuPair Memory) : mhu.Evolves mhu :=
  ⟨Port.Evolves.refl _, Port.Evolves.refl _⟩

theorem Evolves.trans {first second third : MhuPair Memory} (before : first.Evolves second)
    (after : second.Evolves third) : first.Evolves third :=
  ⟨before.1.trans after.1, before.2.trans after.2⟩

theorem Evolves.port {before after : MhuPair Memory} (evolves : before.Evolves after)
    (side : Side) : (before.port side).Evolves (after.port side) := by
  cases side
  · exact evolves.1
  · exact evolves.2

section Writes

theorem evolves_completeSynthetic (mhu : MhuPair Memory) (channel : Nat) (mask : BitVec 32) :
    mhu.Evolves (mhu.completeSyntheticPostboxTransfer config channel mask) := by
  unfold completeSyntheticPostboxTransfer
  split_ifs <;> exact .refl _

theorem evolves_answerDoorbell (mhu : MhuPair Memory) (channel : Nat) (value : BitVec 32) :
    mhu.Evolves (mhu.answerDoorbell config bus channel value) := by
  have seeded : mhu.Evolves (mhu.seedDoorbellAckMemory config bus) := by
    unfold seedDoorbellAckMemory
    split_ifs <;> exact .refl _
  unfold answerDoorbell
  dsimp only
  split_ifs
  · refine .trans (.trans seeded ?_) (evolves_completeSynthetic _ _ _)
    exact ⟨.refl _, Port.evolves_signalDoorbellChannel _ _ _⟩
  · exact evolves_completeSynthetic (mhu.scheduleRpmsgNsInjection config) channel value
  · exact .refl _

theorem evolves_serveRsePs (mhu : MhuPair Memory) : mhu.Evolves (mhu.serveRsePs bus) :=
  ⟨Port.evolves_clearPostboxTransfer _, Port.evolves_loadMbxMessage _ _⟩

theorem evolves_writePostboxDoorbell (mhu : MhuPair Memory) (channel : Nat)
    (value : BitVec 32) : mhu.Evolves (mhu.writePostboxDoorbell config bus channel value) := by
  have written : mhu.Evolves
      { mhu with pbx := mhu.pbx.change fun frame => frame.setStatusBits channel value } := by
    refine ⟨?_, Port.Evolves.refl _⟩
    dsimp only
    exact mhu.pbx.evolves_change (Frame.sets_setStatusBits _ _ _)
  unfold writePostboxDoorbell
  dsimp only
  split
  · split_ifs
    · exact written.trans (evolves_serveRsePs _)
    · exact written
  · exact written.trans (evolves_answerDoorbell _ _ _)
  · exact written.trans ⟨.refl _, Port.evolves_signalDoorbellChannel _ _ _⟩
  · exact written.trans ⟨.refl _, Port.evolves_signalDoorbellChannel _ _ _⟩

theorem evolves_ringPostbox (mhu : MhuPair Memory) (channel : Nat) (value : BitVec 32) :
    mhu.Evolves (mhu.ringPostbox config bus channel value) := by
  unfold ringPostbox
  dsimp only
  split_ifs
  · exact ⟨.refl _, Port.evolves_signalDoorbell _ _⟩
  · exact (evolves_writePostboxDoorbell _ _ _).trans
      ⟨Port.evolves_clearPostboxTransfer _, Port.evolves_loadMbxMessage _ _⟩
  · exact evolves_writePostboxDoorbell _ _ _

theorem evolves_clearMbxDoorbellChannel (mhu : MhuPair Memory) (channel : Nat)
    (mask : BitVec 32) : mhu.Evolves (mhu.clearMbxDoorbellChannel config channel mask) := by
  unfold clearMbxDoorbellChannel
  split_ifs
  · exact .refl _
  · refine ⟨Port.evolves_clearPostboxDoorbellChannel _ _ _ _, ?_⟩
    dsimp only
    exact mhu.mbx.evolves_change (Frame.sets_clearStatusBits _ _ _)

/-- A change of one frame alone. -/
theorem evolves_pbx {mhu : MhuPair Memory} {port : Port} (evolves : mhu.pbx.Evolves port) :
    mhu.Evolves { mhu with pbx := port } :=
  ⟨evolves, .refl _⟩

theorem evolves_mbx {mhu : MhuPair Memory} {port : Port} (evolves : mhu.mbx.Evolves port) :
    mhu.Evolves { mhu with mbx := port } :=
  ⟨.refl _, evolves⟩

/-- A 4-byte write evolves the frames, or is a store into the image of the frame it is
addressed to. -/
theorem evolves_writePbx32 (mhu : MhuPair Memory) (offset : Nat) (value : BitVec 32) :
    ¬ Side.pbx.storesRaw mhu.pbx.frame offset ∧
        mhu.Evolves (mhu.writePbx32 config bus offset value) ∨
      Side.pbx.storesRaw mhu.pbx.frame offset ∧
        mhu.writePbx32 config bus offset value =
          mhu.setFrame .pbx (mhu.pbx.frame.store32 offset value) := by
  unfold writePbx32 Side.storesRaw
  cases decoded : mhu.pbx.frame.decodeDbchOffset offset with
  | none => exact .inr ⟨by simp, rfl⟩
  | some position =>
      obtain ⟨channel, regOffset⟩ := position
      dsimp only
      split_ifs with set intClr intEn ctrl
      · exact .inl ⟨fun raw => (raw _ _ rfl).1 set, evolves_ringPostbox _ _ _⟩
      · exact .inl ⟨fun raw => (raw _ _ rfl).2.1 intClr,
          evolves_pbx (mhu.pbx.evolves_change (Frame.sets_clearIntStatusBits _ _ _))⟩
      · exact .inl ⟨fun raw => (raw _ _ rfl).2.2.1 intEn,
          evolves_pbx (mhu.pbx.evolves_change (Frame.sets_setIntEnable _ _ _))⟩
      · exact .inl ⟨fun raw => (raw _ _ rfl).2.2.2 ctrl,
          evolves_pbx (mhu.pbx.evolves_change (Frame.sets_setCtrl _ _ _))⟩
      · refine .inr ⟨?_, rfl⟩
        rintro _ _ ⟨⟩
        exact ⟨set, intClr, intEn, ctrl⟩

theorem evolves_writeMbx32 (mhu : MhuPair Memory) (offset : Nat) (value : BitVec 32) :
    ¬ Side.mbx.storesRaw mhu.mbx.frame offset ∧
        mhu.Evolves (mhu.writeMbx32 config offset value) ∨
      Side.mbx.storesRaw mhu.mbx.frame offset ∧
        mhu.writeMbx32 config offset value =
          mhu.setFrame .mbx (mhu.mbx.frame.store32 offset value) := by
  unfold writeMbx32 Side.storesRaw
  cases decoded : mhu.mbx.frame.decodeDbchOffset offset with
  | none => exact .inr ⟨by simp, rfl⟩
  | some position =>
      obtain ⟨channel, regOffset⟩ := position
      dsimp only
      split_ifs with clr intClr intEn ctrl
      · exact .inl ⟨fun raw => (raw _ _ rfl).1 clr, evolves_clearMbxDoorbellChannel _ _ _⟩
      · exact .inl ⟨fun raw => (raw _ _ rfl).2.1 intClr,
          evolves_mbx (mhu.mbx.evolves_change (Frame.sets_setMaskBits _ _ _))⟩
      · exact .inl ⟨fun raw => (raw _ _ rfl).2.2.1 intEn,
          evolves_mbx (mhu.mbx.evolves_change (Frame.sets_clearMaskBits _ _ _))⟩
      · exact .inl ⟨fun raw => (raw _ _ rfl).2.2.2 ctrl,
          evolves_mbx (mhu.mbx.evolves_change (Frame.sets_setCtrl _ _ _))⟩
      · refine .inr ⟨?_, rfl⟩
        rintro _ _ ⟨⟩
        exact ⟨clr, intClr, intEn, ctrl⟩

end Writes

section Steps

/-- The step copies these bytes into the register image of the frame on this side: a write
of 1, 2 or 8 bytes, or one of 4 bytes that is not decoded. -/
def CopiesRaw (mhu : MhuPair Memory) (event : Step) (side : Side) (offset : Nat)
    (data : List Byte) : Prop :=
  ∃ address, event = .access side (.write address data) ∧ offset = address.toNat ∧
    rejected (Access.write address data) = false ∧
    (data.length = 4 → side.storesRaw (mhu.port side).frame offset)

theorem evolves_runRpmsg (mhu : MhuPair Memory) : mhu.Evolves (mhu.runRpmsg config bus) := by
  refine ⟨.refl _, ?_⟩
  unfold runRpmsg
  dsimp only
  split_ifs
  · exact Port.evolves_signalDoorbellChannel _ _ _
  · exact .refl _

theorem store32_eq_copyWrite (frame : Frame) {offset : Nat} {data : List Byte}
    (word : data.length = 4) (inside : offset + 4 ≤ regSpaceSize) :
    frame.store32 offset (ofBytes 32 data) = frame.copyWrite offset data := by
  have bytes := toBytes_ofBytes data (show 8 * data.length ≤ 32 by omega)
  rw [word] at bytes
  rw [Frame.store32, if_pos inside, Image.store32, bytes, Frame.copyWrite]

theorem evolves_write32 (mhu : MhuPair Memory) (side : Side) (offset : Nat)
    (value : BitVec 32) :
    ¬ side.storesRaw (mhu.port side).frame offset ∧
        mhu.Evolves (mhu.write32 config bus side offset value) ∨
      side.storesRaw (mhu.port side).frame offset ∧
        mhu.write32 config bus side offset value =
          mhu.setFrame side ((mhu.port side).frame.store32 offset value) := by
  cases side
  · exact evolves_writePbx32 mhu offset value
  · exact evolves_writeMbx32 mhu offset value

/-- An access that is not a write changes nothing. -/
theorem bTransport_write {mhu next : MhuPair Memory} {side : Side} {access : Access}
    {response : Response}
    (transported : mhu.bTransport config bus side access = some (response, next)) :
    next = mhu ∧ (∀ address data, access = .write address data →
        rejected (Access.write address data) = true) ∨
      ∃ address data, access = .write address data ∧
        rejected (Access.write address data) = false ∧
        address.toNat + data.length ≤ regSpaceSize ∧
        next =
          if data.length = 4 then mhu.write32 config bus side address.toNat (ofBytes 32 data)
          else mhu.setFrame side ((mhu.port side).frame.copyWrite address.toNat data) := by
  unfold bTransport at transported
  by_cases rejected : rejected access = true
  · rw [if_pos rejected] at transported
    obtain ⟨-, rfl⟩ := Prod.mk.inj (Option.some.inj transported)
    refine .inl ⟨rfl, ?_⟩
    rintro address data rfl
    exact rejected
  · rw [if_neg rejected] at transported
    split_ifs at transported with beyond
    cases access with
    | read offset len =>
        refine .inl ⟨?_, by simp⟩
        dsimp only at transported
        split_ifs at transported <;>
          exact (Prod.mk.inj (Option.some.inj transported)).2.symm
    | ignore offset len =>
        exact .inl ⟨(Prod.mk.inj (Option.some.inj transported)).2.symm, by simp⟩
    | write offset data =>
        refine .inr ⟨offset, data, rfl, by simpa using rejected, by
          simpa [Access.len, Access.offset] using beyond, ?_⟩
        dsimp only at transported
        split_ifs at transported with word
        · rw [if_pos word]
          exact (Prod.mk.inj (Option.some.inj transported)).2.symm
        · rw [if_neg word]
          exact (Prod.mk.inj (Option.some.inj transported)).2.symm

/-- A step evolves both frames, or copies bytes into the image of one and leaves the rest
alone. -/
theorem step_cases {mhu next : MhuPair Memory} {event : Step}
    (stepped : mhu.step config bus event = some next) :
    (mhu.Evolves next ∧ ∀ side offset data, ¬ mhu.CopiesRaw event side offset data) ∨
      ∃ side offset data, mhu.CopiesRaw event side offset data ∧
        next = mhu.setFrame side ((mhu.port side).frame.copyWrite offset data) := by
  cases event with
  | access side access =>
      obtain ⟨⟨response, after⟩, transported, rfl⟩ := Option.map_eq_some_iff.mp stepped
      rcases bTransport_write transported with
        ⟨rfl, refused⟩ | ⟨address, data, rfl, accepted, inside, rfl⟩
      · refine .inl ⟨.refl _, ?_⟩
        rintro _ _ data ⟨address, same, -, accepted, -⟩
        obtain ⟨rfl, rfl⟩ := Step.access.inj same
        simp [refused address data rfl] at accepted
      · dsimp only
        split_ifs with word
        · rcases evolves_write32 mhu side address.toNat (ofBytes 32 data) with
            ⟨decoded, evolves⟩ | ⟨raw, stored⟩
          · refine .inl ⟨evolves, ?_⟩
            rintro _ _ _ ⟨_, same, rfl, -, raw⟩
            obtain ⟨rfl, written⟩ := Step.access.inj same
            obtain ⟨rfl, rfl⟩ := Access.write.inj written
            exact decoded (raw word)
          · refine .inr ⟨side, address.toNat, data, ⟨address, rfl, rfl, accepted, fun _ => raw⟩, ?_⟩
            rw [stored, store32_eq_copyWrite _ word (by omega)]
        · exact .inr ⟨side, address.toNat, data,
            ⟨address, rfl, rfl, accepted, fun contrary => absurd contrary word⟩, rfl⟩
  | runCompletion =>
      refine .inl ⟨?_, by rintro _ _ _ ⟨_, contrary, -⟩; cases contrary⟩
      dsimp only [step] at stepped
      split_ifs at stepped
      obtain rfl := Option.some.inj stepped
      exact ⟨Port.evolves_completions config _ _, .refl _⟩
  | runRpmsg =>
      refine .inl ⟨?_, by rintro _ _ _ ⟨_, contrary, -⟩; cases contrary⟩
      dsimp only [step] at stepped
      split_ifs at stepped
      obtain rfl := Option.some.inj stepped
      exact evolves_runRpmsg mhu
  | firePowerDomainReset =>
      refine .inl ⟨?_, by rintro _ _ _ ⟨_, contrary, -⟩; cases contrary⟩
      obtain ⟨power, -, rfl⟩ := Option.map_eq_some_iff.mp stepped
      exact ⟨.refl _, .refl _⟩
  | runPowerDomainReset =>
      refine .inl ⟨?_, by rintro _ _ _ ⟨_, contrary, -⟩; cases contrary⟩
      obtain ⟨power, -, rfl⟩ := Option.map_eq_some_iff.mp stepped
      exact ⟨.refl _, .refl _⟩
  | _ =>
      -- Time and the remaining processes leave both frames alone.
      refine .inl ⟨?_, by rintro _ _ _ ⟨_, contrary, -⟩; cases contrary⟩
      dsimp only [step] at stepped
      split_ifs at stepped
      all_goals
        obtain rfl := Option.some.inj stepped
        exact ⟨.refl _, .refl _⟩

end Steps

end MhuPair

end QboxPlatform.Mhu
