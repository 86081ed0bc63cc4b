import QboxPlatform.Tlm
import QboxPlatform.Mhu.Mailbox
import QboxPlatform.Mhu.Rpmsg

/-!
# A pair of MHU-320AE frames

A postbox and the mailbox it is paired with: the TLM target of each, what a write on one
does to the other, and the processes that the postbox runs behind them (PSA service,
SCMI agent, RPMsg announcement and synthetic completions).
-/

namespace QboxPlatform.Mhu

open Foundation Psa

universe u

/-- `p_protocol`: the three protocols the code knows; any other is a plain bridge. -/
inductive Protocol
  | scmi
  | doorbell
  | rsePsProxy
  | bridge
  deriving DecidableEq

structure Config where
  protocol : Protocol := .scmi
  /-- `p_pair` is `"ap_si_cl1"`. -/
  apSiCl1 : Bool := false
  directBootCompat : Bool := false
  scmi : ScmiConfig := {}
  doorbellAckTriggerChannel : Nat := 0
  doorbellAckTriggerValue : BitVec 32 := 0
  doorbellAckChannel : Nat := 0
  doorbellAckValue : BitVec 32 := 0
  doorbellAckSeedAddress : BitVec 64 := 0
  doorbellAckSeedWords : List (BitVec 32) := []
  rpmsg : RpmsgConfig := {}
  syntheticTxdoneDelay : Nat := 1000

/-- A frame and the level last written to its interrupt line. -/
structure Port where
  frame : Frame
  irq : Bool

namespace Port

/-- `update_combined_irq`. -/
def updateCombinedIrq (port : Port) : Port :=
  let frame := port.frame.refreshCombinedIrqRegs
  { frame := frame, irq := frame.anyCombinedIrq }

/-- A change of the frame followed by the interrupt update: the shape of every decoded write. -/
def change (port : Port) (operation : Frame → Frame) : Port :=
  { port with frame := operation port.frame }.updateCombinedIrq

def signalDoorbellChannel (port : Port) (channel : Nat) (value : BitVec 32) : Port :=
  if port.frame.channelCount.count ≤ channel then port
  else port.change fun frame => frame.setStatusBits channel value

def signalDoorbell (port : Port) (bit : Nat) : Port :=
  if 32 ≤ bit then port else port.signalDoorbellChannel 0 (1#32 <<< bit)

/-- Acknowledge a transfer on the postbox side. -/
def clearPostboxDoorbellChannel (config : Config) (port : Port) (channel : Nat)
    (mask : BitVec 32) : Port :=
  if port.frame.channelCount.count ≤ channel then port
  else
    let hadPendingTransfer := port.frame.status channel &&& mask != 0
    let ackEmptyTransfer := !(config.apSiCl1 && config.protocol == .doorbell)
    port.change fun frame =>
      let cleared := frame.clearStatusBits channel mask
      if hadPendingTransfer || ackEmptyTransfer then cleared.setIntStatusBits channel 1
      else cleared

def clearPostboxTransfer (port : Port) : Port :=
  port.change fun frame => frame.clearAllStatus.setIntStatusBits frame.notifyChannel 1

def loadMbxMessage (port : Port) (message : List Byte) : Port :=
  port.change fun frame => frame.loadMessage message

end Port

/-- `synthetic_postbox_completion`. -/
structure Completion where
  channel : Nat
  mask : BitVec 32
  deriving DecidableEq

structure MhuPair (Memory : Type u) where
  pbx : Port
  mbx : Port
  memory : Memory
  now : Nat := 0
  services : Services := {}
  scmi : ScmiState := {}
  rpmsg : RpmsgState := {}
  completions : List Completion := []
  completionEvent : Event := {}
  /-- The completion event has fired and its method has not run since. -/
  completionWoken : Bool := false

/-- The parameters that one frame is configured with. -/
structure FrameParams where
  channelCount : ChannelCount
  featSpt0 : BitVec 32 := 1
  featSpt1 : BitVec 32 := 0
  iidr : BitVec 32 := 0x0000043b
  aidr : BitVec 32 := 0x20

/-- `end_of_elaboration` of one frame. -/
def Port.elaborated (isMbx : Bool) (params : FrameParams) : Port :=
  Port.updateCombinedIrq
    { frame := Frame.configure isMbx params.channelCount params.featSpt0 params.featSpt1
        params.iidr params.aidr
      irq := false }

namespace MhuPair

variable {Memory : Type u}

/-- Both frames after elaboration. -/
def elaborated (pbx mbx : FrameParams) (memory : Memory) : MhuPair Memory where
  pbx := Port.elaborated false pbx
  mbx := Port.elaborated true mbx
  memory := memory

section Writes

variable (config : Config) (bus : Bus Memory)

def clearMbxDoorbellChannel (mhu : MhuPair Memory) (channel : Nat) (mask : BitVec 32) :
    MhuPair Memory :=
  if mhu.mbx.frame.channelCount.count ≤ channel then mhu
  else
    { mhu with
      mbx := mhu.mbx.change fun frame => frame.clearStatusBits channel mask
      pbx := mhu.pbx.clearPostboxDoorbellChannel config channel mask }

def seedDoorbellAckMemory (mhu : MhuPair Memory) : MhuPair Memory :=
  if config.doorbellAckSeedWords = [] then mhu
  else
    { mhu with
      memory := memWrite bus mhu.memory config.doorbellAckSeedAddress
        (config.doorbellAckSeedWords.flatMap (toBytes 4)) }

def completeSyntheticPostboxTransfer (mhu : MhuPair Memory) (channel : Nat) (mask : BitVec 32) :
    MhuPair Memory :=
  if mhu.pbx.frame.channelCount.count ≤ channel ∨ mask = 0 then mhu
  else
    { mhu with
      completions := mhu.completions ++ [⟨channel, mask⟩]
      completionEvent := mhu.completionEvent.notify (mhu.now + config.syntheticTxdoneDelay) }

/-- `emit_synthetic_postbox_completions`: empty the queue in order. -/
def emitSyntheticPostboxCompletions (mhu : MhuPair Memory) : MhuPair Memory :=
  { mhu with
    pbx := mhu.completions.foldl
      (fun port completion =>
        port.clearPostboxDoorbellChannel config completion.channel completion.mask)
      mhu.pbx
    completions := []
    completionWoken := false }

def scheduleRpmsgNsInjection (mhu : MhuPair Memory) : MhuPair Memory :=
  { mhu with rpmsg := config.rpmsg.scheduleRpmsgNsInjection mhu.now mhu.rpmsg }

/-- The `rse-ps-proxy` branch of a postbox write: serve the request in the channels. -/
def serveRsePs (mhu : MhuPair Memory) : MhuPair Memory :=
  let (reply, services, memory) :=
    buildRsePsReply bus mhu.pbx.frame.readDoorbellMessage mhu.services mhu.memory
  { mhu with
    services := services
    memory := memory
    pbx := mhu.pbx.clearPostboxTransfer
    mbx := mhu.mbx.loadMbxMessage reply }

/-- Whether a doorbell write is the one the automatic acknowledgement waits for. -/
def triggersDoorbellAck (channel : Nat) (value : BitVec 32) : Bool :=
  config.doorbellAckTriggerValue != 0 && channel == config.doorbellAckTriggerChannel &&
    value &&& config.doorbellAckTriggerValue == config.doorbellAckTriggerValue

/-- The `doorbell` branch of a postbox write. -/
def answerDoorbell (mhu : MhuPair Memory) (channel : Nat) (value : BitVec 32) : MhuPair Memory :=
  if triggersDoorbellAck config channel value then
    let seeded := mhu.seedDoorbellAckMemory config bus
    { seeded with
      mbx := seeded.mbx.signalDoorbellChannel config.doorbellAckChannel
        config.doorbellAckValue }.completeSyntheticPostboxTransfer config channel value
  else
    let scheduled := mhu.scheduleRpmsgNsInjection config
    if config.rpmsg.enable then
      scheduled.completeSyntheticPostboxTransfer config channel value
    else scheduled

def writePostboxDoorbell (mhu : MhuPair Memory) (channel : Nat) (value : BitVec 32) :
    MhuPair Memory :=
  let written :=
    { mhu with pbx := mhu.pbx.change fun frame => frame.setStatusBits channel value }
  match config.protocol with
  | .rsePsProxy =>
      if channel = mhu.pbx.frame.notifyChannel ∧ value = mhuNotifyValue then
        written.serveRsePs bus
      else written
  | .doorbell => written.answerDoorbell config bus channel value
  | .scmi => { written with mbx := written.mbx.signalDoorbellChannel channel value }
  | .bridge => { written with mbx := written.mbx.signalDoorbellChannel channel value }

/-- `build_rse_success_reply`. -/
def buildRseSuccessReply (request : List Byte) : List Byte :=
  [request.getD 0 rseCommsProtocolEmbed, request.getD 1 0, request.getD 2 0,
      request.getD 3 0] ++
    toBytes 4 PsaStatus.success.code ++
    if request.getD 0 rseCommsProtocolEmbed = rseCommsProtocolPointerAccess then
      List.replicate 16 0
    else List.replicate 8 0

def respondRseDoorbell (mhu : MhuPair Memory) : MhuPair Memory :=
  { mhu with
    pbx := mhu.pbx.clearPostboxTransfer
    mbx := mhu.mbx.loadMbxMessage (buildRseSuccessReply mhu.pbx.frame.readDoorbellMessage) }

def respondScmi (mhu : MhuPair Memory) (channel : Nat) : MhuPair Memory :=
  let (memory, scmi) := config.scmi.respondScmi bus mhu.now channel mhu.memory mhu.scmi
  { mhu with
    memory := memory
    scmi := scmi
    mbx := mhu.mbx.signalDoorbell config.scmi.ackBit }

/-- A write of `PBX_DBCW_SET`. -/
def ringPostbox (mhu : MhuPair Memory) (channel : Nat) (value : BitVec 32) : MhuPair Memory :=
  if config.protocol = .scmi ∧ config.scmi.scmiChannelInRange channel = true then
    mhu.respondScmi config bus channel
  else
    let written := mhu.writePostboxDoorbell config bus channel value
    if config.directBootCompat = true ∧ config.protocol = .doorbell ∧
        channel = mhu.pbx.frame.notifyChannel ∧ value = mhuNotifyValue then
      written.respondRseDoorbell
    else written

/-- `write32` of the postbox. -/
def writePbx32 (mhu : MhuPair Memory) (offset : Nat) (value : BitVec 32) : MhuPair Memory :=
  match mhu.pbx.frame.decodeDbchOffset offset with
  | some (channel, regOffset) =>
      if regOffset = dbcwSet then mhu.ringPostbox config bus channel value
      else if regOffset = dbcwIntClr then
        { mhu with
          pbx := mhu.pbx.change fun frame => frame.clearIntStatusBits channel value }
      else if regOffset = dbcwIntEn then
        { mhu with pbx := mhu.pbx.change fun frame => frame.setIntEnable channel value }
      else if regOffset = dbcwCtrl then
        { mhu with pbx := mhu.pbx.change fun frame => frame.setCtrl channel value }
      else { mhu with pbx := { mhu.pbx with frame := mhu.pbx.frame.store32 offset value } }
  | none => { mhu with pbx := { mhu.pbx with frame := mhu.pbx.frame.store32 offset value } }

/-- `write32` of the mailbox. -/
def writeMbx32 (mhu : MhuPair Memory) (offset : Nat) (value : BitVec 32) : MhuPair Memory :=
  match mhu.mbx.frame.decodeDbchOffset offset with
  | some (channel, regOffset) =>
      if regOffset = dbcwClr then mhu.clearMbxDoorbellChannel config channel value
      else if regOffset = dbcwIntClr then
        { mhu with mbx := mhu.mbx.change fun frame => frame.setMaskBits channel value }
      else if regOffset = dbcwIntEn then
        { mhu with mbx := mhu.mbx.change fun frame => frame.clearMaskBits channel value }
      else if regOffset = dbcwCtrl then
        { mhu with mbx := mhu.mbx.change fun frame => frame.setCtrl channel value }
      else { mhu with mbx := { mhu.mbx with frame := mhu.mbx.frame.store32 offset value } }
  | none => { mhu with mbx := { mhu.mbx with frame := mhu.mbx.frame.store32 offset value } }

end Writes

end MhuPair

/-- The target socket an access arrives at. -/
inductive Side
  | pbx
  | mbx
  deriving DecidableEq

/-- The check at the head of `b_transport`; the sum is taken in 64 bits. -/
def rejected (access : Access) : Bool :=
  regSpaceSize < (access.offset.toNat + access.len) % 2 ^ 64 || !isSupportedLength access.len

theorem rejected_eq_false {access : Access} :
    rejected access = false ↔
      (access.offset.toNat + access.len) % 2 ^ 64 ≤ regSpaceSize ∧
        (access.len = 1 ∨ access.len = 2 ∨ access.len = 4 ∨ access.len = 8) := by
  rw [rejected, Bool.or_eq_false_iff, decide_eq_false_iff_not, Nat.not_lt, Bool.not_eq_false',
    isSupportedLength_iff]

namespace MhuPair

variable {Memory : Type u} (config : Config) (bus : Bus Memory)

def port (mhu : MhuPair Memory) : Side → Port
  | .pbx => mhu.pbx
  | .mbx => mhu.mbx

def setFrame (mhu : MhuPair Memory) (side : Side) (frame : Frame) : MhuPair Memory :=
  match side with
  | .pbx => { mhu with pbx := { mhu.pbx with frame := frame } }
  | .mbx => { mhu with mbx := { mhu.mbx with frame := frame } }

def write32 (mhu : MhuPair Memory) (side : Side) (offset : Nat) (value : BitVec 32) :
    MhuPair Memory :=
  match side with
  | .pbx => mhu.writePbx32 config bus offset value
  | .mbx => mhu.writeMbx32 config offset value

/-- `b_transport`.  An access whose end wraps around 2^64 passes the check and then leaves
the register array, which the language does not define. -/
def bTransport (mhu : MhuPair Memory) (side : Side) (access : Access) :
    Option (Response × MhuPair Memory) :=
  if rejected access then some (.addressError, mhu)
  else if regSpaceSize < access.offset.toNat + access.len then none
  else
    match access with
    | .read offset len =>
        let frame := (mhu.port side).frame
        if len = 4 then some (.ok (toBytes 4 (frame.read32 offset.toNat)), mhu)
        else some (.ok (frame.copyRead offset.toNat len), mhu)
    | .write offset data =>
        if data.length = 4 then
          some (.ok [], mhu.write32 config bus side offset.toNat (ofBytes 32 data))
        else
          some (.ok [], mhu.setFrame side ((mhu.port side).frame.copyWrite offset.toNat data))
    | .ignore _ _ => some (.commandError, mhu)

/-- One thing that can happen to the pair. -/
inductive Step
  | access (side : Side) (access : Access)
  | elapse (later : Nat)
  | fireCompletion
  | runCompletion
  | firePowerDomainReset
  | runPowerDomainReset
  | fireSystemPowerReset
  | runSystemPowerReset
  | fireRpmsg
  | runRpmsg

/-- Whether time can advance to `later`: no notification and no timed wait ends before. -/
def permits (mhu : MhuPair Memory) (later : Nat) : Bool :=
  mhu.now ≤ later && mhu.completionEvent.permits later &&
    mhu.scmi.power.powerDomainResetEvent.permits later &&
    mhu.scmi.power.systemPowerResetEvent.permits later && mhu.rpmsg.event.permits later &&
    (match mhu.scmi.power.systemPowerResetThread with
      | .pulsing due => decide (later ≤ due)
      | _ => true) &&
    match mhu.rpmsg.worker with
    | .sleeping _ due => later ≤ due
    | .signalling due => later ≤ due
    | _ => true

def setPower (mhu : MhuPair Memory) (power : PowerControl) : MhuPair Memory :=
  { mhu with scmi := { mhu.scmi with power := power } }

/-- Whether the wait the system-power thread is in is over. -/
def systemPowerReady (mhu : MhuPair Memory) : Bool :=
  match mhu.scmi.power.systemPowerResetThread with
  | .waiting => false
  | .woken => true
  | .pulsing due => due ≤ mhu.now

/-- Whether the wait the announcement worker is in is over. -/
def rpmsgReady (mhu : MhuPair Memory) : Bool :=
  match mhu.rpmsg.worker with
  | .waiting => false
  | .woken => true
  | .sleeping _ due => due ≤ mhu.now
  | .signalling due => due ≤ mhu.now

/-- A stretch of the announcement worker, with its signal on the mailbox. -/
def runRpmsg (mhu : MhuPair Memory) : MhuPair Memory :=
  let stretch := config.rpmsg.rpmsgNsWorker bus mhu.now mhu.memory mhu.rpmsg
  { mhu with
    memory := stretch.memory
    rpmsg := stretch.state
    mbx :=
      if stretch.signal then
        mhu.mbx.signalDoorbellChannel config.rpmsg.signalChannel config.rpmsg.signalValue
      else mhu.mbx }

/-- One step of the pair; `none` when it cannot happen in this state. -/
def step (mhu : MhuPair Memory) : Step → Option (MhuPair Memory)
  | .access side access => (mhu.bTransport config bus side access).map Prod.snd
  | .elapse later => if mhu.permits later then some { mhu with now := later } else none
  | .fireCompletion =>
      if mhu.completionEvent.ready mhu.now then
        some { mhu with completionEvent := {}, completionWoken := true }
      else none
  | .runCompletion =>
      if mhu.completionWoken then some (mhu.emitSyntheticPostboxCompletions config) else none
  | .firePowerDomainReset => (mhu.scmi.power.firePowerDomainReset mhu.now).map mhu.setPower
  | .runPowerDomainReset =>
      (mhu.scmi.power.runPowerDomainReset config.scmi.toPowerConfig).map mhu.setPower
  | .fireSystemPowerReset =>
      let power := mhu.scmi.power
      if power.systemPowerResetEvent.ready mhu.now then
        some (mhu.setPower { power with
          systemPowerResetEvent := {}
          systemPowerResetThread :=
            if power.systemPowerResetThread = .waiting then .woken
            else power.systemPowerResetThread })
      else none
  | .runSystemPowerReset =>
      if mhu.systemPowerReady then
        some (mhu.setPower
          (mhu.scmi.power.emitSystemPowerReset config.scmi.toPowerConfig mhu.now))
      else none
  | .fireRpmsg =>
      if mhu.rpmsg.event.ready mhu.now then
        some { mhu with
          rpmsg := { mhu.rpmsg with
            event := {}
            worker := if mhu.rpmsg.worker = .waiting then .woken else mhu.rpmsg.worker } }
      else none
  | .runRpmsg => if mhu.rpmsgReady then some (mhu.runRpmsg config bus) else none

/-- An access inside the register space is accepted, and answered as `b_transport` says. -/
theorem accepted_of_inside {access : Access}
    (supported : access.len = 1 ∨ access.len = 2 ∨ access.len = 4 ∨ access.len = 8)
    (inside : access.offset.toNat + access.len ≤ regSpaceSize) : rejected access = false := by
  have size : regSpaceSize = 0x30000 := rfl
  have small : (access.offset.toNat + access.len) % 2 ^ 64 =
      access.offset.toNat + access.len := Nat.mod_eq_of_lt (by omega)
  exact rejected_eq_false.mpr ⟨small.trans_le inside, supported⟩

theorem bTransport_read (mhu : MhuPair Memory) (side : Side) {offset : BitVec 64} {len : Nat}
    (supported : len = 1 ∨ len = 2 ∨ len = 4 ∨ len = 8)
    (inside : offset.toNat + len ≤ regSpaceSize) :
    mhu.bTransport config bus side (.read offset len) =
      some (.ok (if len = 4 then toBytes 4 ((mhu.port side).frame.read32 offset.toNat)
        else (mhu.port side).frame.copyRead offset.toNat len), mhu) := by
  have accepted : rejected (Access.read offset len) = false :=
    accepted_of_inside supported inside
  have within : ¬ regSpaceSize < (Access.read offset len).offset.toNat +
      (Access.read offset len).len := Nat.not_lt.mpr inside
  rw [bTransport, accepted, if_neg Bool.false_ne_true, if_neg within]
  dsimp only
  split_ifs <;> rfl

theorem bTransport_write_word (mhu : MhuPair Memory) (side : Side) {offset : BitVec 64}
    {data : List Byte} (word : data.length = 4) (inside : offset.toNat + 4 ≤ regSpaceSize) :
    mhu.bTransport config bus side (.write offset data) =
      some (.ok [], mhu.write32 config bus side offset.toNat (ofBytes 32 data)) := by
  have within : (Access.write offset data).offset.toNat + (Access.write offset data).len ≤
      regSpaceSize := by
    dsimp only [Access.offset, Access.len]
    omega
  have accepted : rejected (Access.write offset data) = false :=
    accepted_of_inside (.inr (.inr (.inl word))) within
  rw [bTransport, accepted, if_neg Bool.false_ne_true, if_neg (Nat.not_lt.mpr within),
    if_pos word]

end MhuPair

end QboxPlatform.Mhu
