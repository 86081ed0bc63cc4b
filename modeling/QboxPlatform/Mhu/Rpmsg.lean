import QboxPlatform.Mhu.Scmi

/-!
# The RPMsg name-service announcement

`inject_rpmsg_ns_once` publishes one announcement into a receive buffer of a virtqueue
in guest memory; the thread `rpmsg_ns_worker` polls until that succeeds.
-/

namespace QboxPlatform.Mhu

open Foundation

universe u

def vringDescFWrite : BitVec 16 := 2
def vringDescSize : BitVec 64 := 16
def vringAvailHeaderSize : BitVec 64 := 4
def vringUsedHeaderSize : BitVec 64 := 4
def vringUsedElemSize : BitVec 64 := 8
def rpmsgNsAddr : BitVec 32 := 53
def rpmsgNsCreate : BitVec 32 := 0
def rpmsgNameSize : Nat := 32
def rpmsgNsMsgSize : BitVec 16 := 40

structure RpmsgConfig where
  enable : Bool := false
  name : List Byte := []
  remoteAddr : BitVec 32 := 1024
  vringAddress : BitVec 64 := 0
  vringNum : BitVec 32 := 32
  vringAlign : BitVec 32 := 16
  signalChannel : Nat := 0
  signalValue : BitVec 32 := 1
  signalDelay : Nat := 0
  pollPeriod : Nat := 100000
  maxPolls : Nat := 1000

/-- Where the thread `rpmsg_ns_worker` stands. -/
inductive RpmsgWorker
  | waiting
  | woken
  /-- The wait after poll number `poll`. -/
  | sleeping (poll due : Nat)
  /-- The wait between the announcement and its doorbell. -/
  | signalling (due : Nat)
  deriving DecidableEq

structure RpmsgState where
  pending : Bool := false
  sent : Bool := false
  lastAvailIdx : BitVec 16 := 0#16
  event : Event := {}
  worker : RpmsgWorker := .waiting

/-- How `inject_rpmsg_ns_once` ends: with nothing left to do, with a buffer still to be
waited for, or with the announcement published. -/
inductive InjectOutcome
  | finished
  | notYet
  | published
  deriving DecidableEq

def alignUp (value align : BitVec 64) : BitVec 64 :=
  if align = 0 then value else (value + align - 1) &&& ~~~(align - 1)

namespace RpmsgConfig

variable (config : RpmsgConfig)

def rpmsgNsAvailAddress : BitVec 64 :=
  config.vringAddress + config.vringNum.setWidth 64 * vringDescSize

def rpmsgNsUsedAddress : BitVec 64 :=
  let availEnd :=
    config.rpmsgNsAvailAddress + vringAvailHeaderSize + (config.vringNum + 1).setWidth 64 * 2
  alignUp availEnd (config.vringAlign.setWidth 64)

def buildRpmsgNsMessage : List Byte :=
  let copied := (config.name.takeWhile (· != 0)).take (rpmsgNameSize - 1)
  toBytes 4 config.remoteAddr ++ toBytes 4 rpmsgNsAddr ++ toBytes 4 0#32 ++
    toBytes 2 rpmsgNsMsgSize ++ toBytes 2 0#16 ++
    (copied ++ List.replicate (rpmsgNameSize - copied.length) 0) ++
    toBytes 4 config.remoteAddr ++ toBytes 4 rpmsgNsCreate

theorem length_buildRpmsgNsMessage : config.buildRpmsgNsMessage.length = 56 := by
  have short := List.length_take_le (rpmsgNameSize - 1) (config.name.takeWhile (· != 0))
  simp only [buildRpmsgNsMessage, List.length_append, length_toBytes, List.length_replicate]
  simp only [rpmsgNameSize] at short ⊢
  omega

/-- The announcement carries the address of its sender twice, the length of its payload and the
name, cut to a string that ends in the message. -/
theorem buildRpmsgNsMessage_fields :
    ∃ name : List Byte, name <+: config.name ∧ 0 ∉ name ∧ name.length < rpmsgNameSize ∧
      (config.buildRpmsgNsMessage.drop 16).take rpmsgNameSize =
        name ++ List.replicate (rpmsgNameSize - name.length) 0 ∧
      wordAt config.buildRpmsgNsMessage 0 = config.remoteAddr ∧
      wordAt config.buildRpmsgNsMessage 1 = rpmsgNsAddr ∧
      16 + (ofBytes 16 ((config.buildRpmsgNsMessage.drop 12).take 2)).toNat =
        config.buildRpmsgNsMessage.length ∧
      wordAt config.buildRpmsgNsMessage 12 = config.remoteAddr ∧
      wordAt config.buildRpmsgNsMessage 13 = rpmsgNsCreate := by
  let name := (config.name.takeWhile (· != 0)).take (rpmsgNameSize - 1)
  have short : name.length ≤ rpmsgNameSize - 1 := List.length_take_le _ _
  have small : name.length < rpmsgNameSize := Nat.lt_of_le_of_lt short (by decide)
  have ended : 0 ∉ name := fun member =>
    absurd (List.mem_takeWhile_imp (List.mem_of_mem_take member)) (by simp)
  obtain ⟨field, fieldDef⟩ :
      ∃ field, field = name ++ List.replicate (rpmsgNameSize - name.length) 0 := ⟨_, rfl⟩
  have sized : field.length = 32 := by
    rw [fieldDef, List.length_append, List.length_replicate]
    exact Nat.add_sub_cancel' small.le
  have message : config.buildRpmsgNsMessage = toBytes 4 config.remoteAddr ++
      (toBytes 4 rpmsgNsAddr ++ (toBytes 4 0#32 ++ (toBytes 2 rpmsgNsMsgSize ++ (toBytes 2 0#16 ++
        (field ++ (toBytes 4 config.remoteAddr ++ toBytes 4 rpmsgNsCreate)))))) := by
    simp only [buildRpmsgNsMessage, fieldDef, name, List.append_assoc]
  refine ⟨name, (List.take_prefix _ _).trans (List.takeWhile_prefix _), ended, small, ?_⟩
  rw [← fieldDef, config.length_buildRpmsgNsMessage, message]
  simp [wordAt, List.drop_append, List.drop_of_length_le, List.take_of_length_le, sized,
    ofBytes_toBytes, rpmsgNameSize, rpmsgNsMsgSize]

section Worker

variable {Memory : Type u}

/-- The second half of `inject_rpmsg_ns_once`, once the driver has posted a buffer. -/
def publishRpmsgNs (bus : Bus Memory) (memory : Memory) (state : RpmsgState)
    (availIdx : BitVec 16) : InjectOutcome × Memory × RpmsgState :=
  let used := config.rpmsgNsUsedAddress
  let slot := state.lastAvailIdx.toNat % config.vringNum.toNat
  let (descId, memory) :=
    memRead 16 bus memory
      (config.rpmsgNsAvailAddress + vringAvailHeaderSize + BitVec.ofNat 64 (slot * 2))
  if config.vringNum.toNat ≤ descId.toNat then (.notYet, memory, state)
  else
    let desc := config.vringAddress + descId.setWidth 64 * vringDescSize
    let (bufferAddr, memory) := memRead 64 bus memory desc
    let (bufferLen, memory) := memRead 32 bus memory (desc + 8)
    let (flags, memory) := memRead 16 bus memory (desc + 12)
    let message := config.buildRpmsgNsMessage
    if flags &&& vringDescFWrite = 0 ∨ bufferLen.toNat < message.length then
      (.notYet, memory, state)
    else
      let (ok, memory) := bus.write memory bufferAddr message
      if ok = false then (.notYet, memory, state)
      else
        let (usedIdx, memory) := memRead 16 bus memory (used + 2)
        let usedElem := used + vringUsedHeaderSize +
          BitVec.ofNat 64 (usedIdx.toNat % config.vringNum.toNat) * vringUsedElemSize
        let memory := memWrite32 bus memory usedElem (descId.setWidth 32)
        let memory := memWrite32 bus memory (usedElem + 4) (BitVec.ofNat 32 message.length)
        let memory := memWrite16 bus memory (used + 2) (usedIdx + 1)
        (.published, memory, { state with lastAvailIdx := availIdx, sent := true })

/-- `inject_rpmsg_ns_once`, up to its signal on the paired mailbox. -/
def injectRpmsgNsOnce (bus : Bus Memory) (memory : Memory) (state : RpmsgState) :
    InjectOutcome × Memory × RpmsgState :=
  if config.enable = false ∨ state.sent = true ∨ config.vringNum = 0 then
    (.finished, memory, state)
  else
    let (availIdx, memory) := memRead 16 bus memory (config.rpmsgNsAvailAddress + 2)
    if availIdx = state.lastAvailIdx then (.notYet, memory, state)
    else config.publishRpmsgNs bus memory state availIdx

def scheduleRpmsgNsInjection (now : Nat) (state : RpmsgState) : RpmsgState :=
  if config.enable = false ∨ state.sent = true then state
  else { state with pending := true, event := state.event.notify now }

/-- The effect of one stretch of the worker outside its own state: guest memory, and
whether it signals the paired mailbox. -/
structure Stretch (Memory : Type u) where
  memory : Memory
  state : RpmsgState
  signal : Bool := false

/-- Poll number `poll`, up to the next wait; `idle` is where the worker goes when the
announcement needs no further poll. -/
def pollOnce (bus : Bus Memory) (now poll : Nat) (memory : Memory) (state : RpmsgState)
    (idle : Memory → RpmsgState → Stretch Memory) : Stretch Memory :=
  match config.injectRpmsgNsOnce bus memory state with
  | (.finished, memory, state) => idle memory state
  | (.notYet, memory, state) =>
      { memory, state := { state with worker := .sleeping poll (now + config.pollPeriod) } }
  | (.published, memory, state) =>
      if config.signalDelay = 0 then { idle memory state with signal := true }
      else { memory, state := { state with worker := .signalling (now + config.signalDelay) } }

/-- A pass of the polling loop from its start.  The request it serves has just been taken,
so a pass that ends without a wait ends the outer loop. -/
def startPolling (bus : Bus Memory) (now : Nat) (memory : Memory) (state : RpmsgState) :
    Stretch Memory :=
  let taken := { state with pending := false }
  let rest (memory : Memory) (state : RpmsgState) : Stretch Memory :=
    { memory, state := { state with worker := .waiting } }
  if config.maxPolls = 0 then rest memory taken
  else config.pollOnce bus now 0 memory taken rest

/-- The condition of the outer loop. -/
def continuePolling (bus : Bus Memory) (now : Nat) (memory : Memory) (state : RpmsgState) :
    Stretch Memory :=
  if state.pending = true ∧ state.sent = false then config.startPolling bus now memory state
  else { memory, state := { state with worker := .waiting } }

/-- `rpmsg_ns_worker` from the wait it is in to the next. -/
def rpmsgNsWorker (bus : Bus Memory) (now : Nat) (memory : Memory) (state : RpmsgState) :
    Stretch Memory :=
  match state.worker with
  | .waiting => { memory, state }
  | .woken => config.continuePolling bus now memory state
  | .sleeping poll _ =>
      if poll + 1 < config.maxPolls then
        config.pollOnce bus now (poll + 1) memory state (config.continuePolling bus now)
      else config.continuePolling bus now memory state
  | .signalling _ => { config.continuePolling bus now memory state with signal := true }

end Worker

end RpmsgConfig

end QboxPlatform.Mhu
