import QboxPlatform.Foundation.Run
import QboxPlatform.Mmu720ae.Core

/-!
# The SMMU and its sockets

`mmu720ae`: the register port, the five translation buffer units that requesters are bound to,
and the port through which event records are written to memory.  Once software enables the SMMU,
requests are blocked, and each one is recorded in the event queue.
-/

namespace QboxPlatform.Mmu720ae

open Foundation

/-- The sockets of the requesters. -/
inductive Tbu
  | ace1
  | ace2
  | lti00
  | lti01
  | lti02
  deriving DecidableEq

structure Params where
  tbuAce1DefaultSid : BitVec 32 := 0x00
  tbuAce2DefaultSid : BitVec 32 := 0x20
  tbuLti00DefaultSid : BitVec 32 := 0x40
  tbuLti01DefaultSid : BitVec 32 := 0x60
  tbuLti02DefaultSid : BitVec 32 := 0x80
  /-- Something is bound to the interrupt port. -/
  irqCombinedBound : Bool := true

def Params.defaultSid (params : Params) : Tbu → BitVec 32
  | .ace1 => params.tbuAce1DefaultSid
  | .ace2 => params.tbuAce2DefaultSid
  | .lti00 => params.tbuLti00DefaultSid
  | .lti01 => params.tbuLti01DefaultSid
  | .lti02 => params.tbuLti02DefaultSid

/-- What `request_attrs_extension` says about the stream of a request. -/
structure RequestAttrs where
  sid : BitVec 32
  sidValid : Bool

/-- A transaction of a requester. -/
structure TbuRequest where
  address : BitVec 64
  isRead : Bool
  attrs : Option RequestAttrs

/-- What the target behind `ptw_socket` does with a record.  It answers without yielding, as the
targets of the bus do, and a target that fails may have overwritten some of the bytes. -/
inductive WriteOutcome
  | stored
  | failed (leftover : List Byte)

inductive TbuReply
  | commandError
  /-- The transaction goes on to `downstream_socket`. -/
  | forwarded
  deriving DecidableEq

/-- The SMMU in front of the memory that holds the event queue.  Only the SMMU writes to that
part of memory. -/
structure Device where
  core : Core
  memory : Image
  /-- The level last written to the interrupt port. -/
  irqCombined : Bool

inductive Event
  | registers (access : Access)
  | request (tbu : Tbu) (payload : TbuRequest) (outcome : WriteOutcome)
  | debugRequest (tbu : Tbu) (payload : TbuRequest)
  | reset (level : Bool)

def clampSid (sid : BitVec 32) : BitVec 32 := sid &&& 0xff

/-- The stream of a request, and whether it is the default one of the socket. -/
def requestSidOrDefault (payload : TbuRequest) (defaultSid : BitVec 32) : BitVec 32 × Bool :=
  match payload.attrs with
  | some attrs =>
      if attrs.sidValid then (clampSid attrs.sid, false) else (clampSid defaultSid, true)
  | none => (clampSid defaultSid, true)

namespace Device

/-- The device after its construction. -/
def new (memory : Image) : Device where
  core :=
    Core.reset
      { regs := fun _ => 0, combinedIrq := false, cmdqSyncCount := 0, dmiGeneration := 0
        tbuRequestCount := 0, tbuFallbackSidCount := 0, eventRecordCount := 0
        eventQueueAbortCount := 0, lastTbuSid := 0 }
  memory := memory
  irqCombined := false

variable (params : Params) (device : Device)

def updateIrq : Device :=
  if params.irqCombinedBound then { device with irqCombined := device.core.combinedIrq }
  else device

def doreset (level : Bool) : Device :=
  if level then { device with core := device.core.reset }.updateIrq params else device

def accessRegisters (access : Access) : Option (Response × Device) :=
  (device.core.access access).map fun (response, core) =>
    match response with
    | .ok data => (.ok data, { device with core := core }.updateIrq params)
    | .addressError => (.addressError, { device with core := core })
    | .commandError => (.commandError, { device with core := core })

/-- `write_event_record`, and whether the target accepts the record. -/
def writeEventRecord (record : EventRecord) (address : BitVec 64) :
    WriteOutcome → Bool × Device
  | .stored => (true, { device with memory := device.memory.write address.toNat record.bytes })
  | .failed leftover =>
      (false, { device with
        memory := device.memory.write address.toNat (leftover.take evtqEntBytes) })

def recordUnimplementedTranslationFault (payload : TbuRequest) (sid : BitVec 32)
    (fallbackSid : Bool) (outcome : WriteOutcome) : Device :=
  let eventSid := clampSid sid
  let counted := { device with core := device.core.recordTbuRequestSid eventSid fallbackSid }
  match counted.core.buildTranslationFaultEvent payload.address payload.isRead eventSid with
  | none => { counted with core := counted.core.recordEventQueueAbort }.updateIrq params
  | some (record, writeAddress) =>
      let (written, sent) := counted.writeEventRecord record writeAddress outcome
      { sent with core := sent.core.completeEventQueueWrite written }.updateIrq params

/-- `tbu_b_transport_with_sid` with the default of the socket. -/
def tbuBTransport (tbu : Tbu) (payload : TbuRequest) (outcome : WriteOutcome) :
    TbuReply × Device :=
  let (requestSid, fallbackSid) := requestSidOrDefault payload (params.defaultSid tbu)
  if device.core.smmuEnabled then
    (.commandError,
      (device.recordUnimplementedTranslationFault params payload requestSid fallbackSid
        outcome).updateIrq params)
  else (.forwarded, device)

/-- `tbu_transport_dbg_with_sid` with the default of the socket. -/
def tbuTransportDbg (tbu : Tbu) (payload : TbuRequest) : TbuReply × Device :=
  if device.core.smmuEnabled then
    let (requestSid, fallbackSid) := requestSidOrDefault payload (params.defaultSid tbu)
    (.commandError,
      { device with core := device.core.recordTbuRequestSid requestSid fallbackSid })
  else (.forwarded, device)

/-- The device after an event; `none` says that the program leaves it undefined. -/
def step : Event → Option Device
  | .registers access => (device.accessRegisters params access).map Prod.snd
  | .request tbu payload outcome => some (device.tbuBTransport params tbu payload outcome).2
  | .debugRequest tbu payload => some (device.tbuTransportDbg params tbu payload).2
  | .reset level => some (device.doreset params level)

end Device

end QboxPlatform.Mmu720ae
