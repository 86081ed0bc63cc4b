import QboxPlatform.Foundation.Bus
import QboxPlatform.Mhu.Power
import QboxPlatform.Mhu.Psa.Request

/-!
# SCMI requests in shared memory

`respond_scmi`: read a request from the shared-memory slot of a channel, dispatch it
by protocol, and write the response and the free flag back.
-/

namespace QboxPlatform.Mhu

open Foundation Psa

universe u

def scmiChanStatus : BitVec 64 := 0x04
def scmiLength : BitVec 64 := 0x14
def scmiHeader : BitVec 64 := 0x18
def scmiPayload : BitVec 64 := 0x1c
def scmiChanFree : BitVec 32 := 1
def scmiSuccess : BitVec 32 := 0
def scmiErrSupport : BitVec 32 := BitVec.ofInt 32 (-1)
def scmiErrParam : BitVec 32 := BitVec.ofInt 32 (-2)
def scmiProtocolBase : BitVec 8 := 0x10
def scmiProtocolPowerDomain : BitVec 8 := 0x11
def scmiProtocolSysPower : BitVec 8 := 0x12
def scmiProtocolPerformance : BitVec 8 := 0x13
def scmiProtocolPfdiMonitor : BitVec 8 := 0x90
def scmiPerformanceVersion : BitVec 32 := 0x00040000
def scmiPfdiMonitorVersion : BitVec 32 := 0x00020000
def scmiPerfDomainCount : Nat := 1
def scmiPerfOppCount : Nat := 3
def scmiPerfMinLevel : BitVec 32 := 1000
def scmiPerfMaxLevel : BitVec 32 := 2000
def scmiPerfSustainedFreqKhz : BitVec 32 := 2000000

/-- `p_scmi_transport`, as far as the code tells transports apart. -/
inductive ScmiTransport
  | mailbox
  | pfdiMonitor
  deriving DecidableEq

structure ScmiConfig extends PowerConfig where
  transport : ScmiTransport := .mailbox
  txShmem : BitVec 64 := 0x00180000
  channelStride : BitVec 64 := 0
  channelBaseIndex : Nat := 0
  channelCount : Nat := 1
  ackBit : Nat := 0
  powerDomainVersion : BitVec 32 := 0x00020000
  sysPowerVersion : BitVec 32 := 0x00020000
  powerDomainAttributes : BitVec 32 := 0
  powerDomainName : List Byte := [0x41, 0x50]

/-- What SCMI messages read and change outside shared memory. -/
structure ScmiState where
  power : PowerControl := {}
  performanceLevels : Nat → BitVec 32 := fun _ => 0#32

/-- A response: status, payload and the state after the request. -/
structure ScmiResponse where
  status : BitVec 32 := scmiSuccess
  payload : List Byte := []
  state : ScmiState

def msgId (header : BitVec 32) : Nat := (header &&& 0xff).toNat
def protocolId (header : BitVec 32) : BitVec 8 := (header >>> 10).setWidth 8

/-- `fixed_param_string`: at most 15 bytes up to the first zero, in a field of 16. -/
def fixedParamString (value : List Byte) : List Byte :=
  let copied := (value.takeWhile (· != 0)).take 15
  copied ++ List.replicate (16 - copied.length) 0

def fixedString (value : String) : List Byte :=
  fixedParamString (value.toList.map fun character => BitVec.ofNat 8 character.toNat)

namespace ScmiConfig

variable (config : ScmiConfig)

def scmiSupportedProtocols : List Byte :=
  match config.transport with
  | .pfdiMonitor => [scmiProtocolBase, scmiProtocolPfdiMonitor]
  | .mailbox =>
      [scmiProtocolBase, scmiProtocolPowerDomain, scmiProtocolSysPower, scmiProtocolPerformance]

def scmiShmem (channel : Nat) : BitVec 64 :=
  let slot :=
    if config.channelBaseIndex ≤ channel then channel - config.channelBaseIndex else channel
  config.txShmem + config.channelStride * BitVec.ofNat 64 slot

/-- `scmi_channel_in_range`. -/
def scmiChannelInRange (channel : Nat) : Bool :=
  config.channelBaseIndex ≤ channel && channel - config.channelBaseIndex < config.channelCount

def respondScmiBase (header : BitVec 32) (state : ScmiState) : ScmiResponse :=
  match msgId header with
  | 0x0 => { payload := toBytes 4 0x00020001#32, state }
  | 0x1 =>
      { payload := [BitVec.ofNat 8 config.scmiSupportedProtocols.length, 1, 0, 0], state }
  | 0x2 => { payload := toBytes 4 0#32, state }
  | 0x3 => { payload := fixedString "QBox", state }
  | 0x4 => { payload := fixedString "RD-Aspen", state }
  | 0x5 => { payload := toBytes 4 1#32, state }
  | 0x6 =>
      let protocols := config.scmiSupportedProtocols
      { payload := toBytes 4 (BitVec.ofNat 32 protocols.length) ++ protocols ++
          List.replicate ((4 - protocols.length % 4) % 4) 0
        state }
  | 0x7 => { payload := toBytes 4 0#32 ++ fixedString "platform", state }
  | 0x8 => { state }
  | _ => { status := scmiErrSupport, state }

def respondScmiPowerDomain (now : Nat) (header : BitVec 32) (request : List Byte)
    (state : ScmiState) : ScmiResponse :=
  match msgId header with
  | 0x0 => { payload := toBytes 4 config.powerDomainVersion, state }
  | 0x2 =>
      let known := readLe32 request 0 == 0x4 || readLe32 request 0 == 0x5
      { status := if known then scmiSuccess else scmiErrSupport
        payload := toBytes 4 0#32
        state }
  | 0x3 =>
      { payload := toBytes 4 config.powerDomainAttributes ++
          fixedParamString config.powerDomainName
        state }
  | 0x4 =>
      { state :=
          { state with
            power := state.power.applyPowerDomainState config.toPowerConfig now
              (readLe32 request 4) (readLe32 request 8) } }
  | 0x5 => { payload := toBytes 4 (state.power.readPowerDomainState (readLe32 request 0)), state }
  | _ => { status := scmiErrSupport, state }

def respondScmiSysPower (now : Nat) (header : BitVec 32) (request : List Byte)
    (state : ScmiState) : ScmiResponse :=
  match msgId header with
  | 0x0 => { payload := toBytes 4 config.sysPowerVersion, state }
  | 0x2 =>
      let known := readLe32 request 0 == 0x3 || readLe32 request 0 == 0x5
      { status := if known then scmiSuccess else scmiErrSupport
        payload := toBytes 4 0#32
        state }
  | 0x3 =>
      { state :=
          { state with
            power := state.power.scheduleSystemPowerReset config.toPowerConfig now
              (readLe32 request 4) } }
  | 0x5 => { state }
  | _ => { status := scmiErrSupport, state }

end ScmiConfig

def oppLevel (index : Nat) : BitVec 32 :=
  match index with
  | 0 => 1000
  | 1 => 1500
  | _ => 2000

def oppPower (index : Nat) : BitVec 32 :=
  match index with
  | 0 => 100
  | 1 => 200
  | _ => 300

/-- One operating point of `SCMI_PERF_DESCRIBE_LEVELS`. -/
def oppBytes (index : Nat) : List Byte :=
  toBytes 4 (oppLevel index) ++ toBytes 4 (oppPower index) ++ toBytes 2 1000#16 ++
    toBytes 2 0#16 ++ toBytes 4 (oppLevel index * 1000) ++ toBytes 4 (BitVec.ofNat 32 index)

/-- `SCMI_PERF_DOMAIN_SUPPORTS_*`: set limits, set level and both notifications. -/
def perfDomainFlags : BitVec 32 := 0xf0000000

/-- The messages that name a performance domain: a response for a valid one, an error
for any other. -/
def forPerformanceDomain (request : List Byte) (state : ScmiState)
    (respond : Nat → ScmiResponse) : ScmiResponse :=
  let domain := (readLe32 request 0).toNat
  if domain < scmiPerfDomainCount then respond domain
  else { status := scmiErrParam, state }

def respondScmiPerformance (header : BitVec 32) (request : List Byte) (state : ScmiState) :
    ScmiResponse :=
  match msgId header with
  | 0x0 => { payload := toBytes 4 scmiPerformanceVersion, state }
  | 0x1 =>
      { payload := toBytes 2 (BitVec.ofNat 16 scmiPerfDomainCount) ++ toBytes 2 0#16 ++
          toBytes 4 0#32 ++ toBytes 4 0#32 ++ toBytes 4 0#32
        state }
  | 0x2 =>
      let known := (readLe32 request 0).toNat ≤ 0xa
      { status := if known then scmiSuccess else scmiErrSupport
        payload := toBytes 4 0#32
        state }
  | 0x3 =>
      forPerformanceDomain request state fun domain =>
        { payload := toBytes 4 perfDomainFlags ++ toBytes 4 0#32 ++
            toBytes 4 scmiPerfSustainedFreqKhz ++ toBytes 4 scmiPerfMaxLevel ++
            fixedString ("APCPU" ++ toString domain)
          state }
  | 0x4 =>
      forPerformanceDomain request state fun _ =>
        let skip := (readLe32 request 4).toNat
        { payload := toBytes 2 (BitVec.ofNat 16 (scmiPerfOppCount - skip)) ++ toBytes 2 0#16 ++
            (List.range' skip (scmiPerfOppCount - skip)).flatMap oppBytes
          state }
  | 0x5 => forPerformanceDomain request state fun _ => { state }
  | 0x6 =>
      forPerformanceDomain request state fun _ =>
        { payload := toBytes 4 scmiPerfMaxLevel ++ toBytes 4 scmiPerfMinLevel, state }
  | 0x7 =>
      forPerformanceDomain request state fun domain =>
        let level := readLe32 request 4
        { state :=
            { state with
              performanceLevels := Function.update state.performanceLevels domain
                (if level ≠ 0 then level else scmiPerfMaxLevel) } }
  | 0x8 =>
      forPerformanceDomain request state fun domain =>
        let level := state.performanceLevels domain
        { payload := toBytes 4 (if level ≠ 0 then level else scmiPerfMaxLevel), state }
  | 0x9 => forPerformanceDomain request state fun _ => { state }
  | 0xa => forPerformanceDomain request state fun _ => { state }
  | _ => { status := scmiErrSupport, state }

def respondScmiPfdiMonitor (header : BitVec 32) (state : ScmiState) : ScmiResponse :=
  match msgId header with
  | 0x0 => { payload := toBytes 4 scmiPfdiMonitorVersion, state }
  | 0x3 => { state }
  | 0x4 => { state }
  | _ => { status := scmiErrSupport, state }

/-- The switch of `respond_scmi` over the protocols. -/
def ScmiConfig.dispatchScmi (config : ScmiConfig) (now : Nat) (header : BitVec 32)
    (request : List Byte) (state : ScmiState) : ScmiResponse :=
  if protocolId header = scmiProtocolBase then config.respondScmiBase header state
  else if protocolId header = scmiProtocolPowerDomain then
    config.respondScmiPowerDomain now header request state
  else if protocolId header = scmiProtocolSysPower then
    config.respondScmiSysPower now header request state
  else if protocolId header = scmiProtocolPerformance then
    respondScmiPerformance header request state
  else if protocolId header = scmiProtocolPfdiMonitor then
    if config.transport = .pfdiMonitor then respondScmiPfdiMonitor header state
    else { status := scmiErrSupport, state }
  else { status := scmiErrSupport, state }

/-- After a `POWER_STATE_GET` a pending reset is asked for at once. -/
def rescheduleAfterStateGet (now : Nat) (header : BitVec 32) (state : ScmiState) : ScmiState :=
  if protocolId header = scmiProtocolPowerDomain ∧ msgId header = 0x5 ∧
      state.power.pendingPowerDomainResetValid = true then
    { state with
      power :=
        { state.power with
          powerDomainResetEvent := state.power.powerDomainResetEvent.notify now } }
  else state

section SharedMemory

variable {Memory : Type u}

/-- A word read into a zeroed variable; a failed access leaves what the target put there. -/
def memRead (width : Nat) (bus : Bus Memory) (memory : Memory) (address : BitVec 64) :
    BitVec width × Memory :=
  let (_, data, memory) := bus.read memory address (List.replicate (width / 8) 0)
  (ofBytes width data, memory)

def memWrite (bus : Bus Memory) (memory : Memory) (address : BitVec 64) (data : List Byte) :
    Memory :=
  (bus.write memory address data).2

def memWrite32 (bus : Bus Memory) (memory : Memory) (address : BitVec 64) (value : BitVec 32) :
    Memory :=
  memWrite bus memory address (toBytes 4 value)

def memWrite16 (bus : Bus Memory) (memory : Memory) (address : BitVec 64) (value : BitVec 16) :
    Memory :=
  memWrite bus memory address (toBytes 2 value)

namespace ScmiConfig

variable (config : ScmiConfig)

def readScmiRequestPayload (bus : Bus Memory) (memory : Memory) (channel : Nat)
    (length : BitVec 32) : List Byte × Memory :=
  if length.toNat ≤ 4 then ([], memory)
  else
    let (_, payload, memory) :=
      bus.read memory (config.scmiShmem channel + scmiPayload)
        (List.replicate (length.toNat - 4) 0)
    (payload, memory)

def writeScmiResponse (bus : Bus Memory) (memory : Memory) (channel : Nat)
    (header status : BitVec 32) (payload : List Byte) : Memory :=
  let shmem := config.scmiShmem channel
  let memory := memWrite32 bus memory (shmem + scmiLength) (BitVec.ofNat 32 (8 + payload.length))
  let memory := memWrite32 bus memory (shmem + scmiHeader) header
  let memory := memWrite32 bus memory (shmem + scmiPayload) status
  let memory :=
    if payload = [] then memory else memWrite bus memory (shmem + scmiPayload + 4) payload
  memWrite32 bus memory (shmem + scmiChanStatus) scmiChanFree

/-- `respond_scmi`, without the acknowledgement on the paired mailbox. -/
def respondScmi (bus : Bus Memory) (now channel : Nat) (memory : Memory) (state : ScmiState) :
    Memory × ScmiState :=
  let shmem := config.scmiShmem channel
  let (length, memory) := memRead 32 bus memory (shmem + scmiLength)
  let (header, memory) := memRead 32 bus memory (shmem + scmiHeader)
  let (request, memory) := config.readScmiRequestPayload bus memory channel length
  let response := config.dispatchScmi now header request state
  let memory :=
    config.writeScmiResponse bus memory channel header response.status response.payload
  (memory, rescheduleAfterStateGet now header response.state)

end ScmiConfig

end SharedMemory

end QboxPlatform.Mhu
