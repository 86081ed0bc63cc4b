import QboxPlatform.Mhu.Psa.Request

/-!
# The PSA services behind the doorbell

Protected storage, measured boot and firmware update: `handle_rse_ps_request`
and the handlers it dispatches to, and `build_rse_ps_reply`, which parses a
request, runs the handler, writes pointer-access outputs back and frames the
reply.
-/

namespace QboxPlatform.Mhu.Psa

open Foundation

universe u

def tfmProtectedStorageServiceHandle : BitVec 32 := 0x40000101
def tfmPsSet : BitVec 32 := 1001
def tfmPsGet : BitVec 32 := 1002
def tfmPsGetInfo : BitVec 32 := 1003
def tfmPsRemove : BitVec 32 := 1004
def tfmPsGetSupport : BitVec 32 := 1005
def tfmMeasuredBootHandle : BitVec 32 := 0x40000110
def tfmMeasuredBootRead : BitVec 32 := 1001
def tfmMeasuredBootExtend : BitVec 32 := 1002
def tfmFirmwareUpdateServiceHandle : BitVec 32 := 0x40000104
def tfmFwuQuery : BitVec 32 := 1010
def tfmFwuComponentCount : Nat := 5
def psaFwuComponentInfoSize : Nat := 44
def psaFwuReady : BitVec 32 := 0
def psaFwuFlagVolatileStaging : BitVec 32 := 1
def esrtFwTypeSystemfirmware : BitVec 32 := 1
def tfmMeasurementSlotCount : Nat := 32
def tfmMeasurementValueMaxSize : Nat := 64
def tfmSignerIdMaxSize : Nat := 64
def tfmVersionMaxSize : Nat := 14
def tfmSwTypeMaxSize : Nat := 32

attribute [simp] tfmFwuComponentCount psaFwuComponentInfoSize tfmMeasurementSlotCount
  tfmMeasurementValueMaxSize tfmSignerIdMaxSize tfmVersionMaxSize tfmSwTypeMaxSize

/-- `ps_entry`. -/
structure PsEntry where
  data : List Byte
  flags : BitVec 32
  deriving DecidableEq

/-- At most `maxSize` bytes of the input from an offset on. -/
def boundedBytes (input : List Byte) (offset size maxSize : Nat) : List Byte :=
  if input.length ≤ offset then []
  else (input.drop offset).take (min (min size maxSize) (input.length - offset))

theorem length_boundedBytes_le (input : List Byte) (offset size maxSize : Nat) :
    (boundedBytes input offset size maxSize).length ≤ maxSize := by
  unfold boundedBytes
  split
  · simp
  · rw [List.length_take]
    omega

/-- `measurement_entry`, with the bounds that keep its fields inside the metadata
record a read packs them into. -/
structure MeasurementEntry where
  valid : Bool := false
  locked : Bool := false
  algorithm : BitVec 32 := 0#32
  swType : List Byte := []
  version : List Byte := []
  signerId : List Byte := []
  measurement : List Byte := []
  swType_le : swType.length ≤ tfmSwTypeMaxSize := by simp
  version_le : version.length ≤ tfmVersionMaxSize := by simp
  signerId_le : signerId.length ≤ tfmSignerIdMaxSize := by simp
  measurement_le : measurement.length ≤ tfmMeasurementValueMaxSize := by simp

/-- `m_ps_store`. -/
abbrev PsStore := AList fun _ : BitVec 64 => PsEntry

/-- What outlives a request: the storage map and the measurement slots. -/
structure Services where
  psStore : PsStore := ∅
  measurements : Nat → MeasurementEntry := fun _ => {}

/-- The output vectors a handler fills in, and the sizes the reply declares. -/
structure PsOutputs where
  data : Nat → List Byte := fun _ => []
  sizes : Nat → BitVec 32 := fun _ => 0#32

/-- What a handler hands back. -/
structure HandlerResult where
  status : PsaStatus
  outputs : PsOutputs
  services : Services

/-- Fill in one output vector and its declared size. -/
def PsOutputs.put (outputs : PsOutputs) (index : Nat) (value : List Byte) : PsOutputs where
  data := Function.update outputs.data index value
  sizes := Function.update outputs.sizes index (BitVec.ofNat 32 value.length)

def setPsOutput (request : RsePsRequest) (outputs : PsOutputs) (index : Nat)
    (value : List Byte) : PsaStatus × PsOutputs :=
  if request.outLen ≤ index ∨ psaMaxIovec ≤ index then
    (.invalidArgument, outputs)
  else if (request.outCaps index).toNat < value.length then
    (.invalidArgument, outputs)
  else
    (.success, outputs.put index value)

/-- Overwrite a record in place.  Past its end the result would be longer than the
record, as the write would leave the array. -/
def spliceAt (record : List Byte) (offset : Nat) (bytes : List Byte) : List Byte :=
  record.take offset ++ bytes ++ record.drop (offset + bytes.length)

/-- `append_at_u32`: a word past the end of the record is dropped. -/
def appendAtU32 (record : List Byte) (offset : Nat) (value : BitVec 32) : List Byte :=
  if record.length < offset + 4 then record else spliceAt record offset (toBytes 4 value)

def fwuComponentMaxSize (component : Nat) : BitVec 32 :=
  match component with
  | 0 => 0x00020000
  | 1 => 0x00040000
  | 2 => 0x00100000
  | 3 => 0x00240000
  | 4 => 0x00100000
  | _ => 0

def fwuComponentLocation (component : Nat) : BitVec 32 :=
  match component with
  | 0 => 0x00007000
  | 1 => 0x00027000
  | 2 => 0x00067000
  | 3 => 0x00007000
  | 4 => 0x00167000
  | _ => 0

def fwuComponentInfo (component : Nat) : List Byte :=
  let info := List.replicate psaFwuComponentInfoSize (0 : Byte)
  let info := spliceAt info 0 [byteOf psaFwuReady 0]
  let info := spliceAt info 8 [1]
  let info := appendAtU32 info 16 (fwuComponentMaxSize component)
  let info := appendAtU32 info 20 psaFwuFlagVolatileStaging
  let info := appendAtU32 info 24 (fwuComponentLocation component)
  let info := appendAtU32 info 28 esrtFwTypeSystemfirmware
  appendAtU32 info 32 0x01000000

def handleRseFwuRequest (request : RsePsRequest) (outputs : PsOutputs) (services : Services) :
    HandlerResult :=
  if request.type ≠ tfmFwuQuery then
    ⟨.notSupported, outputs, services⟩
  else if request.inLen < 1 ∨ request.outLen < 1 ∨ request.inputs 0 = [] then
    ⟨.invalidArgument, outputs, services⟩
  else
    let component := ((request.inputs 0).getD 0 0).toNat
    if tfmFwuComponentCount ≤ component then
      ⟨.doesNotExist, outputs, services⟩
    else
      let (status, outputs) := setPsOutput request outputs 0 (fwuComponentInfo component)
      ⟨status, outputs, services⟩

/-- The entry an accepted `TFM_MEASURED_BOOT_EXTEND` stores. -/
def extendedEntry (request : RsePsRequest) : MeasurementEntry where
  valid := true
  locked := (request.inputs 0).getD 1 0 != 0
  algorithm := readLe32 (request.inputs 0) 4
  swType := boundedBytes (request.inputs 0) 8 ((request.inputs 0).getD 40 0).toNat
    tfmSwTypeMaxSize
  signerId := boundedBytes (request.inputs 1) 0 (request.inputs 1).length tfmSignerIdMaxSize
  version := boundedBytes (request.inputs 2) 0 (request.inputs 2).length tfmVersionMaxSize
  measurement := boundedBytes (request.inputs 3) 0 (request.inputs 3).length
    tfmMeasurementValueMaxSize
  swType_le := length_boundedBytes_le _ _ _ _
  signerId_le := length_boundedBytes_le _ _ _ _
  version_le := length_boundedBytes_le _ _ _ _
  measurement_le := length_boundedBytes_le _ _ _ _

/-- The 56-byte metadata record of a slot. -/
def measurementMetadata (entry : MeasurementEntry) : List Byte :=
  let metadata := List.replicate 56 (0 : Byte)
  let metadata := spliceAt metadata 0 [if entry.locked then 1 else 0]
  let metadata := spliceAt metadata 4 (toBytes 4 entry.algorithm)
  let metadata := spliceAt metadata 8 entry.swType
  let metadata := spliceAt metadata 40 [BitVec.ofNat 8 entry.swType.length]
  let metadata := spliceAt metadata 41 entry.version
  spliceAt metadata 55 [BitVec.ofNat 8 entry.version.length]

/-- A splice that fits leaves the record's length alone. -/
theorem length_spliceAt {record : List Byte} {offset size : Nat} {bytes : List Byte}
    (sized : record.length = size) (fits : offset + bytes.length ≤ size) :
    (spliceAt record offset bytes).length = size := by
  simp [spliceAt]
  omega

/-- No write of the packing leaves the record. -/
@[simp]
theorem length_measurementMetadata (entry : MeasurementEntry) :
    (measurementMetadata entry).length = 56 := by
  have swType := entry.swType_le
  have version := entry.version_le
  simp only [tfmSwTypeMaxSize, tfmVersionMaxSize] at swType version
  unfold measurementMetadata
  repeat' apply length_spliceAt
  · exact List.length_replicate
  · simp
  · simp
  · omega
  · simp
  · omega
  · simp

/-- The outputs of `TFM_MEASURED_BOOT_READ`: metadata, then measurement and signer
if the caller gave room for them. -/
def readMeasurement (request : RsePsRequest) (outputs : PsOutputs)
    (entry : MeasurementEntry) : PsaStatus × PsOutputs :=
  let (status, outputs) := setPsOutput request outputs 0 (measurementMetadata entry)
  if status ≠ .success ∨ request.outLen < 2 then
    (status, outputs)
  else
    let (status, outputs) := setPsOutput request outputs 1 entry.measurement
    if status ≠ .success ∨ request.outLen < 3 then
      (status, outputs)
    else
      setPsOutput request outputs 2 entry.signerId

/-- The slot a measured-boot request names. -/
def measurementSlot (request : RsePsRequest) : Nat :=
  ((request.inputs 0).getD 0 0).toNat

/-- `case TFM_MEASURED_BOOT_EXTEND`. -/
def measuredBootExtend (request : RsePsRequest) (outputs : PsOutputs) (services : Services) :
    HandlerResult :=
  if request.inLen < 4 ∨ (request.inputs 0).length < 41 then
    ⟨.invalidArgument, outputs, services⟩
  else if tfmMeasurementSlotCount ≤ measurementSlot request then
    ⟨.invalidArgument, outputs, services⟩
  else
    ⟨.success, outputs,
      { services with
        measurements := Function.update services.measurements (measurementSlot request)
          (extendedEntry request) }⟩

/-- `case TFM_MEASURED_BOOT_READ`. -/
def measuredBootRead (request : RsePsRequest) (outputs : PsOutputs) (services : Services) :
    HandlerResult :=
  if request.inLen < 1 ∨ request.outLen < 1 ∨ request.inputs 0 = [] then
    ⟨.invalidArgument, outputs, services⟩
  else if tfmMeasurementSlotCount ≤ measurementSlot request ∨
      (services.measurements (measurementSlot request)).valid = false then
    ⟨.doesNotExist, outputs, services⟩
  else
    let (status, outputs) :=
      readMeasurement request outputs (services.measurements (measurementSlot request))
    ⟨status, outputs, services⟩

def handleRseMeasuredBootRequest (request : RsePsRequest) (outputs : PsOutputs)
    (services : Services) : HandlerResult :=
  if request.type = tfmMeasuredBootExtend then measuredBootExtend request outputs services
  else if request.type = tfmMeasuredBootRead then measuredBootRead request outputs services
  else ⟨.notSupported, outputs, services⟩

/-- `case TFM_PS_SET`. -/
def psSet (request : RsePsRequest) (outputs : PsOutputs) (services : Services) : HandlerResult :=
  if request.inLen < 3 ∨ (request.inputs 0).length < 8 ∨ (request.inputs 2).length < 4 then
    ⟨.invalidArgument, outputs, services⟩
  else
    ⟨.success, outputs,
      { services with
        psStore := services.psStore.insert (readLe64 (request.inputs 0) 0)
          { data := request.inputs 1, flags := readLe32 (request.inputs 2) 0 } }⟩

/-- `case TFM_PS_GET`. -/
def psGet (request : RsePsRequest) (outputs : PsOutputs) (services : Services) : HandlerResult :=
  if request.inLen < 2 ∨ request.outLen < 1 ∨ (request.inputs 0).length < 8 ∨
      (request.inputs 1).length < 4 then
    ⟨.invalidArgument, outputs, services⟩
  else
    let offset := (readLe32 (request.inputs 1) 0).toNat
    match services.psStore.lookup (readLe64 (request.inputs 0) 0) with
    | none => ⟨.doesNotExist, outputs, services⟩
    | some entry =>
        if entry.data.length < offset then
          ⟨.invalidArgument, outputs, services⟩
        else
          let copyLen := min (entry.data.length - offset) (request.outCaps 0).toNat
          let (status, outputs) :=
            setPsOutput request outputs 0 ((entry.data.drop offset).take copyLen)
          ⟨status, outputs, services⟩

/-- The twelve bytes `TFM_PS_GET_INFO` reports: capacity, size and create flags. -/
def psInfo (entry : PsEntry) : List Byte :=
  let size := BitVec.ofNat 32 entry.data.length
  toBytes 4 size ++ toBytes 4 size ++ toBytes 4 entry.flags

/-- `case TFM_PS_GET_INFO`. -/
def psGetInfo (request : RsePsRequest) (outputs : PsOutputs) (services : Services) :
    HandlerResult :=
  if request.inLen < 1 ∨ request.outLen < 1 ∨ (request.inputs 0).length < 8 then
    ⟨.invalidArgument, outputs, services⟩
  else
    match services.psStore.lookup (readLe64 (request.inputs 0) 0) with
    | none => ⟨.doesNotExist, outputs, services⟩
    | some entry =>
        let (status, outputs) := setPsOutput request outputs 0 (psInfo entry)
        ⟨status, outputs, services⟩

/-- `case TFM_PS_REMOVE`. -/
def psRemove (request : RsePsRequest) (outputs : PsOutputs) (services : Services) :
    HandlerResult :=
  if request.inLen < 1 ∨ (request.inputs 0).length < 8 then
    ⟨.invalidArgument, outputs, services⟩
  else if services.psStore.lookup (readLe64 (request.inputs 0) 0) = none then
    ⟨.doesNotExist, outputs, services⟩
  else
    ⟨.success, outputs,
      { services with psStore := services.psStore.erase (readLe64 (request.inputs 0) 0) }⟩

/-- `case TFM_PS_GET_SUPPORT`. -/
def psGetSupport (request : RsePsRequest) (outputs : PsOutputs) (services : Services) :
    HandlerResult :=
  if request.outLen < 1 then
    ⟨.invalidArgument, outputs, services⟩
  else
    let (status, outputs) := setPsOutput request outputs 0 (toBytes 4 0#32)
    ⟨status, outputs, services⟩

/-- The switch over the protected-storage message types. -/
def handleProtectedStorage (request : RsePsRequest) (outputs : PsOutputs)
    (services : Services) : HandlerResult :=
  if request.type = tfmPsSet then psSet request outputs services
  else if request.type = tfmPsGet then psGet request outputs services
  else if request.type = tfmPsGetInfo then psGetInfo request outputs services
  else if request.type = tfmPsRemove then psRemove request outputs services
  else if request.type = tfmPsGetSupport then psGetSupport request outputs services
  else ⟨.notSupported, outputs, services⟩

def handleRsePsRequest (request : RsePsRequest) (outputs : PsOutputs) (services : Services) :
    HandlerResult :=
  if request.handle = tfmMeasuredBootHandle then
    handleRseMeasuredBootRequest request outputs services
  else if request.handle = tfmFirmwareUpdateServiceHandle then
    handleRseFwuRequest request outputs services
  else if request.handle ≠ tfmProtectedStorageServiceHandle then
    ⟨.notSupported, outputs, services⟩
  else
    handleProtectedStorage request outputs services

section Reply

variable {Memory : Type u}

/-- The write-back loop of a pointer-access reply; it stops at the first output
the bus refuses. -/
def writeBack (bus : Bus Memory) (ptrs : Nat → BitVec 64) (data : Nat → List Byte) :
    (remaining index : Nat) → Memory → Bool × Memory
  | 0, _, memory => (true, memory)
  | remaining + 1, index, memory =>
      match memWriteBytes bus memory (ptrs index) (data index) with
      | (false, memory) => (false, memory)
      | (true, memory) => writeBack bus ptrs data remaining (index + 1) memory

/-- The bytes of a reply.  Pointer-access replies carry 32-bit sizes only;
embedded ones carry 16-bit sizes and, on success, the outputs themselves. -/
def frameReply (parsed : RsePsRequest) (status : PsaStatus) (outputs : PsOutputs) : List Byte :=
  let header := [parsed.protocol, parsed.seq] ++ toBytes 2 parsed.clientId ++
    toBytes 4 status.code
  if parsed.protocol = rseCommsProtocolPointerAccess then
    header ++ (List.range psaMaxIovec).flatMap fun index => toBytes 4 (outputs.sizes index)
  else
    header ++
      ((List.range psaMaxIovec).flatMap fun index =>
        toBytes 2 ((outputs.sizes index).setWidth 16)) ++
      if status = .success then (List.range parsed.outLen).flatMap outputs.data else []

/-- What `build_rse_ps_reply` keeps of a request it could not parse: the header if
there is one, the defaults otherwise. -/
def unparsedHeader (request : List Byte) : RsePsRequest :=
  if 4 ≤ request.length then requestHeader request else {}

def buildRsePsReply (bus : Bus Memory) (request : List Byte) (services : Services)
    (memory : Memory) : List Byte × Services × Memory :=
  match parseRsePsRequest bus request memory with
  | (.error status, memory) =>
      (frameReply (unparsedHeader request) status {}, services, memory)
  | (.ok parsed, memory) =>
      let result := handleRsePsRequest parsed {} services
      if result.status = .success ∧ parsed.protocol = rseCommsProtocolPointerAccess then
        let (delivered, memory) :=
          writeBack bus parsed.outPtrs result.outputs.data parsed.outLen 0 memory
        if delivered then
          (frameReply parsed result.status result.outputs, result.services, memory)
        else
          (frameReply parsed .communicationFailure
            { result.outputs with sizes := fun _ => 0#32 }, result.services, memory)
      else
        (frameReply parsed result.status result.outputs, result.services, memory)

end Reply

end QboxPlatform.Mhu.Psa
