import QboxPlatform.Foundation.Bus

/-!
# PSA requests on the wire

`parse_rse_ps_request` and the readers under it.  A request is either embedded
(the input vectors follow the header) or by pointer access (the header names
guest addresses, and the parser fetches the inputs over the bus).
-/

namespace QboxPlatform.Mhu.Psa

open Foundation

universe u

def rseCommsProtocolEmbed : Byte := 0
def rseCommsProtocolPointerAccess : Byte := 1
def psaMaxIovec : Nat := 4

attribute [simp] psaMaxIovec

/-- The status words a PSA reply carries. -/
inductive PsaStatus
  | success
  | notSupported
  | invalidArgument
  | doesNotExist
  | communicationFailure
  deriving DecidableEq, Repr

/-- `PSA_SUCCESS` and the `PSA_ERROR_*` constants, as `int32_t`. -/
def PsaStatus.code : PsaStatus → BitVec 32
  | .success => 0
  | .notSupported => BitVec.ofInt 32 (-134)
  | .invalidArgument => BitVec.ofInt 32 (-135)
  | .doesNotExist => BitVec.ofInt 32 (-140)
  | .communicationFailure => BitVec.ofInt 32 (-145)

@[simp]
theorem PsaStatus.code_eq_zero {status : PsaStatus} :
    status.code = 0 ↔ status = .success := by
  cases status <;> decide

/-- A little-endian word at an offset; zero when the string is too short. -/
def readLe (width : Nat) (input : List Byte) (offset : Nat) : BitVec width :=
  if input.length < offset + width / 8 then 0
  else ofBytes width ((input.drop offset).take (width / 8))

def readLe16 (input : List Byte) (offset : Nat) : BitVec 16 := readLe 16 input offset
def readLe32 (input : List Byte) (offset : Nat) : BitVec 32 := readLe 32 input offset
def readLe64 (input : List Byte) (offset : Nat) : BitVec 64 := readLe 64 input offset

def rseCtrlType (ctrl : BitVec 32) : BitVec 32 := ctrl &&& 0xffff
def rseCtrlOutLen (ctrl : BitVec 32) : Nat := ((ctrl >>> 16) &&& 0x7).toNat
def rseCtrlInLen (ctrl : BitVec 32) : Nat := ((ctrl >>> 24) &&& 0x7).toNat

/-- `rse_ps_request`; the array fields are read below `psaMaxIovec` only. -/
structure RsePsRequest where
  protocol : Byte := rseCommsProtocolEmbed
  seq : Byte := 0#8
  clientId : BitVec 16 := 0#16
  handle : BitVec 32 := 0#32
  ctrl : BitVec 32 := 0#32
  type : BitVec 32 := 0#32
  inLen : Nat := 0
  outLen : Nat := 0
  inputs : Nat → List Byte := fun _ => []
  outCaps : Nat → BitVec 32 := fun _ => 0#32
  outPtrs : Nat → BitVec 64 := fun _ => 0#64

/-- The header fields both wire formats share: handle, control word and what the
control word packs. -/
def RsePsRequest.withHeader (out : RsePsRequest) (request : List Byte) : RsePsRequest :=
  let ctrl := readLe32 request 8
  { out with
    handle := readLe32 request 4
    ctrl := ctrl
    type := rseCtrlType ctrl
    inLen := rseCtrlInLen ctrl
    outLen := rseCtrlOutLen ctrl }

/-- The iovec counts the parsers accept. -/
def RsePsRequest.CountsFit (out : RsePsRequest) : Prop :=
  out.inLen ≤ psaMaxIovec ∧ out.outLen ≤ psaMaxIovec ∧ out.inLen + out.outLen ≤ psaMaxIovec

instance (out : RsePsRequest) : Decidable out.CountsFit :=
  inferInstanceAs (Decidable (_ ∧ _ ∧ _))

/-- Attach the vectors: the output capacities follow the input sizes in the size
table.  The embedded format has no output pointers and passes the defaults. -/
def RsePsRequest.withVectors (out : RsePsRequest) (inputs : Nat → List Byte)
    (ioSizes : Nat → BitVec 32) (ptrs : Nat → BitVec 64) : RsePsRequest :=
  { out with
    inputs := inputs
    outCaps := fun index =>
      if index < out.outLen then ioSizes (out.inLen + index) else out.outCaps index
    outPtrs := fun index => if index < out.outLen then ptrs index else out.outPtrs index }

/-- The loop that cuts the embedded inputs out of the request: `remaining`
iterations from iovec `index` and byte `offset` on. -/
def takeEmbeddedInputs (request : List Byte) (ioSizes : Nat → BitVec 32) :
    (remaining index offset : Nat) → (Nat → List Byte) → Option (Nat → List Byte)
  | 0, _, _, inputs => some inputs
  | remaining + 1, index, offset, inputs =>
      let size := (ioSizes index).toNat
      if request.length < offset + size then
        none
      else
        takeEmbeddedInputs request ioSizes remaining (index + 1) (offset + size)
          (Function.update inputs index ((request.drop offset).take size))

def embedIoSizes (request : List Byte) (index : Nat) : BitVec 32 :=
  (readLe16 request (12 + 2 * index)).setWidth 32

def parseRsePsEmbedRequest (request : List Byte) (out : RsePsRequest) :
    Except PsaStatus RsePsRequest :=
  if request.length < 4 + 4 * 2 + 2 * psaMaxIovec then
    .error .invalidArgument
  else
    let out := out.withHeader request
    if ¬ out.CountsFit then
      .error .invalidArgument
    else
      let ioSizes := embedIoSizes request
      match takeEmbeddedInputs request ioSizes out.inLen 0 20 out.inputs with
      | none => .error .invalidArgument
      | some inputs => .ok (out.withVectors inputs ioSizes out.outPtrs)

section PointerAccess

variable {Memory : Type u}

/-- `mem_read_bytes` into a zeroed buffer: an empty one is not transferred. -/
def memReadBytes (bus : Bus Memory) (memory : Memory) (address : BitVec 64) (count : Nat) :
    Bool × List Byte × Memory :=
  if count = 0 then (true, [], memory)
  else bus.read memory address (List.replicate count 0)

def memWriteBytes (bus : Bus Memory) (memory : Memory) (address : BitVec 64)
    (data : List Byte) : Bool × Memory :=
  if data = [] then (true, memory) else bus.write memory address data

/-- The loop that fetches the inputs of a pointer-access request. -/
def fetchInputs (bus : Bus Memory) (ioSizes : Nat → BitVec 32) (hostPtrs : Nat → BitVec 64) :
    (remaining index : Nat) → (Nat → List Byte) → Memory →
      Option (Nat → List Byte) × Memory
  | 0, _, inputs, memory => (some inputs, memory)
  | remaining + 1, index, inputs, memory =>
      match memReadBytes bus memory (hostPtrs index) (ioSizes index).toNat with
      | (false, _, memory) => (none, memory)
      | (true, data, memory) =>
          fetchInputs bus ioSizes hostPtrs remaining (index + 1)
            (Function.update inputs index data) memory

def pointerIoSizes (request : List Byte) (index : Nat) : BitVec 32 :=
  readLe32 request (12 + 4 * index)

def pointerHostPtrs (request : List Byte) (index : Nat) : BitVec 64 :=
  readLe64 request (28 + 8 * index)

def parseRsePsPointerRequest (bus : Bus Memory) (request : List Byte) (out : RsePsRequest)
    (memory : Memory) : Except PsaStatus RsePsRequest × Memory :=
  if request.length < 4 + 4 * 2 + 4 * psaMaxIovec + 8 * psaMaxIovec then
    (.error .invalidArgument, memory)
  else
    let out := out.withHeader request
    if ¬ out.CountsFit then
      (.error .invalidArgument, memory)
    else
      let ioSizes := pointerIoSizes request
      let hostPtrs := pointerHostPtrs request
      match fetchInputs bus ioSizes hostPtrs out.inLen 0 out.inputs memory with
      | (none, memory) => (.error .communicationFailure, memory)
      | (some inputs, memory) =>
          (.ok (out.withVectors inputs ioSizes fun index => hostPtrs (out.inLen + index)), memory)

/-- The four bytes every request starts with: protocol, sequence number, client. -/
def requestHeader (request : List Byte) : RsePsRequest :=
  { protocol := request.getD 0 0
    seq := request.getD 1 0
    clientId := (request.getD 2 0).setWidth 16 ||| ((request.getD 3 0).setWidth 16 <<< 8) }

def parseRsePsRequest (bus : Bus Memory) (request : List Byte) (memory : Memory) :
    Except PsaStatus RsePsRequest × Memory :=
  if request.length < 4 then
    (.error .invalidArgument, memory)
  else
    let out := requestHeader request
    if out.protocol = rseCommsProtocolEmbed then
      (parseRsePsEmbedRequest request out, memory)
    else if out.protocol = rseCommsProtocolPointerAccess then
      parseRsePsPointerRequest bus request out memory
    else
      (.error .notSupported, memory)

end PointerAccess

end QboxPlatform.Mhu.Psa
