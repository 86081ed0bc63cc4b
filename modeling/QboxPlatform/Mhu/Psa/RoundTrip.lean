import QboxPlatform.Mhu.Psa.CheckedParse
import QboxPlatform.Mhu.Psa.Framing
import QboxPlatform.Mhu.Psa.Wire

/-!
# Requests there and back

The two wire formats as a client writes them: a head that packs the counts into the control word,
a table of sizes that the inputs and the outputs share, and the inputs or their addresses.  The
parser recovers what was written, and it refuses what declares more than there is.
-/

namespace QboxPlatform.Mhu.Psa

open Foundation

universe u

/-- The type, the output count and the input count, packed into a control word. -/
def controlWord (type : BitVec 16) (inLen outLen : Nat) : BitVec 32 :=
  BitVec.ofNat 32 (type.toNat + 2 ^ 16 * outLen + 2 ^ 24 * inLen)

/-- What both formats start with. -/
structure RequestHead where
  seq : Byte
  clientId : BitVec 16
  handle : BitVec 32
  type : BitVec 16

def RequestHead.encode (head : RequestHead) (protocol : Byte) (inLen outLen : Nat) : List Byte :=
  [protocol, head.seq] ++ (toBytes 2 head.clientId ++
    (toBytes 4 head.handle ++ toBytes 4 (controlWord head.type inLen outLen)))

/-- A request that carries its inputs. -/
structure EmbedRequest where
  head : RequestHead
  inputs : List (List Byte)
  outCaps : List (BitVec 16)
  fits : inputs.length + outCaps.length ≤ psaMaxIovec
  short : ∀ input ∈ inputs, input.length < 2 ^ 16

/-- The address and the size of a vector in guest memory. -/
structure HostVector where
  pointer : BitVec 64
  size : BitVec 32

/-- A request that names its inputs and outputs in guest memory. -/
structure PointerRequest where
  head : RequestHead
  inputs : List HostVector
  outputs : List HostVector
  fits : inputs.length + outputs.length ≤ psaMaxIovec

namespace EmbedRequest

/-- The entries of the size table; those past the vectors are zero. -/
def sizes (request : EmbedRequest) (index : Nat) : BitVec 16 :=
  (request.inputs.map (fun input => BitVec.ofNat 16 input.length) ++ request.outCaps).getD index 0

def encode (request : EmbedRequest) : List Byte :=
  request.head.encode rseCommsProtocolEmbed request.inputs.length request.outCaps.length ++
    ((List.range psaMaxIovec).flatMap (fun index => toBytes 2 (request.sizes index)) ++
      request.inputs.flatten)

/-- What the parser is to recover. -/
def parsed (request : EmbedRequest) : RsePsRequest where
  protocol := rseCommsProtocolEmbed
  seq := request.head.seq
  clientId := request.head.clientId
  handle := request.head.handle
  ctrl := controlWord request.head.type request.inputs.length request.outCaps.length
  type := request.head.type.setWidth 32
  inLen := request.inputs.length
  outLen := request.outCaps.length
  inputs index := request.inputs.getD index []
  outCaps index := (request.outCaps.getD index 0).setWidth 32

end EmbedRequest

namespace PointerRequest

def vectors (request : PointerRequest) (index : Nat) : HostVector :=
  (request.inputs ++ request.outputs).getD index ⟨0, 0⟩

def encode (request : PointerRequest) : List Byte :=
  request.head.encode rseCommsProtocolPointerAccess request.inputs.length
      request.outputs.length ++
    ((List.range psaMaxIovec).flatMap (fun index => toBytes 4 (request.vectors index).size) ++
      (List.range psaMaxIovec).flatMap fun index => toBytes 8 (request.vectors index).pointer)

/-- What the parser is to recover, for the contents of guest memory. -/
def parsed (request : PointerRequest) (content : BitVec 64 → Byte) : RsePsRequest where
  protocol := rseCommsProtocolPointerAccess
  seq := request.head.seq
  clientId := request.head.clientId
  handle := request.head.handle
  ctrl := controlWord request.head.type request.inputs.length request.outputs.length
  type := request.head.type.setWidth 32
  inLen := request.inputs.length
  outLen := request.outputs.length
  inputs index :=
    (request.inputs.map fun input => Bus.slice content input.pointer input.size.toNat).getD index []
  outCaps index := (request.outputs.map HostVector.size).getD index 0
  outPtrs index := (request.outputs.map HostVector.pointer).getD index 0

/-- Guest memory holds the contents where the inputs are, and answers when they are fetched. -/
def Readable {Memory : Type u} (request : PointerRequest) (bus : Bus Memory) (memory : Memory)
    (content : BitVec 64 → Byte) : Prop :=
  ∀ input ∈ request.inputs, memReadBytes bus memory input.pointer input.size.toNat =
    (true, Bus.slice content input.pointer input.size.toNat, memory)

end PointerRequest

section Head

variable {type : BitVec 16} {inLen outLen : Nat}

theorem toNat_controlWord (fits : inLen + outLen ≤ psaMaxIovec) :
    (controlWord type inLen outLen).toNat = type.toNat + 2 ^ 16 * outLen + 2 ^ 24 * inLen := by
  have small := type.isLt
  rw [psaMaxIovec] at fits
  rw [controlWord, BitVec.toNat_ofNat]
  omega

/-- A field of a word. -/
theorem toNat_field {word mask : BitVec 32} (shift width : Nat)
    (ones : mask.toNat = 2 ^ width - 1) :
    (word >>> shift &&& mask).toNat = word.toNat / 2 ^ shift % 2 ^ width := by
  rw [BitVec.toNat_and, BitVec.toNat_ushiftRight, Nat.shiftRight_eq_div_pow, ones,
    Nat.and_two_pow_sub_one_eq_mod]

/-- The fields of the control word are what it was made of. -/
theorem rseCtrl_controlWord (fits : inLen + outLen ≤ psaMaxIovec) :
    rseCtrlType (controlWord type inLen outLen) = type.setWidth 32 ∧
      rseCtrlInLen (controlWord type inLen outLen) = inLen ∧
      rseCtrlOutLen (controlWord type inLen outLen) = outLen := by
  have small := type.isLt
  have number := @toNat_controlWord type inLen outLen fits
  rw [psaMaxIovec] at fits
  refine ⟨BitVec.eq_of_toNat_eq ?_, ?_, ?_⟩
  · rw [rseCtrlType, ← BitVec.ushiftRight_zero (controlWord type inLen outLen),
      toNat_field 0 16 rfl, number, BitVec.toNat_setWidth]
    omega
  · rw [rseCtrlInLen, toNat_field 24 3 rfl, number]
    omega
  · rw [rseCtrlOutLen, toNat_field 16 3 rfl, number]
    omega

variable (head : RequestHead) (protocol : Byte) (inLen outLen)

@[simp]
theorem RequestHead.length_encode : (head.encode protocol inLen outLen).length = 12 := by
  simp [encode]

theorem requestHeader_encode (rest : List Byte) :
    requestHeader (head.encode protocol inLen outLen ++ rest) =
      { protocol := protocol, seq := head.seq, clientId := head.clientId } := by
  have client : toBytes 2 head.clientId = [byteOf head.clientId 0, byteOf head.clientId 1] := rfl
  have joined : (byteOf head.clientId 0).setWidth 16 |||
      (byteOf head.clientId 1).setWidth 16 <<< 8 = head.clientId := by
    have decoded := @ofBytes_toBytes 16 2 head.clientId (by decide)
    rw [client] at decoded
    simpa [ofBytes] using decoded
  simp [requestHeader, RequestHead.encode, client, joined]

/-- A word behind a front of the request. -/
theorem readLe32_behind {bytes front back : List Byte} {word : BitVec 32}
    (split : bytes = front ++ (toBytes 4 word ++ back)) : readLe32 bytes front.length = word := by
  rw [split, readLe32, readLe_append 32 rfl (by simp), ofBytes_toBytes _ (by decide)]

/-- The header fields that both parsers read. -/
theorem withHeader_encode (fits : inLen + outLen ≤ psaMaxIovec) (rest : List Byte)
    (out : RsePsRequest) :
    out.withHeader (head.encode protocol inLen outLen ++ rest) =
      { out with
        handle := head.handle
        ctrl := controlWord head.type inLen outLen
        type := head.type.setWidth 32
        inLen := inLen
        outLen := outLen } := by
  unfold RsePsRequest.withHeader
  dsimp only
  have handle : readLe32 (head.encode protocol inLen outLen ++ rest) 4 = head.handle :=
    @readLe32_behind _ ([protocol, head.seq] ++ toBytes 2 head.clientId)
      (toBytes 4 (controlWord head.type inLen outLen) ++ rest) _ (by simp [RequestHead.encode])
  have ctrl : readLe32 (head.encode protocol inLen outLen ++ rest) 8 =
      controlWord head.type inLen outLen :=
    @readLe32_behind _ ([protocol, head.seq] ++ toBytes 2 head.clientId ++ toBytes 4 head.handle)
      rest _ (by simp [RequestHead.encode])
  obtain ⟨type, inputs, outputs⟩ := @rseCtrl_controlWord head.type inLen outLen fits
  rw [handle, ctrl, type, inputs, outputs]

/-- An entry of the table behind the head. -/
theorem readLe_table {bytes : Nat} (pieces : Nat → BitVec (8 * bytes)) (rest : List Byte)
    {index : Nat} (inside : index < psaMaxIovec) :
    readLe (8 * bytes)
        (head.encode protocol inLen outLen ++
          ((List.range psaMaxIovec).flatMap (fun index => toBytes bytes (pieces index)) ++ rest))
        (12 + bytes * index) = pieces index := by
  have width : 8 * bytes / 8 = bytes := Nat.mul_div_cancel_left bytes (by decide)
  rw [readLe_flatMap_range (8 * bytes) psaMaxIovec _ _ _ (fun _ => by simp [width]) inside
    (by simp [width]), ofBytes_toBytes _ (by omega)]

end Head

/-- The entry of the table for a vector, after the inputs of a list. -/
theorem EmbedRequest.sizes_input (request : EmbedRequest) {index : Nat} {input : List Byte}
    (found : request.inputs[index]? = some input) :
    (request.sizes index).toNat = input.length := by
  have inside : index < request.inputs.length := (List.getElem?_eq_some_iff.mp found).1
  have small := request.short input (List.mem_of_getElem? found)
  rw [sizes, List.getD_eq_getElem?_getD, List.getElem?_append_left (by simpa using inside),
    List.getElem?_map, found]
  simpa using Nat.mod_eq_of_lt small

theorem EmbedRequest.sizes_outCap (request : EmbedRequest) (index : Nat) :
    request.sizes (request.inputs.length + index) = request.outCaps.getD index 0 := by
  rw [sizes, List.getD_eq_getElem?_getD, List.getElem?_append_right (by simp)]
  simp

/-- The cutting loop takes the inputs that are behind those it has taken. -/
theorem takeEmbeddedInputs_flatten (front : List Byte) (ioSizes : Nat → BitVec 32)
    (taken left : List (List Byte)) (vectors : Nat → List Byte)
    (sizes : ∀ index input, left[index]? = some input →
      (ioSizes (taken.length + index)).toNat = input.length) :
    takeEmbeddedInputs (front ++ (taken.flatten ++ left.flatten)) ioSizes left.length
        taken.length (front.length + taken.flatten.length) vectors =
      some fun position =>
        if position < taken.length then vectors position
        else left.getD (position - taken.length) (vectors position) := by
  induction left generalizing taken vectors with
  | nil => simp [takeEmbeddedInputs]
  | cons input left inductionHypothesis =>
      have size : (ioSizes taken.length).toNat = input.length := sizes 0 input rfl
      have enough : ¬ (front ++ (taken.flatten ++ (input :: left).flatten)).length <
          front.length + taken.flatten.length + input.length := by
        simp
        omega
      have cut : ((front ++ (taken.flatten ++ (input :: left).flatten)).drop
          (front.length + taken.flatten.length)).take input.length = input := by
        rw [← List.append_assoc, ← List.length_append, List.drop_left, List.flatten_cons,
          List.take_left]
      have again := inductionHypothesis (taken ++ [input])
        (Function.update vectors taken.length input) (by
          intro index other found
          have later := sizes (index + 1) other found
          rwa [List.length_append, List.length_singleton, Nat.add_assoc, Nat.add_comm 1])
      have moved : front.length + (taken ++ [input]).flatten.length =
          front.length + taken.flatten.length + input.length := by
        simp
        omega
      have same : (taken ++ [input]).flatten ++ left.flatten =
          taken.flatten ++ (input :: left).flatten := by simp
      rw [moved, same, List.length_append, List.length_singleton] at again
      rw [List.length_cons, takeEmbeddedInputs, size, if_neg enough, cut, again]
      congr 1
      funext position
      rcases Nat.lt_trichotomy position taken.length with before | rfl | after
      · rw [if_pos (by omega), if_pos before, Function.update_of_ne (by omega)]
      · simp
      · have next : position - taken.length = position - (taken.length + 1) + 1 := by omega
        rw [if_neg (by omega), if_neg (by omega), Function.update_of_ne (by omega), next,
          List.getD_cons_succ]

theorem EmbedRequest.length_encode (request : EmbedRequest) :
    request.encode.length = 20 + request.inputs.flatten.length := by
  simp [encode, List.length_flatMap]
  omega

theorem EmbedRequest.embedIoSizes_encode (request : EmbedRequest) {index : Nat}
    (inside : index < psaMaxIovec) :
    embedIoSizes request.encode index = (request.sizes index).setWidth 32 := by
  rw [embedIoSizes, readLe16, encode]
  congr 1
  exact @readLe_table _ _ request.head rseCommsProtocolEmbed 2 request.sizes _ index inside

/-- An embedded request is recovered. -/
theorem parseRsePsEmbedRequest_encode (request : EmbedRequest) :
    parseRsePsEmbedRequest request.encode (requestHeader request.encode) =
      .ok request.parsed := by
  have fits := request.fits
  have length := request.length_encode
  have enough : ¬ request.encode.length < 4 + 4 * 2 + 2 * psaMaxIovec := by
    rw [length, psaMaxIovec]
    omega
  have header : requestHeader request.encode =
      { protocol := rseCommsProtocolEmbed, seq := request.head.seq,
        clientId := request.head.clientId } := requestHeader_encode _ _ _ _ _
  have cut := takeEmbeddedInputs_flatten
    (request.head.encode rseCommsProtocolEmbed request.inputs.length request.outCaps.length ++
      (List.range psaMaxIovec).flatMap fun index => toBytes 2 (request.sizes index))
    (embedIoSizes request.encode) [] request.inputs (fun _ => []) (by
      intro index input found
      have inside : index < psaMaxIovec := by
        have bounded := (List.getElem?_eq_some_iff.mp found).1
        omega
      rw [List.length_nil, Nat.zero_add, request.embedIoSizes_encode inside,
        BitVec.toNat_setWidth_of_le (by decide), request.sizes_input found])
  have front : (request.head.encode rseCommsProtocolEmbed request.inputs.length
      request.outCaps.length ++ (List.range psaMaxIovec).flatMap fun index =>
        toBytes 2 (request.sizes index)).length = 20 := by
    simp [List.length_flatMap]
  rw [front, List.flatten_nil, List.nil_append, List.append_assoc] at cut
  have headed : (requestHeader request.encode).withHeader request.encode =
      { requestHeader request.encode with
        handle := request.head.handle
        ctrl := controlWord request.head.type request.inputs.length request.outCaps.length
        type := request.head.type.setWidth 32
        inLen := request.inputs.length
        outLen := request.outCaps.length } := withHeader_encode _ _ _ _ fits _ _
  have counts : ¬ ¬ ((requestHeader request.encode).withHeader request.encode).CountsFit := by
    rw [headed, not_not]
    refine ⟨?_, ?_, fits⟩ <;> dsimp only <;> omega
  unfold parseRsePsEmbedRequest
  dsimp only
  rw [if_neg enough, if_neg counts, headed, header]
  dsimp only
  have taken : takeEmbeddedInputs request.encode (embedIoSizes request.encode)
      request.inputs.length 0 20 (fun _ => []) =
        some fun position => request.inputs.getD position [] := cut
  rw [taken]
  simp only [RsePsRequest.withVectors, EmbedRequest.parsed, Except.ok.injEq,
    RsePsRequest.mk.injEq, true_and]
  refine ⟨?_, by simp⟩
  funext index
  by_cases inside : index < request.outCaps.length
  · rw [if_pos inside, request.embedIoSizes_encode (by omega), request.sizes_outCap]
  · rw [if_neg inside, List.getD_eq_default _ _ (by omega)]
    rfl

theorem PointerRequest.length_encode (request : PointerRequest) : request.encode.length = 60 := by
  simp [encode, List.length_flatMap]

theorem PointerRequest.pointerIoSizes_encode (request : PointerRequest) {index : Nat}
    (inside : index < psaMaxIovec) :
    pointerIoSizes request.encode index = (request.vectors index).size :=
  @readLe_table _ _ request.head rseCommsProtocolPointerAccess 4
    (fun index => (request.vectors index).size) _ index inside

theorem PointerRequest.pointerHostPtrs_encode (request : PointerRequest) {index : Nat}
    (inside : index < psaMaxIovec) :
    pointerHostPtrs request.encode index = (request.vectors index).pointer := by
  have found := readLe_flatMap_range 64 psaMaxIovec
    (fun index => toBytes 8 (request.vectors index).pointer)
    (request.head.encode rseCommsProtocolPointerAccess request.inputs.length
      request.outputs.length ++
        (List.range psaMaxIovec).flatMap fun index => toBytes 4 (request.vectors index).size)
    [] (fun _ => by simp) inside
    (show _ = 28 + 8 * index by simp [List.length_flatMap])
  rw [List.append_nil, List.append_assoc, ofBytes_toBytes _ (by decide)] at found
  exact found

theorem PointerRequest.vectors_input (request : PointerRequest) {index : Nat}
    {input : HostVector} (found : request.inputs[index]? = some input) :
    request.vectors index = input := by
  have inside := (List.getElem?_eq_some_iff.mp found).1
  rw [vectors, List.getD_eq_getElem?_getD, List.getElem?_append_left inside, found]
  rfl

theorem PointerRequest.vectors_output (request : PointerRequest) (index : Nat) :
    request.vectors (request.inputs.length + index) = request.outputs.getD index ⟨0, 0⟩ := by
  rw [vectors, List.getD_eq_getElem?_getD, List.getElem?_append_right (Nat.le_add_right _ _),
    Nat.add_sub_cancel_left, List.getD_eq_getElem?_getD]

section PointerAccess

variable {Memory : Type u}

/-- The fetching loop reads the inputs that are left, when memory stays as it is. -/
theorem fetchInputs_readable (bus : Bus Memory) (ioSizes : Nat → BitVec 32)
    (hostPtrs : Nat → BitVec 64) (memory : Memory) (content : BitVec 64 → Byte) (taken : Nat)
    (left : List HostVector) (vectors : Nat → List Byte)
    (described : ∀ index input, left[index]? = some input →
      ioSizes (taken + index) = input.size ∧ hostPtrs (taken + index) = input.pointer)
    (readable : ∀ input ∈ left, memReadBytes bus memory input.pointer input.size.toNat =
      (true, Bus.slice content input.pointer input.size.toNat, memory)) :
    fetchInputs bus ioSizes hostPtrs left.length taken vectors memory =
      (some fun position =>
        if position < taken then vectors position
        else (left.map fun input => Bus.slice content input.pointer input.size.toNat).getD
          (position - taken) (vectors position),
        memory) := by
  induction left generalizing taken vectors with
  | nil => simp [fetchInputs]
  | cons input left inductionHypothesis =>
      obtain ⟨size, pointer⟩ := described 0 input rfl
      rw [Nat.add_zero] at size pointer
      have again := inductionHypothesis (taken + 1)
        (Function.update vectors taken (Bus.slice content input.pointer input.size.toNat)) (by
          intro index other found
          have later := described (index + 1) other found
          rwa [Nat.add_assoc, Nat.add_comm 1])
        fun other member => readable other (List.mem_cons_of_mem _ member)
      rw [List.length_cons, fetchInputs, size, pointer, readable input List.mem_cons_self]
      dsimp only
      rw [again]
      congr 2
      funext position
      rcases Nat.lt_trichotomy position taken with before | rfl | after
      · rw [if_pos (by omega), if_pos before, Function.update_of_ne (by omega)]
      · simp
      · have next : position - taken = position - (taken + 1) + 1 := by omega
        rw [if_neg (by omega), if_neg (by omega), Function.update_of_ne (by omega), next,
          List.map_cons, List.getD_cons_succ]

/-- A pointer-access request is recovered, with what guest memory holds. -/
theorem parseRsePsPointerRequest_encode {bus : Bus Memory} (request : PointerRequest)
    {memory : Memory} {content : BitVec 64 → Byte}
    (readable : request.Readable bus memory content) :
    parseRsePsPointerRequest bus request.encode (requestHeader request.encode) memory =
      (.ok (request.parsed content), memory) := by
  have fits := request.fits
  have enough : ¬ request.encode.length < 4 + 4 * 2 + 4 * psaMaxIovec + 8 * psaMaxIovec := by
    rw [request.length_encode, psaMaxIovec]
    decide
  have header : requestHeader request.encode =
      { protocol := rseCommsProtocolPointerAccess, seq := request.head.seq,
        clientId := request.head.clientId } := requestHeader_encode _ _ _ _ _
  have headed : (requestHeader request.encode).withHeader request.encode =
      { requestHeader request.encode with
        handle := request.head.handle
        ctrl := controlWord request.head.type request.inputs.length request.outputs.length
        type := request.head.type.setWidth 32
        inLen := request.inputs.length
        outLen := request.outputs.length } := withHeader_encode _ _ _ _ fits _ _
  have counts : ¬ ¬ ((requestHeader request.encode).withHeader request.encode).CountsFit := by
    rw [headed, not_not]
    refine ⟨?_, ?_, fits⟩ <;> dsimp only <;> omega
  have fetched := fetchInputs_readable bus (pointerIoSizes request.encode)
    (pointerHostPtrs request.encode) memory content 0 request.inputs (fun _ => []) (by
      intro index input found
      have inside : index < psaMaxIovec := by
        have bounded := (List.getElem?_eq_some_iff.mp found).1
        omega
      rw [Nat.zero_add, request.pointerIoSizes_encode inside,
        request.pointerHostPtrs_encode inside, request.vectors_input found]
      exact ⟨rfl, rfl⟩)
    readable
  unfold parseRsePsPointerRequest
  dsimp only
  rw [if_neg enough, if_neg counts, headed, header]
  dsimp only
  rw [fetched]
  simp only [RsePsRequest.withVectors, PointerRequest.parsed, Prod.mk.injEq, Except.ok.injEq,
    RsePsRequest.mk.injEq, true_and, and_true]
  refine ⟨?_, ?_, ?_⟩
  · funext index
    simp
  · funext index
    by_cases inside : index < request.outputs.length
    · rw [if_pos inside, request.pointerIoSizes_encode (by omega), request.vectors_output]
      simp [List.getD_eq_getElem?_getD, inside]
    · rw [if_neg inside, List.getD_eq_default _ _ (by simpa using inside)]
      rfl
  · funext index
    by_cases inside : index < request.outputs.length
    · rw [if_pos inside, request.pointerHostPtrs_encode (by omega), request.vectors_output]
      simp [List.getD_eq_getElem?_getD, inside]
    · rw [if_neg inside, List.getD_eq_default _ _ (by simpa using inside)]
      rfl

/-- More vectors than fit, or embedded inputs that run past the end. -/
def DeclaresTooMuch (request : List Byte) : Prop :=
  psaMaxIovec < inputCount request + outputCount request ∨
    request.getD 0 0 = rseCommsProtocolEmbed ∧
      request.length < embeddedOffset request (inputCount request)

theorem not_wellFormed_of_declaresTooMuch {request : List Byte}
    (declares : DeclaresTooMuch request) : ¬ WellFormed request := by
  rintro ⟨protocol, -, counts, fits⟩
  rcases declares with many | ⟨embed, overrun⟩
  · rw [psaMaxIovec] at many
    omega
  · have other : ¬ isPointerRequest request := fun pointer =>
      absurd (embed.symm.trans pointer) (by decide)
    exact absurd (fits other) (not_le.mpr overrun)

/-- Only the inputs of a pointer-access request are fetched, and only when the counts fit. -/
theorem parseRsePsRequest_memory (bus : Bus Memory) {request : List Byte} (memory : Memory)
    (declares : DeclaresTooMuch request) :
    (parseRsePsRequest bus request memory).2 = memory := by
  unfold parseRsePsRequest
  dsimp only
  split_ifs with short embed pointer
  · rfl
  · rfl
  · have many : ¬ ((requestHeader request).withHeader request).CountsFit := by
      intro counts
      rcases declares with many | ⟨embedded, -⟩
      · exact absurd counts.2.2 (not_le.mpr many)
      · exact embed embedded
    unfold parseRsePsPointerRequest
    dsimp only
    split_ifs <;> rfl
  · rfl

theorem parseRsePsRequest_declaresTooMuch (bus : Bus Memory) {request : List Byte}
    (memory : Memory) (declares : DeclaresTooMuch request) :
    ∃ status, parseRsePsRequest bus request memory = (.error status, memory) := by
  have kept := parseRsePsRequest_memory bus memory declares
  cases outcome : parseRsePsRequest bus request memory with
  | mk parsed after =>
      rw [outcome] at kept
      obtain rfl : after = memory := kept
      cases parsed with
      | error status => exact ⟨status, rfl⟩
      | ok parsed =>
          exact absurd (wellFormed_of_parse outcome) (not_wellFormed_of_declaresTooMuch declares)

theorem parseRsePsRequest_embed (bus : Bus Memory) (request : EmbedRequest) (memory : Memory) :
    parseRsePsRequest bus request.encode memory = (.ok request.parsed, memory) := by
  have enough : ¬ request.encode.length < 4 := by
    rw [request.length_encode]
    omega
  have protocol : (requestHeader request.encode).protocol = rseCommsProtocolEmbed := rfl
  unfold parseRsePsRequest
  dsimp only
  rw [if_neg enough, if_pos protocol, parseRsePsEmbedRequest_encode]

theorem parseRsePsRequest_pointer {bus : Bus Memory} (request : PointerRequest) {memory : Memory}
    {content : BitVec 64 → Byte} (readable : request.Readable bus memory content) :
    parseRsePsRequest bus request.encode memory = (.ok (request.parsed content), memory) := by
  have enough : ¬ request.encode.length < 4 := by
    rw [request.length_encode]
    decide
  have protocol : (requestHeader request.encode).protocol = rseCommsProtocolPointerAccess := rfl
  unfold parseRsePsRequest
  dsimp only
  rw [if_neg enough, protocol, if_neg (by decide), if_pos rfl,
    parseRsePsPointerRequest_encode request readable]

/-- The parser recovers every request that a client writes in either format, and it refuses every
byte string that declares more than it has; it reads no byte string outside its bounds. -/
theorem request_round_trip (bus : Bus Memory) :
    (∀ (request : EmbedRequest) (memory : Memory),
      parseRsePsRequest bus request.encode memory = (.ok request.parsed, memory)) ∧
    (∀ (request : PointerRequest) (memory : Memory) (content : BitVec 64 → Byte),
      request.Readable bus memory content →
        parseRsePsRequest bus request.encode memory = (.ok (request.parsed content), memory)) ∧
    (∀ (request : List Byte) (memory : Memory), DeclaresTooMuch request →
      ∃ status, parseRsePsRequest bus request memory = (.error status, memory)) ∧
    ∀ (request : List Byte) (memory : Memory),
      checkedRequest bus request memory = some (parseRsePsRequest bus request memory) :=
  ⟨fun request memory => parseRsePsRequest_embed bus request memory,
    fun request _ _ readable => parseRsePsRequest_pointer request readable,
    fun _ memory declares => parseRsePsRequest_declaresTooMuch bus memory declares,
    fun request memory => checkedRequest_eq bus request memory⟩

end PointerAccess

/-- Two bytes of input at 0x1000 and room for four of output at 0x2000. -/
def sampleRequest : PointerRequest where
  head := { seq := 7, clientId := 0x1234, handle := 0x40000100, type := 0x3e9 }
  inputs := [⟨0x1000, 2⟩]
  outputs := [⟨0x2000, 4⟩]
  fits := by decide

theorem request_round_trip_sample :
    parseRsePsRequest Bus.ram sampleRequest.encode (fun _ => 5) =
      (.ok (sampleRequest.parsed fun _ => 5), fun _ => 5) := by
  refine (request_round_trip Bus.ram).2.1 sampleRequest (fun _ => 5) (fun _ => 5) ?_
  intro input member
  rw [List.mem_singleton.mp member]
  rfl

end QboxPlatform.Mhu.Psa
