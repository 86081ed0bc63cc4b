import QboxPlatform.Mhu.Psa.Service

/-!
# Reading a framed reply

The receiver's view of the bytes `frameReply` produces: where the status word
and the four declared sizes stand, and what follows the header.
-/

namespace QboxPlatform.Mhu.Psa

open Foundation

theorem readLe_append (width : Nat) {front bytes rest : List Byte} {offset : Nat}
    (start : front.length = offset) (whole : bytes.length = width / 8) :
    readLe width (front ++ (bytes ++ rest)) offset = ofBytes width bytes := by
  subst start
  have enough : ¬ (front ++ (bytes ++ rest)).length < front.length + width / 8 := by
    simp [whole]
  rw [readLe, if_neg enough, List.drop_left, ← whole, List.take_left]

/-- Pick one word out of a concatenation of words of the same width. -/
theorem readLe_flatMap_range (width count : Nat) (piece : Nat → List Byte)
    (front rest : List Byte) {index offset : Nat}
    (whole : ∀ index, (piece index).length = width / 8) (inside : index < count)
    (start : front.length + width / 8 * index = offset) :
    readLe width (front ++ ((List.range count).flatMap piece ++ rest)) offset =
      ofBytes width (piece index) := by
  have split : List.range count =
      List.range index ++ index :: (List.range (count - index - 1)).map (· + (index + 1)) := by
    have halves : count = index + (1 + (count - index - 1)) := by omega
    conv_lhs => rw [halves, List.range_add, List.range_add]
    simp [List.range_succ, Nat.add_comm, Nat.add_left_comm, Function.comp_def]
  have lengths : ((List.range index).flatMap piece).length = width / 8 * index := by
    simp [List.length_flatMap, whole, Nat.mul_comm]
  rw [split, List.flatMap_append, List.flatMap_cons, List.append_assoc, List.append_assoc,
    ← List.append_assoc front]
  exact readLe_append width (by rw [List.length_append, lengths, start]) (whole index)

/-- Whether a reply uses the pointer-access layout. -/
def isPointerReply (reply : List Byte) : Prop :=
  reply.getD 0 0 = rseCommsProtocolPointerAccess

instance (reply : List Byte) : Decidable (isPointerReply reply) :=
  inferInstanceAs (Decidable (_ = _))

/-- The status word. -/
def replyStatus (reply : List Byte) : BitVec 32 := readLe32 reply 4

/-- The declared size of output `index`. -/
def replySize (reply : List Byte) (index : Nat) : Nat :=
  if isPointerReply reply then (readLe32 reply (8 + 4 * index)).toNat
  else (readLe16 reply (8 + 2 * index)).toNat

/-- What an embedded reply carries after its 16-byte header. -/
def replyPayload (reply : List Byte) : List Byte := reply.drop 16

/-- The first eight bytes of a reply. -/
def replyHeader (parsed : RsePsRequest) (status : PsaStatus) : List Byte :=
  [parsed.protocol, parsed.seq] ++ toBytes 2 parsed.clientId ++ toBytes 4 status.code

@[simp]
theorem length_replyHeader (parsed : RsePsRequest) (status : PsaStatus) :
    (replyHeader parsed status).length = 8 := by
  simp [replyHeader]

theorem frameReply_pointer {parsed : RsePsRequest} (status : PsaStatus) (outputs : PsOutputs)
    (pointer : parsed.protocol = rseCommsProtocolPointerAccess) :
    frameReply parsed status outputs = replyHeader parsed status ++
      (List.range psaMaxIovec).flatMap fun index => toBytes 4 (outputs.sizes index) := by
  simp [frameReply, pointer, replyHeader]

theorem frameReply_embed {parsed : RsePsRequest} (status : PsaStatus) (outputs : PsOutputs)
    (embed : parsed.protocol ≠ rseCommsProtocolPointerAccess) :
    frameReply parsed status outputs = replyHeader parsed status ++
      (((List.range psaMaxIovec).flatMap fun index =>
        toBytes 2 ((outputs.sizes index).setWidth 16)) ++
      if status = .success then (List.range parsed.outLen).flatMap outputs.data else []) := by
  simp [frameReply, embed, replyHeader]

/-- Every reply is its eight-byte header and something after it. -/
theorem frameReply_eq_header_append (parsed : RsePsRequest) (status : PsaStatus)
    (outputs : PsOutputs) :
    ∃ rest, frameReply parsed status outputs = replyHeader parsed status ++ rest := by
  by_cases pointer : parsed.protocol = rseCommsProtocolPointerAccess
  · exact ⟨_, frameReply_pointer status outputs pointer⟩
  · exact ⟨_, frameReply_embed status outputs pointer⟩

@[simp]
theorem replyStatus_frameReply (parsed : RsePsRequest) (status : PsaStatus)
    (outputs : PsOutputs) :
    replyStatus (frameReply parsed status outputs) = status.code := by
  obtain ⟨rest, framed⟩ := frameReply_eq_header_append parsed status outputs
  rw [framed, replyHeader, List.append_assoc, replyStatus, readLe32,
    readLe_append 32 (by simp) (by simp), ofBytes_toBytes _ (by omega)]

@[simp]
theorem isPointerReply_frameReply (parsed : RsePsRequest) (status : PsaStatus)
    (outputs : PsOutputs) :
    isPointerReply (frameReply parsed status outputs) ↔
      parsed.protocol = rseCommsProtocolPointerAccess := by
  obtain ⟨rest, framed⟩ := frameReply_eq_header_append parsed status outputs
  simp [framed, isPointerReply, replyHeader]

/-- A declared size is the one the handler recorded, cut to 16 bits when the
reply is embedded. -/
theorem replySize_frameReply (parsed : RsePsRequest) (status : PsaStatus)
    (outputs : PsOutputs) {index : Nat} (inside : index < psaMaxIovec) :
    replySize (frameReply parsed status outputs) index =
      if parsed.protocol = rseCommsProtocolPointerAccess then (outputs.sizes index).toNat
      else (outputs.sizes index).toNat % 2 ^ 16 := by
  rw [replySize]
  simp only [isPointerReply_frameReply]
  split
  case isTrue pointer =>
    have sizes := readLe_flatMap_range 32 psaMaxIovec
      (fun index => toBytes 4 (outputs.sizes index)) (replyHeader parsed status) []
      (fun _ => by simp) inside
      (show (replyHeader parsed status).length + 32 / 8 * index = 8 + 4 * index by simp)
    rw [List.append_nil, ofBytes_toBytes _ (by omega)] at sizes
    rw [frameReply_pointer status outputs pointer, readLe32, sizes]
  case isFalse embed =>
    rw [frameReply_embed status outputs embed, readLe16,
      readLe_flatMap_range 16 psaMaxIovec _ _ _ (fun _ => by simp) inside (by simp),
      ofBytes_toBytes _ (by omega), BitVec.toNat_setWidth]

theorem replyPayload_frameReply {parsed : RsePsRequest} (status : PsaStatus)
    (outputs : PsOutputs) (embed : parsed.protocol ≠ rseCommsProtocolPointerAccess) :
    replyPayload (frameReply parsed status outputs) =
      if status = .success then (List.range parsed.outLen).flatMap outputs.data else [] := by
  rw [replyPayload, frameReply_embed status outputs embed, ← List.append_assoc]
  apply List.drop_left'
  simp [List.length_flatMap]

end QboxPlatform.Mhu.Psa
