import QboxPlatform.Mhu.Psa.Request

/-!
# Facts about parsed requests

What every accepted request satisfies, and that parsing only reads guest memory.
-/

namespace QboxPlatform.Mhu.Psa

open Foundation

universe u

variable {Memory : Type u}

/-- Where a pointer-access request wants output `index`: the host pointers of the
outputs follow those of the inputs. -/
def outputPointer (request : List Byte) (index : Nat) : BitVec 64 :=
  pointerHostPtrs request (rseCtrlInLen (readLe32 request 8) + index)

/-- What the parser guarantees to the handlers. -/
structure Accepted (request : List Byte) (parsed : RsePsRequest) : Prop where
  counts : parsed.CountsFit
  protocol : parsed.protocol = rseCommsProtocolEmbed ∨
    parsed.protocol = rseCommsProtocolPointerAccess
  embeddedCaps : parsed.protocol = rseCommsProtocolEmbed →
    ∀ index, (parsed.outCaps index).toNat < 2 ^ 16
  pointers : parsed.protocol = rseCommsProtocolPointerAccess →
    ∀ index < parsed.outLen, parsed.outPtrs index = outputPointer request index

theorem embedIoSizes_lt (request : List Byte) (index : Nat) :
    (embedIoSizes request index).toNat < 2 ^ 16 := by
  have bounded := (readLe16 request (12 + 2 * index)).isLt
  simp only [embedIoSizes, BitVec.toNat_setWidth]
  omega

theorem accepted_of_embed {request : List Byte} {parsed : RsePsRequest}
    (embed : (requestHeader request).protocol = rseCommsProtocolEmbed)
    (succeeded : parseRsePsEmbedRequest request (requestHeader request) = .ok parsed) :
    Accepted request parsed := by
  unfold parseRsePsEmbedRequest at succeeded
  dsimp only at succeeded
  split_ifs at succeeded with short counts
  cases cut : takeEmbeddedInputs request (embedIoSizes request)
      ((requestHeader request).withHeader request).inLen 0 20
      ((requestHeader request).withHeader request).inputs with
  | none => simp [cut] at succeeded
  | some inputs =>
      rw [cut] at succeeded
      obtain rfl := Except.ok.inj succeeded
      refine ⟨counts, .inl embed, fun _ index => ?_, fun pointer => ?_⟩
      · simp only [RsePsRequest.withVectors]
        split
        · exact embedIoSizes_lt request _
        · simp [RsePsRequest.withHeader, requestHeader]
      · exact absurd (embed.symm.trans pointer) (by decide)

theorem accepted_of_pointer {bus : Bus Memory} {request : List Byte} {parsed : RsePsRequest}
    {memory after : Memory}
    (pointer : (requestHeader request).protocol = rseCommsProtocolPointerAccess)
    (succeeded : parseRsePsPointerRequest bus request (requestHeader request) memory =
      (.ok parsed, after)) :
    Accepted request parsed := by
  unfold parseRsePsPointerRequest at succeeded
  dsimp only at succeeded
  split_ifs at succeeded with short counts
  · simp at succeeded
  case neg => simp at succeeded
  cases fetched : fetchInputs bus (pointerIoSizes request) (pointerHostPtrs request)
      ((requestHeader request).withHeader request).inLen 0
      ((requestHeader request).withHeader request).inputs memory with
  | mk inputs next =>
      cases inputs with
      | none => simp [fetched] at succeeded
      | some inputs =>
          rw [fetched] at succeeded
          obtain rfl := Except.ok.inj (Prod.mk.inj succeeded).1
          refine ⟨counts, .inr pointer, fun embed => ?_, fun _ index inside => ?_⟩
          · exact absurd (embed.symm.trans pointer) (by decide)
          · exact if_pos inside

theorem accepted_of_parse {bus : Bus Memory} {request : List Byte} {parsed : RsePsRequest}
    {memory after : Memory}
    (succeeded : parseRsePsRequest bus request memory = (.ok parsed, after)) :
    Accepted request parsed := by
  unfold parseRsePsRequest at succeeded
  dsimp only at succeeded
  split_ifs at succeeded with short embed pointer
  · simp at succeeded
  · exact accepted_of_embed embed (Prod.mk.inj succeeded).1
  · exact accepted_of_pointer pointer succeeded
  · simp at succeeded

section Logged

theorem memReadBytes_logged (bus : Bus Memory) (memory : Memory) (log : Bus.WriteLog)
    (address : BitVec 64) (count : Nat) :
    memReadBytes bus.logged (memory, log) address count =
      ((memReadBytes bus memory address count).1,
        (memReadBytes bus memory address count).2.1,
        ((memReadBytes bus memory address count).2.2, log)) := by
  unfold memReadBytes
  split_ifs <;> rfl

theorem fetchInputs_logged (bus : Bus Memory) (ioSizes : Nat → BitVec 32)
    (hostPtrs : Nat → BitVec 64) (remaining index : Nat) (inputs : Nat → List Byte)
    (memory : Memory) (log : Bus.WriteLog) :
    fetchInputs bus.logged ioSizes hostPtrs remaining index inputs (memory, log) =
      ((fetchInputs bus ioSizes hostPtrs remaining index inputs memory).1,
        ((fetchInputs bus ioSizes hostPtrs remaining index inputs memory).2, log)) := by
  induction remaining generalizing index inputs memory with
  | zero => rfl
  | succ remaining inductionHypothesis =>
      simp only [fetchInputs, memReadBytes_logged]
      obtain ⟨ok, data, next⟩ := memReadBytes bus memory (hostPtrs index) (ioSizes index).toNat
      cases ok
      · rfl
      · exact inductionHypothesis (index + 1) _ next

/-- Parsing writes nothing. -/
theorem parseRsePsRequest_logged (bus : Bus Memory) (request : List Byte) (memory : Memory)
    (log : Bus.WriteLog) :
    parseRsePsRequest bus.logged request (memory, log) =
      ((parseRsePsRequest bus request memory).1,
        ((parseRsePsRequest bus request memory).2, log)) := by
  unfold parseRsePsRequest parseRsePsPointerRequest
  dsimp only
  split_ifs
  all_goals try rfl
  rw [fetchInputs_logged]
  obtain ⟨inputs, next⟩ := fetchInputs bus (pointerIoSizes request) (pointerHostPtrs request)
    ((requestHeader request).withHeader request).inLen 0
    ((requestHeader request).withHeader request).inputs memory
  cases inputs <;> rfl

end Logged

end QboxPlatform.Mhu.Psa
