import QboxPlatform.Foundation.Run
import QboxPlatform.Mhu.Psa.Atomic
import QboxPlatform.Mhu.Psa.Storage

/-!
# The code refines the finite map
-/

namespace QboxPlatform.Mhu.Psa

open Foundation

universe u

section Framing

variable {Memory : Type u}

theorem storageCall_output {bus : Bus Memory} {request : List Byte} {memory : Memory}
    {call : PsCall} (decoded : storageCall bus request memory = some call) (map : PsMap) :
    (call.answer map).2 = [] ∨
      (call.answer map).1 = .success ∧ 1 ≤ outputCount request := by
  unfold storageCall at decoded
  dsimp only at decoded
  split_ifs at decoded with _ _ _ complete _ complete
  · obtain rfl := Option.some.inj decoded
    exact .inl rfl
  · obtain rfl := Option.some.inj decoded
    unfold PsCall.answer
    dsimp only
    split
    · exact .inl rfl
    · split_ifs
      · exact .inl rfl
      · exact .inr ⟨rfl, complete.2.1⟩
  · obtain rfl := Option.some.inj decoded
    unfold PsCall.answer
    dsimp only
    split
    · exact .inl rfl
    · split_ifs
      · exact .inl rfl
      · exact .inr ⟨rfl, complete.2.1⟩
  · obtain rfl := Option.some.inj decoded
    exact .inl rfl

theorem replyHeader_wireRequest (bus : Bus Memory) {request : List Byte} (memory : Memory)
    (status : PsaStatus) (whole : 4 ≤ request.length) :
    replyHeader (wireRequest bus request memory) status =
      request.take 4 ++ toBytes 4 status.code := by
  match request, whole with
  | protocol :: seq :: low :: high :: rest, _ =>
      have client : toBytes 2 (low.setWidth 16 ||| (high.setWidth 16 <<< 8)) = [low, high] := by
        have whole := toBytes_ofBytes [low, high] (show 8 * [low, high].length ≤ 16 by simp)
        simpa [ofBytes] using whole
      simp [replyHeader, wireRequest, client]

theorem frameReply_wireRequest (bus : Bus Memory) {request : List Byte} (memory : Memory)
    (status : PsaStatus) (output : List Byte) (whole : 4 ≤ request.length)
    (present : output = [] ∨ status = .success ∧ 1 ≤ outputCount request) :
    frameReply (wireRequest bus request memory) status (PsOutputs.put {} 0 output) =
      storageReply request status output := by
  have header := replyHeader_wireRequest bus memory status whole
  have sizes : ∀ index, (PsOutputs.put {} 0 output).sizes index =
      if index = 0 then BitVec.ofNat 32 output.length else 0 := by
    intro index
    by_cases zero : index = 0 <;> simp [PsOutputs.put, zero]
  have four : List.range psaMaxIovec = [0, 1, 2, 3] := rfl
  unfold storageReply
  by_cases pointer : isPointerRequest request
  · have access : (wireRequest bus request memory).protocol = rseCommsProtocolPointerAccess :=
      pointer
    have zeros : toBytes 4 0#32 = List.replicate 4 0 := by decide
    rw [frameReply_pointer status _ access, header, if_pos pointer, four]
    simp [sizes, zeros, List.replicate]
  · have access : (wireRequest bus request memory).protocol ≠ rseCommsProtocolPointerAccess :=
      pointer
    have narrow : (BitVec.ofNat 32 output.length).setWidth 16 = BitVec.ofNat 16 output.length := by
      apply BitVec.eq_of_toNat_eq
      simp
    have payload : (if status = .success then
        (List.range (wireRequest bus request memory).outLen).flatMap
          (PsOutputs.put {} 0 output).data else []) = output := by
      rcases present with rfl | ⟨rfl, asked⟩
      · rw [PsOutputs.put_nil]
        simp
      · obtain ⟨more, count⟩ := Nat.exists_eq_add_of_le asked
        have wanted : (wireRequest bus request memory).outLen = 1 + more := count
        rw [if_pos rfl, wanted, List.range_add, List.flatMap_append]
        simp [PsOutputs.put, List.flatMap_map]
    have zeros : toBytes 2 0#16 = List.replicate 2 0 := by decide
    rw [frameReply_embed status _ access, header, if_neg pointer, payload, four]
    simp [sizes, zeros, narrow, List.replicate]

theorem writeBack_put {bus : Bus Memory} (reliable : bus.Reliable) (ptrs : Nat → BitVec 64)
    (output : List Byte) (remaining : Nat) (memory : Memory)
    (present : output = [] ∨ 1 ≤ remaining) :
    writeBack bus ptrs (PsOutputs.put {} 0 output).data remaining 0 memory =
      (true, (memWriteBytes bus memory (ptrs 0) output).2) := by
  have later : ∀ index, 1 ≤ index → (PsOutputs.put {} 0 output).data index = [] := by
    intro index beyond
    simp [PsOutputs.put, show index ≠ 0 by omega]
  cases remaining with
  | zero =>
      obtain rfl := present.resolve_right (by omega)
      rfl
  | succ remaining =>
      have accepted : (memWriteBytes bus memory (ptrs 0) output).1 = true := by
        unfold memWriteBytes
        split_ifs
        · rfl
        · exact reliable.2 _ _ _
      have first : (PsOutputs.put {} 0 output).data 0 = output := by simp [PsOutputs.put]
      rw [writeBack, first]
      revert accepted
      obtain ⟨ok, after⟩ := memWriteBytes bus memory (ptrs 0) output
      rintro rfl
      exact writeBack_empty bus ptrs _ 1 later remaining 1 le_rfl after

end Framing

section Refinement

variable {Memory : Type u}

theorem WellFormed.whole {request : List Byte} (wellFormed : WellFormed request) :
    4 ≤ request.length := by
  have header := wellFormed.2.1
  split_ifs at header <;> omega

theorem buildRsePsReply_call {bus : Bus Memory} (reliable : bus.Reliable) {request : List Byte}
    (services : Services) (memory : Memory) (isCall : IsStorageCall request) {call : PsCall}
    (decoded : storageCall bus request memory = some call) :
    let (reply, next, after) := buildRsePsReply bus request services memory
    let (status, output) := call.answer services.psStore.toFinmap
    reply = storageReply request status output ∧
      next.psStore.toFinmap = call.effect services.psStore.toFinmap ∧
      next.measurements = services.measurements ∧
      after = deliverOutput bus request output (memoryAfterInputs bus request memory) := by
  have parse := parseRsePsRequest_wire reliable isCall.1 memory
  have handled := handleRsePsRequest_call bus memory services isCall
  have present := storageCall_output decoded services.psStore.toFinmap
  rw [decoded] at handled
  obtain ⟨status, outputs, map, measurements⟩ := handled
  unfold buildRsePsReply
  rw [parse]
  dsimp only
  rw [status, outputs]
  have framed := frameReply_wireRequest bus memory
    (call.answer services.psStore.toFinmap).1 (call.answer services.psStore.toFinmap).2
    isCall.1.whole present
  by_cases pointer : isPointerRequest request
  · have access : (wireRequest bus request memory).protocol = rseCommsProtocolPointerAccess :=
      pointer
    by_cases success : (call.answer services.psStore.toFinmap).1 = .success
    · have written := writeBack_put reliable (wireRequest bus request memory).outPtrs
        (call.answer services.psStore.toFinmap).2 (wireRequest bus request memory).outLen
        (memoryAfterInputs bus request memory) (present.imp_right fun both => both.2)
      rw [if_pos ⟨success, access⟩, written]
      refine ⟨framed, map, measurements, ?_⟩
      rw [deliverOutput, if_pos pointer]
      rcases present with silent | ⟨-, asked⟩
      · simp [silent, memWriteBytes]
      · have target : (wireRequest bus request memory).outPtrs 0 = outputPointer request 0 :=
          if_pos ⟨pointer, asked⟩
        rw [target]
        rfl
    · rw [if_neg fun both => success both.1]
      have silent : (call.answer services.psStore.toFinmap).2 = [] :=
        present.resolve_right fun both => success both.1
      refine ⟨framed, map, measurements, ?_⟩
      simp [deliverOutput, silent, memWriteBytes]
  · rw [if_neg fun both => pointer both.2]
    refine ⟨framed, map, measurements, ?_⟩
    rw [deliverOutput, if_neg pointer]

theorem buildRsePsReply_incomplete {bus : Bus Memory} (reliable : bus.Reliable)
    {request : List Byte} (services : Services) (memory : Memory)
    (isCall : IsStorageCall request) (incomplete : storageCall bus request memory = none) :
    buildRsePsReply bus request services memory =
      (storageReply request .invalidArgument [], services,
        memoryAfterInputs bus request memory) := by
  have handled := handleRsePsRequest_call bus memory services isCall
  rw [incomplete] at handled
  have framed := frameReply_wireRequest bus memory .invalidArgument [] isCall.1.whole (.inl rfl)
  rw [PsOutputs.put_nil] at framed
  unfold buildRsePsReply
  rw [parseRsePsRequest_wire reliable isCall.1 memory]
  dsimp only at handled ⊢
  rw [handled, if_neg (by simp), framed]

/-- What follows a handler: the services take no part in it. -/
def finishReply (bus : Bus Memory) (parsed : RsePsRequest) (status : PsaStatus)
    (outputs : PsOutputs) (memory : Memory) : List Byte × Memory :=
  if status = .success ∧ parsed.protocol = rseCommsProtocolPointerAccess then
    let (delivered, memory) := writeBack bus parsed.outPtrs outputs.data parsed.outLen 0 memory
    if delivered then (frameReply parsed status outputs, memory)
    else
      (frameReply parsed .communicationFailure { outputs with sizes := fun _ => 0#32 }, memory)
  else
    (frameReply parsed status outputs, memory)

theorem buildRsePsReply_of_parse {bus : Bus Memory} {request : List Byte} (services : Services)
    {memory after : Memory} {parsed : RsePsRequest}
    (parse : parseRsePsRequest bus request memory = (.ok parsed, after)) :
    buildRsePsReply bus request services memory =
      let result := handleRsePsRequest parsed {} services
      let finished := finishReply bus parsed result.status result.outputs after
      (finished.1, result.services, finished.2) := by
  unfold buildRsePsReply finishReply
  rw [parse]
  dsimp only
  split_ifs <;> rfl

theorem buildRsePsReply_other {bus : Bus Memory} (reliable : bus.Reliable)
    {request : List Byte} (services : Services) (memory : Memory)
    (other : ¬ IsStorageCall request) (store : PsStore) :
    buildRsePsReply bus request { services with psStore := store } memory =
      let (reply, next, after) := buildRsePsReply bus request services memory
      (reply, { next with psStore := store }, after) := by
  cases parse : parseRsePsRequest bus request memory with
  | mk outcome after =>
    cases outcome with
    | error status =>
        unfold buildRsePsReply
        rw [parse]
    | ok parsed =>
        have wellFormed := wellFormed_of_parse parse
        have wire := parseRsePsRequest_wire reliable wellFormed memory
        rw [parse] at wire
        obtain rfl := Except.ok.inj (Prod.mk.inj wire).1
        have foreign := handleRsePsRequest_withStore {} services store
          (show (wireRequest bus request memory).handle = tfmProtectedStorageServiceHandle →
              ¬ IsStorageType (wireRequest bus request memory).type from
            fun handle type => other ⟨wellFormed, handle, type⟩)
        rw [buildRsePsReply_of_parse _ parse, buildRsePsReply_of_parse _ parse, foreign]
        rfl

theorem respondRsePs_refines {bus : Bus Memory} (reliable : bus.Reliable)
    (abstract : StorageSpec Memory) (state : Services × Memory) (request : List Byte)
    (refines : Refines abstract state) :
    (respondRsePs bus state request).1 = (abstract.respond bus request).1 ∧
      Refines (abstract.respond bus request).2 (respondRsePs bus state request).2 := by
  obtain ⟨map, measurements, memory⟩ := abstract
  obtain ⟨services, guest⟩ := state
  obtain ⟨sameMap, sameMeasurements, sameMemory⟩ := refines
  dsimp only at sameMap sameMeasurements sameMemory
  subst sameMap sameMeasurements sameMemory
  unfold respondRsePs StorageSpec.respond
  dsimp only
  by_cases isCall : IsStorageCall request
  · rw [if_pos isCall]
    cases decoded : storageCall bus request memory with
    | none =>
        rw [buildRsePsReply_incomplete reliable services memory isCall decoded]
        exact ⟨rfl, rfl, rfl, rfl⟩
    | some call =>
        obtain ⟨reply, next, kept, after⟩ :=
          buildRsePsReply_call reliable services memory isCall decoded
        exact ⟨reply, next.symm, kept.symm, after.symm⟩
  · rw [if_neg isCall]
    have same := buildRsePsReply_other reliable services memory isCall ∅
    have kept := buildRsePsReply_other reliable services memory isCall services.psStore
    rw [same]
    refine ⟨rfl, ?_, rfl, rfl⟩
    exact congrArg (fun result => result.2.1.psStore.toFinmap) kept.symm

/-- For every sequence of requests, in both wire formats and in any order, the code
gives the replies of the finite map, writes to guest memory what the map answers, and
ends with a store that holds the map. -/
theorem serve_respondRsePs {bus : Bus Memory} (reliable : bus.Reliable)
    (services : Services) (memory : Memory) (requests : List (List Byte)) :
    let specified := serve (StorageSpec.respond bus)
      ⟨services.psStore.toFinmap, services.measurements, memory⟩ requests
    let served := serve (respondRsePs bus) (services, memory) requests
    served.1 = specified.1 ∧ Refines specified.2 served.2 :=
  serve_simulates (respondRsePs_refines reliable) ⟨rfl, rfl, rfl⟩ requests

/-- An embedded `SET` of two bytes under uid 5. -/
def setRequest : List Byte :=
  [0, 1, 1, 0] ++ toBytes 4 tfmProtectedStorageServiceHandle ++
    toBytes 4 (0x030003e9 : BitVec 32) ++ [8, 0, 2, 0, 4, 0, 0, 0] ++
    [5, 0, 0, 0, 0, 0, 0, 0] ++ [0xaa, 0xbb] ++ [0, 0, 0, 0]

/-- A pointer-access `GET` of two bytes, with the uid and the offset in guest memory. -/
def getRequest : List Byte :=
  [1, 2, 1, 0] ++ toBytes 4 tfmProtectedStorageServiceHandle ++
    toBytes 4 (0x020103ea : BitVec 32) ++ [8, 0, 0, 0, 4, 0, 0, 0, 2, 0, 0, 0, 0, 0, 0, 0] ++
    [0, 1, 0, 0, 0, 0, 0, 0] ++ [0, 2, 0, 0, 0, 0, 0, 0] ++ [0, 3, 0, 0, 0, 0, 0, 0] ++
    [0, 0, 0, 0, 0, 0, 0, 0]

/-- Uid 5 where the `GET` names it. -/
def getMemory (address : BitVec 64) : Byte := if address = 0x100 then 5 else 0

/-- The bytes of the `SET` come back where the `GET` asks for them. -/
theorem serve_respondRsePs_set_get :
    let specified := serve (StorageSpec.respond Bus.ram) ⟨∅, fun _ => {}, getMemory⟩
      [setRequest, getRequest]
    let served := serve (respondRsePs Bus.ram) ({}, getMemory) [setRequest, getRequest]
    served.1 = specified.1 ∧ Refines specified.2 served.2 ∧
      served.2.2 0x300 = 0xaa ∧ served.2.2 0x301 = 0xbb := by
  intro specified served
  obtain ⟨replies, refines⟩ := serve_respondRsePs Bus.ram_reliable {} getMemory
    [setRequest, getRequest]
  have read : (served.2.2 0x300, served.2.2 0x301) = (0xaa, 0xbb) := by decide +kernel
  exact ⟨replies, refines, congrArg Prod.fst read, congrArg Prod.snd read⟩

end Refinement

end QboxPlatform.Mhu.Psa
