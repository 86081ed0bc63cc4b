import QboxPlatform.Mhu.Psa.Outputs
import QboxPlatform.Mhu.Psa.Wire

/-!
# Protected storage as a finite map

An abstract service that answers storage calls from a finite map, and every other
request by the code run with an empty store.
-/

namespace QboxPlatform.Mhu.Psa

open Foundation

universe u

/-- The abstract store. -/
abbrev PsMap := Finmap fun _ : BitVec 64 => PsEntry

/-- A storage call with its decoded arguments. -/
inductive PsCall
  | set (uid : BitVec 64) (data : List Byte) (flags : BitVec 32)
  | get (uid : BitVec 64) (offset capacity : Nat)
  | getInfo (uid : BitVec 64) (capacity : Nat)
  | remove (uid : BitVec 64)

/-- The status of a call and the contents of its output vector. -/
def PsCall.answer (map : PsMap) : PsCall → PsaStatus × List Byte
  | set _ _ _ => (.success, [])
  | get uid offset capacity =>
      match map.lookup uid with
      | none => (.doesNotExist, [])
      | some entry =>
          if entry.data.length < offset then (.invalidArgument, [])
          else
            (.success,
              (entry.data.drop offset).take (min (entry.data.length - offset) capacity))
  | getInfo uid capacity =>
      match map.lookup uid with
      | none => (.doesNotExist, [])
      | some entry =>
          if capacity < 12 then (.invalidArgument, [])
          else
            let size := toBytes 4 (BitVec.ofNat 32 entry.data.length)
            (.success, size ++ size ++ toBytes 4 entry.flags)
  | remove uid => (if uid ∈ map then .success else .doesNotExist, [])

/-- What a call does to the map. -/
def PsCall.effect (map : PsMap) : PsCall → PsMap
  | set uid data flags => map.insert uid ⟨data, flags⟩
  | get _ _ _ => map
  | getInfo _ _ => map
  | remove uid => map.erase uid

/-- The four message types that read or change the map. -/
def IsStorageType (type : BitVec 32) : Prop :=
  type = tfmPsSet ∨ type = tfmPsGet ∨ type = tfmPsGetInfo ∨ type = tfmPsRemove

def messageType (request : List Byte) : BitVec 32 := rseCtrlType (readLe32 request 8)

/-- A well-formed request for the map. -/
def IsStorageCall (request : List Byte) : Prop :=
  WellFormed request ∧ readLe32 request 4 = tfmProtectedStorageServiceHandle ∧
    IsStorageType (messageType request)

instance (type : BitVec 32) : Decidable (IsStorageType type) :=
  inferInstanceAs (Decidable (_ ∨ _ ∨ _ ∨ _))

instance (request : List Byte) : Decidable (IsStorageCall request) :=
  inferInstanceAs (Decidable (_ ∧ _ ∧ _))

section Specification

variable {Memory : Type u}

/-- The arguments of a storage call, in the vectors where each message type has them:
the uid in input 0, then the data and the flags of a `SET` or the offset of a `GET`. -/
def storageCall (bus : Bus Memory) (request : List Byte) (memory : Memory) : Option PsCall :=
  let input := inputVector bus request memory
  let uid := ofBytes 64 ((input 0).take 8)
  let capacity := vectorSize request (inputCount request)
  if messageType request = tfmPsSet then
    if 3 ≤ inputCount request ∧ 8 ≤ (input 0).length ∧ 4 ≤ (input 2).length then
      some (.set uid (input 1) (ofBytes 32 ((input 2).take 4)))
    else none
  else if messageType request = tfmPsGet then
    if 2 ≤ inputCount request ∧ 1 ≤ outputCount request ∧ 8 ≤ (input 0).length ∧
        4 ≤ (input 1).length then
      some (.get uid (ofBytes 32 ((input 1).take 4)).toNat capacity)
    else none
  else if messageType request = tfmPsGetInfo then
    if 1 ≤ inputCount request ∧ 1 ≤ outputCount request ∧ 8 ≤ (input 0).length then
      some (.getInfo uid capacity)
    else none
  else
    if 1 ≤ inputCount request ∧ 8 ≤ (input 0).length then some (.remove uid) else none

/-- A reply with one output vector: the four bytes the request starts with, the status,
four sizes, and in an embedded reply the output. -/
def storageReply (request : List Byte) (status : PsaStatus) (output : List Byte) : List Byte :=
  request.take 4 ++ toBytes 4 status.code ++
    if isPointerRequest request then
      toBytes 4 (BitVec.ofNat 32 output.length) ++ List.replicate 12 0
    else
      toBytes 2 (BitVec.ofNat 16 output.length) ++ List.replicate 6 0 ++ output

/-- Put the output where a pointer-access request wants it. -/
def deliverOutput (bus : Bus Memory) (request : List Byte) (output : List Byte)
    (memory : Memory) : Memory :=
  if isPointerRequest request then
    (memWriteBytes bus memory (outputPointer request 0) output).2
  else memory

/-- The state of the abstract service. -/
structure StorageSpec (Memory : Type u) where
  map : PsMap
  measurements : Nat → MeasurementEntry
  memory : Memory

def StorageSpec.respond (bus : Bus Memory) (state : StorageSpec Memory) (request : List Byte) :
    List Byte × StorageSpec Memory :=
  if IsStorageCall request then
    let fetched := memoryAfterInputs bus request state.memory
    match storageCall bus request state.memory with
    | none => (storageReply request .invalidArgument [], { state with memory := fetched })
    | some call =>
        let (status, output) := call.answer state.map
        (storageReply request status output,
          { state with
            map := call.effect state.map
            memory := deliverOutput bus request output fetched })
  else
    let (reply, services, memory) :=
      buildRsePsReply bus request ⟨∅, state.measurements⟩ state.memory
    (reply, { state with measurements := services.measurements, memory := memory })

/-- The code as a service. -/
def respondRsePs (bus : Bus Memory) (state : Services × Memory) (request : List Byte) :
    List Byte × (Services × Memory) :=
  let (reply, services, memory) := buildRsePsReply bus request state.1 state.2
  (reply, (services, memory))

/-- The code's state stands for the abstract one. -/
structure Refines (abstract : StorageSpec Memory) (state : Services × Memory) : Prop where
  map : abstract.map = state.1.psStore.toFinmap
  measurements : abstract.measurements = state.1.measurements
  memory : abstract.memory = state.2

end Specification

section OtherRequests

/-- Replace the store in a result. -/
def HandlerResult.withStore (result : HandlerResult) (store : PsStore) : HandlerResult :=
  { result with services := { result.services with psStore := store } }

theorem handleRseMeasuredBootRequest_withStore (request : RsePsRequest) (outputs : PsOutputs)
    (services : Services) (store : PsStore) :
    handleRseMeasuredBootRequest request outputs { services with psStore := store } =
      (handleRseMeasuredBootRequest request outputs services).withStore store := by
  unfold handleRseMeasuredBootRequest measuredBootExtend measuredBootRead
  split_ifs <;> rfl

theorem handleRseFwuRequest_withStore (request : RsePsRequest) (outputs : PsOutputs)
    (services : Services) (store : PsStore) :
    handleRseFwuRequest request outputs { services with psStore := store } =
      (handleRseFwuRequest request outputs services).withStore store := by
  unfold handleRseFwuRequest
  dsimp only
  split_ifs <;> rfl

theorem handleProtectedStorage_withStore {request : RsePsRequest} (outputs : PsOutputs)
    (services : Services) (store : PsStore) (other : ¬ IsStorageType request.type) :
    handleProtectedStorage request outputs { services with psStore := store } =
      (handleProtectedStorage request outputs services).withStore store := by
  simp only [IsStorageType, not_or] at other
  obtain ⟨notSet, notGet, notInfo, notRemove⟩ := other
  unfold handleProtectedStorage psGetSupport
  rw [if_neg notSet, if_neg notGet, if_neg notInfo, if_neg notRemove, if_neg notSet,
    if_neg notGet, if_neg notInfo, if_neg notRemove]
  split_ifs <;> rfl

/-- Requests that are not for the map neither read nor change it. -/
theorem handleRsePsRequest_withStore {request : RsePsRequest} (outputs : PsOutputs)
    (services : Services) (store : PsStore)
    (other : request.handle = tfmProtectedStorageServiceHandle → ¬ IsStorageType request.type) :
    handleRsePsRequest request outputs { services with psStore := store } =
      (handleRsePsRequest request outputs services).withStore store := by
  unfold handleRsePsRequest
  split_ifs with boot firmware foreign
  · exact handleRseMeasuredBootRequest_withStore request outputs services store
  · exact handleRseFwuRequest_withStore request outputs services store
  · rfl
  · exact handleProtectedStorage_withStore outputs services store
      (other (not_not.mp foreign))

end OtherRequests

section Calls

variable {Memory : Type u}

/-- A handler that did what the abstract call does. -/
structure Performs (call : PsCall) (services : Services) (result : HandlerResult) : Prop where
  status : result.status = (call.answer services.psStore.toFinmap).1
  outputs : result.outputs = PsOutputs.put {} 0 (call.answer services.psStore.toFinmap).2
  map : result.services.psStore.toFinmap = call.effect services.psStore.toFinmap
  measurements : result.services.measurements = services.measurements

theorem PsOutputs.put_nil : PsOutputs.put {} 0 [] = {} := by
  simp [PsOutputs.put]

theorem readLe_zero (width : Nat) {input : List Byte} (enough : width / 8 ≤ input.length) :
    readLe width input 0 = ofBytes width (input.take (width / 8)) := by
  rw [readLe, if_neg (by omega), List.drop_zero]

theorem wireRequest_inputs (bus : Bus Memory) (request : List Byte) (memory : Memory)
    {index : Nat} (inside : index < inputCount request) :
    (wireRequest bus request memory).inputs index = inputVector bus request memory index :=
  if_pos inside

theorem wireRequest_input_short (bus : Bus Memory) (request : List Byte) (memory : Memory)
    (index size : Nat) (positive : 0 < size) :
    ((wireRequest bus request memory).inputs index).length < size ↔
      ¬ (index < inputCount request ∧ size ≤ (inputVector bus request memory index).length) := by
  by_cases inside : index < inputCount request
  · rw [wireRequest_inputs bus request memory inside]
    omega
  · simp [wireRequest, inside, positive]

theorem vectorSize_lt (request : List Byte) (index : Nat) : vectorSize request index < 2 ^ 32 := by
  unfold vectorSize
  split_ifs
  · exact (readLe32 request (12 + 4 * index)).isLt
  · have bounded := (readLe16 request (12 + 2 * index)).isLt
    omega

theorem wireRequest_capacity (bus : Bus Memory) (request : List Byte) (memory : Memory)
    (asked : 1 ≤ outputCount request) :
    ((wireRequest bus request memory).outCaps 0).toNat =
      vectorSize request (inputCount request) := by
  have bounded := vectorSize_lt request (inputCount request)
  simp only [wireRequest]
  rw [if_pos (by omega), BitVec.toNat_ofNat, Nat.add_zero, Nat.mod_eq_of_lt bounded]

theorem erase_of_notMem {map : PsMap} {uid : BitVec 64} (missing : uid ∉ map) :
    map.erase uid = map := by
  apply Finmap.ext_lookup
  intro other
  by_cases same : other = uid
  · subst same
    rw [Finmap.lookup_erase, Finmap.lookup_eq_none.mpr missing]
  · exact Finmap.lookup_erase_ne same

theorem psSet_performs (bus : Bus Memory) {request : List Byte} (memory : Memory)
    (services : Services)
    (complete : 3 ≤ inputCount request ∧ 8 ≤ (inputVector bus request memory 0).length ∧
      4 ≤ (inputVector bus request memory 2).length) :
    Performs
      (.set (ofBytes 64 ((inputVector bus request memory 0).take 8))
        (inputVector bus request memory 1)
        (ofBytes 32 ((inputVector bus request memory 2).take 4)))
      services (psSet (wireRequest bus request memory) {} services) := by
  obtain ⟨count, uid, flags⟩ := complete
  have asked : (wireRequest bus request memory).inLen = inputCount request := rfl
  unfold psSet
  rw [wireRequest_inputs bus request memory (show 0 < inputCount request by omega),
    wireRequest_inputs bus request memory (show 1 < inputCount request by omega),
    wireRequest_inputs bus request memory (show 2 < inputCount request by omega), asked,
    if_neg (by omega), readLe64, readLe_zero 64 uid, readLe32, readLe_zero 32 flags]
  exact ⟨rfl, PsOutputs.put_nil.symm, (Finmap.insert_toFinmap _ _ _).symm, rfl⟩

theorem psGet_performs (bus : Bus Memory) {request : List Byte} (memory : Memory)
    (services : Services)
    (complete : 2 ≤ inputCount request ∧ 1 ≤ outputCount request ∧
      8 ≤ (inputVector bus request memory 0).length ∧
      4 ≤ (inputVector bus request memory 1).length) :
    Performs
      (.get (ofBytes 64 ((inputVector bus request memory 0).take 8))
        (ofBytes 32 ((inputVector bus request memory 1).take 4)).toNat
        (vectorSize request (inputCount request)))
      services (psGet (wireRequest bus request memory) {} services) := by
  obtain ⟨count, output, uid, offset⟩ := complete
  have asked : (wireRequest bus request memory).inLen = inputCount request := rfl
  have wanted : (wireRequest bus request memory).outLen = outputCount request := rfl
  have capacity := wireRequest_capacity bus request memory output
  unfold psGet
  rw [wireRequest_inputs bus request memory (show 0 < inputCount request by omega),
    wireRequest_inputs bus request memory (show 1 < inputCount request by omega), asked, wanted,
    if_neg (by omega), readLe64, readLe_zero 64 uid, readLe32, readLe_zero 32 offset, capacity,
    ← Finmap.lookup_toFinmap]
  dsimp only
  cases found : services.psStore.toFinmap.lookup
      (ofBytes 64 ((inputVector bus request memory 0).take 8)) with
  | none =>
      constructor <;> simp [PsCall.answer, PsCall.effect, found, PsOutputs.put_nil]
  | some entry =>
      dsimp only
      split_ifs with beyond
      · constructor <;> simp [PsCall.answer, PsCall.effect, found, beyond, PsOutputs.put_nil]
      · have fits : (wireRequest bus request memory).Accepts 0
            ((entry.data.drop (ofBytes 32 ((inputVector bus request memory 1).take 4)).toNat).take
              (min (entry.data.length -
                (ofBytes 32 ((inputVector bus request memory 1).take 4)).toNat)
                (vectorSize request (inputCount request)))) := by
          refine ⟨by omega, by simp, ?_⟩
          rw [capacity, List.length_take]
          omega
        rw [setPsOutput_eq, if_pos fits]
        constructor <;> simp [PsCall.answer, PsCall.effect, found, beyond]

theorem psGetInfo_performs (bus : Bus Memory) {request : List Byte} (memory : Memory)
    (services : Services)
    (complete : 1 ≤ inputCount request ∧ 1 ≤ outputCount request ∧
      8 ≤ (inputVector bus request memory 0).length) :
    Performs
      (.getInfo (ofBytes 64 ((inputVector bus request memory 0).take 8))
        (vectorSize request (inputCount request)))
      services (psGetInfo (wireRequest bus request memory) {} services) := by
  obtain ⟨count, output, uid⟩ := complete
  have asked : (wireRequest bus request memory).inLen = inputCount request := rfl
  have wanted : (wireRequest bus request memory).outLen = outputCount request := rfl
  have capacity := wireRequest_capacity bus request memory output
  unfold psGetInfo
  rw [wireRequest_inputs bus request memory (show 0 < inputCount request by omega), asked, wanted,
    if_neg (by omega), readLe64, readLe_zero 64 uid, ← Finmap.lookup_toFinmap]
  cases found : services.psStore.toFinmap.lookup
      (ofBytes 64 ((inputVector bus request memory 0).take 8)) with
  | none =>
      constructor <;> simp [PsCall.answer, PsCall.effect, found, PsOutputs.put_nil]
  | some entry =>
      have accepts : (wireRequest bus request memory).Accepts 0 (psInfo entry) ↔
          ¬ vectorSize request (inputCount request) < 12 := by
        simp only [RsePsRequest.Accepts, wanted, capacity, psInfo, List.length_append,
          length_toBytes, psaMaxIovec]
        omega
      dsimp only
      rw [setPsOutput_eq]
      by_cases tight : vectorSize request (inputCount request) < 12
      · rw [if_neg (by simp [accepts, tight])]
        constructor <;> simp [PsCall.answer, PsCall.effect, found, tight, PsOutputs.put_nil]
      · rw [if_pos (accepts.mpr tight)]
        constructor <;> simp [PsCall.answer, PsCall.effect, found, tight, psInfo]

theorem psRemove_performs (bus : Bus Memory) {request : List Byte} (memory : Memory)
    (services : Services)
    (complete : 1 ≤ inputCount request ∧ 8 ≤ (inputVector bus request memory 0).length) :
    Performs (.remove (ofBytes 64 ((inputVector bus request memory 0).take 8)))
      services (psRemove (wireRequest bus request memory) {} services) := by
  obtain ⟨count, uid⟩ := complete
  have asked : (wireRequest bus request memory).inLen = inputCount request := rfl
  unfold psRemove
  rw [wireRequest_inputs bus request memory (show 0 < inputCount request by omega), asked,
    if_neg (by omega), readLe64, readLe_zero 64 uid]
  split_ifs with absent
  · have missing : ofBytes 64 ((inputVector bus request memory 0).take 8) ∉
        services.psStore.toFinmap := AList.lookup_eq_none.mp absent
    exact ⟨by simp [PsCall.answer, missing], PsOutputs.put_nil.symm,
      (erase_of_notMem missing).symm, rfl⟩
  · have present : ofBytes 64 ((inputVector bus request memory 0).take 8) ∈
        services.psStore.toFinmap := by
      by_contra missing
      exact absent (AList.lookup_eq_none.mpr missing)
    exact ⟨by simp [PsCall.answer, present], PsOutputs.put_nil.symm,
      (Finmap.erase_toFinmap _ _).symm, rfl⟩

/-- The handler of a storage call does what the abstract call does, and refuses
incomplete arguments. -/
theorem handleRsePsRequest_call (bus : Bus Memory) {request : List Byte} (memory : Memory)
    (services : Services) (isCall : IsStorageCall request) :
    match storageCall bus request memory with
    | some call =>
        Performs call services (handleRsePsRequest (wireRequest bus request memory) {} services)
    | none =>
        handleRsePsRequest (wireRequest bus request memory) {} services =
          ⟨.invalidArgument, {}, services⟩ := by
  obtain ⟨-, handle, type⟩ := isCall
  have dispatched : handleRsePsRequest (wireRequest bus request memory) {} services =
      handleProtectedStorage (wireRequest bus request memory) {} services := by
    have same : (wireRequest bus request memory).handle = tfmProtectedStorageServiceHandle :=
      handle
    unfold handleRsePsRequest
    rw [same, if_neg (by decide), if_neg (by decide), if_neg (by simp)]
  have message : (wireRequest bus request memory).type = messageType request := rfl
  -- An argument that is missing is shorter than the handlers ask for, and each of them refuses it.
  have asked : (wireRequest bus request memory).inLen = inputCount request := rfl
  have wanted : (wireRequest bus request memory).outLen = outputCount request := rfl
  have uid := wireRequest_input_short bus request memory 0 8 (by decide)
  have offset := wireRequest_input_short bus request memory 1 4 (by decide)
  have flags := wireRequest_input_short bus request memory 2 4 (by decide)
  rw [dispatched]
  unfold handleProtectedStorage storageCall
  rw [message]
  dsimp only
  by_cases isSet : messageType request = tfmPsSet
  · rw [if_pos isSet, if_pos isSet]
    split_ifs with complete
    · exact psSet_performs bus memory services complete
    · exact if_pos (by omega)
  rw [if_neg isSet, if_neg isSet]
  by_cases isGet : messageType request = tfmPsGet
  · rw [if_pos isGet, if_pos isGet]
    split_ifs with complete
    · exact psGet_performs bus memory services complete
    · exact if_pos (by omega)
  rw [if_neg isGet, if_neg isGet]
  by_cases isGetInfo : messageType request = tfmPsGetInfo
  · rw [if_pos isGetInfo, if_pos isGetInfo]
    split_ifs with complete
    · exact psGetInfo_performs bus memory services complete
    · exact if_pos (by omega)
  rw [if_neg isGetInfo, if_neg isGetInfo]
  have isRemove : messageType request = tfmPsRemove := by
    rcases type with contrary | contrary | contrary | remove
    · exact absurd contrary isSet
    · exact absurd contrary isGet
    · exact absurd contrary isGetInfo
    · exact remove
  rw [if_pos isRemove]
  split_ifs with complete
  · exact psRemove_performs bus memory services complete
  · exact if_pos (by omega)

end Calls

end QboxPlatform.Mhu.Psa
