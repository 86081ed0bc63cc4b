import QboxPlatform.Mhu.Psa.Parse

/-!
# What a request says on the wire

A reading of both request formats that names where each item stands, without the
loops of the parser, and the parser's agreement with it when guest memory
answers every access.
-/

namespace QboxPlatform.Mhu.Psa

open Foundation

universe u

variable {Memory : Type u}

def isPointerRequest (request : List Byte) : Prop :=
  request.getD 0 0 = rseCommsProtocolPointerAccess

instance (request : List Byte) : Decidable (isPointerRequest request) :=
  inferInstanceAs (Decidable (_ = _))

def inputCount (request : List Byte) : Nat := rseCtrlInLen (readLe32 request 8)
def outputCount (request : List Byte) : Nat := rseCtrlOutLen (readLe32 request 8)

/-- The declared size of vector `index`: the inputs come first, then the outputs. -/
def vectorSize (request : List Byte) (index : Nat) : Nat :=
  if isPointerRequest request then (readLe32 request (12 + 4 * index)).toNat
  else (readLe16 request (12 + 2 * index)).toNat

/-- Where input `index` of an embedded request starts. -/
def embeddedOffset (request : List Byte) (index : Nat) : Nat :=
  20 + ((List.range index).map (vectorSize request)).sum

/-- The requests the service understands. -/
def WellFormed (request : List Byte) : Prop :=
  (request.getD 0 0 = rseCommsProtocolEmbed ∨ isPointerRequest request) ∧
    (if isPointerRequest request then 60 else 20) ≤ request.length ∧
    (inputCount request ≤ 4 ∧ outputCount request ≤ 4 ∧
      inputCount request + outputCount request ≤ 4) ∧
    (¬ isPointerRequest request → embeddedOffset request (inputCount request) ≤ request.length)

instance (request : List Byte) : Decidable (WellFormed request) :=
  inferInstanceAs (Decidable (_ ∧ _ ∧ _ ∧ _))

/-- Guest memory when input `index` of a pointer-access request is fetched: the
fetches before it may have changed what is behind the bus. -/
def memoryBefore (bus : Bus Memory) (request : List Byte) (memory : Memory) : Nat → Memory
  | 0 => memory
  | index + 1 =>
      (memReadBytes bus (memoryBefore bus request memory index)
        (pointerHostPtrs request index) (vectorSize request index)).2.2

/-- The contents of input `index`. -/
def inputVector (bus : Bus Memory) (request : List Byte) (memory : Memory) (index : Nat) :
    List Byte :=
  if isPointerRequest request then
    (memReadBytes bus (memoryBefore bus request memory index)
      (pointerHostPtrs request index) (vectorSize request index)).2.1
  else
    (request.drop (embeddedOffset request index)).take (vectorSize request index)

/-- Guest memory once all inputs are fetched. -/
def memoryAfterInputs (bus : Bus Memory) (request : List Byte) (memory : Memory) : Memory :=
  if isPointerRequest request then memoryBefore bus request memory (inputCount request)
  else memory

/-- The request as a record. -/
def wireRequest (bus : Bus Memory) (request : List Byte) (memory : Memory) : RsePsRequest where
  protocol := request.getD 0 0
  seq := request.getD 1 0
  clientId := (request.getD 2 0).setWidth 16 ||| ((request.getD 3 0).setWidth 16 <<< 8)
  handle := readLe32 request 4
  ctrl := readLe32 request 8
  type := rseCtrlType (readLe32 request 8)
  inLen := inputCount request
  outLen := outputCount request
  inputs index :=
    if index < inputCount request then inputVector bus request memory index else []
  outCaps index :=
    if index < outputCount request then
      BitVec.ofNat 32 (vectorSize request (inputCount request + index))
    else 0
  outPtrs index :=
    if isPointerRequest request ∧ index < outputCount request then outputPointer request index
    else 0

theorem fill_update {α : Type u} (vector inputs : Nat → α) (index remaining : Nat) :
    (fun position =>
      if index + 1 ≤ position ∧ position < index + 1 + remaining then vector position
      else Function.update inputs index (vector index) position) =
      fun position =>
        if index ≤ position ∧ position < index + (remaining + 1) then vector position
        else inputs position := by
  funext position
  by_cases here : position = index
  · subst here
    simp
  · rw [Function.update_of_ne here]
    simp only [show (index ≤ position ∧ position < index + (remaining + 1)) ↔
      (index + 1 ≤ position ∧ position < index + 1 + remaining) by omega]

section Embedded

theorem embeddedOffset_succ (request : List Byte) (index : Nat) :
    embeddedOffset request (index + 1) =
      embeddedOffset request index + vectorSize request index := by
  simp [embeddedOffset, List.range_succ, Nat.add_assoc]

theorem embeddedOffset_le (request : List Byte) (index more : Nat) :
    embeddedOffset request index ≤ embeddedOffset request (index + more) := by
  induction more with
  | zero => rfl
  | succ more inductionHypothesis =>
      rw [← Nat.add_assoc, embeddedOffset_succ]
      omega

theorem embedIoSizes_eq {request : List Byte} (embed : ¬ isPointerRequest request)
    (index : Nat) : embedIoSizes request index = BitVec.ofNat 32 (vectorSize request index) := by
  rw [vectorSize, if_neg embed, embedIoSizes]
  apply BitVec.eq_of_toNat_eq
  simp

theorem toNat_embedIoSizes {request : List Byte} (embed : ¬ isPointerRequest request)
    (index : Nat) : (embedIoSizes request index).toNat = vectorSize request index := by
  have bounded := (readLe16 request (12 + 2 * index)).isLt
  rw [embedIoSizes_eq embed, vectorSize, if_neg embed, BitVec.toNat_ofNat]
  omega

/-- The cutting loop takes the inputs it has not taken yet, if the request is long
enough for all of them. -/
theorem takeEmbeddedInputs_eq {request : List Byte} (embed : ¬ isPointerRequest request)
    (remaining index : Nat) (inputs : Nat → List Byte)
    (start : embeddedOffset request index ≤ request.length) :
    takeEmbeddedInputs request (embedIoSizes request) remaining index
        (embeddedOffset request index) inputs =
      if embeddedOffset request (index + remaining) ≤ request.length then
        some fun position =>
          if index ≤ position ∧ position < index + remaining then
            (request.drop (embeddedOffset request position)).take (vectorSize request position)
          else inputs position
      else none := by
  induction remaining generalizing index inputs with
  | zero =>
      rw [takeEmbeddedInputs, if_pos (by simpa using start)]
      congr 1
      funext position
      rw [if_neg (by omega)]
  | succ remaining inductionHypothesis =>
      have grows := embeddedOffset_le request (index + 1) remaining
      have reassociate : index + (remaining + 1) = index + 1 + remaining := by omega
      simp only [takeEmbeddedInputs, toNat_embedIoSizes embed, ← embeddedOffset_succ]
      rw [reassociate]
      by_cases short : request.length < embeddedOffset request (index + 1)
      · rw [if_pos short, if_neg (by omega)]
      · rw [if_neg short, inductionHypothesis (index + 1) _ (by omega)]
        split_ifs
        · rw [fill_update fun position =>
            (request.drop (embeddedOffset request position)).take (vectorSize request position),
            reassociate]
        · rfl

end Embedded

section PointerAccess

theorem fetchInputs_eq {bus : Bus Memory} (reliable : bus.Reliable) {request : List Byte}
    (pointer : isPointerRequest request) (memory : Memory) (remaining index : Nat)
    (inputs : Nat → List Byte) :
    fetchInputs bus (pointerIoSizes request) (pointerHostPtrs request) remaining index inputs
        (memoryBefore bus request memory index) =
      (some fun position =>
        if index ≤ position ∧ position < index + remaining then
          inputVector bus request memory position
        else inputs position,
        memoryBefore bus request memory (index + remaining)) := by
  induction remaining generalizing index inputs with
  | zero =>
      simp only [fetchInputs, Nat.add_zero, Prod.mk.injEq, and_true]
      congr 1
      funext position
      rw [if_neg (by omega)]
  | succ remaining inductionHypothesis =>
      have size : (pointerIoSizes request index).toNat = vectorSize request index := by
        rw [vectorSize, if_pos pointer, pointerIoSizes]
      have answered : (memReadBytes bus (memoryBefore bus request memory index)
          (pointerHostPtrs request index) (vectorSize request index)).1 = true := by
        unfold memReadBytes
        split_ifs
        · rfl
        · exact reliable.1 _ _ _
      have vector : inputVector bus request memory index =
          (memReadBytes bus (memoryBefore bus request memory index)
            (pointerHostPtrs request index) (vectorSize request index)).2.1 := if_pos pointer
      have next : memoryBefore bus request memory (index + 1) =
          (memReadBytes bus (memoryBefore bus request memory index)
            (pointerHostPtrs request index) (vectorSize request index)).2.2 := rfl
      simp only [fetchInputs, size]
      revert answered vector next
      obtain ⟨ok, data, after⟩ := memReadBytes bus (memoryBefore bus request memory index)
        (pointerHostPtrs request index) (vectorSize request index)
      rintro rfl vector next
      dsimp only at vector next ⊢
      have reassociate : index + 1 + remaining = index + (remaining + 1) := by omega
      rw [← next, ← vector, inductionHypothesis (index + 1), fill_update, reassociate]

end PointerAccess

section Agreement

theorem withVectors_eq_wireRequest {bus : Bus Memory} {request : List Byte} {memory : Memory}
    {vectors : Nat → List Byte} {ioSizes : Nat → BitVec 32} {ptrs : Nat → BitVec 64}
    (inputs : ∀ index, vectors index =
      if index < inputCount request then inputVector bus request memory index else [])
    (sizes : ∀ index, ioSizes index = BitVec.ofNat 32 (vectorSize request index))
    (targets : ∀ index < outputCount request,
      ptrs index = if isPointerRequest request then outputPointer request index else 0) :
    ((requestHeader request).withHeader request).withVectors vectors ioSizes ptrs =
      wireRequest bus request memory := by
  have capacities : (fun index => if index < outputCount request then
        ioSizes (inputCount request + index) else 0#32) =
      fun index => if index < outputCount request then
        BitVec.ofNat 32 (vectorSize request (inputCount request + index)) else 0 := by
    funext index
    rw [sizes]
    rfl
  have pointers : (fun index => if index < outputCount request then ptrs index else 0#64) =
      fun index => if isPointerRequest request ∧ index < outputCount request then
        outputPointer request index else 0 := by
    funext index
    by_cases inside : index < outputCount request
    · rw [if_pos inside, targets index inside]
      simp [inside]
    · simp [inside]
  simp only [RsePsRequest.withVectors, RsePsRequest.withHeader, requestHeader, wireRequest,
    RsePsRequest.mk.injEq, true_and]
  exact ⟨rfl, rfl, funext inputs, capacities, pointers⟩

theorem parseRsePsRequest_wire {bus : Bus Memory} (reliable : bus.Reliable)
    {request : List Byte} (wellFormed : WellFormed request) (memory : Memory) :
    parseRsePsRequest bus request memory =
      (.ok (wireRequest bus request memory), memoryAfterInputs bus request memory) := by
  obtain ⟨protocol, header, counts, fits⟩ := wellFormed
  have whole : ¬ request.length < 4 := by
    split_ifs at header <;> omega
  have counted : ¬ ¬ ((requestHeader request).withHeader request).CountsFit :=
    not_not.mpr counts
  have asked : ((requestHeader request).withHeader request).inLen = inputCount request := rfl
  have start : ((requestHeader request).withHeader request).inputs = fun _ => [] := rfl
  unfold parseRsePsRequest
  dsimp only
  rw [if_neg whole, memoryAfterInputs]
  by_cases pointer : isPointerRequest request
  · have access : (requestHeader request).protocol = rseCommsProtocolPointerAccess := pointer
    have fetched := fetchInputs_eq reliable pointer memory (inputCount request) 0 fun _ => []
    rw [memoryBefore, Nat.zero_add] at fetched
    rw [if_pos pointer] at header ⊢
    rw [access, if_neg (by decide), if_pos rfl, parseRsePsPointerRequest,
      if_neg (by simp only [psaMaxIovec]; omega)]
    dsimp only
    rw [if_neg counted, asked, start, fetched]
    dsimp only
    rw [withVectors_eq_wireRequest]
    · intro index
      simp
    · intro index
      rw [vectorSize, if_pos pointer, pointerIoSizes, BitVec.ofNat_toNat, BitVec.setWidth_eq]
    · intro index _
      rw [if_pos pointer]
      rfl
  · have embed : (requestHeader request).protocol = rseCommsProtocolEmbed :=
      protocol.resolve_right pointer
    have cut := takeEmbeddedInputs_eq pointer (inputCount request) 0 (fun _ => [])
      ((embeddedOffset_le request 0 _).trans (by simpa using fits pointer))
    rw [if_pos (by simpa using fits pointer)] at cut
    rw [if_neg pointer] at header ⊢
    rw [if_pos embed, parseRsePsEmbedRequest, if_neg (by simp only [psaMaxIovec]; omega)]
    dsimp only
    rw [if_neg counted, asked, start, show 20 = embeddedOffset request 0 from rfl, cut]
    dsimp only
    rw [withVectors_eq_wireRequest _ (embedIoSizes_eq pointer)]
    · intro index _
      rw [if_neg pointer]
      rfl
    · intro index
      simp [inputVector, pointer]

theorem wellFormed_of_parse {bus : Bus Memory} {request : List Byte} {parsed : RsePsRequest}
    {memory after : Memory}
    (succeeded : parseRsePsRequest bus request memory = (.ok parsed, after)) :
    WellFormed request := by
  unfold parseRsePsRequest at succeeded
  dsimp only at succeeded
  split_ifs at succeeded with short embed pointer
  · simp at succeeded
  · have embedded : ¬ isPointerRequest request := fun contrary =>
      absurd (embed.symm.trans contrary) (by decide)
    obtain ⟨parse, -⟩ := Prod.mk.inj succeeded
    unfold parseRsePsEmbedRequest at parse
    dsimp only at parse
    split_ifs at parse with header counts
    have enough : 20 ≤ request.length := by
      simp only [psaMaxIovec] at header
      omega
    refine ⟨.inl embed, by rwa [if_neg embedded], counts, fun _ => ?_⟩
    by_contra overrun
    have cut := takeEmbeddedInputs_eq embedded (inputCount request) 0 (fun _ => []) enough
    rw [if_neg (by simpa using overrun)] at cut
    have failed : takeEmbeddedInputs request (embedIoSizes request)
        ((requestHeader request).withHeader request).inLen 0 20
        ((requestHeader request).withHeader request).inputs = none := cut
    simp [failed] at parse
  · unfold parseRsePsPointerRequest at succeeded
    dsimp only at succeeded
    split_ifs at succeeded with header counts
    · simp at succeeded
    case neg => simp at succeeded
    have access : isPointerRequest request := pointer
    have enough : 60 ≤ request.length := by
      simp only [psaMaxIovec] at header
      omega
    exact ⟨.inr access, by rwa [if_pos access], counts, fun embedded => absurd access embedded⟩
  · simp at succeeded

end Agreement

end QboxPlatform.Mhu.Psa
