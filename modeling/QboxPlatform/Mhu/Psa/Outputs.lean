import QboxPlatform.Mhu.Psa.Service

/-!
# What handlers leave in the output vectors

Every handler but a measured-boot read fills in output 0 at most, and nothing
when it fails.  A read from a valid slot is the one request with several outputs.
-/

namespace QboxPlatform.Mhu.Psa

open Foundation

/-- `set_ps_output` accepts the value: the caller asked for this output and gave it
enough room. -/
def RsePsRequest.Accepts (request : RsePsRequest) (index : Nat) (value : List Byte) : Prop :=
  index < request.outLen ∧ index < psaMaxIovec ∧ value.length ≤ (request.outCaps index).toNat

instance (request : RsePsRequest) (index : Nat) (value : List Byte) :
    Decidable (request.Accepts index value) :=
  inferInstanceAs (Decidable (_ ∧ _ ∧ _))

theorem setPsOutput_eq (request : RsePsRequest) (outputs : PsOutputs) (index : Nat)
    (value : List Byte) :
    setPsOutput request outputs index value =
      if request.Accepts index value then (.success, outputs.put index value)
      else (.invalidArgument, outputs) := by
  unfold setPsOutput
  by_cases accepted : request.Accepts index value
  · obtain ⟨asked, bounded, roomy⟩ := accepted
    rw [if_neg (by omega), if_neg (by omega), if_pos ⟨asked, bounded, roomy⟩]
  · rw [if_neg accepted]
    split_ifs with unasked tight
    · rfl
    · rfl
    · exact absurd ⟨by omega, by omega, by omega⟩ accepted

/-- The outputs record the sizes of their vectors, within what the caller asked for. -/
structure PsOutputs.Consistent (request : RsePsRequest) (outputs : PsOutputs) : Prop where
  size : ∀ index, outputs.sizes index = BitVec.ofNat 32 (outputs.data index).length
  fits : ∀ index, (outputs.data index).length ≤ (request.outCaps index).toNat
  absent : ∀ index, request.outLen ≤ index → outputs.data index = []

theorem PsOutputs.consistent_empty (request : RsePsRequest) :
    PsOutputs.Consistent request {} where
  size := by simp
  fits := by simp
  absent := by simp

theorem PsOutputs.Consistent.put {request : RsePsRequest} {outputs : PsOutputs} {index : Nat}
    {value : List Byte} (consistent : outputs.Consistent request)
    (accepted : request.Accepts index value) : (outputs.put index value).Consistent request where
  size other := by
    by_cases same : other = index
    · subst same
      simp [PsOutputs.put]
    · simp [PsOutputs.put, same, consistent.size]
  fits other := by
    by_cases same : other = index
    · subst same
      simpa [PsOutputs.put] using accepted.2.2
    · simpa [PsOutputs.put, same] using consistent.fits other
  absent other beyond := by
    have different : other ≠ index := by
      have := accepted.1
      omega
    simpa [PsOutputs.put, different] using consistent.absent other beyond

/-- A handler result with nothing but output 0, and nothing at all on failure. -/
def HandlerResult.SingleOutput (request : RsePsRequest) (result : HandlerResult) : Prop :=
  result.status ≠ .success ∧ result.outputs = {} ∨
    result.status = .success ∧ result.outputs.Consistent request ∧
      ∀ index, 1 ≤ index → result.outputs.data index = []

theorem HandlerResult.singleOutput_of_silent {request : RsePsRequest} {result : HandlerResult}
    (succeeded : result.status = .success) (empty : result.outputs = {}) :
    result.SingleOutput request := by
  refine .inr ⟨succeeded, ?_, ?_⟩
  · rw [empty]
    exact PsOutputs.consistent_empty request
  · simp [empty]

theorem singleOutput_setPsOutput (request : RsePsRequest) (value : List Byte)
    (services : Services) :
    HandlerResult.SingleOutput request
      ⟨(setPsOutput request {} 0 value).1, (setPsOutput request {} 0 value).2, services⟩ := by
  rw [setPsOutput_eq]
  split_ifs with accepted
  · refine .inr ⟨rfl, (PsOutputs.consistent_empty request).put accepted, ?_⟩
    intro index later
    have different : index ≠ 0 := by omega
    simp [PsOutputs.put, different]
  · exact .inl ⟨by simp, rfl⟩

theorem handleRseFwuRequest_singleOutput (request : RsePsRequest) (services : Services) :
    (handleRseFwuRequest request {} services).SingleOutput request := by
  unfold handleRseFwuRequest
  dsimp only
  split_ifs
  · exact .inl ⟨by simp, rfl⟩
  · exact .inl ⟨by simp, rfl⟩
  · exact .inl ⟨by simp, rfl⟩
  · exact singleOutput_setPsOutput request _ services

theorem psGet_singleOutput (request : RsePsRequest) (services : Services) :
    (psGet request {} services).SingleOutput request := by
  unfold psGet
  dsimp only
  split_ifs
  · exact .inl ⟨by simp, rfl⟩
  · split
    · exact .inl ⟨by simp, rfl⟩
    · split_ifs
      · exact .inl ⟨by simp, rfl⟩
      · exact singleOutput_setPsOutput request _ services

theorem psGetInfo_singleOutput (request : RsePsRequest) (services : Services) :
    (psGetInfo request {} services).SingleOutput request := by
  unfold psGetInfo
  dsimp only
  split_ifs
  · exact .inl ⟨by simp, rfl⟩
  · split
    · exact .inl ⟨by simp, rfl⟩
    · exact singleOutput_setPsOutput request _ services

theorem handleProtectedStorage_singleOutput (request : RsePsRequest) (services : Services) :
    (handleProtectedStorage request {} services).SingleOutput request := by
  unfold handleProtectedStorage
  split_ifs
  · unfold psSet
    split_ifs
    · exact .inl ⟨by simp, rfl⟩
    · exact HandlerResult.singleOutput_of_silent rfl rfl
  · exact psGet_singleOutput request services
  · exact psGetInfo_singleOutput request services
  · unfold psRemove
    split_ifs
    · exact .inl ⟨by simp, rfl⟩
    · exact .inl ⟨by simp, rfl⟩
    · exact HandlerResult.singleOutput_of_silent rfl rfl
  · unfold psGetSupport
    split_ifs
    · exact .inl ⟨by simp, rfl⟩
    · exact singleOutput_setPsOutput request _ services
  · exact .inl ⟨by simp, rfl⟩

/-- The request is a measured-boot read that the service answers from a slot. -/
structure ReadsSlot (request : RsePsRequest) (services : Services) (entry : MeasurementEntry) :
    Prop where
  handle : request.handle = tfmMeasuredBootHandle
  type : request.type = tfmMeasuredBootRead
  input : 1 ≤ request.inLen ∧ request.inputs 0 ≠ []
  output : 1 ≤ request.outLen
  slot : measurementSlot request < tfmMeasurementSlotCount
  stored : services.measurements (measurementSlot request) = entry
  valid : entry.valid = true

theorem handleRsePsRequest_readsSlot {request : RsePsRequest} {services : Services}
    {entry : MeasurementEntry} (reads : ReadsSlot request services entry) :
    handleRsePsRequest request {} services =
      ⟨(readMeasurement request {} entry).1, (readMeasurement request {} entry).2, services⟩ := by
  obtain ⟨handle, type, ⟨inLen, nonempty⟩, outLen, slot, stored, valid⟩ := reads
  have notExtend : tfmMeasuredBootRead ≠ tfmMeasuredBootExtend := by decide
  have wellFormed : ¬ (request.inLen < 1 ∨ request.outLen < 1 ∨ request.inputs 0 = []) := by
    simp only [nonempty, or_false]
    omega
  have present : ¬ (tfmMeasurementSlotCount ≤ measurementSlot request ∨
      (services.measurements (measurementSlot request)).valid = false) := by
    simp only [stored, valid, Bool.true_eq_false, or_false]
    omega
  unfold handleRsePsRequest handleRseMeasuredBootRequest measuredBootRead
  rw [if_pos handle, type, if_neg notExtend, if_pos rfl, if_neg wellFormed, if_neg present,
    stored]

/-- Every request but a measured-boot read from a valid slot has at most one output. -/
theorem handleRsePsRequest_cases (request : RsePsRequest) (services : Services) :
    (handleRsePsRequest request {} services).SingleOutput request ∨
      ∃ entry, ReadsSlot request services entry := by
  unfold handleRsePsRequest
  split_ifs with measuredBoot
  · unfold handleRseMeasuredBootRequest
    split_ifs with extend read
    · unfold measuredBootExtend
      split_ifs
      · exact .inl (.inl ⟨by simp, rfl⟩)
      · exact .inl (.inl ⟨by simp, rfl⟩)
      · exact .inl (HandlerResult.singleOutput_of_silent rfl rfl)
    · unfold measuredBootRead
      dsimp only
      split_ifs with malformed absent
      · exact .inl (.inl ⟨by simp, rfl⟩)
      · exact .inl (.inl ⟨by simp, rfl⟩)
      · simp only [not_or, Nat.not_lt, Nat.not_le, Bool.not_eq_false] at malformed absent
        exact .inr ⟨_, measuredBoot, read, ⟨malformed.1, malformed.2.2⟩, malformed.2.1,
          absent.1, rfl, absent.2⟩
    · exact .inl (.inl ⟨by simp, rfl⟩)
  · exact .inl (handleRseFwuRequest_singleOutput request services)
  · exact .inl (.inl ⟨by simp, rfl⟩)
  · exact .inl (handleProtectedStorage_singleOutput request services)

end QboxPlatform.Mhu.Psa
