import QboxPlatform.Mhu.Psa.Delivery

/-!
# Which replies describe what they carry
-/

namespace QboxPlatform.Mhu.Psa

open Foundation

universe u

variable {Memory : Type u}

section Readings

/-- What a measured-boot read that succeeds leaves in the output vectors. -/
structure AnswersRead (request : RsePsRequest) (entry : MeasurementEntry)
    (outputs : PsOutputs) : Prop where
  consistent : outputs.Consistent request
  room : 56 ≤ (request.outCaps 0).toNat
  measurementRoom : 2 ≤ request.outLen →
    entry.measurement.length ≤ (request.outCaps 1).toNat
  signerRoom : 3 ≤ request.outLen → entry.signerId.length ≤ (request.outCaps 2).toNat
  metadata : outputs.data 0 = measurementMetadata entry
  measurement : outputs.data 1 = if 2 ≤ request.outLen then entry.measurement else []
  signer : outputs.data 2 = if 3 ≤ request.outLen then entry.signerId else []
  rest : ∀ index, 3 ≤ index → outputs.data index = []

theorem ReadsSlot.unique {request : RsePsRequest} {services : Services}
    {first second : MeasurementEntry} (one : ReadsSlot request services first)
    (other : ReadsSlot request services second) : first = second :=
  one.stored.symm.trans other.stored

theorem readOverflows_iff {request : RsePsRequest} {services : Services}
    {entry : MeasurementEntry} (reads : ReadsSlot request services entry) :
    ReadOverflows request services ↔ 2 ≤ request.outLen ∧ 56 ≤ (request.outCaps 0).toNat ∧
      ((request.outCaps 1).toNat < entry.measurement.length ∨
        3 ≤ request.outLen ∧ (request.outCaps 2).toNat < entry.signerId.length) := by
  constructor
  · rintro ⟨other, otherReads, overflow⟩
    rwa [otherReads.unique reads] at overflow
  · intro overflow
    exact ⟨entry, reads, overflow⟩

theorem readMeasurement_cases {request : RsePsRequest} {services : Services}
    {entry : MeasurementEntry} (reads : ReadsSlot request services entry) :
    let result := readMeasurement request {} entry
    (ReadOverflows request services ∧ result.1 ≠ .success ∧ result.2.sizes 0 = 56) ∨
      (¬ ReadOverflows request services ∧ (request.outCaps 0).toNat < 56 ∧
        result.1 ≠ .success ∧ result.2 = {}) ∨
      (¬ ReadOverflows request services ∧ result.1 = .success ∧
        AnswersRead request entry result.2) := by
  have asked := reads.output
  rw [readOverflows_iff reads]
  have start := PsOutputs.consistent_empty request
  have acceptsZero : request.Accepts 0 (measurementMetadata entry) ↔
      56 ≤ (request.outCaps 0).toNat := by
    simp [RsePsRequest.Accepts]
    omega
  have acceptsOne : request.Accepts 1 entry.measurement ↔
      2 ≤ request.outLen ∧ entry.measurement.length ≤ (request.outCaps 1).toNat := by
    simp [RsePsRequest.Accepts]
    omega
  have acceptsTwo : request.Accepts 2 entry.signerId ↔
      3 ≤ request.outLen ∧ entry.signerId.length ≤ (request.outCaps 2).toNat := by
    simp [RsePsRequest.Accepts]
    omega
  unfold readMeasurement
  simp only [setPsOutput_eq]
  by_cases zero : request.Accepts 0 (measurementMetadata entry)
  · have room := acceptsZero.mp zero
    have afterZero := start.put zero
    by_cases two : request.outLen < 2
    · -- Only the metadata was asked for.
      refine .inr (.inr ⟨by omega, ?_, ?_⟩)
      · simp [zero, two]
      · simp only [zero, two, if_true, or_true]
        exact ⟨afterZero, room, by omega, by omega, by simp [PsOutputs.put],
          by simp [PsOutputs.put, two], by simp [PsOutputs.put]; omega,
          fun index beyond => by
            have : index ≠ 0 := by omega
            simp [PsOutputs.put, this]⟩
    · by_cases one : request.Accepts 1 entry.measurement
      · have measurementRoom := (acceptsOne.mp one).2
        have afterOne := afterZero.put one
        by_cases three : request.outLen < 3
        · refine .inr (.inr ⟨by omega, ?_, ?_⟩)
          · simp [zero, two, one, three]
          · simp only [zero, two, one, three, if_true, or_true, or_false, ne_eq,
              not_true_eq_false, if_false]
            exact ⟨afterOne, room, fun _ => measurementRoom, by omega,
              by simp [PsOutputs.put], by simp [PsOutputs.put]; omega,
              by simp [PsOutputs.put]; omega,
              fun index beyond => by
                have : index ≠ 0 := by omega
                have : index ≠ 1 := by omega
                simp [PsOutputs.put, *]⟩
        · by_cases last : request.Accepts 2 entry.signerId
          · have signerRoom := (acceptsTwo.mp last).2
            refine .inr (.inr ⟨by omega, ?_, ?_⟩)
            · simp [zero, two, one, three, last]
            · simp only [zero, two, one, three, last, if_true, or_false, ne_eq,
                not_true_eq_false, if_false]
              exact ⟨afterOne.put last, room, fun _ => measurementRoom, fun _ => signerRoom,
                by simp [PsOutputs.put], by simp [PsOutputs.put]; omega,
                by simp [PsOutputs.put]; omega,
                fun index beyond => by
                  have : index ≠ 0 := by omega
                  have : index ≠ 1 := by omega
                  have : index ≠ 2 := by omega
                  simp [PsOutputs.put, *]⟩
          · refine .inl ⟨?_, ?_, ?_⟩
            · have tight := mt acceptsTwo.mpr last
              omega
            · simp [zero, two, one, three, last]
            · simp [zero, two, one, three, last, PsOutputs.put]
      · refine .inl ⟨?_, ?_, ?_⟩
        · have tight := mt acceptsOne.mpr one
          omega
        · simp [zero, two, one]
        · simp [zero, two, one, PsOutputs.put]
  · have tight := mt acceptsZero.mpr zero
    exact .inr (.inl ⟨by omega, by omega, by simp [zero], by simp [zero]⟩)

end Readings

section Accuracy

theorem parseRsePsRequest_error {bus : Bus Memory} {request : List Byte} {status : PsaStatus}
    {memory after : Memory}
    (failed : parseRsePsRequest bus request memory = (.error status, after)) :
    status ≠ .success := by
  unfold parseRsePsRequest parseRsePsEmbedRequest parseRsePsPointerRequest at failed
  dsimp only at failed
  split_ifs at failed
  all_goals first
    | (obtain ⟨error, -⟩ := Prod.mk.inj failed
       cases error
       simp)
    | skip
  · obtain ⟨error, -⟩ := Prod.mk.inj failed
    revert error
    split
    · rintro ⟨⟩
      simp
    · simp
  · revert failed
    split
    · intro failed
      obtain ⟨error, -⟩ := Prod.mk.inj failed
      cases error
      simp
    · simp

theorem deliversNothing_frameReply (parsed : RsePsRequest) {status : PsaStatus}
    (outputs : PsOutputs) (failed : status ≠ .success)
    (zero : ∀ index < psaMaxIovec, outputs.sizes index = 0) :
    DeliversNothing (frameReply parsed status outputs) [] := by
  refine ⟨fun index inside => ?_, rfl, fun embed => ?_⟩
  · rw [replySize_frameReply parsed status outputs inside, zero index inside]
    simp
  · rw [isPointerReply_frameReply] at embed
    rw [replyPayload_frameReply status outputs embed, if_neg failed]

/-- A successful reply framed from consistent outputs delivers them, once the
pointer-access ones are written. -/
theorem delivers_frameReply {request : List Byte} {parsed : RsePsRequest}
    {outputs : PsOutputs} (accepted : Accepted request parsed)
    (consistent : outputs.Consistent parsed) :
    Delivers request (frameReply parsed .success outputs)
      (if parsed.protocol = rseCommsProtocolPointerAccess then
        pointerWrites parsed.outPtrs outputs.data 0 parsed.outLen
      else []) outputs.data := by
  have asked : parsed.outLen ≤ psaMaxIovec := accepted.counts.2.1
  refine ⟨fun index inside => ?_, ?_⟩
  · have bounded := (parsed.outCaps index).isLt
    have fits := consistent.fits index
    rw [replySize_frameReply parsed .success outputs inside, consistent.size index,
      BitVec.toNat_ofNat, Nat.mod_eq_of_lt (by omega)]
    split_ifs with pointer
    · rfl
    · have embed := accepted.protocol.resolve_right pointer
      have small := accepted.embeddedCaps embed index
      exact Nat.mod_eq_of_lt (by omega)
  · simp only [isPointerReply_frameReply]
    split_ifs with pointer
    · rw [pointerWrites_congr outputs.data (accepted.pointers pointer)]
      exact pointerWrites_extend _ _ asked consistent.absent
    · refine ⟨rfl, ?_⟩
      rw [replyPayload_frameReply .success outputs pointer, if_pos rfl]
      exact flatMap_range_extend _ asked consistent.absent

theorem replyAccurate_of_parsed {bus : Bus Memory} {request : List Byte}
    (services : Services) {memory after : Memory} {parsed : RsePsRequest}
    (succeeded : parseRsePsRequest bus request memory = (.ok parsed, after)) :
    let result := handleRsePsRequest parsed {} services
    let written := writeBack bus.logged parsed.outPtrs result.outputs.data parsed.outLen 0
      (after, [])
    ReplyAccurate bus request services memory ↔
      if result.status = .success then
        if parsed.protocol = rseCommsProtocolPointerAccess ∧ written.1 = false then
          written.2.2 = []
        else
          Delivers request (frameReply parsed .success result.outputs)
            (if parsed.protocol = rseCommsProtocolPointerAccess then written.2.2 else [])
            result.outputs.data
      else
        DeliversNothing (frameReply parsed result.status result.outputs) [] := by
  intro result written
  have outputs : handlerOutputs bus request services memory = result.outputs.data := by
    simp [handlerOutputs, succeeded, result]
  unfold ReplyAccurate buildRsePsReply
  rw [parseRsePsRequest_logged, succeeded, outputs]
  dsimp only
  by_cases success : result.status = .success
  · by_cases pointer : parsed.protocol = rseCommsProtocolPointerAccess
    · cases delivered : written.1 with
      | true =>
          simp only [result, written] at success delivered
          simp [result, written, success, pointer]
      | false =>
          have nothing : ∀ log, DeliversNothing (frameReply parsed .communicationFailure
              { result.outputs with sizes := fun _ => 0#32 }) log ↔ log = [] := by
            intro log
            constructor
            · exact fun silent => silent.2.1
            · rintro rfl
              exact deliversNothing_frameReply parsed _ (by simp) (by simp)
          simp only [result, written] at success delivered nothing
          have differs : PsaStatus.communicationFailure.code ≠ PsaStatus.success.code := by
            decide
          simp [result, written, success, pointer, nothing, differs]
    · simp only [result] at success
      simp [result, success, pointer]
  · simp only [result] at success
    have differs : (handleRsePsRequest parsed {} services).status.code ≠
        PsaStatus.success.code := by
      intro same
      exact success (PsaStatus.code_eq_zero.mp same)
    simp [result, success, differs]

theorem partialDelivery_iff (bus : Bus Memory) {parsed : RsePsRequest} {services : Services}
    {entry : MeasurementEntry} {outputs : PsOutputs} (memory : Memory)
    (counts : parsed.CountsFit)
    (reads : ReadsSlot parsed services entry) (answers : AnswersRead parsed entry outputs)
    (pointer : parsed.protocol = rseCommsProtocolPointerAccess) :
    let written := writeBack bus.logged parsed.outPtrs outputs.data parsed.outLen 0 (memory, [])
    PartialDelivery bus parsed services memory ↔ written.1 = false ∧ written.2.2 ≠ [] := by
  intro written
  have unfolded : PartialDelivery bus parsed services memory ↔ 2 ≤ parsed.outLen ∧
      let first := memWriteBytes bus memory (parsed.outPtrs 0) (measurementMetadata entry)
      let second := memWriteBytes bus first.2 (parsed.outPtrs 1) entry.measurement
      let third := memWriteBytes bus second.2 (parsed.outPtrs 2) entry.signerId
      first.1 = true ∧ (second.1 = false ∨ 3 ≤ parsed.outLen ∧ third.1 = false) := by
    constructor
    · rintro ⟨other, otherReads, -, several, -, -, -, refused⟩
      obtain rfl := otherReads.unique reads
      exact ⟨several, refused⟩
    · rintro ⟨several, refused⟩
      exact ⟨entry, reads, pointer, several, answers.room, answers.measurementRoom several,
        answers.signerRoom, refused⟩
  rw [unfolded]
  have asked := reads.output
  have bounded : parsed.outLen ≤ 4 := counts.2.1
  obtain ⟨later, outLen⟩ : ∃ later, parsed.outLen = later + 1 := ⟨parsed.outLen - 1, by omega⟩
  have nonempty : measurementMetadata entry ≠ [] := by
    intro empty
    simpa [empty] using length_measurementMetadata entry
  -- The first write decides whether anything is delivered at all.
  have stepped : written = writeBack bus.logged parsed.outPtrs outputs.data (later + 1) 0
      (memory, []) := by rw [← outLen]
  simp only [writeBack, memWriteBytes_logged, answers.metadata] at stepped
  cases first : memWriteBytes bus memory (parsed.outPtrs 0) (measurementMetadata entry) with
  | mk firstOk firstMemory =>
      rw [first] at stepped
      cases firstOk with
      | false => simp [stepped]
      | true =>
          simp only [ne_eq, nonempty, not_false_eq_true, and_self, if_true, List.nil_append]
            at stepped
          have delivered : written.2.2 ≠ [] := by
            have grown := writeBack_logged_prefix bus parsed.outPtrs outputs.data later 1
              firstMemory [(parsed.outPtrs 0, measurementMetadata entry)]
            rw [← stepped] at grown
            exact fun none => by simp [none] at grown
          have verdict : written.1 =
              (writeBack bus parsed.outPtrs outputs.data later 1 firstMemory).1 := by
            rw [stepped]
            exact writeBack_logged_fst bus parsed.outPtrs outputs.data later 1 firstMemory _
          simp only [true_and, ne_eq, delivered, not_false_eq_true, and_true, verdict]
          have silent := writeBack_empty bus parsed.outPtrs outputs.data 3 answers.rest
          have measurement := answers.measurement
          have signer := answers.signer
          -- What remains is the write-back of at most three outputs.
          rcases later with _ | _ | extra
          · simp [outLen, writeBack]
          · simp only [outLen] at measurement
            rw [if_pos le_rfl] at measurement
            simp only [writeBack, measurement, outLen]
            rcases memWriteBytes bus firstMemory (parsed.outPtrs 1) entry.measurement with
              ⟨_ | _, secondMemory⟩ <;> simp
          · simp only [outLen] at measurement signer
            rw [if_pos (by omega)] at measurement signer
            simp only [writeBack, measurement, outLen]
            rcases memWriteBytes bus firstMemory (parsed.outPtrs 1) entry.measurement with
              ⟨_ | _, secondMemory⟩
            · simp
            · simp only [signer]
              rcases memWriteBytes bus secondMemory (parsed.outPtrs 2) entry.signerId with
                ⟨_ | _, thirdMemory⟩
              · simp
              · simp [silent extra 3 le_rfl]

/-- After a handler that succeeds, only a write-back that breaks off halfway spoils
the reply. -/
theorem replyAccurate_of_success {bus : Bus Memory} {request : List Byte}
    (services : Services) {memory after : Memory} {parsed : RsePsRequest}
    (parse : parseRsePsRequest bus request memory = (.ok parsed, after))
    (success : (handleRsePsRequest parsed {} services).status = .success)
    (consistent : (handleRsePsRequest parsed {} services).outputs.Consistent parsed) :
    let written := writeBack bus.logged parsed.outPtrs
      (handleRsePsRequest parsed {} services).outputs.data parsed.outLen 0 (after, [])
    ReplyAccurate bus request services memory ↔
      ¬ (parsed.protocol = rseCommsProtocolPointerAccess ∧ written.1 = false ∧
        written.2.2 ≠ []) := by
  intro written
  have reduced := replyAccurate_of_parsed services parse
  have delivers := delivers_frameReply (accepted_of_parse parse) consistent
  dsimp only at reduced
  rw [reduced, if_pos success]
  by_cases pointer : parsed.protocol = rseCommsProtocolPointerAccess
  · cases verdict : written.1 with
    | false => simp [written, pointer]
    | true =>
        have complete := writeBack_logged_complete bus parsed.outPtrs
          (handleRsePsRequest parsed {} services).outputs.data parsed.outLen 0 after [] verdict
        rw [if_pos pointer] at delivers
        simp only [written] at verdict
        simp [written, pointer, complete, delivers]
  · rw [if_neg pointer] at delivers
    simp [pointer, delivers]

theorem not_replyAccurate_of_declared {bus : Bus Memory} {request : List Byte}
    {services : Services} {memory : Memory} (index : Nat) (inside : index < psaMaxIovec)
    (failed : replyStatus (buildRsePsReply bus.logged request services (memory, [])).1 ≠
      PsaStatus.success.code)
    (declared : replySize (buildRsePsReply bus.logged request services (memory, [])).1 index ≠
      0) :
    ¬ ReplyAccurate bus request services memory := by
  intro accurate
  unfold ReplyAccurate at accurate
  dsimp only at accurate
  rw [if_neg failed] at accurate
  exact declared (accurate.1 index inside)

/-- The reply describes what it carries exactly when the request is neither a read
that overflows after its first output nor one that guest memory takes in part. -/
theorem replyAccurate_iff (bus : Bus Memory) (request : List Byte) (services : Services)
    (memory : Memory) :
    ReplyAccurate bus request services memory ↔
      ∀ parsed after, parseRsePsRequest bus request memory = (.ok parsed, after) →
        ¬ ReadOverflows parsed services ∧ ¬ PartialDelivery bus parsed services after := by
  cases parse : parseRsePsRequest bus request memory with
  | mk outcome after =>
    cases outcome with
    | error status =>
        have failed := parseRsePsRequest_error parse
        have silent := deliversNothing_frameReply (unparsedHeader request) {} failed (by simp)
        have differs : status.code ≠ PsaStatus.success.code :=
          fun same => failed (PsaStatus.code_eq_zero.mp same)
        unfold ReplyAccurate buildRsePsReply
        rw [parseRsePsRequest_logged, parse]
        simp [differs, silent]
    | ok parsed =>
        have accepted := accepted_of_parse parse
        have only : (∀ candidate memory', (Except.ok parsed, after) =
              ((Except.ok candidate, memory') : Except PsaStatus RsePsRequest × Memory) →
            ¬ ReadOverflows candidate services ∧
              ¬ PartialDelivery bus candidate services memory') ↔
            ¬ ReadOverflows parsed services ∧ ¬ PartialDelivery bus parsed services after := by
          constructor
          · exact fun all => all parsed after rfl
          · rintro both _ _ ⟨⟩
            exact both
        rw [only]
        by_cases reading : ∃ entry, ReadsSlot parsed services entry
        · obtain ⟨entry, reads⟩ := reading
          have handled := handleRsePsRequest_readsSlot reads
          rcases readMeasurement_cases reads with
            ⟨overflows, failed, declared⟩ | ⟨fits, tight, failed, empty⟩ |
              ⟨fits, success, answers⟩
          · -- Output 0 is declared although the request fails.
            have reduced := replyAccurate_of_parsed services parse
            dsimp only at reduced
            rw [handled, if_neg failed] at reduced
            rw [reduced]
            refine iff_of_false (fun silent => ?_) (fun both => both.1 overflows)
            have size := silent.1 0 (by simp)
            rw [replySize_frameReply _ _ _ (by simp), declared] at size
            revert size
            split_ifs <;> decide
          · have reduced := replyAccurate_of_parsed services parse
            dsimp only at reduced
            rw [handled, if_neg failed] at reduced
            rw [reduced, empty]
            refine iff_of_true (deliversNothing_frameReply _ _ failed (by simp)) ⟨fits, ?_⟩
            rintro ⟨other, otherReads, -, -, room, -⟩
            omega
          · have reduced := replyAccurate_of_success services parse
              (by rw [handled]; exact success) (by rw [handled]; exact answers.consistent)
            dsimp only at reduced
            rw [handled] at reduced
            rw [reduced]
            by_cases pointer : parsed.protocol = rseCommsProtocolPointerAccess
            · have partly := partialDelivery_iff bus after accepted.counts reads answers pointer
              dsimp only at partly
              rw [partly]
              simp [pointer, fits]
            · refine iff_of_true (by simp [pointer]) ⟨fits, ?_⟩
              rintro ⟨other, otherReads, contrary, -⟩
              exact pointer contrary
        · have harmless : ¬ ReadOverflows parsed services ∧
              ¬ PartialDelivery bus parsed services after :=
            ⟨fun ⟨entry, reads, _⟩ => reading ⟨entry, reads⟩,
              fun ⟨entry, reads, _⟩ => reading ⟨entry, reads⟩⟩
          refine iff_of_true ?_ harmless
          rcases (handleRsePsRequest_cases parsed services).resolve_right reading with
            ⟨failed, empty⟩ | ⟨success, consistent, single⟩
          · have reduced := replyAccurate_of_parsed services parse
            dsimp only at reduced
            rw [reduced, if_neg failed, empty]
            exact deliversNothing_frameReply _ _ failed (by simp)
          · have reduced := replyAccurate_of_success services parse success consistent
            dsimp only at reduced
            rw [reduced]
            rintro ⟨-, refused, delivered⟩
            exact delivered (writeBack_logged_single bus _ _ single _ _ refused)

/-- After an `EXTEND` of slot 3, a `READ` that has room for the metadata and not for the
measurement is refused with the metadata's size declared. -/
theorem buildRsePsReply_declares_undelivered :
    let extend : List Byte :=
      [0, 1, 1, 0] ++ toBytes 4 tfmMeasuredBootHandle ++ toBytes 4 (0x040003ea : BitVec 32) ++
        [41, 0, 0, 0, 0, 0, 8, 0] ++ [3] ++ List.replicate 40 0 ++ [1, 2, 3, 4, 5, 6, 7, 8]
    let read : List Byte :=
      [0, 2, 1, 0] ++ toBytes 4 tfmMeasuredBootHandle ++ toBytes 4 (0x010203e9 : BitVec 32) ++
        [1, 0, 56, 0, 4, 0, 0, 0] ++ [3]
    let extended := buildRsePsReply Bus.ram extend {} fun _ => 0
    replyStatus extended.1 = PsaStatus.success.code ∧
      ¬ ReplyAccurate Bus.ram read extended.2.1 extended.2.2 :=
  ⟨by decide +kernel,
    not_replyAccurate_of_declared 0 (by decide) (by decide +kernel) (by decide +kernel)⟩

end Accuracy

end QboxPlatform.Mhu.Psa
