import QboxPlatform.Foundation.Checked
import QboxPlatform.Foundation.Run
import QboxPlatform.Mhu.Psa.Refinement
import QboxPlatform.Mhu.Psa.RoundTrip

/-!
# Measurement slots

A slot holds what was extended into it last.  A read packs it into a record of 56 bytes, in which
every field has a place of its own, whatever was sent.
-/

namespace QboxPlatform.Mhu.Psa

open Foundation

universe u

/-! ### The metadata record -/

/-- Bytes at the start of a field, with zeros behind them. -/
def padded (size : Nat) (bytes : List Byte) : List Byte :=
  bytes ++ List.replicate (size - bytes.length) 0

theorem length_padded {size : Nat} {bytes : List Byte} (fits : bytes.length ≤ size) :
    (padded size bytes).length = size := by
  rw [padded, List.length_append, List.length_replicate]
  omega

theorem spliceAt_zeros (size more : Nat) {front bytes : List Byte} {offset total : Nat}
    (start : front.length = offset) (room : total = size + more) (fits : bytes.length ≤ size) :
    spliceAt (front ++ List.replicate total 0) offset bytes =
      (front ++ padded size bytes) ++ List.replicate more 0 := by
  subst start room
  have zeros : (List.replicate (size + more) (0 : Byte)).drop bytes.length =
      List.replicate (size - bytes.length) 0 ++ List.replicate more 0 := by
    rw [List.drop_replicate, List.replicate_append_replicate]
    congr 1
    omega
  rw [spliceAt, List.take_left, List.drop_append, List.drop_eq_nil_of_le (Nat.le_add_right _ _),
    Nat.add_sub_cancel_left, zeros, padded]
  simp

theorem measurementMetadata_eq (entry : MeasurementEntry) :
    measurementMetadata entry =
      padded 4 [if entry.locked then 1 else 0] ++ toBytes 4 entry.algorithm ++
        padded 32 entry.swType ++ [BitVec.ofNat 8 entry.swType.length] ++
        padded 14 entry.version ++ [BitVec.ofNat 8 entry.version.length] := by
  have swType : entry.swType.length ≤ 32 := entry.swType_le
  have version : entry.version.length ≤ 14 := entry.version_le
  have exact {size : Nat} {bytes : List Byte} (whole : bytes.length = size) :
      padded size bytes = bytes := by
    simp [padded, whole]
  have algorithm := @exact 4 (toBytes 4 entry.algorithm) (by simp)
  have swTypeSize := @exact 1 [BitVec.ofNat 8 entry.swType.length] rfl
  have versionSize := @exact 1 [BitVec.ofNat 8 entry.version.length] rfl
  unfold measurementMetadata
  dsimp only
  rw [← List.nil_append (List.replicate 56 0),
    spliceAt_zeros 4 52 (by rfl) (by rfl) (by simp),
    spliceAt_zeros 4 48 (by simp [length_padded]) (by rfl) (by simp),
    spliceAt_zeros 32 16 (by simp [length_padded]) (by rfl) swType,
    spliceAt_zeros 1 15 (by simp [length_padded, swType]) (by rfl) (by simp),
    spliceAt_zeros 14 1 (by simp [length_padded, swType]) (by rfl) version,
    spliceAt_zeros 1 0 (by simp [length_padded, swType, version]) (by rfl) (by simp),
    algorithm, swTypeSize, versionSize]
  simp

/-- A write into the record, checked against its end. -/
def checkedSplice (record : List Byte) (offset : Nat) (bytes : List Byte) : Option (List Byte) :=
  if offset + bytes.length ≤ record.length then some (spliceAt record offset bytes) else none

/-- The writes of `TFM_MEASURED_BOOT_READ` into the record, each of them checked. -/
def checkedMetadata (entry : MeasurementEntry) : Option (List Byte) := do
  let metadata ← checkedSplice (List.replicate 56 0) 0 [if entry.locked then 1 else 0]
  let metadata ← checkedSplice metadata 4 (toBytes 4 entry.algorithm)
  let metadata ← checkedSplice metadata 8 entry.swType
  let metadata ← checkedSplice metadata 40 [BitVec.ofNat 8 entry.swType.length]
  let metadata ← checkedSplice metadata 41 entry.version
  checkedSplice metadata 55 [BitVec.ofNat 8 entry.version.length]

theorem checkedSplice_eq {record : List Byte} {offset size : Nat} {bytes : List Byte}
    (sized : record.length = size) (fits : offset + bytes.length ≤ size) :
    checkedSplice record offset bytes = some (spliceAt record offset bytes) ∧
      (spliceAt record offset bytes).length = size :=
  ⟨if_pos (sized ▸ fits), length_spliceAt sized fits⟩

theorem checkedMetadata_eq (entry : MeasurementEntry) :
    checkedMetadata entry = some (measurementMetadata entry) := by
  have swType : entry.swType.length ≤ 32 := entry.swType_le
  have version : entry.version.length ≤ 14 := entry.version_le
  obtain ⟨locked, length⟩ := @checkedSplice_eq (List.replicate 56 0) 0 56
    [if entry.locked then 1 else 0] List.length_replicate (by simp)
  obtain ⟨algorithm, length⟩ := @checkedSplice_eq _ 4 56 (toBytes 4 entry.algorithm) length
    (by simp)
  obtain ⟨type, length⟩ := @checkedSplice_eq _ 8 56 entry.swType length (by omega)
  obtain ⟨typeSize, length⟩ := @checkedSplice_eq _ 40 56 [BitVec.ofNat 8 entry.swType.length]
    length (by simp)
  obtain ⟨number, length⟩ := @checkedSplice_eq _ 41 56 entry.version length (by omega)
  obtain ⟨numberSize, -⟩ := @checkedSplice_eq _ 55 56 [BitVec.ofNat 8 entry.version.length]
    length (by simp)
  unfold checkedMetadata
  simp only [Option.bind_eq_bind]
  rw [locked, Option.bind_some, algorithm, Option.bind_some, type, Option.bind_some, typeSize,
    Option.bind_some, number, Option.bind_some, numberSize]
  rfl

/-! ### Extending and reading -/

theorem boundedBytes_eq {input : List Byte} {offset size maxSize : Nat}
    (enough : offset + min size maxSize ≤ input.length) (inside : offset < input.length) :
    boundedBytes input offset size maxSize = (input.drop offset).take (min size maxSize) := by
  rw [boundedBytes, if_neg (by omega), Nat.min_eq_left (by omega)]

theorem boundedBytes_whole (input : List Byte) (maxSize : Nat) :
    boundedBytes input 0 input.length maxSize = input.take maxSize := by
  unfold boundedBytes
  split
  · rename_i empty
    rw [List.eq_nil_of_length_eq_zero (Nat.le_zero.mp empty), List.take_nil]
  · rw [List.drop_zero, Nat.sub_zero, Nat.min_assoc, Nat.min_comm, Nat.min_assoc, Nat.min_self,
      ← List.take_eq_take_min]

/-- A `TFM_MEASURED_BOOT_EXTEND` of a slot that the service accepts. -/
structure ExtendsSlot (request : RsePsRequest) (services : Services) (slot : Nat) : Prop where
  handle : request.handle = tfmMeasuredBootHandle
  type : request.type = tfmMeasuredBootExtend
  slot : measurementSlot request = slot
  succeeded : (handleRsePsRequest request {} services).status = .success

/-- A `TFM_MEASURED_BOOT_READ` of a slot, with room for every output it asks for. -/
structure ReadsBack (request : RsePsRequest) (slot measurementSize signerSize : Nat) : Prop where
  handle : request.handle = tfmMeasuredBootHandle
  type : request.type = tfmMeasuredBootRead
  input : 1 ≤ request.inLen ∧ request.inputs 0 ≠ []
  slot : measurementSlot request = slot
  output : 1 ≤ request.outLen
  metadata : 56 ≤ (request.outCaps 0).toNat
  measurement : 1 < request.outLen → measurementSize ≤ (request.outCaps 1).toNat
  signer : 2 < request.outLen → signerSize ≤ (request.outCaps 2).toNat

/-- The outputs that a read is to return for the request that extended the slot: the record, the
measurement and the signer. -/
def extendedOutputs (request : RsePsRequest) : Nat → List Byte
  | 0 =>
      let swType := ((request.inputs 0).drop 8).take (min ((request.inputs 0).getD 40 0).toNat 32)
      let version := (request.inputs 2).take 14
      padded 4 [if (request.inputs 0).getD 1 0 = 0 then 0 else 1] ++
        ((request.inputs 0).drop 4).take 4 ++
        padded 32 swType ++ [BitVec.ofNat 8 swType.length] ++
        padded 14 version ++ [BitVec.ofNat 8 version.length]
  | 1 => (request.inputs 3).take 64
  | 2 => (request.inputs 1).take 64
  | _ => []

/-- The outputs a read returns from a slot. -/
def slotOutputs (entry : MeasurementEntry) : Nat → List Byte
  | 0 => measurementMetadata entry
  | 1 => entry.measurement
  | 2 => entry.signerId
  | _ => []

theorem slotOutputs_extendedEntry {request : RsePsRequest}
    (long : 41 ≤ (request.inputs 0).length) :
    slotOutputs (extendedEntry request) = extendedOutputs request := by
  have swType : (extendedEntry request).swType =
      ((request.inputs 0).drop 8).take (min ((request.inputs 0).getD 40 0).toNat 32) :=
    boundedBytes_eq (by rw [tfmSwTypeMaxSize]; omega) (by omega)
  have version : (extendedEntry request).version = (request.inputs 2).take 14 :=
    boundedBytes_whole _ _
  have algorithm : toBytes 4 (extendedEntry request).algorithm =
      ((request.inputs 0).drop 4).take 4 := by
    have sized : (((request.inputs 0).drop 4).take 4).length = 4 := by
      simp
      omega
    have decoded := @toBytes_ofBytes 32 (((request.inputs 0).drop 4).take 4) (by rw [sized])
    rw [sized] at decoded
    rw [← decoded]
    congr 1
    exact if_neg (by omega)
  have locked : (if (extendedEntry request).locked then (1 : Byte) else 0) =
      if (request.inputs 0).getD 1 0 = 0 then 0 else 1 := by
    simp [extendedEntry]
  funext index
  unfold slotOutputs extendedOutputs
  split
  · rw [measurementMetadata_eq, swType, version, algorithm, locked]
  · exact boundedBytes_whole _ _
  · exact boundedBytes_whole _ _
  · rfl

theorem measurements_extend {request : RsePsRequest} {services : Services} {slot : Nat}
    (extension : ExtendsSlot request services slot) :
    slot < tfmMeasurementSlotCount ∧ 41 ≤ (request.inputs 0).length ∧
      (handleRsePsRequest request {} services).services.measurements slot =
        extendedEntry request := by
  obtain ⟨handle, type, rfl, succeeded⟩ := extension
  unfold handleRsePsRequest handleRseMeasuredBootRequest measuredBootExtend at succeeded ⊢
  rw [if_pos handle, if_pos type] at succeeded ⊢
  split_ifs at succeeded ⊢ with short beyond
  refine ⟨by omega, by omega, ?_⟩
  exact Function.update_self ..

theorem measuredBootRead_services (request : RsePsRequest) (outputs : PsOutputs)
    (services : Services) : (measuredBootRead request outputs services).services = services := by
  unfold measuredBootRead
  dsimp only
  split_ifs <;> rfl

theorem handleProtectedStorage_measurements (request : RsePsRequest) (outputs : PsOutputs)
    (services : Services) :
    (handleProtectedStorage request outputs services).services.measurements =
      services.measurements := by
  unfold handleProtectedStorage
  split_ifs
  · unfold psSet
    split_ifs <;> rfl
  · rw [psGet_services]
  · rw [psGetInfo_services]
  · unfold psRemove
    split_ifs <;> rfl
  · unfold psGetSupport
    split_ifs <;> rfl
  · rfl

theorem measurements_other {request : RsePsRequest} {services : Services} {slot : Nat}
    (other : ¬ ExtendsSlot request services slot) :
    (handleRsePsRequest request {} services).services.measurements slot =
      services.measurements slot := by
  have succeeds (succeeded : (handleRsePsRequest request {} services).status = .success)
      (boot : request.handle = tfmMeasuredBootHandle)
      (extend : request.type = tfmMeasuredBootExtend) : measurementSlot request ≠ slot :=
    fun same => other ⟨boot, extend, same, succeeded⟩
  unfold handleRsePsRequest handleRseMeasuredBootRequest at succeeds ⊢
  split_ifs at succeeds ⊢ with boot extend read firmware foreign
  · unfold measuredBootExtend at succeeds ⊢
    split_ifs at succeeds ⊢
    · rfl
    · rfl
    · exact Function.update_of_ne (succeeds rfl boot extend).symm _ _
  · rw [measuredBootRead_services]
  · rfl
  · rw [handleRseFwuRequest_services]
  · rfl
  · rw [handleProtectedStorage_measurements]

theorem handleRsePsRequest_readsBack {request : RsePsRequest} {services : Services} {slot : Nat}
    {entry : MeasurementEntry} (inside : slot < tfmMeasurementSlotCount)
    (stored : services.measurements slot = entry) (valid : entry.valid = true)
    (reads : ReadsBack request slot entry.measurement.length entry.signerId.length) :
    (handleRsePsRequest request {} services).status = .success ∧
      (handleRsePsRequest request {} services).services = services ∧
      ∀ index, (handleRsePsRequest request {} services).outputs.data index =
        if index < request.outLen then slotOutputs entry index else [] := by
  have readsSlot : ReadsSlot request services entry :=
    ⟨reads.handle, reads.type, reads.input, reads.output, reads.slot ▸ inside,
      reads.slot ▸ stored, valid⟩
  have output := reads.output
  have metadata : request.Accepts 0 (measurementMetadata entry) :=
    ⟨by omega, by decide, by rw [length_measurementMetadata]; exact reads.metadata⟩
  rw [handleRsePsRequest_readsSlot readsSlot]
  unfold readMeasurement
  rw [setPsOutput_eq, if_pos metadata]
  dsimp only
  by_cases one : request.outLen < 2
  · rw [if_pos (.inr one)]
    refine ⟨rfl, rfl, fun index => ?_⟩
    cases index with
    | zero => simp [PsOutputs.put, slotOutputs, show 0 < request.outLen from output]
    | succ index => simp [PsOutputs.put, show ¬ index + 1 < request.outLen by omega]
  have measurement : request.Accepts 1 entry.measurement :=
    ⟨by omega, by decide, reads.measurement (by omega)⟩
  rw [if_neg (by simp [one]), setPsOutput_eq, if_pos measurement]
  dsimp only
  by_cases two : request.outLen < 3
  · rw [if_pos (.inr two)]
    refine ⟨rfl, rfl, fun index => ?_⟩
    cases index with
    | zero => simp [PsOutputs.put, slotOutputs, show 0 < request.outLen from output]
    | succ index =>
        cases index with
        | zero => simp [PsOutputs.put, slotOutputs, show 1 < request.outLen by omega]
        | succ index => simp [PsOutputs.put, show ¬ index + 1 + 1 < request.outLen by omega]
  have signer : request.Accepts 2 entry.signerId :=
    ⟨by omega, by decide, reads.signer (by omega)⟩
  rw [if_neg (by simp [two]), setPsOutput_eq, if_pos signer]
  refine ⟨rfl, rfl, fun index => ?_⟩
  rcases index with _ | _ | _ | index
  · simp [PsOutputs.put, slotOutputs, show 0 < request.outLen from output]
  · simp [PsOutputs.put, slotOutputs, show 1 < request.outLen by omega]
  · simp [PsOutputs.put, slotOutputs, show 2 < request.outLen by omega]
  · simp [PsOutputs.put, slotOutputs]

/-! ### Runs of the service -/

section Runs

variable {Memory : Type u}

/-- A request, with what is behind the bus when it is served. -/
abbrev PsEvent (Memory : Type u) := List Byte × Memory

/-- What a request leaves of the services. -/
def servicesAfter (bus : Bus Memory) (services : Services) (event : PsEvent Memory) : Services :=
  (buildRsePsReply bus event.1 services event.2).2.1

def psStep (bus : Bus Memory) (services : Services) (event : PsEvent Memory) : Option Services :=
  some (servicesAfter bus services event)

/-- The request is an accepted extension of the slot. -/
def ExtendsAt (bus : Bus Memory) (slot : Nat) (services : Services) (event : PsEvent Memory) :
    Prop :=
  ∃ parsed fetched, parseRsePsRequest bus event.1 event.2 = (.ok parsed, fetched) ∧
    ExtendsSlot parsed services slot

theorem servicesAfter_of_parse {bus : Bus Memory} {services : Services} {event : PsEvent Memory}
    {parsed : RsePsRequest} {fetched : Memory}
    (parse : parseRsePsRequest bus event.1 event.2 = (.ok parsed, fetched)) :
    servicesAfter bus services event = (handleRsePsRequest parsed {} services).services := by
  rw [servicesAfter, buildRsePsReply_of_parse services parse]

theorem measurements_servicesAfter {bus : Bus Memory} {services : Services}
    {event : PsEvent Memory} {slot : Nat} (other : ¬ ExtendsAt bus slot services event) :
    (servicesAfter bus services event).measurements slot = services.measurements slot := by
  cases parse : parseRsePsRequest bus event.1 event.2 with
  | mk outcome fetched =>
      cases outcome with
      | error status =>
          unfold servicesAfter buildRsePsReply
          rw [parse]
      | ok parsed =>
          rw [servicesAfter_of_parse parse]
          exact measurements_other fun accepted => other ⟨parsed, fetched, parse, accepted⟩

theorem measurements_run {bus : Bus Memory} {slot : Nat} {services final : Services}
    {events : List (PsEvent Memory)}
    (others : Along (psStep bus) (fun services event => ¬ ExtendsAt bus slot services event)
      services events)
    (runs : run (psStep bus) services events = some final) :
    final.measurements slot = services.measurements slot := by
  refine @run_invariant_along _ _ _ (fun current => current.measurements slot =
    services.measurements slot) _ ?_ services final events rfl others runs
  intro current event next same other stepped
  cases stepped
  exact (measurements_servicesAfter other).trans same

theorem writeBack_congr (bus : Bus Memory) (ptrs : Nat → BitVec 64)
    {first second : Nat → List Byte} (remaining index : Nat) (memory : Memory)
    (same : ∀ position < index + remaining, first position = second position) :
    writeBack bus ptrs first remaining index memory =
      writeBack bus ptrs second remaining index memory := by
  induction remaining generalizing index memory with
  | zero => rfl
  | succ remaining inductionHypothesis =>
      rw [writeBack, writeBack, same index (by omega)]
      obtain ⟨ok, next⟩ := memWriteBytes bus memory (ptrs index) (second index)
      cases ok with
      | false => rfl
      | true =>
          exact inductionHypothesis (index + 1) next fun position below =>
            same position (by omega)

/-- The reply to a read carries the outputs, or they are written to where it wants them. -/
structure Returns (bus : Bus Memory) (event : PsEvent Memory) (parsed : RsePsRequest)
    (fetched : Memory) (services : Services) (outputs : Nat → List Byte) : Prop where
  embedded : parsed.protocol ≠ rseCommsProtocolPointerAccess →
    replyStatus (buildRsePsReply bus event.1 services event.2).1 = PsaStatus.success.code ∧
      replyPayload (buildRsePsReply bus event.1 services event.2).1 =
        (List.range parsed.outLen).flatMap outputs
  pointer : parsed.protocol = rseCommsProtocolPointerAccess →
    (writeBack bus parsed.outPtrs outputs parsed.outLen 0 fetched).1 = true →
      replyStatus (buildRsePsReply bus event.1 services event.2).1 = PsaStatus.success.code ∧
        (buildRsePsReply bus event.1 services event.2).2.2 =
          (writeBack bus parsed.outPtrs outputs parsed.outLen 0 fetched).2

theorem returns_of_outputs {bus : Bus Memory} {event : PsEvent Memory} {parsed : RsePsRequest}
    {fetched : Memory} {services : Services} {outputs : Nat → List Byte}
    (parse : parseRsePsRequest bus event.1 event.2 = (.ok parsed, fetched))
    (succeeded : (handleRsePsRequest parsed {} services).status = .success)
    (same : ∀ index, (handleRsePsRequest parsed {} services).outputs.data index =
      if index < parsed.outLen then outputs index else []) :
    Returns bus event parsed fetched services outputs := by
  have inside {index : Nat} (below : index < parsed.outLen) :
      (handleRsePsRequest parsed {} services).outputs.data index = outputs index := by
    rw [same, if_pos below]
  rw [show event = (event.1, event.2) from rfl]
  constructor
  · intro embedded
    have replied : (buildRsePsReply bus event.1 services event.2).1 =
        frameReply parsed .success (handleRsePsRequest parsed {} services).outputs := by
      rw [buildRsePsReply_of_parse services parse]
      dsimp only
      rw [succeeded, finishReply, if_neg (fun both => embedded both.2)]
    dsimp only
    rw [replied, replyStatus_frameReply, replyPayload_frameReply _ _ embedded, if_pos rfl]
    refine ⟨rfl, ?_⟩
    simp only [List.flatMap_def]
    congr 1
    apply List.map_congr_left
    exact fun index member => inside (List.mem_range.mp member)
  · intro pointer delivered
    have written : writeBack bus parsed.outPtrs
        (handleRsePsRequest parsed {} services).outputs.data parsed.outLen 0 fetched =
          writeBack bus parsed.outPtrs outputs parsed.outLen 0 fetched :=
      writeBack_congr bus _ _ _ _ fun index below => inside (by omega)
    dsimp only
    rw [buildRsePsReply_of_parse services parse]
    dsimp only
    rw [succeeded, finishReply, if_pos ⟨rfl, pointer⟩, written]
    dsimp only
    rw [if_pos delivered]
    exact ⟨replyStatus_frameReply _ _ _, rfl⟩

theorem returns_extension {bus : Bus Memory} {slot : Nat} {before final : Services}
    {extension read : PsEvent Memory} {extend back : RsePsRequest} {extendFetched fetched : Memory}
    {others : List (PsEvent Memory)}
    (extendParse : parseRsePsRequest bus extension.1 extension.2 = (.ok extend, extendFetched))
    (accepted : ExtendsSlot extend before slot)
    (kept : Along (psStep bus) (fun services event => ¬ ExtendsAt bus slot services event)
      (servicesAfter bus before extension) others)
    (runs : run (psStep bus) (servicesAfter bus before extension) others = some final)
    (readParse : parseRsePsRequest bus read.1 read.2 = (.ok back, fetched))
    (reads : ReadsBack back slot (extendedOutputs extend 1).length
      (extendedOutputs extend 2).length) :
    Returns bus read back fetched final (extendedOutputs extend) := by
  obtain ⟨inside, long, stored⟩ := measurements_extend accepted
  have holds : final.measurements slot = extendedEntry extend := by
    rw [measurements_run kept runs, servicesAfter_of_parse extendParse, stored]
  have outputs := slotOutputs_extendedEntry long
  have measurement : (extendedEntry extend).measurement = extendedOutputs extend 1 :=
    congrFun outputs 1
  have signer : (extendedEntry extend).signerId = extendedOutputs extend 2 := congrFun outputs 2
  rw [← measurement, ← signer] at reads
  obtain ⟨succeeded, -, data⟩ := handleRsePsRequest_readsBack inside holds rfl reads
  rw [outputs] at data
  exact returns_of_outputs readParse succeeded data

/-- After an accepted extension of a slot and any requests that are none, a read returns what was
extended; and no write of the record leaves it, whatever the slots hold. -/
theorem measuredBoot_slots {bus : Bus Memory} {slot : Nat} {before final : Services}
    {extension read : PsEvent Memory} {extend back : RsePsRequest} {extendFetched fetched : Memory}
    {others : List (PsEvent Memory)}
    (extendParse : parseRsePsRequest bus extension.1 extension.2 = (.ok extend, extendFetched))
    (accepted : ExtendsSlot extend before slot)
    (kept : Along (psStep bus) (fun services event => ¬ ExtendsAt bus slot services event)
      (servicesAfter bus before extension) others)
    (runs : run (psStep bus) (servicesAfter bus before extension) others = some final)
    (readParse : parseRsePsRequest bus read.1 read.2 = (.ok back, fetched))
    (reads : ReadsBack back slot (extendedOutputs extend 1).length
      (extendedOutputs extend 2).length) :
    Returns bus read back fetched final (extendedOutputs extend) ∧
      ∀ entry, checkedMetadata entry = some (measurementMetadata entry) ∧
        (measurementMetadata entry).length = 56 :=
  ⟨returns_extension extendParse accepted kept runs readParse reads,
    fun entry => ⟨checkedMetadata_eq entry, length_measurementMetadata entry⟩⟩

end Runs

/-- An extension of slot 3 with a software type of five bytes. -/
def sampleExtension : EmbedRequest where
  head := { seq := 1, clientId := 2, handle := tfmMeasuredBootHandle, type := 1002 }
  inputs := [3 :: List.replicate 40 5, [1, 2], [3], [4, 5, 6]]
  outCaps := []
  fits := by decide
  short := by decide

/-- A read of slot 3. -/
def sampleRead : EmbedRequest where
  head := { seq := 3, clientId := 2, handle := tfmMeasuredBootHandle, type := 1001 }
  inputs := [[3]]
  outCaps := [56, 64, 64]
  fits := by decide
  short := by decide

/-- Slot 3 is extended, and it is read twice. -/
theorem measuredBoot_slots_read_twice :
    ∃ final, run (psStep Bus.ram)
        (servicesAfter Bus.ram {} (sampleExtension.encode, fun _ => 0))
        [(sampleRead.encode, fun _ => 0)] = some final ∧
      Returns Bus.ram (sampleRead.encode, fun _ => 0) sampleRead.parsed (fun _ => 0) final
        (extendedOutputs sampleExtension.parsed) := by
  have extendParse := parseRsePsRequest_embed Bus.ram sampleExtension fun _ => 0
  have readParse := parseRsePsRequest_embed Bus.ram sampleRead fun _ => 0
  refine ⟨_, rfl, (@measuredBoot_slots _ _ 3 {} _ (sampleExtension.encode, fun _ => 0)
    (sampleRead.encode, fun _ => 0) _ _ _ _ [(sampleRead.encode, fun _ => 0)] extendParse
    ⟨rfl, rfl, rfl, rfl⟩ ?_ rfl readParse
    ⟨rfl, rfl, ⟨by decide, by decide⟩, rfl, by decide, by decide, fun _ => by decide,
      fun _ => by decide⟩).1⟩
  rintro next -
  refine ⟨?_, trivial⟩
  rintro ⟨parsed, fetched, parse, accepted⟩
  obtain rfl := Except.ok.inj (Prod.mk.inj (readParse.symm.trans parse)).1
  exact absurd accepted.type (by decide)

end QboxPlatform.Mhu.Psa
