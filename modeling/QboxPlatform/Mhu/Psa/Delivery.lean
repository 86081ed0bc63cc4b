import QboxPlatform.Mhu.Psa.Atomic
import QboxPlatform.Mhu.Psa.Outputs
import QboxPlatform.Mhu.Psa.Parse

/-!
# Replies describe what they carry

The sizes a reply declares against the data that is delivered: after the header
of an embedded reply, or through the output pointers.  The two ways in which the
code breaks this, `ReadOverflows` and `PartialDelivery`, both need a measured-boot
read with several outputs.
-/

namespace QboxPlatform.Mhu.Psa

open Foundation

universe u

variable {Memory : Type u}

/-- The writes that put non-empty output vectors through their pointers, in order. -/
def pointerWrites (ptrs : Nat → BitVec 64) (data : Nat → List Byte) (index remaining : Nat) :
    Bus.WriteLog :=
  ((List.range' index remaining).filter fun output => data output ≠ []).map
    fun output => (ptrs output, data output)

/-- The output vectors the handler filled in. -/
def handlerOutputs (bus : Bus Memory) (request : List Byte) (services : Services)
    (memory : Memory) : Nat → List Byte :=
  match (parseRsePsRequest bus request memory).1 with
  | .ok parsed => (handleRsePsRequest parsed {} services).outputs.data
  | .error _ => fun _ => []

/-- The declared sizes are those of the output vectors, and exactly these vectors
arrive: through the pointers, or concatenated after the header. -/
def Delivers (request reply : List Byte) (log : Bus.WriteLog) (outputs : Nat → List Byte) :
    Prop :=
  (∀ index < psaMaxIovec, replySize reply index = (outputs index).length) ∧
    if isPointerReply reply then
      log = pointerWrites (outputPointer request) outputs 0 psaMaxIovec
    else
      log = [] ∧ replyPayload reply = (List.range psaMaxIovec).flatMap outputs

/-- No output is declared and none arrives. -/
def DeliversNothing (reply : List Byte) (log : Bus.WriteLog) : Prop :=
  (∀ index < psaMaxIovec, replySize reply index = 0) ∧ log = [] ∧
    (¬ isPointerReply reply → replyPayload reply = [])

/-- The reply to a request, run on a bus that records the writes it accepts,
describes what it carries. -/
def ReplyAccurate (bus : Bus Memory) (request : List Byte) (services : Services)
    (memory : Memory) : Prop :=
  let (reply, _, (_, log)) := buildRsePsReply bus.logged request services (memory, [])
  if replyStatus reply = PsaStatus.success.code then
    Delivers request reply log (handlerOutputs bus request services memory)
  else
    DeliversNothing reply log

/-- A measured-boot read whose first output fits while a later one the caller asked
for does not. -/
def ReadOverflows (parsed : RsePsRequest) (services : Services) : Prop :=
  ∃ entry, ReadsSlot parsed services entry ∧ 2 ≤ parsed.outLen ∧
    56 ≤ (parsed.outCaps 0).toNat ∧
    ((parsed.outCaps 1).toNat < entry.measurement.length ∨
      3 ≤ parsed.outLen ∧ (parsed.outCaps 2).toNat < entry.signerId.length)

/-- A measured-boot read by pointer access whose outputs all fit, and of which guest
memory takes the metadata and then refuses the measurement or the signer. -/
def PartialDelivery (bus : Bus Memory) (parsed : RsePsRequest) (services : Services)
    (memory : Memory) : Prop :=
  ∃ entry, ReadsSlot parsed services entry ∧
    parsed.protocol = rseCommsProtocolPointerAccess ∧ 2 ≤ parsed.outLen ∧
    56 ≤ (parsed.outCaps 0).toNat ∧
    entry.measurement.length ≤ (parsed.outCaps 1).toNat ∧
    (3 ≤ parsed.outLen → entry.signerId.length ≤ (parsed.outCaps 2).toNat) ∧
    let first := memWriteBytes bus memory (parsed.outPtrs 0) (measurementMetadata entry)
    let second := memWriteBytes bus first.2 (parsed.outPtrs 1) entry.measurement
    let third := memWriteBytes bus second.2 (parsed.outPtrs 2) entry.signerId
    first.1 = true ∧ (second.1 = false ∨ 3 ≤ parsed.outLen ∧ third.1 = false)

section WriteBack

theorem memWriteBytes_logged (bus : Bus Memory) (memory : Memory) (log : Bus.WriteLog)
    (address : BitVec 64) (data : List Byte) :
    memWriteBytes bus.logged (memory, log) address data =
      ((memWriteBytes bus memory address data).1, (memWriteBytes bus memory address data).2,
        if data ≠ [] ∧ (memWriteBytes bus memory address data).1 = true then
          log ++ [(address, data)]
        else log) := by
  unfold memWriteBytes
  split_ifs <;> simp_all [Bus.logged]

theorem writeBack_logged_fst (bus : Bus Memory) (ptrs : Nat → BitVec 64)
    (data : Nat → List Byte) (remaining index : Nat) (memory : Memory) (log : Bus.WriteLog) :
    (writeBack bus.logged ptrs data remaining index (memory, log)).1 =
      (writeBack bus ptrs data remaining index memory).1 := by
  induction remaining generalizing index memory log with
  | zero => rfl
  | succ remaining inductionHypothesis =>
      simp only [writeBack, memWriteBytes_logged]
      obtain ⟨ok, next⟩ := memWriteBytes bus memory (ptrs index) (data index)
      cases ok
      · rfl
      · exact inductionHypothesis (index + 1) next _

theorem writeBack_logged_complete (bus : Bus Memory) (ptrs : Nat → BitVec 64)
    (data : Nat → List Byte) (remaining index : Nat) (memory : Memory) (log : Bus.WriteLog)
    (delivered : (writeBack bus.logged ptrs data remaining index (memory, log)).1 = true) :
    (writeBack bus.logged ptrs data remaining index (memory, log)).2.2 =
      log ++ pointerWrites ptrs data index remaining := by
  induction remaining generalizing index memory log with
  | zero => simp [writeBack, pointerWrites]
  | succ remaining inductionHypothesis =>
      revert delivered
      simp only [writeBack, memWriteBytes_logged]
      obtain ⟨ok, next⟩ := memWriteBytes bus memory (ptrs index) (data index)
      cases ok
      · simp
      · intro delivered
        rw [inductionHypothesis (index + 1) next _ delivered]
        by_cases empty : data index = []
        · simp [pointerWrites, List.range'_succ, empty]
        · simp [pointerWrites, List.range'_succ, empty]

theorem writeBack_logged_prefix (bus : Bus Memory) (ptrs : Nat → BitVec 64)
    (data : Nat → List Byte) (remaining index : Nat) (memory : Memory) (log : Bus.WriteLog) :
    log <+: (writeBack bus.logged ptrs data remaining index (memory, log)).2.2 := by
  induction remaining generalizing index memory log with
  | zero => exact List.prefix_rfl
  | succ remaining inductionHypothesis =>
      simp only [writeBack, memWriteBytes_logged]
      obtain ⟨ok, next⟩ := memWriteBytes bus memory (ptrs index) (data index)
      cases ok
      · simp
      · refine List.IsPrefix.trans ?_ (inductionHypothesis (index + 1) next _)
        split_ifs
        · exact List.prefix_append _ _
        · exact List.prefix_rfl

theorem writeBack_logged_single (bus : Bus Memory) (ptrs : Nat → BitVec 64)
    (data : Nat → List Byte) (single : ∀ index, 1 ≤ index → data index = [])
    (remaining : Nat) (memory : Memory)
    (refused : (writeBack bus.logged ptrs data remaining 0 (memory, [])).1 = false) :
    (writeBack bus.logged ptrs data remaining 0 (memory, [])).2.2 = [] := by
  cases remaining with
  | zero => rfl
  | succ remaining =>
      revert refused
      simp only [writeBack, memWriteBytes_logged]
      obtain ⟨ok, next⟩ := memWriteBytes bus memory (ptrs 0) (data 0)
      cases ok
      · simp
      · simp [writeBack_empty bus.logged ptrs data 1 single remaining 1 le_rfl]

theorem pointerWrites_extend (ptrs : Nat → BitVec 64) (data : Nat → List Byte)
    {asked total : Nat} (within : asked ≤ total)
    (absent : ∀ index, asked ≤ index → data index = []) :
    pointerWrites ptrs data 0 asked = pointerWrites ptrs data 0 total := by
  obtain ⟨extra, rfl⟩ := Nat.exists_eq_add_of_le within
  have beyond :
      (List.range' (0 + 1 * asked) extra).filter (fun output => data output ≠ []) = [] := by
    rw [List.filter_eq_nil_iff]
    intro index member
    have above := (List.mem_range'_1.mp member).1
    simpa using absent index (by omega)
  rw [pointerWrites, pointerWrites, ← List.range'_append, List.filter_append, beyond,
    List.append_nil]

theorem flatMap_range_extend (data : Nat → List Byte) {asked total : Nat}
    (within : asked ≤ total) (absent : ∀ index, asked ≤ index → data index = []) :
    (List.range asked).flatMap data = (List.range total).flatMap data := by
  obtain ⟨extra, rfl⟩ := Nat.exists_eq_add_of_le within
  have beyond : (List.range extra).flatMap (fun index => data (asked + index)) = [] := by
    rw [List.flatMap_eq_nil_iff]
    exact fun index _ => absent _ (by omega)
  rw [List.range_add, List.flatMap_append, List.flatMap_map, beyond, List.append_nil]

theorem pointerWrites_congr {first second : Nat → BitVec 64} (data : Nat → List Byte)
    {asked : Nat} (same : ∀ index < asked, first index = second index) :
    pointerWrites first data 0 asked = pointerWrites second data 0 asked := by
  apply List.map_congr_left
  intro index member
  have inside := List.mem_range'_1.mp (List.mem_filter.mp member).1
  rw [same index (by omega)]

end WriteBack

end QboxPlatform.Mhu.Psa
