import QboxPlatform.Foundation.Ring
import QboxPlatform.Mmu720ae.Registers

/-!
# The event queue is a bounded queue

The device produces and software consumes.  The entries between the two pointers are the records
that software has not consumed yet, in the order in which they were recorded.
-/

namespace QboxPlatform.Mmu720ae

open Foundation

@[simp]
theorem EventRecord.length_bytes (record : EventRecord) : record.bytes.length = evtqEntBytes := by
  simp [EventRecord.bytes, evtqEntBytes]

namespace Core

/-- The number of entries from `EVTQ_CONS` to `EVTQ_PROD`. -/
def eventQueueUsed (core : Core) : Nat :=
  Ring.ahead core.eventQueueLog2Entries (core.load32 evtqProd) (core.load32 evtqCons)

/-- What software may change while it uses the queue: it leaves the setup and `EVTQ_PROD` alone,
and advances `EVTQ_CONS` over entries that were produced. -/
structure KeepsQueue (before after : Core) : Prop where
  setup : SameSetup before after
  prod : after.load32 evtqProd = before.load32 evtqProd
  cons :
    Ring.ahead before.eventQueueLog2Entries (after.load32 evtqCons) (before.load32 evtqCons) ≤
      before.eventQueueUsed

theorem eventQueueNextProd_eq (core : Core) :
    core.eventQueueNextProd = Ring.next core.eventQueueLog2Entries (core.load32 evtqProd) := by
  simp only [eventQueueNextProd, BitVec.or_zero]
  rfl

theorem toNat_eventQueueProdEntryAddress (core : Core)
    (small : core.eventQueueLog2Entries < 31) :
    core.eventQueueProdEntryAddress.toNat =
      core.eventQueueBase.toNat +
        (core.load32 evtqProd).toNat % 2 ^ core.eventQueueLog2Entries * evtqEntBytes := by
  have base : core.eventQueueBase.toNat ≤ qBaseAddrMask.toNat := by
    rw [eventQueueBase, BitVec.toNat_and]
    exact Nat.and_le_right
  have index : (core.eventQueueIndex (core.load32 evtqProd)).toNat =
      (core.load32 evtqProd).toNat % 2 ^ core.eventQueueLog2Entries :=
    Ring.toNat_index (by omega) _
  have below : (core.load32 evtqProd).toNat % 2 ^ core.eventQueueLog2Entries < 2 ^ 31 :=
    (Nat.mod_lt _ (Nat.two_pow_pos _)).trans (Nat.pow_lt_pow_right (by omega) small)
  have mask : qBaseAddrMask.toNat = 2 ^ 60 - 32 := rfl
  rw [eventQueueProdEntryAddress, BitVec.toNat_add, BitVec.toNat_mul,
    BitVec.toNat_setWidth_of_le (by omega), index]
  simp only [evtqEntBytes, evtqEntDwords, BitVec.toNat_ofNat]
  omega

end Core

namespace Device

variable (params : Params) (device : Device)

/-- The bytes in a slot of the queue. -/
def eventEntry (slot : Nat) : List Byte :=
  device.memory.read (device.core.eventQueueBase.toNat + slot * evtqEntBytes) evtqEntBytes

/-- The entries from `EVTQ_CONS` to `EVTQ_PROD`. -/
def queuedEntries : List (List Byte) :=
  (List.range device.core.eventQueueUsed).map fun position =>
    device.eventEntry
      (((device.core.load32 evtqCons).toNat + position) % 2 ^ device.core.eventQueueLog2Entries)

/-- The event of a blocked request and where its record goes. -/
def faultEvent (tbu : Tbu) (payload : TbuRequest) : Option (EventRecord × BitVec 64) :=
  device.core.buildTranslationFaultEvent payload.address payload.isRead
    (clampSid (requestSidOrDefault payload (params.defaultSid tbu)).1)

end Device

/-- What happened to the queue: the records that were written to it, and the entries that
software found there when it advanced over them. -/
structure QueueHistory where
  recorded : List EventRecord
  taken : List (List Byte)

namespace Device

variable (params : Params) (device : Device)

/-- The record that an event adds to the queue. -/
def recordedBy : Event → List EventRecord
  | .request tbu payload .stored =>
      if device.core.smmuEnabled then
        ((device.faultEvent params tbu payload).map Prod.fst).toList
      else []
  | _ => []

/-- The entries that an event advances over. -/
def takenBy : Event → List (List Byte)
  | .registers access =>
      match device.accessRegisters params access with
      | some (_, next) =>
          device.queuedEntries.take
            (Ring.ahead device.core.eventQueueLog2Entries (next.core.load32 evtqCons)
              (device.core.load32 evtqCons))
      | none => []
  | _ => []

def recordHistory (event : Event) (past : QueueHistory) : QueueHistory where
  recorded := past.recorded ++ device.recordedBy params event
  taken := past.taken ++ device.takenBy params event

/-- Software keeps to the protocol of the queue, and the device is not reset. -/
def FollowsProtocol : Event → Prop
  | .registers access =>
      ∀ response next, device.accessRegisters params access = some (response, next) →
        device.core.KeepsQueue next.core
  | .request _ _ _ => True
  | .debugRequest _ _ => True
  | .reset level => level = false

/-- The request is counted once: as a record, or as an abort that sets the error. -/
def CountedOnce (next : Device) : Prop :=
  (next.core.eventRecordCount = device.core.eventRecordCount + 1 ∧
      next.core.eventQueueAbortCount = device.core.eventQueueAbortCount) ∨
    (next.core.eventRecordCount = device.core.eventRecordCount ∧
      next.core.eventQueueAbortCount = device.core.eventQueueAbortCount + 1 ∧
      next.core.load32 gerror &&& gerrorEvtqAbtErr ≠ 0)

/-- What the queue promises, given its history. -/
structure FaithfulQueue (past : QueueHistory) : Prop where
  /-- What software took and what is queued are the records, in order. -/
  contents : past.taken ++ device.queuedEntries = past.recorded.map EventRecord.bytes
  prod : (device.core.load32 evtqProd).toNat =
    past.recorded.length % 2 ^ (device.core.eventQueueLog2Entries + 1)
  bounded : device.queuedEntries.length ≤ 2 ^ device.core.eventQueueLog2Entries
  /-- The next record goes to no slot that is queued. -/
  free : ∀ tbu payload record address,
    device.faultEvent params tbu payload = some (record, address) →
      ∀ position < device.core.eventQueueUsed,
        address.toNat ≠ device.core.eventQueueBase.toNat +
          ((device.core.load32 evtqCons).toNat + position) %
            2 ^ device.core.eventQueueLog2Entries * evtqEntBytes
  counted : ∀ tbu payload outcome next, device.core.smmuEnabled = true →
    device.step params (.request tbu payload outcome) = some next → device.CountedOnce next

/-! ### What the events do -/

section Steps

variable {params} {device}

@[simp]
theorem core_updateIrq : (device.updateIrq params).core = device.core := by
  unfold updateIrq
  split <;> rfl

@[simp]
theorem memory_updateIrq : (device.updateIrq params).memory = device.memory := by
  unfold updateIrq
  split <;> rfl

/-- The core when the request has been counted. -/
def countedRequest (params : Params) (device : Device) (tbu : Tbu) (payload : TbuRequest) : Core :=
  device.core.recordTbuRequestSid
    (clampSid (requestSidOrDefault payload (params.defaultSid tbu)).1)
    (requestSidOrDefault payload (params.defaultSid tbu)).2

/-- A blocked request is aborted, or recorded, or its record fails to reach the memory. -/
theorem request_cases (tbu : Tbu) (payload : TbuRequest) (outcome : WriteOutcome) {next : Device}
    (blocked : device.core.smmuEnabled = true)
    (stepped : device.step params (.request tbu payload outcome) = some next) :
    (device.faultEvent params tbu payload = none ∧ next.memory = device.memory ∧
        next.core = (device.countedRequest params tbu payload).recordEventQueueAbort) ∨
      ∃ record address, device.faultEvent params tbu payload = some (record, address) ∧
        ((outcome = .stored ∧ next.memory = device.memory.write address.toNat record.bytes ∧
            next.core =
              (device.countedRequest params tbu payload).completeEventQueueWrite true) ∨
          ∃ leftover, outcome = .failed leftover ∧
            next.memory = device.memory.write address.toNat (leftover.take evtqEntBytes) ∧
            next.core = (device.countedRequest params tbu payload).recordEventQueueAbort) := by
  obtain rfl := Option.some.inj stepped
  have event : (device.countedRequest params tbu payload).buildTranslationFaultEvent
      payload.address payload.isRead
      (clampSid (requestSidOrDefault payload (params.defaultSid tbu)).1) =
      device.faultEvent params tbu payload := rfl
  simp only [tbuBTransport, blocked, if_true, recordUnimplementedTranslationFault]
  cases prepared : device.faultEvent params tbu payload with
  | none =>
      left
      rw [prepared] at event
      simp only [countedRequest] at event
      simp only [event, core_updateIrq, memory_updateIrq, countedRequest, true_and]
  | some found =>
      obtain ⟨record, address⟩ := found
      right
      rw [prepared] at event
      simp only [countedRequest] at event
      refine ⟨record, address, rfl, ?_⟩
      cases outcome with
      | stored =>
          left
          simp only [event, core_updateIrq, memory_updateIrq, countedRequest, writeEventRecord,
            true_and]
      | failed leftover =>
          right
          refine ⟨leftover, rfl, ?_⟩
          simp only [event, core_updateIrq, memory_updateIrq, countedRequest, writeEventRecord,
            true_and]
          rfl

theorem memory_accessRegisters {access : Access} {response : Response} {next : Device}
    (accessed : device.accessRegisters params access = some (response, next)) :
    next.memory = device.memory := by
  simp only [accessRegisters, Option.map_eq_some_iff] at accessed
  obtain ⟨⟨reply, core⟩, -, result⟩ := accessed
  cases reply with
  | ok data =>
      obtain ⟨-, rfl⟩ := Prod.mk.inj result
      exact memory_updateIrq
  | addressError =>
      obtain ⟨-, rfl⟩ := Prod.mk.inj result
      rfl
  | commandError =>
      obtain ⟨-, rfl⟩ := Prod.mk.inj result
      rfl

theorem core_accessRegisters {access : Access} {response : Response} {next : Device}
    (accessed : device.accessRegisters params access = some (response, next)) :
    device.core.access access = some (response, next.core) := by
  simp only [accessRegisters, Option.map_eq_some_iff] at accessed
  obtain ⟨⟨reply, core⟩, reached, result⟩ := accessed
  rw [reached]
  cases reply with
  | ok data =>
      obtain ⟨rfl, rfl⟩ := Prod.mk.inj result
      rw [core_updateIrq]
  | addressError =>
      obtain ⟨rfl, rfl⟩ := Prod.mk.inj result
      rfl
  | commandError =>
      obtain ⟨rfl, rfl⟩ := Prod.mk.inj result
      rfl

/-- An access of the registers changes the core by the write it was accepted as, if at all. -/
theorem registers_cases {access : Access} {next : Device}
    (stepped : device.step params (.registers access) = some next) :
    (next.core = device.core ∧ ∀ offset data, access = .write offset data →
        Core.normalizeOffset offset data.length = none) ∨
      ∃ offset data normalized, access = .write offset data ∧
        Core.normalizeOffset offset data.length = some normalized ∧
        next.core = device.core.writeAt normalized data := by
  obtain ⟨⟨response, reached⟩, accessed, rfl⟩ := Option.map_eq_some_iff.mp stepped
  have core := core_accessRegisters accessed
  cases access with
  | ignore offset len =>
      obtain ⟨-, same⟩ := Prod.mk.inj (Option.some.inj core)
      exact Or.inl ⟨same.symm, nofun⟩
  | read offset len =>
      simp only [Core.access] at core
      split at core
      · obtain ⟨-, same⟩ := Prod.mk.inj (Option.some.inj core)
        exact Or.inl ⟨same.symm, nofun⟩
      · split at core
        · cases core
        · obtain ⟨-, same⟩ := Prod.mk.inj (Option.some.inj core)
          exact Or.inl ⟨same.symm, nofun⟩
  | write offset data =>
      simp only [Core.access] at core
      cases position : Core.normalizeOffset offset data.length with
      | none =>
          simp only [position] at core
          obtain ⟨-, same⟩ := Prod.mk.inj (Option.some.inj core)
          left
          refine ⟨same.symm, ?_⟩
          rintro _ _ ⟨⟩
          exact position
      | some normalized =>
          simp only [position] at core
          split at core
          · cases core
          · obtain ⟨-, same⟩ := Prod.mk.inj (Option.some.inj core)
            exact Or.inr ⟨offset, data, normalized, rfl, position, same.symm⟩

/-- A word write to `EVTQ_CONS`, in either page, that advances over produced entries. -/
theorem followsProtocol_evtqCons {offset : BitVec 64} {value : BitVec 32}
    (register : Core.normalizeOffset offset 4 = some evtqCons)
    (advances : Ring.ahead device.core.eventQueueLog2Entries value
      (device.core.load32 evtqCons) ≤ device.core.eventQueueUsed) :
    device.FollowsProtocol params (.registers (.write offset (toBytes 4 value))) := by
  intro response next accessed
  have written := core_accessRegisters accessed
  have inside : ¬regBytes < evtqCons + 4 := by decide
  have stored : device.core.writeAt evtqCons (toBytes 4 value) =
      (device.core.store32 evtqCons value).updateIrq := by
    rw [Core.writeAt, length_toBytes, if_pos (by decide), ofBytes_toBytes value (by decide)]
    rfl
  simp only [Core.access, length_toBytes, register, inside, if_false, stored, Option.some.injEq,
    Prod.mk.injEq] at written
  rw [← written.2]
  refine ⟨⟨?_, ?_⟩, ?_, ?_⟩
  · rw [Core.load32_updateIrq, Core.load32_store32_of_disjoint _ _ (by decide) (by decide)]
  · rw [Core.load64_updateIrq, Core.load64_store32_of_disjoint _ _ (by decide) (by decide)]
  · rw [Core.load32_updateIrq, Core.load32_store32_of_disjoint _ _ (by decide) (by decide)]
  · rw [Core.load32_updateIrq, Core.load32_store32 _ _ (by decide)]
    exact advances

end Steps

/-! ### The invariant -/

/-- The device and its memory stand for the history of the queue. -/
structure Represents (past : QueueHistory) : Prop where
  configured : device.core.eventQueueConfigured = true
  ordered : past.taken.length ≤ past.recorded.length
  prod : (device.core.load32 evtqProd).toNat =
    past.recorded.length % 2 ^ (device.core.eventQueueLog2Entries + 1)
  cons : Ring.Counts device.core.eventQueueLog2Entries (device.core.load32 evtqCons)
    past.taken.length
  holds : Ring.Holds (2 ^ device.core.eventQueueLog2Entries) device.eventEntry past.taken.length
    ((past.recorded.map EventRecord.bytes).drop past.taken.length)
  taken : past.taken = (past.recorded.map EventRecord.bytes).take past.taken.length

variable {params} {device} {past : QueueHistory}

theorem log2Entries_lt (configured : device.core.eventQueueConfigured = true) :
    device.core.eventQueueLog2Entries < 31 := by
  simp only [Core.eventQueueConfigured, Bool.and_eq_true, decide_eq_true_eq] at configured
  exact configured.1.2

namespace Represents

theorem counts_prod (represents : device.Represents past) :
    Ring.Counts device.core.eventQueueLog2Entries (device.core.load32 evtqProd)
      past.recorded.length := by
  rw [Ring.Counts, represents.prod]
  exact Nat.mod_modEq _ _

theorem fits (represents : device.Represents past) :
    device.core.eventQueueLog2Entries < 32 := by
  have := log2Entries_lt represents.configured
  omega

theorem bounded (represents : device.Represents past) :
    past.recorded.length ≤ past.taken.length + 2 ^ device.core.eventQueueLog2Entries := by
  have := represents.holds.bounded
  rw [List.length_drop, List.length_map] at this
  omega

theorem used (represents : device.Represents past) :
    device.core.eventQueueUsed = past.recorded.length - past.taken.length :=
  Ring.ahead_of_counts represents.fits represents.counts_prod represents.cons
    represents.ordered represents.bounded

theorem queuedEntries_eq (represents : device.Represents past) :
    device.queuedEntries = (past.recorded.map EventRecord.bytes).drop past.taken.length := by
  have count : ((past.recorded.map EventRecord.bytes).drop past.taken.length).length =
      device.core.eventQueueUsed := by
    rw [represents.used, List.length_drop, List.length_map]
  rw [← represents.holds.map_range, count]
  apply List.map_congr_left
  intro position _
  have slot := (represents.cons.of_dvd
    (Nat.pow_dvd_pow 2 (Nat.le_succ device.core.eventQueueLog2Entries))).add_right position
  exact congrArg device.eventEntry slot

theorem contents (represents : device.Represents past) :
    past.taken ++ device.queuedEntries = past.recorded.map EventRecord.bytes := by
  rw [represents.queuedEntries_eq]
  calc past.taken ++ (past.recorded.map EventRecord.bytes).drop past.taken.length
      = (past.recorded.map EventRecord.bytes).take past.taken.length ++
          (past.recorded.map EventRecord.bytes).drop past.taken.length :=
        congrArg (· ++ (past.recorded.map EventRecord.bytes).drop past.taken.length)
          represents.taken
    _ = past.recorded.map EventRecord.bytes := List.take_append_drop _ _

theorem full_iff (represents : device.Represents past) :
    device.core.eventQueueFull = true ↔
      past.recorded.length = past.taken.length + 2 ^ device.core.eventQueueLog2Entries := by
  rw [← Ring.full_iff represents.fits represents.counts_prod represents.cons
    represents.ordered represents.bounded]
  simp [Core.eventQueueFull, represents.configured, Core.eventQueueIndex, Core.eventQueueWrap,
    Ring.index, Ring.wrap]

/-- The record goes into the slot behind the last entry. -/
theorem prod_slot (represents : device.Represents past) :
    (device.core.load32 evtqProd).toNat % 2 ^ device.core.eventQueueLog2Entries =
      (past.taken.length + ((past.recorded.map EventRecord.bytes).drop past.taken.length).length) %
        2 ^ device.core.eventQueueLog2Entries := by
  have := represents.ordered
  rw [List.length_drop, List.length_map, Nat.add_sub_cancel' this]
  exact represents.counts_prod.of_dvd (Nat.pow_dvd_pow 2 (Nat.le_succ _))

/-- Neither the queue nor its memory changes. -/
theorem unchanged {next : Device} (represents : device.Represents past)
    (setup : Core.SameSetup device.core next.core)
    (prod : next.core.load32 evtqProd = device.core.load32 evtqProd)
    (cons : next.core.load32 evtqCons = device.core.load32 evtqCons)
    (holds : Ring.Holds (2 ^ device.core.eventQueueLog2Entries) next.eventEntry past.taken.length
      ((past.recorded.map EventRecord.bytes).drop past.taken.length)) :
    next.Represents past := by
  refine ⟨?_, represents.ordered, ?_, ?_, ?_, represents.taken⟩
  · rw [setup.configured]
    exact represents.configured
  · rw [prod, setup.log2Entries]
    exact represents.prod
  · rw [cons, setup.log2Entries]
    exact represents.cons
  · rw [setup.log2Entries]
    exact holds

/-- A record is written behind the last entry, and `EVTQ_PROD` moves on. -/
theorem push {next : Device} (represents : device.Represents past) (record : EventRecord)
    (setup : Core.SameSetup device.core next.core)
    (prod : next.core.load32 evtqProd = device.core.eventQueueNextProd)
    (cons : next.core.load32 evtqCons = device.core.load32 evtqCons)
    (holds : Ring.Holds (2 ^ device.core.eventQueueLog2Entries) next.eventEntry past.taken.length
      ((past.recorded.map EventRecord.bytes).drop past.taken.length ++ [record.bytes])) :
    next.Represents ⟨past.recorded ++ [record], past.taken⟩ := by
  have ordered := represents.ordered
  have reached : past.taken.length ≤ (past.recorded.map EventRecord.bytes).length := by
    rwa [List.length_map]
  refine ⟨?_, ?_, ?_, ?_, ?_, ?_⟩
  · rw [setup.configured]
    exact represents.configured
  · simpa using Nat.le_succ_of_le ordered
  · rw [prod, setup.log2Entries, Core.eventQueueNextProd_eq, Ring.toNat_next represents.fits,
      represents.prod, Nat.mod_add_mod, List.length_append, List.length_singleton]
  · rw [cons, setup.log2Entries]
    exact represents.cons
  · rw [setup.log2Entries, List.map_append, List.drop_append_of_le_length reached]
    exact holds
  · rw [List.map_append, List.take_append_of_le_length reached]
    exact represents.taken

/-- Software advances `EVTQ_CONS`. -/
theorem advance {next : Device} (represents : device.Represents past)
    (keeps : device.core.KeepsQueue next.core) (memory : next.memory = device.memory) :
    next.Represents
      ⟨past.recorded, past.taken ++ device.queuedEntries.take
        (Ring.ahead device.core.eventQueueLog2Entries (next.core.load32 evtqCons)
          (device.core.load32 evtqCons))⟩ := by
  have ordered := represents.ordered
  have within := keeps.cons
  rw [represents.used] at within
  have entry : next.eventEntry = device.eventEntry := by
    funext slot
    rw [eventEntry, eventEntry, memory, keeps.setup.base]
  have count : (past.taken ++ device.queuedEntries.take
      (Ring.ahead device.core.eventQueueLog2Entries (next.core.load32 evtqCons)
        (device.core.load32 evtqCons))).length =
      past.taken.length + Ring.ahead device.core.eventQueueLog2Entries
        (next.core.load32 evtqCons) (device.core.load32 evtqCons) := by
    rw [represents.queuedEntries_eq, List.length_append, List.length_take, List.length_drop,
      List.length_map]
    omega
  refine ⟨?_, ?_, ?_, ?_, ?_, ?_⟩
  · rw [keeps.setup.configured]
    exact represents.configured
  · exact count.trans_le (by dsimp only; omega)
  · rw [keeps.prod, keeps.setup.log2Entries]
    exact represents.prod
  · rw [count, keeps.setup.log2Entries]
    exact Ring.counts_add_ahead represents.fits represents.cons
  · rw [count, keeps.setup.log2Entries, entry, ← List.drop_drop]
    exact represents.holds.drop _
  · rw [count, represents.queuedEntries_eq, List.take_add]
    exact congrArg (· ++ _) represents.taken

/-- A record is only written when a slot is left. -/
theorem room (represents : device.Represents past) (notFull : device.core.eventQueueFull = false) :
    ((past.recorded.map EventRecord.bytes).drop past.taken.length).length <
      2 ^ device.core.eventQueueLog2Entries := by
  have bounded := represents.bounded
  have apart : past.recorded.length ≠
      past.taken.length + 2 ^ device.core.eventQueueLog2Entries := by
    intro full
    rw [represents.full_iff.mpr full] at notFull
    exact Bool.noConfusion notFull
  have ordered := represents.ordered
  rw [List.length_drop, List.length_map]
  omega

end Represents

theorem eventEntry_of_written {next : Device} {data : List Byte} {free slot : Nat}
    (setup : Core.SameSetup device.core next.core)
    (memory : next.memory =
      device.memory.write (device.core.eventQueueBase.toNat + free * evtqEntBytes) data)
    (short : data.length ≤ evtqEntBytes) (apart : slot ≠ free) :
    next.eventEntry slot = device.eventEntry slot := by
  rw [eventEntry, eventEntry, memory, setup.base]
  apply Image.read_congr
  intro index above below
  apply Image.write_outside
  simp only [evtqEntBytes, evtqEntDwords] at short above below ⊢
  omega

theorem eventEntry_written {next : Device} {data : List Byte} {free : Nat}
    (setup : Core.SameSetup device.core next.core)
    (memory : next.memory =
      device.memory.write (device.core.eventQueueBase.toNat + free * evtqEntBytes) data)
    (whole : data.length = evtqEntBytes) : next.eventEntry free = data := by
  rw [eventEntry, memory, setup.base, ← whole]
  exact Image.read_write_same _ _ _

theorem faultEvent_eq_some {tbu : Tbu} {payload : TbuRequest} {record : EventRecord}
    {address : BitVec 64}
    (prepared : device.faultEvent params tbu payload = some (record, address)) :
    device.core.eventQueueFull = false ∧ address = device.core.eventQueueProdEntryAddress := by
  simp only [faultEvent, Core.buildTranslationFaultEvent] at prepared
  split at prepared
  · cases prepared
  · next free =>
      simp only [Bool.or_eq_true, not_or, Bool.not_eq_true] at free
      exact ⟨free.2, (Prod.mk.inj (Option.some.inj prepared)).2.symm⟩

theorem recordHistory_of_nil {event : Event} (recorded : device.recordedBy params event = [])
    (taken : device.takenBy params event = []) :
    device.recordHistory params event past = past := by
  rw [recordHistory, recorded, taken, List.append_nil, List.append_nil]

/-- An abort leaves the queue alone, whatever is in the free slot of its memory. -/
theorem Represents.aborted {next : Device} (represents : device.Represents past) {tbu : Tbu}
    {payload : TbuRequest}
    (core : next.core = (device.countedRequest params tbu payload).recordEventQueueAbort)
    (holds : Ring.Holds (2 ^ device.core.eventQueueLog2Entries) next.eventEntry past.taken.length
      ((past.recorded.map EventRecord.bytes).drop past.taken.length)) :
    next.Represents past := by
  have setup := (device.countedRequest params tbu payload).sameSetup_recordEventQueueAbort
  have prod := (device.countedRequest params tbu payload).evtqProd_recordEventQueueAbort
  have cons := (device.countedRequest params tbu payload).evtqCons_recordEventQueueAbort
  rw [← core] at setup prod cons
  exact represents.unchanged ⟨setup.cr0ack, setup.evtqBase⟩ prod cons holds

theorem Represents.request {next : Device} (represents : device.Represents past) (tbu : Tbu)
    (payload : TbuRequest) (outcome : WriteOutcome)
    (stepped : device.step params (.request tbu payload outcome) = some next) :
    next.Represents (device.recordHistory params (.request tbu payload outcome) past) := by
  cases blocked : device.core.smmuEnabled with
  | false =>
      obtain rfl := Option.some.inj stepped
      have silent : device.recordedBy params (.request tbu payload outcome) = [] := by
        cases outcome <;> simp [recordedBy, blocked]
      rw [recordHistory_of_nil silent rfl]
      simpa [tbuBTransport, blocked] using represents
  | true =>
      rcases request_cases tbu payload outcome blocked stepped with
        ⟨prepared, memory, core⟩ | ⟨record, address, prepared, written⟩
      · have silent : device.recordedBy params (.request tbu payload outcome) = [] := by
          cases outcome <;> simp [recordedBy, blocked, prepared]
        rw [recordHistory_of_nil silent rfl]
        apply represents.aborted core
        have setup := (device.countedRequest params tbu payload).sameSetup_recordEventQueueAbort
        have entry : next.eventEntry = device.eventEntry := by
          funext slot
          have base : next.core.eventQueueBase = device.core.eventQueueBase := by
            rw [core]
            exact setup.base
          rw [eventEntry, eventEntry, memory, base]
        rw [entry]
        exact represents.holds
      · obtain ⟨notFull, rfl⟩ := faultEvent_eq_some prepared
        have room := represents.room notFull
        have slot := represents.prod_slot
        rw [Core.toNat_eventQueueProdEntryAddress _ (log2Entries_lt represents.configured),
          slot] at written
        rcases written with ⟨rfl, memory, core⟩ | ⟨leftover, rfl, memory, core⟩
        · have setup := (device.countedRequest params tbu payload).sameSetup_completeEventQueueWrite
          have prod := (device.countedRequest params tbu payload).evtqProd_completeEventQueueWrite
          have cons := (device.countedRequest params tbu payload).evtqCons_completeEventQueueWrite
          rw [← core] at setup prod cons
          have sameSetup : Core.SameSetup device.core next.core := ⟨setup.cr0ack, setup.evtqBase⟩
          have recorded : device.recordHistory params (.request tbu payload .stored) past =
              ⟨past.recorded ++ [record], past.taken⟩ := by
            simp [recordHistory, recordedBy, takenBy, blocked, prepared]
          rw [recorded]
          apply represents.push record sameSetup prod cons
          apply represents.holds.push room
          · exact eventEntry_written sameSetup memory record.length_bytes
          · intro slot _ apart
            exact eventEntry_of_written sameSetup memory record.length_bytes.le apart
        · have setup := (device.countedRequest params tbu payload).sameSetup_recordEventQueueAbort
          rw [← core] at setup
          rw [recordHistory_of_nil rfl rfl]
          apply represents.aborted core
          apply represents.holds.of_free room
          intro slot _ apart
          exact eventEntry_of_written ⟨setup.cr0ack, setup.evtqBase⟩ memory
            (List.length_take_le _ _) apart

theorem Represents.registers {next : Device} (represents : device.Represents past)
    (access : Access) (protocol : device.FollowsProtocol params (.registers access))
    (stepped : device.step params (.registers access) = some next) :
    next.Represents (device.recordHistory params (.registers access) past) := by
  obtain ⟨⟨response, reached⟩, accessed, rfl⟩ := Option.map_eq_some_iff.mp stepped
  have advanced := represents.advance (protocol response reached accessed)
    (memory_accessRegisters accessed)
  simpa [recordHistory, recordedBy, takenBy, accessed] using advanced

/-- Every event of the protocol keeps the queue and its history together. -/
theorem Represents.step {next : Device} (represents : device.Represents past) (event : Event)
    (protocol : device.FollowsProtocol params event)
    (stepped : device.step params event = some next) :
    next.Represents (device.recordHistory params event past) := by
  cases event with
  | registers access => exact represents.registers access protocol stepped
  | request tbu payload outcome => exact represents.request tbu payload outcome stepped
  | debugRequest tbu payload =>
      obtain rfl := Option.some.inj stepped
      rw [recordHistory_of_nil rfl rfl]
      unfold tbuTransportDbg
      split
      · exact represents.unchanged ⟨rfl, rfl⟩ rfl rfl represents.holds
      · exact represents
  | reset level =>
      obtain rfl : level = false := protocol
      obtain rfl := Option.some.inj stepped
      rw [recordHistory_of_nil rfl rfl]
      exact represents

/-- A blocked request is counted once, in every state. -/
theorem countedOnce_of_blocked {next : Device} (tbu : Tbu) (payload : TbuRequest)
    (outcome : WriteOutcome) (blocked : device.core.smmuEnabled = true)
    (stepped : device.step params (.request tbu payload outcome) = some next) :
    device.CountedOnce next := by
  have aborted : next.core = (device.countedRequest params tbu payload).recordEventQueueAbort →
      device.CountedOnce next := by
    intro core
    right
    have set := (device.countedRequest params tbu payload).gerror_recordEventQueueAbort
    rw [core]
    refine ⟨rfl, rfl, ?_⟩
    rw [set]
    intro clear
    have bit := congrArg (BitVec.getLsbD · 2) clear
    simp [gerrorEvtqAbtErr] at bit
  rcases request_cases tbu payload outcome blocked stepped with
    ⟨-, -, core⟩ | ⟨record, address, -, ⟨-, -, core⟩ | ⟨leftover, -, -, core⟩⟩
  · exact aborted core
  · left
    rw [core]
    exact ⟨rfl, rfl⟩
  · exact aborted core

theorem Represents.faithful (represents : device.Represents past) :
    device.FaithfulQueue params past := by
  have ordered := represents.ordered
  have used := represents.used
  refine ⟨represents.contents, represents.prod, ?_, ?_, ?_⟩
  · rw [represents.queuedEntries_eq]
    exact represents.holds.bounded
  · intro tbu payload record address prepared position queued
    obtain ⟨notFull, rfl⟩ := faultEvent_eq_some prepared
    have room := represents.room notFull
    rw [used] at queued
    have inside : position <
        ((past.recorded.map EventRecord.bytes).drop past.taken.length).length := by
      rw [List.length_drop, List.length_map]
      exact queued
    have apart := represents.holds.free room inside
    have slot : ((device.core.load32 evtqCons).toNat + position) %
        2 ^ device.core.eventQueueLog2Entries =
        (past.taken.length + position) % 2 ^ device.core.eventQueueLog2Entries :=
      (represents.cons.of_dvd (Nat.pow_dvd_pow 2 (Nat.le_succ _))).add_right position
    rw [Core.toNat_eventQueueProdEntryAddress _ (log2Entries_lt represents.configured),
      represents.prod_slot, slot]
    simp only [evtqEntBytes, evtqEntDwords]
    omega
  · intro tbu payload outcome next blocked stepped
    exact countedOnce_of_blocked tbu payload outcome blocked stepped

theorem represents_start (configured : device.core.eventQueueConfigured = true)
    (prod : device.core.load32 evtqProd = 0) (cons : device.core.load32 evtqCons = 0) :
    device.Represents ⟨[], []⟩ := by
  refine ⟨configured, Nat.le_refl 0, ?_, ?_, Ring.Holds.nil, rfl⟩
  · rw [prod]
    exact (Nat.zero_mod _).symm
  · rw [cons]
    exact Nat.ModEq.refl 0

/-- From an empty queue that software has set up, as long as software keeps to the protocol, the
queue is a bounded queue of the recorded events, whatever the order of requests and accesses and
whichever records reach the memory. -/
theorem eventQueue_faithful (params : Params) {start final : Device} {events : List Event}
    (configured : start.core.eventQueueConfigured = true)
    (emptyProd : start.core.load32 evtqProd = 0) (emptyCons : start.core.load32 evtqCons = 0)
    (protocol : Along (Device.step params) (fun device => device.FollowsProtocol params) start
      events)
    (reached : run (Device.step params) start events = some final) :
    final.FaithfulQueue params
      (history (Device.step params) (fun device => device.recordHistory params) start ⟨[], []⟩
        events) := by
  apply Represents.faithful
  exact history_invariant_along
    (fun _ _ event _ represents follows stepped => represents.step event follows stepped)
    (represents_start configured emptyProd emptyCons) protocol reached

/-- A queue of two entries in empty memory. -/
def smallQueue : Device :=
  { new fun _ => 0 with
    core := ((new fun _ => 0).core.write64 evtqBase 0x100001).write32 cr0 0x5 }

/-- A record, the consumption of it, a record that fails and one more record. -/
def smallTraffic : List Event :=
  [.request .ace1 ⟨0x12345000, false, none⟩ .stored,
    .registers (.write 0x100ac (toBytes 4 1#32)),
    .request .lti00 ⟨0x2000, true, some ⟨0x5a, true⟩⟩ (.failed [0xff]),
    .request .ace2 ⟨0x3000, true, none⟩ .stored]

theorem eventQueue_faithful_smallTraffic :
    ∃ final, run (Device.step {}) smallQueue smallTraffic = some final ∧
      final.FaithfulQueue {}
        (history (Device.step {}) (fun device => device.recordHistory {}) smallQueue ⟨[], []⟩
          smallTraffic) := by
  refine ⟨_, rfl, eventQueue_faithful {} (by decide) (by decide) (by decide) ?_ rfl⟩
  rintro first ⟨⟩
  refine ⟨trivial, ?_⟩
  rintro second stepped
  refine ⟨followsProtocol_evtqCons (by decide) (by decide), ?_⟩
  rintro third -
  exact ⟨trivial, fun _ _ => ⟨trivial, trivial⟩⟩

end Device

end QboxPlatform.Mmu720ae
