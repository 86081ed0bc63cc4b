import QboxPlatform.Mhu.Rings

/-!
# The announcement is published once

The worker may poll any number of times while the guest rewrites the virtqueue under it.  A
poll either fails, with no access to the used ring, or it publishes one element for a
descriptor that it has checked; after that no poll touches the memory again.
-/

namespace QboxPlatform.Mhu

open Foundation

universe u

/-- A stretch of the worker: its state before and after, and its accesses in between. -/
structure Attempt where
  before : RpmsgState
  transfers : List Bus.Transfer
  after : RpmsgState

/-- The bytes that a publishing poll reads, in the order of its reads. -/
structure VringReads where
  availIdx : List Byte
  slot : List Byte
  bufferAddr : List Byte
  bufferLen : List Byte
  flags : List Byte
  usedIdx : List Byte

namespace VringReads

variable (reads : VringReads)

def descId : BitVec 16 := ofBytes 16 reads.slot

end VringReads

namespace RpmsgConfig

variable (config : RpmsgConfig)

/-- Where the avail ring names the descriptor that comes next. -/
def availSlotAddress (lastAvailIdx : BitVec 16) : BitVec 64 :=
  config.rpmsgNsAvailAddress + vringAvailHeaderSize +
    BitVec.ofNat 64 (lastAvailIdx.toNat % config.vringNum.toNat * 2)

def descAddress (descId : BitVec 16) : BitVec 64 :=
  config.vringAddress + descId.setWidth 64 * vringDescSize

/-- Where the used ring takes the element with this index. -/
def usedElemAddress (usedIdx : BitVec 16) : BitVec 64 :=
  config.rpmsgNsUsedAddress + vringUsedHeaderSize +
    BitVec.ofNat 64 (usedIdx.toNat % config.vringNum.toNat) * vringUsedElemSize

/-- The reads of a poll that comes to its descriptor. -/
def inspection (lastAvailIdx : BitVec 16) (reads : VringReads) : List Bus.Transfer :=
  let desc := config.descAddress reads.descId
  [.read (config.rpmsgNsAvailAddress + 2) reads.availIdx,
    .read (config.availSlotAddress lastAvailIdx) reads.slot,
    .read desc reads.bufferAddr,
    .read (desc + 8) reads.bufferLen,
    .read (desc + 12) reads.flags]

/-- The accesses of a publishing poll: after its reads the message, then the used ring. -/
def publication (lastAvailIdx : BitVec 16) (reads : VringReads) (idOk lenOk idxOk : Bool) :
    List Bus.Transfer :=
  let usedIdx := ofBytes 16 reads.usedIdx
  let elem := config.usedElemAddress usedIdx
  config.inspection lastAvailIdx reads ++
    [.write (ofBytes 64 reads.bufferAddr) config.buildRpmsgNsMessage true,
      .read (config.rpmsgNsUsedAddress + 2) reads.usedIdx,
      .write elem (toBytes 4 (reads.descId.setWidth 32)) idOk,
      .write (elem + 4) (toBytes 4 (BitVec.ofNat 32 config.buildRpmsgNsMessage.length)) lenOk,
      .write (config.rpmsgNsUsedAddress + 2) (toBytes 2 (usedIdx + 1)) idxOk]

/-- A read, or a message that the target has refused. -/
def Harmless : Bus.Transfer → Prop
  | .read _ _ => True
  | .write _ data accepted => data = config.buildRpmsgNsMessage ∧ accepted = false

/-- There is nothing to announce, or nothing left. -/
def Finished (state : RpmsgState) : Prop :=
  config.enable = false ∨ state.sent = true ∨ config.vringNum = 0

end RpmsgConfig

namespace Attempt

variable (config : RpmsgConfig) (attempt : Attempt)

/-- The attempt is the one that sends the announcement. -/
def published : Bool := !attempt.before.sent && attempt.after.sent

/-- Nothing but reads, and perhaps a message that was refused; the announcement stays unsent
and the avail ring is still to be read from the same place. -/
structure Fails : Prop where
  harmless : ∀ transfer ∈ attempt.transfers, config.Harmless transfer
  sent : attempt.after.sent = attempt.before.sent
  lastAvailIdx : attempt.after.lastAvailIdx = attempt.before.lastAvailIdx

/-- The whole message went to the buffer of a descriptor that is in range, writable for the
device and large enough, and only then its element to the used ring. -/
structure Publishes (reads : VringReads) : Prop where
  transfers : ∃ idOk lenOk idxOk,
    attempt.transfers = config.publication attempt.before.lastAvailIdx reads idOk lenOk idxOk
  posted : ofBytes 16 reads.availIdx ≠ attempt.before.lastAvailIdx
  inRange : reads.descId.toNat < config.vringNum.toNat
  writable : ofBytes 16 reads.flags &&& vringDescFWrite ≠ 0
  large : config.buildRpmsgNsMessage.length ≤ (ofBytes 32 reads.bufferLen).toNat
  unsent : attempt.before.sent = false
  sent : attempt.after.sent = true
  lastAvailIdx : attempt.after.lastAvailIdx = ofBytes 16 reads.availIdx

end Attempt

section Polls

variable {Memory : Type u} {config : RpmsgConfig} {bus : Bus Memory}

theorem memRead_traced (width : Nat) (bus : Bus Memory) (memory : Memory) (address : BitVec 64) :
    ∃ data next, memRead width bus memory address = (ofBytes width data, next) ∧
      ∀ trace, memRead width bus.traced (memory, trace) address =
        (ofBytes width data, next, trace ++ [.read address data]) :=
  ⟨_, _, rfl, fun _ => rfl⟩

theorem memWrite_traced (bus : Bus Memory) (memory : Memory) (address : BitVec 64)
    (data : List Byte) :
    ∃ accepted next, memWrite bus memory address data = next ∧
      ∀ trace, memWrite bus.traced (memory, trace) address data =
        (next, trace ++ [.write address data accepted]) :=
  ⟨_, _, rfl, fun _ => rfl⟩

theorem write_traced (bus : Bus Memory) (memory : Memory) (address : BitVec 64)
    (data : List Byte) :
    ∃ accepted next, bus.write memory address data = (accepted, next) ∧
      ∀ trace, bus.traced.write (memory, trace) address data =
        (accepted, next, trace ++ [.write address data accepted]) :=
  ⟨_, _, rfl, fun _ => rfl⟩

/-- What a poll does to its state, and which accesses it makes. -/
inductive PollOf (config : RpmsgConfig) (before : RpmsgState) :
    InjectOutcome → RpmsgState → List Bus.Transfer → Prop
  | finished (finished : config.Finished before) : PollOf config before .finished before []
  | notYet {transfers : List Bus.Transfer}
      (fails : Attempt.Fails config ⟨before, transfers, before⟩) :
      PollOf config before .notYet before transfers
  | published {after : RpmsgState} {transfers : List Bus.Transfer} (reads : VringReads)
      (publishes : Attempt.Publishes config ⟨before, transfers, after⟩ reads) :
      PollOf config before .published after transfers

/-- The same poll with and without the record of its accesses. -/
def Traces (config : RpmsgConfig) (before : RpmsgState) (trace : List Bus.Transfer)
    (plain : InjectOutcome × Memory × RpmsgState)
    (traced : InjectOutcome × (Memory × List Bus.Transfer) × RpmsgState) : Prop :=
  ∃ transfers, traced = (plain.1, (plain.2.1, trace ++ transfers), plain.2.2) ∧
    PollOf config before plain.1 plain.2.2 transfers

/-- The second half of a poll, with its addresses named. -/
theorem publishRpmsgNs_eq (bus : Bus Memory) (memory : Memory) (state : RpmsgState)
    (availIdx : BitVec 16) :
    config.publishRpmsgNs bus memory state availIdx =
      let (descId, memory) := memRead 16 bus memory (config.availSlotAddress state.lastAvailIdx)
      if config.vringNum.toNat ≤ descId.toNat then (.notYet, memory, state)
      else
        let desc := config.descAddress descId
        let (bufferAddr, memory) := memRead 64 bus memory desc
        let (bufferLen, memory) := memRead 32 bus memory (desc + 8)
        let (flags, memory) := memRead 16 bus memory (desc + 12)
        if flags &&& vringDescFWrite = 0 ∨
            bufferLen.toNat < config.buildRpmsgNsMessage.length then (.notYet, memory, state)
        else
          let (ok, memory) := bus.write memory bufferAddr config.buildRpmsgNsMessage
          if ok = false then (.notYet, memory, state)
          else
            let (usedIdx, memory) := memRead 16 bus memory (config.rpmsgNsUsedAddress + 2)
            let elem := config.usedElemAddress usedIdx
            let memory := memWrite bus memory elem (toBytes 4 (descId.setWidth 32))
            let memory := memWrite bus memory (elem + 4)
              (toBytes 4 (BitVec.ofNat 32 config.buildRpmsgNsMessage.length))
            let memory := memWrite bus memory (config.rpmsgNsUsedAddress + 2)
              (toBytes 2 (usedIdx + 1))
            (.published, memory, { state with lastAvailIdx := availIdx, sent := true }) :=
  rfl

theorem publishRpmsgNs_traced (memory : Memory) {state : RpmsgState} {availIdx : List Byte}
    (posted : ofBytes 16 availIdx ≠ state.lastAvailIdx) (unsent : state.sent = false)
    (trace : List Bus.Transfer) :
    Traces config state trace
      (config.publishRpmsgNs bus memory state (ofBytes 16 availIdx))
      (config.publishRpmsgNs bus.traced
        (memory, trace ++ [.read (config.rpmsgNsAvailAddress + 2) availIdx]) state
        (ofBytes 16 availIdx)) := by
  rw [publishRpmsgNs_eq, publishRpmsgNs_eq]
  obtain ⟨slot, afterSlot, plainSlot, tracedSlot⟩ :=
    memRead_traced 16 bus memory (config.availSlotAddress state.lastAvailIdx)
  simp only [plainSlot, tracedSlot]
  by_cases beyond : config.vringNum.toNat ≤ (ofBytes 16 slot).toNat
  · rw [if_pos beyond, if_pos beyond]
    refine ⟨[.read (config.rpmsgNsAvailAddress + 2) availIdx,
      .read (config.availSlotAddress state.lastAvailIdx) slot], by simp, .notYet ⟨?_, rfl, rfl⟩⟩
    simp [RpmsgConfig.Harmless]
  · rw [if_neg beyond, if_neg beyond]
    obtain ⟨bufferAddr, afterAddr, plainAddr, tracedAddr⟩ :=
      memRead_traced 64 bus afterSlot (config.descAddress (ofBytes 16 slot))
    obtain ⟨bufferLen, afterLen, plainLen, tracedLen⟩ :=
      memRead_traced 32 bus afterAddr (config.descAddress (ofBytes 16 slot) + 8)
    obtain ⟨flags, afterFlags, plainFlags, tracedFlags⟩ :=
      memRead_traced 16 bus afterLen (config.descAddress (ofBytes 16 slot) + 12)
    simp only [plainAddr, tracedAddr, plainLen, tracedLen, plainFlags, tracedFlags]
    let reads : VringReads := ⟨availIdx, slot, bufferAddr, bufferLen, flags, []⟩
    have inspected : ∀ transfer ∈ config.inspection state.lastAvailIdx reads,
        config.Harmless transfer := by
      simp [RpmsgConfig.inspection, RpmsgConfig.Harmless]
    by_cases unfit : ofBytes 16 flags &&& vringDescFWrite = 0 ∨
        (ofBytes 32 bufferLen).toNat < config.buildRpmsgNsMessage.length
    · rw [if_pos unfit, if_pos unfit]
      refine ⟨config.inspection state.lastAvailIdx reads, ?_, .notYet ⟨inspected, rfl, rfl⟩⟩
      simp [RpmsgConfig.inspection, reads, VringReads.descId]
    · rw [if_neg unfit, if_neg unfit]
      obtain ⟨accepted, afterMessage, plainMessage, tracedMessage⟩ :=
        write_traced bus afterFlags (ofBytes 64 bufferAddr) config.buildRpmsgNsMessage
      simp only [plainMessage, tracedMessage]
      cases accepted with
      | false =>
          refine ⟨config.inspection state.lastAvailIdx reads ++
            [.write (ofBytes 64 bufferAddr) config.buildRpmsgNsMessage false], ?_,
            .notYet ⟨?_, rfl, rfl⟩⟩
          · simp [RpmsgConfig.inspection, reads, VringReads.descId]
          · intro transfer member
            rcases List.mem_append.mp member with read | refused
            · exact inspected transfer read
            · obtain rfl := List.mem_singleton.mp refused
              exact ⟨rfl, rfl⟩
      | true =>
          rw [if_neg Bool.false_ne_true.symm, if_neg Bool.false_ne_true.symm]
          obtain ⟨usedIdx, afterUsed, plainUsed, tracedUsed⟩ :=
            memRead_traced 16 bus afterMessage (config.rpmsgNsUsedAddress + 2)
          obtain ⟨idOk, afterId, plainId, tracedId⟩ :=
            memWrite_traced bus afterUsed (config.usedElemAddress (ofBytes 16 usedIdx))
              (toBytes 4 ((ofBytes 16 slot).setWidth 32))
          obtain ⟨lenOk, afterLen, plainLen, tracedLen⟩ :=
            memWrite_traced bus afterId (config.usedElemAddress (ofBytes 16 usedIdx) + 4)
              (toBytes 4 (BitVec.ofNat 32 config.buildRpmsgNsMessage.length))
          obtain ⟨idxOk, afterIdx, plainIdx, tracedIdx⟩ :=
            memWrite_traced bus afterLen (config.rpmsgNsUsedAddress + 2)
              (toBytes 2 (ofBytes 16 usedIdx + 1))
          simp only [plainUsed, tracedUsed, plainId, tracedId, plainLen, tracedLen, plainIdx,
            tracedIdx]
          let published : VringReads := { reads with usedIdx := usedIdx }
          refine ⟨config.publication state.lastAvailIdx published idOk lenOk idxOk, ?_,
            .published published ⟨⟨idOk, lenOk, idxOk, rfl⟩, posted, Nat.not_le.mp beyond, ?_, ?_,
              unsent, rfl, rfl⟩⟩
          · simp [RpmsgConfig.publication, RpmsgConfig.inspection, published, reads,
              VringReads.descId]
          · exact fun readOnly => unfit (.inl readOnly)
          · exact Nat.not_lt.mp fun small => unfit (.inr small)

/-- A poll is one of the three kinds, and the record of its accesses changes nothing. -/
theorem injectRpmsgNsOnce_traced (bus : Bus Memory) (memory : Memory) (state : RpmsgState)
    (trace : List Bus.Transfer) :
    Traces config state trace (config.injectRpmsgNsOnce bus memory state)
      (config.injectRpmsgNsOnce bus.traced (memory, trace) state) := by
  unfold RpmsgConfig.injectRpmsgNsOnce
  by_cases finished : config.enable = false ∨ state.sent = true ∨ config.vringNum = 0
  · rw [if_pos finished, if_pos finished]
    exact ⟨[], by rw [List.append_nil], .finished finished⟩
  · rw [if_neg finished, if_neg finished]
    obtain ⟨availIdx, afterAvail, plainAvail, tracedAvail⟩ :=
      memRead_traced 16 bus memory (config.rpmsgNsAvailAddress + 2)
    simp only [plainAvail, tracedAvail]
    by_cases empty : ofBytes 16 availIdx = state.lastAvailIdx
    · rw [if_pos empty, if_pos empty]
      refine ⟨[.read (config.rpmsgNsAvailAddress + 2) availIdx], rfl, .notYet ⟨?_, rfl, rfl⟩⟩
      simp [RpmsgConfig.Harmless]
    · rw [if_neg empty, if_neg empty]
      have unsent : state.sent = false :=
        Bool.eq_false_of_not_eq_true fun sent => finished (.inr (.inl sent))
      exact publishRpmsgNs_traced afterAvail empty unsent trace

end Polls

namespace RpmsgConfig

section Worker

variable {Memory : Type u} {config : RpmsgConfig} {bus : Bus Memory}

/-- The same stretch of the worker with and without the record of its accesses: it fails or
it publishes. -/
def StretchTraces (config : RpmsgConfig) (before : RpmsgState) (trace : List Bus.Transfer)
    (plain : Stretch Memory) (traced : Stretch (Memory × List Bus.Transfer)) : Prop :=
  ∃ transfers, traced = ⟨(plain.memory, trace ++ transfers), plain.state, plain.signal⟩ ∧
    (Attempt.Fails config ⟨before, transfers, plain.state⟩ ∨
      ∃ reads, Attempt.Publishes config ⟨before, transfers, plain.state⟩ reads)

theorem injectRpmsgNsOnce_finished (bus : Bus Memory) (memory : Memory) {state : RpmsgState}
    (finished : config.Finished state) :
    config.injectRpmsgNsOnce bus memory state = (.finished, memory, state) :=
  if_pos finished

/-- Where the worker goes when it need not poll: the memory is left alone. -/
def Idles (config : RpmsgConfig) (idle : Memory → RpmsgState → Stretch Memory)
    (idleTraced : Memory × List Bus.Transfer → RpmsgState → Stretch (Memory × List Bus.Transfer)) :
    Prop :=
  ∀ memory trace state, config.Finished state →
    ∃ after, idle memory state = ⟨memory, after, false⟩ ∧
      idleTraced (memory, trace) state = ⟨(memory, trace), after, false⟩ ∧
      after.sent = state.sent ∧ after.lastAvailIdx = state.lastAvailIdx

theorem continuePolling_idles (bus : Bus Memory) (now : Nat) :
    Idles config (config.continuePolling bus now) (config.continuePolling bus.traced now) := by
  intro memory trace state finished
  have taken : config.Finished { state with pending := false } := finished
  unfold RpmsgConfig.continuePolling RpmsgConfig.startPolling RpmsgConfig.pollOnce
  dsimp only
  rw [injectRpmsgNsOnce_finished bus memory taken,
    injectRpmsgNsOnce_finished bus.traced (memory, trace) taken]
  dsimp only
  split_ifs <;> exact ⟨_, rfl, rfl, rfl, rfl⟩

theorem pollOnce_traced (bus : Bus Memory) (now poll : Nat) (memory : Memory)
    (state : RpmsgState) (trace : List Bus.Transfer)
    {idle : Memory → RpmsgState → Stretch Memory}
    {idleTraced : Memory × List Bus.Transfer → RpmsgState → Stretch (Memory × List Bus.Transfer)}
    (idles : Idles config idle idleTraced) :
    StretchTraces config state trace (config.pollOnce bus now poll memory state idle)
      (config.pollOnce bus.traced now poll (memory, trace) state idleTraced) := by
  obtain ⟨transfers, traced, kind⟩ := injectRpmsgNsOnce_traced bus memory state trace
  unfold RpmsgConfig.pollOnce
  rw [traced]
  generalize config.injectRpmsgNsOnce bus memory state = plain at kind
  obtain ⟨outcome, next, after⟩ := plain
  dsimp only at kind ⊢
  cases kind with
  | finished finished =>
      obtain ⟨rested, plainRest, tracedRest, sent, lastAvailIdx⟩ :=
        idles next (trace ++ []) state finished
      dsimp only
      rw [plainRest, tracedRest]
      exact ⟨[], rfl, .inl ⟨by simp, sent, lastAvailIdx⟩⟩
  | notYet fails => exact ⟨transfers, rfl, .inl ⟨fails.harmless, rfl, rfl⟩⟩
  | published reads publishes =>
      dsimp only
      split_ifs
      · obtain ⟨rested, plainRest, tracedRest, sent, lastAvailIdx⟩ :=
          idles next (trace ++ transfers) after (.inr (.inl publishes.sent))
        rw [plainRest, tracedRest]
        refine ⟨transfers, rfl, .inr ⟨reads, ?_⟩⟩
        exact { publishes with
          sent := sent.trans publishes.sent
          lastAvailIdx := lastAvailIdx.trans publishes.lastAvailIdx }
      · exact ⟨transfers, rfl, .inr ⟨reads, { publishes with }⟩⟩

/-- The worker goes to its wait. -/
theorem rest_traced {state rested : RpmsgState} (memory : Memory) (trace : List Bus.Transfer)
    (signal : Bool) (sent : rested.sent = state.sent)
    (lastAvailIdx : rested.lastAvailIdx = state.lastAvailIdx) :
    StretchTraces config state trace ⟨memory, rested, signal⟩ ⟨(memory, trace), rested, signal⟩ :=
  ⟨[], by rw [List.append_nil], .inl ⟨by simp, sent, lastAvailIdx⟩⟩

/-- Taking the request changes nothing that an attempt depends on. -/
theorem stretchTraces_taken {state : RpmsgState} {trace : List Bus.Transfer}
    {plain : Stretch Memory} {traced : Stretch (Memory × List Bus.Transfer)}
    (traces : StretchTraces config { state with pending := false } trace plain traced) :
    StretchTraces config state trace plain traced := by
  obtain ⟨transfers, same, fails | ⟨reads, publishes⟩⟩ := traces
  · exact ⟨transfers, same, .inl ⟨fails.harmless, fails.sent, fails.lastAvailIdx⟩⟩
  · exact ⟨transfers, same, .inr ⟨reads, { publishes with }⟩⟩

theorem continuePolling_traced (bus : Bus Memory) (now : Nat) (memory : Memory)
    (state : RpmsgState) (trace : List Bus.Transfer) :
    StretchTraces config state trace (config.continuePolling bus now memory state)
      (config.continuePolling bus.traced now (memory, trace) state) := by
  unfold continuePolling startPolling
  dsimp only
  split_ifs
  · exact rest_traced memory trace false rfl rfl
  · apply stretchTraces_taken
    apply pollOnce_traced
    intro memory trace state finished
    exact ⟨_, rfl, rfl, rfl, rfl⟩
  · exact rest_traced memory trace false rfl rfl

/-- Every stretch of the worker fails or publishes. -/
theorem rpmsgNsWorker_traced (bus : Bus Memory) (now : Nat) (memory : Memory)
    (state : RpmsgState) (trace : List Bus.Transfer) :
    StretchTraces config state trace (config.rpmsgNsWorker bus now memory state)
      (config.rpmsgNsWorker bus.traced now (memory, trace) state) := by
  unfold rpmsgNsWorker
  split
  · exact rest_traced memory trace false rfl rfl
  · exact continuePolling_traced bus now memory state trace
  · split_ifs
    · exact pollOnce_traced bus now _ memory state trace (continuePolling_idles bus now)
    · exact continuePolling_traced bus now memory state trace
  · obtain ⟨transfers, same, kind⟩ := continuePolling_traced bus now memory state trace
    rw [same]
    exact ⟨transfers, rfl, kind⟩

end Worker

end RpmsgConfig

namespace Attempt

variable {config : RpmsgConfig} {attempt : Attempt}

theorem Fails.not_published (fails : attempt.Fails config) : attempt.published = false := by
  rw [published, fails.sent, Bool.not_and_self]

theorem Publishes.published {reads : VringReads} (publishes : attempt.Publishes config reads) :
    attempt.published = true := by
  rw [Attempt.published, publishes.unsent, publishes.sent]
  rfl

end Attempt

namespace MhuPair

/-- A step of the pair, or anything that the guest does to the memory in between. -/
inductive SharedStep (Memory : Type u)
  | pair (event : Step)
  | guest (memory : Memory)

variable {Memory : Type u} (config : Config) (bus : Bus Memory)

def sharedStep (mhu : MhuPair Memory) : SharedStep Memory → Option (MhuPair Memory)
  | .pair event => mhu.step config bus event
  | .guest memory => some { mhu with memory := memory }

/-- The attempt that a step makes, if it lets the worker run. -/
def attemptBy (mhu : MhuPair Memory) : SharedStep Memory → List Attempt
  | .pair .runRpmsg =>
      let stretch := config.rpmsg.rpmsgNsWorker bus.traced mhu.now (mhu.memory, []) mhu.rpmsg
      [⟨mhu.rpmsg, stretch.memory.2, stretch.state⟩]
  | _ => []

/-- The attempts of a run, oldest first. -/
def attempts (start : MhuPair Memory) (events : List (SharedStep Memory)) : List Attempt :=
  history (sharedStep config bus) (fun mhu event made => made ++ attemptBy config bus mhu event)
    start [] events

/-- Each attempt so far has failed or published, one of them at the most, and none as long as
the announcement counts as unsent. -/
structure AttemptsTracked (mhu : MhuPair Memory) (made : List Attempt) : Prop where
  each : ∀ attempt ∈ made,
    attempt.Fails config.rpmsg ∨ ∃ reads, attempt.Publishes config.rpmsg reads
  once : made.countP Attempt.published ≤ if mhu.rpmsg.sent then 1 else 0

variable {config bus} {mhu next : MhuPair Memory} {made : List Attempt}

theorem AttemptsTracked.same (tracked : mhu.AttemptsTracked config made)
    (sent : next.rpmsg.sent = mhu.rpmsg.sent) : next.AttemptsTracked config (made ++ []) := by
  rw [List.append_nil]
  exact ⟨tracked.each, by rw [sent]; exact tracked.once⟩

theorem scheduleRpmsgNsInjection_sent (config : RpmsgConfig) (now : Nat) (state : RpmsgState) :
    (config.scheduleRpmsgNsInjection now state).sent = state.sent := by
  unfold RpmsgConfig.scheduleRpmsgNsInjection
  split_ifs <;> rfl

/-- Only the worker itself sends the announcement. -/
theorem step_rpmsg_sent {event : Step} (stepped : mhu.step config bus event = some next) :
    event = .runRpmsg ∧ next = mhu.runRpmsg config bus ∨
      attemptBy config bus mhu (.pair event) = [] ∧ next.rpmsg.sent = mhu.rpmsg.sent := by
  cases event with
  | access side access =>
      refine .inr ⟨rfl, ?_⟩
      rcases step_access_cases stepped with ⟨channel, value, rung, rfl⟩ | ⟨quiet, pbx, mbx, rfl⟩
      · rw [ringPostbox_rpmsg]
        split_ifs
        · exact scheduleRpmsgNsInjection_sent _ _ _
        · rfl
      · rfl
  | runRpmsg =>
      dsimp only [step] at stepped
      split_ifs at stepped
      exact .inl ⟨rfl, (Option.some.inj stepped).symm⟩
  | firePowerDomainReset =>
      obtain ⟨power, -, rfl⟩ := Option.map_eq_some_iff.mp stepped
      exact .inr ⟨rfl, rfl⟩
  | runPowerDomainReset =>
      obtain ⟨power, -, rfl⟩ := Option.map_eq_some_iff.mp stepped
      exact .inr ⟨rfl, rfl⟩
  | _ =>
      dsimp only [step] at stepped
      split_ifs at stepped
      all_goals
        obtain rfl := Option.some.inj stepped
        exact .inr ⟨rfl, rfl⟩

theorem attemptsTracked_step {event : SharedStep Memory}
    (tracked : mhu.AttemptsTracked config made)
    (stepped : mhu.sharedStep config bus event = some next) :
    next.AttemptsTracked config (made ++ attemptBy config bus mhu event) := by
  cases event with
  | guest memory =>
      obtain rfl := Option.some.inj stepped
      exact tracked.same rfl
  | pair event =>
      rcases step_rpmsg_sent stepped with ⟨rfl, rfl⟩ | ⟨none, sent⟩
      · obtain ⟨transfers, traced, kind⟩ :=
          @RpmsgConfig.rpmsgNsWorker_traced _ config.rpmsg bus mhu.now mhu.memory mhu.rpmsg []
        have attempted : attemptBy config bus mhu (.pair .runRpmsg) =
            [⟨mhu.rpmsg, transfers, (mhu.runRpmsg config bus).rpmsg⟩] := by
          simp only [attemptBy, traced, List.nil_append, runRpmsg]
        change Attempt.Fails config.rpmsg ⟨_, _, (mhu.runRpmsg config bus).rpmsg⟩ ∨
          ∃ reads, Attempt.Publishes config.rpmsg
            ⟨_, _, (mhu.runRpmsg config bus).rpmsg⟩ reads at kind
        rw [attempted]
        refine ⟨?_, ?_⟩
        · intro attempt member
          rcases List.mem_append.mp member with earlier | last
          · exact tracked.each attempt earlier
          · obtain rfl := List.mem_singleton.mp last
            exact kind
        · rw [List.countP_append, List.countP_singleton]
          rcases kind with fails | ⟨reads, publishes⟩
          · have sent : (mhu.runRpmsg config bus).rpmsg.sent = mhu.rpmsg.sent := fails.sent
            rw [fails.not_published, if_neg Bool.false_ne_true, sent]
            exact tracked.once
          · have unsent : mhu.rpmsg.sent = false := publishes.unsent
            have sent : (mhu.runRpmsg config bus).rpmsg.sent = true := publishes.sent
            have before := tracked.once
            rw [unsent, if_neg Bool.false_ne_true] at before
            rw [publishes.published, if_pos rfl, sent, if_pos rfl]
            exact Nat.add_le_add_right before 1
      · rw [none]
        exact tracked.same sent

/-- Whatever the guest does to the memory between the steps, and in whichever order doorbells
and polls come, each attempt fails or publishes, and one of them at the most publishes. -/
theorem announcement_published_once (config : Config) (bus : Bus Memory) (pbx mbx : FrameParams)
    (memory : Memory) {events : List (SharedStep Memory)} {final : MhuPair Memory}
    (reached : run (sharedStep config bus) (elaborated pbx mbx memory) events = some final) :
    (∀ attempt ∈ attempts config bus (elaborated pbx mbx memory) events,
        if attempt.published then ∃ reads, attempt.Publishes config.rpmsg reads
        else attempt.Fails config.rpmsg) ∧
      (attempts config bus (elaborated pbx mbx memory) events).countP Attempt.published ≤ 1 := by
  have tracked : final.AttemptsTracked config
      (attempts config bus (elaborated pbx mbx memory) events) := by
    apply history_invariant _ _ reached
    · intro state made event next related stepped
      exact attemptsTracked_step related stepped
    · exact ⟨by simp, by simp⟩
  constructor
  · intro attempt member
    rcases tracked.each attempt member with fails | ⟨reads, publishes⟩
    · rw [fails.not_published]
      exact fails
    · rw [publishes.published]
      exact ⟨reads, publishes⟩
  · refine tracked.once.trans ?_
    split_ifs <;> decide

/-- A queue of two descriptors at address 0. -/
def announcer : Config where
  protocol := .doorbell
  rpmsg := { enable := true, vringNum := 2 }

/-- The first descriptor is writable and has room for 64 bytes, and the driver has posted it. -/
def postedBuffer (address : BitVec 64) : Byte :=
  ([0x00, 0x10, 0, 0, 0, 0, 0, 0, 64, 0, 0, 0, 2, 0, 0, 0] ++ List.replicate 16 0 ++
    [0, 0, 1, 0, 0, 0]).getD address.toNat 0

/-- The guest posts the buffer between the doorbell and the poll. -/
def kickAndPoll : List (SharedStep (BitVec 64 → Byte)) :=
  [.pair (.access .pbx (.write 0x100c [1, 0, 0, 0])), .guest postedBuffer, .pair .fireRpmsg,
    .pair .runRpmsg]

def announcerStart : MhuPair (BitVec 64 → Byte) :=
  elaborated ⟨.clamp 1, 1, 0, 0, 0⟩ ⟨.clamp 1, 1, 0, 0, 0⟩ fun _ => 0

/-- The only attempt publishes: the message goes to the buffer, and its 56 bytes to the used
ring. -/
theorem announcement_published_once_sample :
    ∃ final attempt reads,
      run (sharedStep announcer Bus.ram) announcerStart kickAndPoll = some final ∧
      attempts announcer Bus.ram announcerStart kickAndPoll = [attempt] ∧
      attempt.Publishes announcer.rpmsg reads ∧
      attempt.transfers.drop 5 =
        [.write 0x1000 announcer.rpmsg.buildRpmsgNsMessage true, .read 0x32 [0, 0],
          .write 0x34 [0, 0, 0, 0] true, .write 0x38 [56, 0, 0, 0] true,
          .write 0x32 [1, 0] true] := by
  have traced : (run (sharedStep announcer Bus.ram) announcerStart kickAndPoll).map (fun _ =>
      (attempts announcer Bus.ram announcerStart kickAndPoll).map fun attempt =>
        (attempt.published, attempt.transfers.drop 5)) =
      some [(true, [.write 0x1000 announcer.rpmsg.buildRpmsgNsMessage true, .read 0x32 [0, 0],
        .write 0x34 [0, 0, 0, 0] true, .write 0x38 [56, 0, 0, 0] true,
        .write 0x32 [1, 0] true])] := by
    decide +kernel
  obtain ⟨final, reached, made⟩ := Option.map_eq_some_iff.mp traced
  obtain ⟨attempt, only, published⟩ := List.map_eq_singleton_iff.mp made
  obtain ⟨sent, transfers⟩ := Prod.mk.inj published
  have each := (announcement_published_once announcer Bus.ram _ _ _ reached).1 attempt
    (only ▸ List.mem_singleton_self attempt)
  rw [if_pos sent] at each
  obtain ⟨reads, publishes⟩ := each
  exact ⟨final, attempt, reads, reached, only, publishes, transfers⟩

end MhuPair

end QboxPlatform.Mhu
