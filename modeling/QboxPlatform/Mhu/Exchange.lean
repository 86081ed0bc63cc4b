import QboxPlatform.Mhu.ScmiSlots

/-!
# Exchanges of SCMI messages

The agents of several channels post messages, ring their doorbells and collect the replies in
any order, while the pair goes on with everything else it does.  What they see is one server
that answers one message after the other.
-/

namespace QboxPlatform.Mhu

open Foundation

universe u

/-- What the replies depend on. -/
@[ext]
structure ScmiView where
  powerDomainStates : Nat → BitVec 32 := fun _ => 0#32
  powerDomainState : BitVec 32 := 0#32
  performanceLevels : Nat → BitVec 32 := fun _ => 0#32

def ScmiState.view (state : ScmiState) : ScmiView where
  powerDomainStates := state.power.powerDomainStates
  powerDomainState := state.power.powerDomainState
  performanceLevels := state.performanceLevels

/-- A state with nothing pending. -/
def ScmiView.state (view : ScmiView) : ScmiState where
  power := {
    powerDomainStates := view.powerDomainStates
    powerDomainState := view.powerDomainState }
  performanceLevels := view.performanceLevels

/-- The reply to a message and what is left behind. -/
def ScmiConfig.answer (config : ScmiConfig) (view : ScmiView) (message : ScmiMessage) :
    ScmiReply × ScmiView :=
  let response := config.dispatchScmi 0 message.header message.payload view.state
  (⟨message.header, response.status, response.payload⟩, response.state.view)

/-- Responses that no agent can tell apart, now or later. -/
def ScmiResponse.Agrees (first second : ScmiResponse) : Prop :=
  first.status = second.status ∧ first.payload = second.payload ∧
    first.state.view = second.state.view

section Answers

variable (config : ScmiConfig) (now : Nat) (header : BitVec 32) (request : List Byte)
  (state : ScmiState)

theorem view_of_sameStates {before after : ScmiState}
    (same : before.power.SameStates after.power)
    (levels : after.performanceLevels = before.performanceLevels) : after.view = before.view :=
  ScmiView.ext same.1 same.2 levels

theorem agrees_respondScmiBase :
    (config.respondScmiBase header state).Agrees
      (config.respondScmiBase header state.view.state) := by
  unfold ScmiConfig.respondScmiBase
  split <;> exact ⟨rfl, rfl, rfl⟩

theorem agrees_respondScmiPowerDomain :
    (config.respondScmiPowerDomain now header request state).Agrees
      (config.respondScmiPowerDomain 0 header request state.view.state) := by
  unfold ScmiConfig.respondScmiPowerDomain
  split <;> exact ⟨rfl, rfl, rfl⟩

theorem agrees_respondScmiSysPower :
    (config.respondScmiSysPower now header request state).Agrees
      (config.respondScmiSysPower 0 header request state.view.state) := by
  have scheduled (now : Nat) (state : ScmiState) (systemState : BitVec 32) :
      ScmiState.view { state with
        power := state.power.scheduleSystemPowerReset config.toPowerConfig now systemState } =
        state.view :=
    view_of_sameStates (PowerControl.sameStates_scheduleSystemPowerReset _ now _ _) rfl
  unfold ScmiConfig.respondScmiSysPower
  split
  case h_3 => exact ⟨rfl, rfl, (scheduled now state _).trans (scheduled 0 state.view.state _).symm⟩
  all_goals exact ⟨rfl, rfl, rfl⟩

theorem agrees_forPerformanceDomain {respond respond' : Nat → ScmiResponse}
    (agrees : ∀ domain, (respond domain).Agrees (respond' domain)) :
    (forPerformanceDomain request state respond).Agrees
      (forPerformanceDomain request state.view.state respond') := by
  unfold forPerformanceDomain
  dsimp only
  split_ifs
  · exact agrees _
  · exact ⟨rfl, rfl, rfl⟩

theorem agrees_respondScmiPerformance :
    (respondScmiPerformance header request state).Agrees
      (respondScmiPerformance header request state.view.state) := by
  unfold respondScmiPerformance
  split <;> first
    | exact ⟨rfl, rfl, rfl⟩
    | exact agrees_forPerformanceDomain _ _ fun _ => ⟨rfl, rfl, rfl⟩

theorem agrees_respondScmiPfdiMonitor :
    (respondScmiPfdiMonitor header state).Agrees
      (respondScmiPfdiMonitor header state.view.state) := by
  unfold respondScmiPfdiMonitor
  split <;> exact ⟨rfl, rfl, rfl⟩

/-- The reply depends on the view alone, and so does what is left behind. -/
theorem agrees_dispatchScmi :
    (config.dispatchScmi now header request state).Agrees
      (config.dispatchScmi 0 header request state.view.state) := by
  unfold ScmiConfig.dispatchScmi
  split_ifs
  · exact agrees_respondScmiBase config header state
  · exact agrees_respondScmiPowerDomain config now header request state
  · exact agrees_respondScmiSysPower config now header request state
  · exact agrees_respondScmiPerformance header request state
  · exact agrees_respondScmiPfdiMonitor header state
  · exact ⟨rfl, rfl, rfl⟩
  · exact ⟨rfl, rfl, rfl⟩

theorem dispatchScmi_eq_answer (message : ScmiMessage) :
    let response := config.dispatchScmi now message.header message.payload state
    (ScmiReply.mk message.header response.status response.payload,
        (rescheduleAfterStateGet now message.header response.state).view) =
      config.answer state.view message := by
  obtain ⟨status, payload, view⟩ :=
    agrees_dispatchScmi config now message.header message.payload state
  have rescheduled (state : ScmiState) :
      (rescheduleAfterStateGet now message.header state).view = state.view := by
    unfold rescheduleAfterStateGet
    split_ifs <;> rfl
  dsimp only
  rw [rescheduled, status, payload, view]
  rfl

theorem performanceDomain_payload {first second : ScmiState} {respond : Nat → ScmiResponse}
    {respond' : Nat → ScmiResponse}
    (same : ∀ domain, (respond domain).payload.length = (respond' domain).payload.length) :
    (forPerformanceDomain request first respond).payload.length =
      (forPerformanceDomain request second respond').payload.length := by
  unfold forPerformanceDomain
  dsimp only
  split_ifs
  · exact same _
  · rfl

/-- How long the reply is does not depend on the state. -/
theorem length_answer (view : ScmiView) (message : ScmiMessage) :
    (config.answer view message).1.payload.length =
      (config.answer {} message).1.payload.length := by
  unfold ScmiConfig.answer ScmiConfig.dispatchScmi
  dsimp only
  split_ifs
  · unfold ScmiConfig.respondScmiBase
    split <;> rfl
  · unfold ScmiConfig.respondScmiPowerDomain
    split <;> rfl
  · unfold ScmiConfig.respondScmiSysPower
    split <;> rfl
  · unfold respondScmiPerformance
    split <;> first | rfl | exact performanceDomain_payload _ fun _ => rfl
  · unfold respondScmiPfdiMonitor
    split <;> rfl
  · rfl
  · rfl

end Answers

/-- The channel of the message that a step has answered. -/
def MhuPair.served {Memory : Type u} (config : Config) (mhu : MhuPair Memory) (event : Step) :
    Option Nat :=
  (mhu.rung event).bind fun (channel, _) =>
    if ringsScmi config channel then some channel else none

/-- The message and its reply stay inside a slot of this size. -/
def ScmiConfig.Fits (config : ScmiConfig) (size : Nat) (message : ScmiMessage) : Prop :=
  0x1c + message.payload.length ≤ size ∧
    0x20 + (config.answer {} message).1.payload.length ≤ size

instance (config : ScmiConfig) (size : Nat) (message : ScmiMessage) :
    Decidable (config.Fits size message) :=
  inferInstanceAs (Decidable (_ ∧ _))

inductive AgentPhase
  | free
  | posted
  | answered
  deriving DecidableEq

/-- The pair beside the agents of its channels. -/
structure Exchange (Memory : Type u) where
  mhu : MhuPair Memory
  phases : Nat → AgentPhase := fun _ => .free
  collected : List (Nat × Option ScmiReply) := []

inductive ExchangeEvent
  | post (channel : Nat) (message : ScmiMessage)
  | device (event : MhuPair.Step)
  | collect (channel : Nat)

namespace Exchange

variable {Memory : Type u} (config : Config) (bus : Bus Memory) (size : Nat)

/-- One step of an agent or of the pair.  Agents post when they have nothing in their slot, ring
once for each message, and read the reply after that. -/
def step (exchange : Exchange Memory) : ExchangeEvent → Option (Exchange Memory)
  | .post channel message =>
      if exchange.phases channel = .free ∧ config.scmi.scmiChannelInRange channel = true ∧
          config.scmi.Fits size message then
        some { exchange with
          mhu := { exchange.mhu with
            memory := postScmiMessage bus exchange.mhu.memory (config.scmi.scmiShmem channel)
              message }
          phases := Function.update exchange.phases channel .posted }
      else none
  | .device event =>
      match exchange.mhu.served config event with
      | some channel =>
          if exchange.phases channel = .posted then
            (exchange.mhu.step config bus event).map fun mhu =>
              { exchange with
                mhu := mhu
                phases := Function.update exchange.phases channel .answered }
          else none
      | none =>
          (exchange.mhu.step config bus event).map fun mhu => { exchange with mhu := mhu }
  | .collect channel =>
      if exchange.phases channel = .answered then
        let (reply, memory) :=
          collectScmiReply bus exchange.mhu.memory (config.scmi.scmiShmem channel)
        some { exchange with
          mhu := { exchange.mhu with memory := memory }
          phases := Function.update exchange.phases channel .free
          collected := exchange.collected ++ [(channel, reply)] }
      else none

/-- What a step is for the mailboxes. -/
def label (exchange : Exchange Memory) : ExchangeEvent → Mailboxes.Event Nat ScmiMessage
  | .post channel message => .post channel message
  | .device event =>
      match exchange.mhu.served config event with
      | some channel => .serve channel
      | none => .idle
  | .collect channel => .collect channel

/-- The slots of different channels have no byte in common. -/
def SlotsApart (config : ScmiConfig) (size : Nat) : Prop :=
  ∀ first second, config.scmiChannelInRange first = true →
    config.scmiChannelInRange second = true → first ≠ second → ∀ index < size,
      size ≤ (config.scmiShmem second + BitVec.ofNat 64 index - config.scmiShmem first).toNat

/-- The announcement has nothing to do. -/
def Quiet (mhu : MhuPair Memory) : Prop :=
  mhu.rpmsg.event = {} ∧ mhu.rpmsg.worker = .waiting

variable {config bus size} {content : Memory → BitVec 64 → Byte}

section Device

variable {mhu next : MhuPair Memory} {event : MhuPair.Step}

/-- A step that answers no message. -/
theorem unserved_step (protocol : config.protocol = .scmi) (quiet : Quiet mhu)
    (unserved : mhu.served config event = none) (stepped : mhu.step config bus event = some next) :
    next.memory = mhu.memory ∧ next.scmi.view = mhu.scmi.view ∧ Quiet next := by
  cases event with
  | access side access =>
      rcases MhuPair.step_access_cases stepped with
        ⟨channel, value, rung, rfl⟩ | ⟨-, pbx, mbx, rfl⟩
      · have passed : ¬ (config.protocol = .scmi ∧
            config.scmi.scmiChannelInRange channel = true) := by
          intro rings
          rw [MhuPair.served, rung, Option.bind_some] at unserved
          cases (if_pos rings).symm.trans unserved
        have direct : ¬ (config.directBootCompat = true ∧ config.protocol = .doorbell ∧
            channel = mhu.pbx.frame.notifyChannel ∧ value = mhuNotifyValue) := by
          rw [protocol]
          exact fun direct => absurd direct.2.1 (by decide)
        rw [MhuPair.ringPostbox, if_neg passed]
        dsimp only
        rw [if_neg direct, MhuPair.writePostboxDoorbell, protocol]
        exact ⟨rfl, rfl, quiet⟩
      · exact ⟨rfl, rfl, quiet⟩
  | firePowerDomainReset =>
      obtain ⟨power, fired, rfl⟩ := Option.map_eq_some_iff.mp stepped
      unfold PowerControl.firePowerDomainReset at fired
      split_ifs at fired
      rw [← Option.some.inj fired]
      exact ⟨rfl, rfl, quiet⟩
  | runPowerDomainReset =>
      obtain ⟨power, ran, rfl⟩ := Option.map_eq_some_iff.mp stepped
      unfold PowerControl.runPowerDomainReset at ran
      split_ifs at ran
      rw [← Option.some.inj ran]
      refine ⟨rfl, view_of_sameStates ?_ rfl, quiet⟩
      exact PowerControl.sameStates_emitPowerDomainReset _ _
  | runSystemPowerReset =>
      dsimp only [MhuPair.step] at stepped
      split_ifs at stepped
      rw [← Option.some.inj stepped]
      refine ⟨rfl, view_of_sameStates ?_ rfl, quiet⟩
      exact PowerControl.sameStates_emitSystemPowerReset _ _ _
  | fireRpmsg =>
      dsimp only [MhuPair.step] at stepped
      rw [quiet.1] at stepped
      cases (if_neg Bool.false_ne_true).symm.trans stepped
  | runRpmsg =>
      have asleep : mhu.rpmsgReady = false := by rw [MhuPair.rpmsgReady, quiet.2]
      dsimp only [MhuPair.step] at stepped
      rw [asleep, if_neg Bool.false_ne_true] at stepped
      cases stepped
  | _ =>
      -- Time, the completions and the fired resets of the system.
      dsimp only [MhuPair.step] at stepped
      split_ifs at stepped
      all_goals
        rw [← Option.some.inj stepped]
        exact ⟨rfl, rfl, quiet⟩

/-- A step that answers a message. -/
theorem served_step {channel : Nat} (served : mhu.served config event = some channel)
    (stepped : mhu.step config bus event = some next) :
    next = mhu.respondScmi config bus channel := by
  cases event with
  | access side access =>
      rcases MhuPair.step_access_cases stepped with
        ⟨channel', value, rung, rfl⟩ | ⟨none, -⟩
      · rw [MhuPair.served, rung, Option.bind_some] at served
        dsimp only at served
        split_ifs at served with rings
        obtain rfl := Option.some.inj served
        rw [MhuPair.ringPostbox]
        exact if_pos rings
      · rw [MhuPair.served, none] at served
        cases served
  | _ => cases served

end Device

/-- The slot of a channel holds what the mailbox does. -/
def SlotHolds (config : ScmiConfig) (size : Nat) (bytes : BitVec 64 → Byte) (channel : Nat)
    (phase : AgentPhase) : Slot ScmiMessage ScmiReply → Prop
  | .free => phase = .free
  | .posted message =>
      phase = .posted ∧ config.scmiChannelInRange channel = true ∧ config.Fits size message ∧
        HoldsMessage (config.scmiShmem channel) bytes message
  | .answered reply =>
      phase = .answered ∧ config.scmiChannelInRange channel = true ∧
        0x20 + reply.payload.length ≤ size ∧ HoldsReply (config.scmiShmem channel) bytes reply

structure Related (config : ScmiConfig) (size : Nat) (content : Memory → BitVec 64 → Byte)
    (exchange : Exchange Memory)
    (boxes : Mailboxes Nat ScmiView ScmiMessage ScmiReply) : Prop where
  quiet : Quiet exchange.mhu
  server : boxes.server = exchange.mhu.scmi.view
  slots : ∀ channel, SlotHolds config size (content exchange.mhu.memory) channel
    (exchange.phases channel) (boxes.slots channel)
  collected : exchange.collected = boxes.collected.map (Prod.map id some)

section Slots

variable {config : ScmiConfig} {channel other : Nat} {before after : BitVec 64 → Byte}

/-- What happens in one slot leaves another one alone. -/
theorem SlotHolds.of_confined {phase : AgentPhase} {slot : Slot ScmiMessage ScmiReply}
    (apart : SlotsApart config size) (inRange : config.scmiChannelInRange channel = true)
    (different : channel ≠ other)
    (confined : Confined (config.scmiShmem channel) size before after)
    (held : SlotHolds config size before other phase slot) :
    SlotHolds config size after other phase slot := by
  have keeps (otherInRange : config.scmiChannelInRange other = true) {offset : Nat}
      {data : List Byte} (inside : offset + data.length ≤ size)
      (held : Holds before (config.scmiShmem other + BitVec.ofNat 64 offset) data) :
      Holds after (config.scmiShmem other + BitVec.ofNat 64 offset) data := by
    apply held.of_confined confined
    intro index within
    rw [add_assoc, ← BitVec.ofNat_add]
    exact apart channel other inRange otherInRange different _ (by omega)
  cases slot with
  | free => exact held
  | posted message =>
      obtain ⟨phase_eq, otherInRange, fits, message_held⟩ := held
      have room := fits.1
      refine ⟨phase_eq, otherInRange, fits, ?_, ?_, ?_⟩
      · exact @keeps otherInRange 0x14 _ (by rw [length_toBytes]; omega) message_held.length
      · exact @keeps otherInRange 0x18 _ (by rw [length_toBytes]; omega) message_held.header
      · exact @keeps otherInRange 0x1c _ room message_held.payload
  | answered reply =>
      obtain ⟨phase_eq, otherInRange, fits, reply_held⟩ := held
      have payload := reply_held.payload
      rw [add_assoc] at payload
      refine ⟨phase_eq, otherInRange, fits, ?_, ?_, ?_, ?_, ?_⟩
      · exact @keeps otherInRange 0x04 _ (by rw [length_toBytes]; omega) reply_held.chanStatus
      · exact @keeps otherInRange 0x14 _ (by rw [length_toBytes]; omega) reply_held.length
      · exact @keeps otherInRange 0x18 _ (by rw [length_toBytes]; omega) reply_held.header
      · exact @keeps otherInRange 0x1c _ (by rw [length_toBytes]; omega) reply_held.status
      · rw [add_assoc]
        exact @keeps otherInRange 0x20 _ fits payload

/-- One slot changes and its mailbox with it. -/
theorem slots_update {phases : Nat → AgentPhase} {slots : Nat → Slot ScmiMessage ScmiReply}
    {phase : AgentPhase} {slot : Slot ScmiMessage ScmiReply}
    (apart : SlotsApart config size) (inRange : config.scmiChannelInRange channel = true)
    (confined : Confined (config.scmiShmem channel) size before after)
    (held : ∀ other, SlotHolds config size before other (phases other) (slots other))
    (own : SlotHolds config size after channel phase slot) (other : Nat) :
    SlotHolds config size after other (Function.update phases channel phase other)
      (Function.update slots channel slot other) := by
  by_cases same : other = channel
  · subst same
    rwa [Function.update_self, Function.update_self]
  · rw [Function.update_of_ne same, Function.update_of_ne same]
    exact (held other).of_confined apart inRange (Ne.symm same) confined

end Slots

section Simulation

variable {exchange next : Exchange Memory} {boxes : Mailboxes Nat ScmiView ScmiMessage ScmiReply}

theorem simulates_post (writable : bus.Writable content) (small : size ≤ 2 ^ 32)
    (apart : SlotsApart config.scmi size)
    (related : Related config.scmi size content exchange boxes)
    {channel : Nat} {message : ScmiMessage}
    (stepped : exchange.step config bus size (.post channel message) = some next) :
    ∃ boxes', Mailboxes.step config.scmi.answer boxes (.post channel message) = some boxes' ∧
      Related config.scmi size content next boxes' := by
  dsimp only [step] at stepped
  split_ifs at stepped with admitted
  obtain ⟨free, inRange, fits⟩ := admitted
  have held := related.slots channel
  rw [free] at held
  have empty : boxes.slots channel = .free := by
    cases slot : boxes.slots channel with
    | free => rfl
    | posted message =>
        rw [slot] at held
        cases held.1
    | answered reply =>
        rw [slot] at held
        cases held.1
  refine ⟨_, by rw [Mailboxes.step, empty], ?_⟩
  rw [← Option.some.inj stepped]
  refine ⟨related.quiet, related.server, ?_, related.collected⟩
  have whole : size ≤ 2 ^ 64 := small.trans (by decide)
  refine slots_update apart inRange (confined_postScmiMessage writable fits.1 whole)
    related.slots ?_
  exact ⟨rfl, inRange, fits, holdsMessage_postScmiMessage writable (fits.1.trans whole)⟩

theorem simulates_collect (writable : bus.Writable content) (small : size ≤ 2 ^ 32)
    (related : Related config.scmi size content exchange boxes) {channel : Nat}
    (stepped : exchange.step config bus size (.collect channel) = some next) :
    ∃ boxes', Mailboxes.step config.scmi.answer boxes (.collect channel) = some boxes' ∧
      Related config.scmi size content next boxes' := by
  dsimp only [step] at stepped
  split_ifs at stepped with answered
  have held := related.slots channel
  rw [answered] at held
  cases slot : boxes.slots channel with
  | free =>
      rw [slot] at held
      cases held
  | posted message =>
      rw [slot] at held
      cases held.1
  | answered reply =>
      rw [slot] at held
      obtain ⟨-, inRange, fits, reply_held⟩ := held
      have read := collectScmiReply_of_holds writable.toReadable (by omega) reply_held
      rw [read] at stepped
      refine ⟨_, by rw [Mailboxes.step, slot], ?_⟩
      rw [← Option.some.inj stepped]
      refine ⟨related.quiet, related.server, fun other => ?_, ?_⟩
      · dsimp only
        by_cases same : other = channel
        · subst same
          rw [Function.update_self, Function.update_self]
          rfl
        · rw [Function.update_of_ne same, Function.update_of_ne same]
          exact related.slots other
      · dsimp only
        rw [List.map_append, ← related.collected]
        rfl

theorem simulates_device (writable : bus.Writable content) (small : size ≤ 2 ^ 32)
    (apart : SlotsApart config.scmi size) (protocol : config.protocol = .scmi)
    (related : Related config.scmi size content exchange boxes) {event : MhuPair.Step}
    (stepped : exchange.step config bus size (.device event) = some next) :
    ∃ boxes', Mailboxes.step config.scmi.answer boxes
        (exchange.label config (.device event)) = some boxes' ∧
      Related config.scmi size content next boxes' := by
  dsimp only [step, label] at stepped ⊢
  cases served : exchange.mhu.served config event with
  | none =>
      rw [served] at stepped
      obtain ⟨mhu, moved, rfl⟩ := Option.map_eq_some_iff.mp stepped
      obtain ⟨memory, view, quiet⟩ := unserved_step protocol related.quiet served moved
      refine ⟨boxes, rfl, quiet, related.server.trans view.symm, fun channel => ?_,
        related.collected⟩
      dsimp only
      rw [memory]
      exact related.slots channel
  | some channel =>
      rw [served] at stepped
      dsimp only at stepped
      split_ifs at stepped with posted
      obtain ⟨mhu, moved, rfl⟩ := Option.map_eq_some_iff.mp stepped
      obtain rfl := served_step served moved
      have held := related.slots channel
      rw [posted] at held
      cases slot : boxes.slots channel with
      | free =>
          rw [slot] at held
          cases held
      | answered reply =>
          rw [slot] at held
          cases held.1
      | posted message =>
          rw [slot] at held
          obtain ⟨-, inRange, ⟨room, replyRoom⟩, message_held⟩ := held
          have whole : size ≤ 2 ^ 64 := small.trans (by decide)
          have requested := ScmiConfig.scmiRequest_of_holds writable.toReadable (by omega)
            message_held
          have answered := dispatchScmi_eq_answer config.scmi exchange.mhu.now exchange.mhu.scmi
            message
          dsimp only at answered
          rw [← related.server] at answered
          have reply := congrArg Prod.fst answered
          have view := congrArg Prod.snd answered
          have replyFits : 0x20 + (config.scmi.answer boxes.server message).1.payload.length ≤
              size := by
            rwa [length_answer]
          refine ⟨_, by rw [Mailboxes.step, slot], ?_⟩
          rw [MhuPair.respondScmi, respondScmi_eq config.scmi bus requested]
          refine ⟨related.quiet, view.symm, ?_, related.collected⟩
          have written : content (config.scmi.writeScmiResponse bus exchange.mhu.memory channel
              (config.scmi.answer boxes.server message).1.header
              (config.scmi.answer boxes.server message).1.status
              (config.scmi.answer boxes.server message).1.payload) =
              content (config.scmi.writeScmiResponse bus exchange.mhu.memory channel message.header
                (config.scmi.dispatchScmi exchange.mhu.now message.header message.payload
                  exchange.mhu.scmi).status
                (config.scmi.dispatchScmi exchange.mhu.now message.header message.payload
                  exchange.mhu.scmi).payload) := by
            rw [← reply]
          dsimp only
          rw [← written]
          refine slots_update apart inRange
            (ScmiConfig.confined_writeScmiResponse writable replyFits whole) related.slots ?_
          exact ⟨rfl, inRange, replyFits,
            ScmiConfig.holdsReply_writeScmiResponse writable (replyFits.trans whole)⟩

theorem simulates_step (writable : bus.Writable content) (small : size ≤ 2 ^ 32)
    (apart : SlotsApart config.scmi size) (protocol : config.protocol = .scmi)
    (related : Related config.scmi size content exchange boxes) {event : ExchangeEvent}
    (stepped : exchange.step config bus size event = some next) :
    ∃ boxes', Mailboxes.step config.scmi.answer boxes (exchange.label config event) =
      some boxes' ∧ Related config.scmi size content next boxes' := by
  cases event with
  | post channel message => exact simulates_post writable small apart related stepped
  | device event => exact simulates_device writable small apart protocol related stepped
  | collect channel => exact simulates_collect writable small related stepped

end Simulation

theorem slotsApart_of_stride {config : ScmiConfig} (room : size ≤ config.channelStride.toNat)
    (total : config.channelStride.toNat * config.channelCount ≤ 2 ^ 64) :
    SlotsApart config size := by
  intro first second firstInRange secondInRange different index inside
  have inRange {channel : Nat} (inRange : config.scmiChannelInRange channel = true) :
      config.channelBaseIndex ≤ channel ∧
        channel - config.channelBaseIndex < config.channelCount := by
    simpa [ScmiConfig.scmiChannelInRange] using inRange
  obtain ⟨firstBase, firstSlot⟩ := inRange firstInRange
  obtain ⟨secondBase, secondSlot⟩ := inRange secondInRange
  have place {channel : Nat} (base : config.channelBaseIndex ≤ channel) :
      config.scmiShmem channel = config.txShmem + BitVec.ofNat 64
        (config.channelStride.toNat * (channel - config.channelBaseIndex)) := by
    rw [ScmiConfig.scmiShmem, if_pos base, BitVec.ofNat_mul, BitVec.ofNat_toNat,
      BitVec.setWidth_eq]
  rw [place firstBase, place secondBase, add_assoc, add_sub_add_left_eq_sub, ← BitVec.ofNat_add,
    BitVec.toNat_sub, BitVec.toNat_ofNat, BitVec.toNat_ofNat]
  generalize config.channelStride.toNat = stride at room total
  generalize firstAt : first - config.channelBaseIndex = i at firstSlot
  generalize secondAt : second - config.channelBaseIndex = j at secondSlot
  have fits {slot : Nat} (within : slot < config.channelCount) : stride * slot + stride ≤ 2 ^ 64 :=
    (Nat.mul_le_mul_left stride within).trans total
  have firstFits := fits firstSlot
  have secondFits := fits secondSlot
  rcases Nat.lt_or_gt_of_ne (show i ≠ j by omega) with before | after
  · have gap : stride * i + stride ≤ stride * j := Nat.mul_le_mul_left stride before
    omega
  · have gap : stride * j + stride ≤ stride * i := Nat.mul_le_mul_left stride after
    omega

end Exchange

open Exchange in
/-- Whatever the agents and the pair do, the agents see mailboxes around one server, and each of
them collects the replies to its own messages in their order. -/
theorem scmi_exchange {Memory : Type u} (config : Config) (bus : Bus Memory)
    (content : Memory → BitVec 64 → Byte) (writable : bus.Writable content)
    (protocol : config.protocol = .scmi) (size : Nat) (small : size ≤ 2 ^ 32)
    (apart : SlotsApart config.scmi size) (pbx mbx : FrameParams) (memory : Memory)
    {events : List ExchangeEvent} {final : Exchange Memory}
    (reached : run (step config bus size) { mhu := MhuPair.elaborated pbx mbx memory } events =
      some final) :
    ∃ boxes : Mailboxes Nat ScmiView ScmiMessage ScmiReply,
      run (Mailboxes.step config.scmi.answer) { server := {} }
          (labels (step config bus size) (label config)
            { mhu := MhuPair.elaborated pbx mbx memory } events) = some boxes ∧
        final.mhu.scmi.view = boxes.server ∧
        final.collected = boxes.collected.map (Prod.map id some) ∧
        ∀ channel, final.phases channel ≠ .answered →
          Mailboxes.ofClient channel boxes.collected =
            Mailboxes.ofClient channel (Mailboxes.replies config.scmi.answer {} boxes.served) := by
  have initially : Related config.scmi size content
      { mhu := MhuPair.elaborated pbx mbx memory } { server := {} } :=
    ⟨⟨rfl, rfl⟩, rfl, fun _ => rfl, rfl⟩
  obtain ⟨boxes, arrived, related⟩ := @run_simulates _ _ _ _ (step config bus size)
    (Mailboxes.step config.scmi.answer) (label config) (Related config.scmi size content)
    (fun _ _ _ _ related stepped => simulates_step writable small apart protocol related stepped)
    _ _ _ _ initially reached
  refine ⟨boxes, arrived, related.server.symm, related.collected, fun channel pending => ?_⟩
  have delivered := (Mailboxes.orderly_run arrived).delivered channel
  have held := related.slots channel
  have nothing : (boxes.slots channel).outstanding = [] := by
    cases slot : boxes.slots channel with
    | free => rfl
    | posted message => rfl
    | answered reply =>
        rw [slot] at held
        exact absurd held.1 pending
  rwa [nothing, List.append_nil] at delivered

/-- Two agents: one sets the state of a power domain, the other one reads it. -/
def twoAgents : List ExchangeEvent :=
  [.post 1 ⟨0x4405, toBytes 4 3#32⟩,
    .post 0 ⟨0x4404, toBytes 4 0#32 ++ toBytes 4 3#32 ++ toBytes 4 1#32⟩,
    .device (.access .pbx (.write 0x100c (toBytes 4 1#32))),
    .device (.access .pbx (.write 0x102c (toBytes 4 1#32))),
    .device (.elapse 0), .collect 0, .collect 1]

theorem scmi_exchange_twoAgents :
    let config : Config := { scmi := { channelStride := 0x80, channelCount := 2 } }
    let params : FrameParams := { channelCount := ⟨4, by decide, by decide⟩ }
    let start : Exchange (BitVec 64 → Byte) :=
      { mhu := MhuPair.elaborated params params fun _ => 0 }
    ∃ final boxes, run (Exchange.step config Bus.ram 0x80) start twoAgents = some final ∧
      run (Mailboxes.step config.scmi.answer) { server := {} }
          (labels (Exchange.step config Bus.ram 0x80) (Exchange.label config) start twoAgents) =
        some boxes ∧
        final.mhu.scmi.view = boxes.server ∧
        final.collected = boxes.collected.map (Prod.map id some) ∧
        ∀ channel, final.phases channel ≠ .answered →
          Mailboxes.ofClient channel boxes.collected =
            Mailboxes.ofClient channel
              (Mailboxes.replies config.scmi.answer {} boxes.served) := by
  intro config params start
  have finishes : (run (Exchange.step config Bus.ram 0x80) start twoAgents).isSome = true := by
    decide +kernel
  obtain ⟨final, reached⟩ := Option.isSome_iff_exists.mp finishes
  obtain ⟨boxes, seen⟩ := scmi_exchange config Bus.ram id Bus.ram_writable rfl 0x80 (by decide)
    (Exchange.slotsApart_of_stride (by decide) (by decide)) params params (fun _ => 0) reached
  exact ⟨final, boxes, reached, seen⟩

end QboxPlatform.Mhu
