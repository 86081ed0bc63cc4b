import QboxPlatform.Foundation.Run
import QboxPlatform.Mhu.Scmi

/-!
# Which reset updates are lost

SCMI messages, the firings of the reset event and the passes of `emit_power_domain_reset` in
any order.  There is one pending request for all domains: a message for another domain
replaces it, and the level it asked for is then never driven.
-/

namespace QboxPlatform.Mhu

open Foundation Psa

/-- The SCMI agent, and for each domain the last state that a message set. -/
structure PowerRun where
  now : Nat := 0
  scmi : ScmiState := {}
  requested : Nat → Option (BitVec 32) := fun _ => none

inductive PowerStep
  | message (header : BitVec 32) (request : List Byte)
  | elapse (later : Nat)
  | fire
  | emit

/-- The domain and the state of a `POWER_STATE_SET` message. -/
def stateSet (header : BitVec 32) (request : List Byte) : Option (BitVec 32 × BitVec 32) :=
  if protocolId header = scmiProtocolPowerDomain ∧ msgId header = 0x4 then
    some (readLe32 request 4, readLe32 request 8)
  else none

/-- A domain with a reset port, and a state that is ON or OFF. -/
def PowerConfig.Drivable (config : PowerConfig) (domain state : BitVec 32) : Prop :=
  domain.toNat < config.powerDomainResetCount ∧
    (powerStateIsOn state = true ∨ powerStateIsOff state = true)

instance (config : PowerConfig) (domain state : BitVec 32) :
    Decidable (config.Drivable domain state) :=
  inferInstanceAs (Decidable (_ ∧ _))

def PowerStep.isMessage : PowerStep → Bool
  | .message _ _ => true
  | _ => false

namespace PowerRun

variable (config : ScmiConfig)

def power (state : PowerRun) : PowerControl := state.scmi.power

def setPower (state : PowerRun) (power : PowerControl) : PowerRun :=
  { state with scmi := { state.scmi with power := power } }

/-- One step; messages set drivable states only. -/
def step (state : PowerRun) : PowerStep → Option PowerRun
  | .message header request =>
      let scmi := rescheduleAfterStateGet state.now header
        (config.dispatchScmi state.now header request state.scmi).state
      match stateSet header request with
      | none => some { state with scmi := scmi }
      | some (domain, powerState) =>
          if config.Drivable domain powerState then
            some { state with
              scmi := scmi
              requested := Function.update state.requested domain.toNat (some powerState) }
          else none
  | .elapse later =>
      if state.now ≤ later ∧ state.power.powerDomainResetEvent.permits later = true then
        some { state with now := later }
      else none
  | .fire => (state.power.firePowerDomainReset state.now).map state.setPower
  | .emit => (state.power.runPowerDomainReset config.toPowerConfig).map state.setPower

/-- No notification is outstanding and the thread waits. -/
def Idle (state : PowerRun) : Prop :=
  state.power.powerDomainResetEvent.due = none ∧ state.power.powerDomainResetWoken = false

/-- The line of every domain that was set has the level of its last state. -/
def LinesExact (state : PowerRun) : Prop :=
  ∀ domain powerState, state.requested domain = some powerState →
    state.power.powerDomainReset domain = powerStateIsOff powerState

/-- However the event fires and the thread runs from here, the lines are exact once nothing
is pending. -/
def Settles (state : PowerRun) : Prop :=
  ∀ quiet final, (∀ event ∈ quiet, PowerStep.isMessage event = false) →
    run (step config) state quiet = some final → final.Idle → final.LinesExact

/-- A message does not replace a request for another domain whose line is still at another
level. -/
def KeepsPending (state : PowerRun) (event : PowerStep) : Prop :=
  ∀ header request domain powerState, event = .message header request →
    stateSet header request = some (domain, powerState) →
    state.power.pendingPowerDomainResetValid = true →
    state.power.pendingPowerDomainResetId = domain ∨
      state.power.powerDomainReset state.power.pendingPowerDomainResetId.toNat =
        powerStateIsOff state.power.pendingPowerDomainResetState

/-- Every domain that was set has its level, or is the pending one. -/
def Covered (state : PowerRun) : Prop :=
  ∀ domain powerState, state.requested domain = some powerState →
    state.power.powerDomainReset domain = powerStateIsOff powerState ∨
      state.power.pendingPowerDomainResetValid = true ∧
        state.power.pendingPowerDomainResetId.toNat = domain

/-- What holds in every state, lost updates or not. -/
structure Tracked (state : PowerRun) : Prop where
  pending : state.power.pendingPowerDomainResetValid = true →
    state.requested state.power.pendingPowerDomainResetId.toNat =
        some state.power.pendingPowerDomainResetState ∧
      config.Drivable state.power.pendingPowerDomainResetId
        state.power.pendingPowerDomainResetState
  awaited : state.power.pendingPowerDomainResetValid = true →
    state.power.powerDomainResetEvent.due ≠ none ∨ state.power.powerDomainResetWoken = true
  timely : ∀ due, state.power.powerDomainResetEvent.due = some due → state.now ≤ due

end PowerRun

namespace PowerControl

theorem drivePowerDomainReset_eq {config : PowerConfig} {domain powerState : BitVec 32}
    (asserts : config.powerDomainResetAssertOnPowerOff = true)
    (drivable : config.Drivable domain powerState) (control : PowerControl) :
    control.drivePowerDomainReset config domain.toNat powerState =
      { control with
        powerDomainReset := Function.update control.powerDomainReset domain.toNat
          (powerStateIsOff powerState)
        powerOnReset := powerStateIsOff powerState } := by
  obtain ⟨ported, level⟩ := drivable
  unfold drivePowerDomainReset
  by_cases isOn : powerStateIsOn powerState = true
  · have notOff : powerStateIsOff powerState = false := by
      rw [powerStateIsOn, beq_iff_eq] at isOn
      rw [powerStateIsOff, isOn]
      rfl
    rw [if_pos isOn, notOff]
    unfold writePowerDomainReset writePowerOnReset
    simp only [if_pos ported]
    split_ifs <;> simp
  · have isOff : powerStateIsOff powerState = true := level.resolve_left isOn
    rw [if_neg isOn, if_pos isOff, if_pos asserts, isOff]
    unfold writePowerDomainReset writePowerOnReset
    rw [if_pos ported]

theorem emitPowerDomainReset_pending {config : PowerConfig} {control : PowerControl}
    (asserts : config.powerDomainResetAssertOnPowerOff = true)
    (pending : control.pendingPowerDomainResetValid = true)
    (drivable : config.Drivable control.pendingPowerDomainResetId
      control.pendingPowerDomainResetState) :
    control.emitPowerDomainReset config =
      { control with
        powerDomainResetWoken := false
        pendingPowerDomainResetValid := false
        powerDomainReset := Function.update control.powerDomainReset
          control.pendingPowerDomainResetId.toNat
          (powerStateIsOff control.pendingPowerDomainResetState)
        powerOnReset := powerStateIsOff control.pendingPowerDomainResetState } := by
  rw [emitPowerDomainReset, if_pos pending, drivePowerDomainReset_eq asserts drivable]

theorem emitPowerDomainReset_idle (config : PowerConfig) {control : PowerControl}
    (idle : control.pendingPowerDomainResetValid = false) :
    control.emitPowerDomainReset config = { control with powerDomainResetWoken := false } := by
  rw [emitPowerDomainReset, idle, if_neg Bool.false_ne_true]

/-- Two states of the reset logic that differ in nothing a reset depends on, except that the
second may have been notified as well. -/
structure SameReset (now : Nat) (before after : PowerControl) : Prop where
  valid : after.pendingPowerDomainResetValid = before.pendingPowerDomainResetValid
  id : after.pendingPowerDomainResetId = before.pendingPowerDomainResetId
  state : after.pendingPowerDomainResetState = before.pendingPowerDomainResetState
  woken : after.powerDomainResetWoken = before.powerDomainResetWoken
  lines : after.powerDomainReset = before.powerDomainReset
  event : after.powerDomainResetEvent = before.powerDomainResetEvent ∨
    after.powerDomainResetEvent = before.powerDomainResetEvent.notify now

theorem SameReset.refl (now : Nat) (control : PowerControl) : SameReset now control control :=
  ⟨rfl, rfl, rfl, rfl, rfl, .inl rfl⟩

theorem sameReset_scheduleSystemPowerReset (config : PowerConfig) (now : Nat)
    (control : PowerControl) (systemState : BitVec 32) :
    SameReset now control (control.scheduleSystemPowerReset config now systemState) := by
  unfold scheduleSystemPowerReset
  split_ifs
  · exact ⟨rfl, rfl, rfl, rfl, rfl, .inl rfl⟩
  · exact .refl now control

end PowerControl

section Messages

variable (config : ScmiConfig) (now : Nat) (header : BitVec 32) (request : List Byte)
  (state : ScmiState)

theorem respondScmiBase_state : (config.respondScmiBase header state).state = state := by
  unfold ScmiConfig.respondScmiBase
  split <;> rfl

theorem respondScmiPfdiMonitor_state : (respondScmiPfdiMonitor header state).state = state := by
  unfold respondScmiPfdiMonitor
  split <;> rfl

theorem respondScmiPerformance_power :
    (respondScmiPerformance header request state).state.power = state.power := by
  unfold respondScmiPerformance forPerformanceDomain
  split <;> first | rfl | (dsimp only; split_ifs <;> rfl)

theorem respondScmiSysPower_power :
    (config.respondScmiSysPower now header request state).state.power = state.power ∨
      ∃ systemState, (config.respondScmiSysPower now header request state).state.power =
        state.power.scheduleSystemPowerReset config.toPowerConfig now systemState := by
  unfold ScmiConfig.respondScmiSysPower
  split
  · exact .inl rfl
  · exact .inl rfl
  · exact .inr ⟨_, rfl⟩
  · exact .inl rfl
  · exact .inl rfl

theorem respondScmiPowerDomain_state (other : msgId header ≠ 0x4) :
    (config.respondScmiPowerDomain now header request state).state = state := by
  unfold ScmiConfig.respondScmiPowerDomain
  split <;> first | rfl | contradiction

/-- A message that is no `POWER_STATE_SET` leaves the power control alone, but for a reset of the
system that it may schedule. -/
theorem dispatchScmi_power (noSet : stateSet header request = none) :
    (config.dispatchScmi now header request state).state.power = state.power ∨
      ∃ systemState, (config.dispatchScmi now header request state).state.power =
        state.power.scheduleSystemPowerReset config.toPowerConfig now systemState := by
  unfold ScmiConfig.dispatchScmi
  split_ifs with base powerDomain sysPower performance pfdiMonitor transport
  · exact .inl (congrArg ScmiState.power (respondScmiBase_state config header state))
  · have other : msgId header ≠ 0x4 := by
      intro set
      rw [stateSet, if_pos ⟨powerDomain, set⟩] at noSet
      cases noSet
    exact .inl (congrArg ScmiState.power (respondScmiPowerDomain_state _ _ _ _ _ other))
  · exact respondScmiSysPower_power config now header request state
  · exact .inl (respondScmiPerformance_power header request state)
  · exact .inl (congrArg ScmiState.power (respondScmiPfdiMonitor_state header state))
  · exact .inl rfl
  · exact .inl rfl

/-- A message that is no `POWER_STATE_SET` leaves the reset logic as it is, but for the
notification that a `POWER_STATE_GET` asks for. -/
theorem sameReset_message (noSet : stateSet header request = none) :
    state.power.SameReset now
      (rescheduleAfterStateGet now header
        (config.dispatchScmi now header request state).state).power := by
  unfold rescheduleAfterStateGet
  split_ifs with get
  · have unchanged : (config.dispatchScmi now header request state).state = state := by
      unfold ScmiConfig.dispatchScmi
      rw [if_neg (by rw [get.1]; decide), if_pos get.1,
        respondScmiPowerDomain_state _ _ _ _ _ (by rw [get.2.1]; decide)]
    rw [unchanged]
    exact ⟨rfl, rfl, rfl, rfl, rfl, .inr rfl⟩
  · rcases dispatchScmi_power config now header request state noSet with
      kept | ⟨systemState, scheduled⟩
    · rw [kept]
      exact .refl now _
    · rw [scheduled]
      exact PowerControl.sameReset_scheduleSystemPowerReset _ now _ systemState

theorem power_message {domain powerState : BitVec 32}
    (set : stateSet header request = some (domain, powerState)) :
    (rescheduleAfterStateGet now header
        (config.dispatchScmi now header request state).state).power =
      state.power.applyPowerDomainState config.toPowerConfig now domain powerState := by
  unfold stateSet at set
  split_ifs at set with matched
  obtain ⟨rfl, rfl⟩ := Prod.mk.inj (Option.some.inj set)
  have answered : (config.dispatchScmi now header request state).state =
      { state with
        power := state.power.applyPowerDomainState config.toPowerConfig now
          (readLe32 request 4) (readLe32 request 8) } := by
    unfold ScmiConfig.dispatchScmi ScmiConfig.respondScmiPowerDomain
    rw [if_neg (by rw [matched.1]; decide), if_pos matched.1, matched.2]
    rfl
  have noGet : msgId header ≠ 0x5 := by
    rw [matched.2]
    decide
  rw [rescheduleAfterStateGet, if_neg (fun get => noGet get.2.1), answered]

end Messages

namespace PowerRun

variable {config : ScmiConfig} {state next : PowerRun} {event : PowerStep}

theorem step_cases (stepped : state.step config event = some next) :
    (∃ header request, event = .message header request ∧ stateSet header request = none ∧
      state.power.SameReset state.now next.power ∧ next.now = state.now ∧
      next.requested = state.requested) ∨
    (∃ header request domain powerState, event = .message header request ∧
      stateSet header request = some (domain, powerState) ∧
      config.Drivable domain powerState ∧
      next.power = state.power.applyPowerDomainState config.toPowerConfig state.now domain
        powerState ∧
      next.now = state.now ∧
      next.requested = Function.update state.requested domain.toNat (some powerState)) ∨
    (∃ later, event = .elapse later ∧ state.now ≤ later ∧
      state.power.powerDomainResetEvent.permits later = true ∧ next = { state with now := later }) ∨
    (event = .fire ∧ state.power.powerDomainResetEvent.ready state.now = true ∧
      next = state.setPower
        { state.power with powerDomainResetEvent := {}, powerDomainResetWoken := true }) ∨
    (event = .emit ∧ state.power.powerDomainResetWoken = true ∧
      next = state.setPower (state.power.emitPowerDomainReset config.toPowerConfig)) := by
  cases event with
  | message header request =>
      dsimp only [step] at stepped
      cases set : stateSet header request with
      | none =>
          simp only [set, Option.some.injEq] at stepped
          subst stepped
          exact .inl ⟨header, request, rfl, set,
            sameReset_message config state.now header request state.scmi set, rfl, rfl⟩
      | some target =>
          obtain ⟨domain, powerState⟩ := target
          simp only [set] at stepped
          split_ifs at stepped with drivable
          rw [Option.some.injEq] at stepped
          subst stepped
          exact .inr (.inl ⟨header, request, domain, powerState, rfl, set, drivable,
            power_message config state.now header request state.scmi set, rfl, rfl⟩)
  | elapse later =>
      dsimp only [step] at stepped
      split_ifs at stepped with permitted
      exact .inr (.inr (.inl
        ⟨later, rfl, permitted.1, permitted.2, (Option.some.inj stepped).symm⟩))
  | fire =>
      obtain ⟨power, fired, rfl⟩ := Option.map_eq_some_iff.mp stepped
      unfold PowerControl.firePowerDomainReset at fired
      split_ifs at fired with ready
      exact .inr (.inr (.inr (.inl ⟨rfl, ready, by rw [← Option.some.inj fired]⟩)))
  | emit =>
      obtain ⟨power, ran, rfl⟩ := Option.map_eq_some_iff.mp stepped
      unfold PowerControl.runPowerDomainReset at ran
      split_ifs at ran with woken
      exact .inr (.inr (.inr (.inr ⟨rfl, woken, by rw [← Option.some.inj ran]⟩)))

variable (asserts : config.powerDomainResetAssertOnPowerOff = true)

include asserts in
theorem tracked_step (tracked : Tracked config state)
    (stepped : state.step config event = some next) : Tracked config next := by
  obtain ⟨pending, awaited, timely⟩ := tracked
  rcases step_cases stepped with ⟨_, _, -, -, same, clock, requested⟩ |
    ⟨_, _, domain, powerState, -, -, drivable, power, clock, requested⟩ |
    ⟨later, -, -, permitted, rfl⟩ | ⟨-, ready, rfl⟩ | ⟨-, woken, rfl⟩
  · refine ⟨?_, ?_, ?_⟩
    · rw [same.valid, same.id, same.state, requested]
      exact pending
    · intro valid
      rw [same.valid] at valid
      rw [same.woken]
      refine (awaited valid).imp_left fun notified => ?_
      rcases same.event with event | event
      · rwa [event]
      · rw [event]
        exact Event.notify_due_ne_none _ _
    · intro due notified
      rw [clock]
      rcases same.event with event | event
      · exact timely due (event ▸ notified)
      · exact Event.le_of_due_notify le_rfl timely (event ▸ notified)
  · refine ⟨?_, ?_, ?_⟩
    · intro _
      rw [power, requested]
      exact ⟨Function.update_self _ _ _, drivable⟩
    · intro _
      rw [power]
      exact .inl (Event.notify_due_ne_none _ _)
    · intro due notified
      rw [power] at notified
      rw [clock]
      exact Event.le_of_due_notify (Nat.le_add_right _ _) timely notified
  · refine ⟨pending, awaited, fun due notified => ?_⟩
    change state.power.powerDomainResetEvent.due = some due at notified
    exact Event.le_of_permits permitted notified
  · refine ⟨pending, fun _ => .inr rfl, fun due notified => ?_⟩
    cases notified
  · cases valid : state.power.pendingPowerDomainResetValid with
    | true =>
        rw [PowerControl.emitPowerDomainReset_pending asserts valid (pending valid).2]
        exact ⟨nofun, nofun, timely⟩
    | false =>
        rw [PowerControl.emitPowerDomainReset_idle _ valid]
        exact ⟨fun contrary => absurd (valid.symm.trans contrary) Bool.false_ne_true,
          fun contrary => absurd (valid.symm.trans contrary) Bool.false_ne_true, timely⟩

include asserts in
/-- A step keeps every domain covered exactly when it does not replace a request whose level
is not driven yet. -/
theorem covered_step_iff (tracked : Tracked config state) (covered : Covered state)
    (stepped : state.step config event = some next) :
    Covered next ↔ KeepsPending state event := by
  rcases step_cases stepped with ⟨header, request, rfl, noSet, same, -, requested⟩ |
    ⟨header, request, domain, powerState, rfl, set, -, power, -, requested⟩ |
    ⟨later, rfl, -, -, rfl⟩ | ⟨rfl, -, rfl⟩ | ⟨rfl, -, rfl⟩
  · refine iff_of_true ?_ ?_
    · intro domain powerState last
      rw [requested] at last
      rw [same.lines, same.valid, same.id]
      exact covered domain powerState last
    · rintro _ _ _ _ ⟨⟩ set
      rw [noSet] at set
      cases set
  · have lines : next.power.powerDomainReset = state.power.powerDomainReset := by
      rw [power]
      rfl
    have valid : next.power.pendingPowerDomainResetValid = true := by
      rw [power]
      rfl
    have id : next.power.pendingPowerDomainResetId = domain := by
      rw [power]
      rfl
    constructor
    · rintro kept _ _ domain' _ ⟨⟩ set' pending
      rw [set] at set'
      obtain ⟨rfl, -⟩ := Prod.mk.inj (Option.some.inj set')
      refine or_iff_not_imp_left.mpr fun other => ?_
      have apart : state.power.pendingPowerDomainResetId.toNat ≠ domain.toNat :=
        fun same => other (BitVec.eq_of_toNat_eq same)
      have last := (tracked.pending pending).1
      rw [← Function.update_of_ne apart (some powerState) state.requested, ← requested] at last
      rcases kept _ _ last with level | ⟨-, replaced⟩
      · rwa [lines] at level
      · rw [id] at replaced
        exact absurd replaced.symm apart
    · intro keeps other powerState' last
      rw [lines, valid, id]
      by_cases same : other = domain.toNat
      · exact .inr ⟨rfl, same.symm⟩
      · rw [requested, Function.update_of_ne same] at last
        refine .inl ?_
        rcases covered other powerState' last with level | ⟨pending, rfl⟩
        · exact level
        · have recorded := (tracked.pending pending).1
          rw [last] at recorded
          rcases keeps _ _ domain powerState rfl set pending with replaced | level
          · exact absurd (congrArg BitVec.toNat replaced) same
          · rw [level, Option.some.inj recorded]
  · exact iff_of_true covered (by rintro _ _ _ _ ⟨⟩)
  · exact iff_of_true covered (by rintro _ _ _ _ ⟨⟩)
  · refine iff_of_true ?_ (by rintro _ _ _ _ ⟨⟩)
    cases valid : state.power.pendingPowerDomainResetValid with
    | true =>
        obtain ⟨recorded, drivable⟩ := tracked.pending valid
        rw [PowerControl.emitPowerDomainReset_pending asserts valid drivable]
        intro domain powerState last
        refine .inl ?_
        by_cases same : domain = state.power.pendingPowerDomainResetId.toNat
        · subst same
          obtain rfl := Option.some.inj (last.symm.trans recorded)
          exact Function.update_self _ _ _
        · refine (Function.update_of_ne same _ _).trans ?_
          exact (covered domain powerState last).resolve_right fun pending => same pending.2.symm
    | false =>
        rw [PowerControl.emitPowerDomainReset_idle _ valid]
        intro domain powerState last
        refine .inl ((covered domain powerState last).resolve_right fun pending => ?_)
        exact absurd (valid.symm.trans pending.1) Bool.false_ne_true

theorem Tracked.linesExact (tracked : Tracked config state) (covered : Covered state)
    (idle : state.Idle) : state.LinesExact := by
  intro domain powerState last
  refine (covered domain powerState last).resolve_right fun pending => ?_
  rcases tracked.awaited pending.1 with notified | woken
  · exact notified idle.1
  · exact absurd (idle.2.symm.trans woken) Bool.false_ne_true

theorem keepsPending_of_quiet (quiet : event.isMessage = false) : KeepsPending state event := by
  rintro _ _ _ _ rfl
  cases quiet

include asserts in
/-- The woken thread runs: nothing is left pending, and only the line of the pending domain
moves. -/
theorem emit_drains (tracked : Tracked config state)
    (silent : state.power.powerDomainResetEvent.due = none)
    (woken : state.power.powerDomainResetWoken = true) :
    ∃ final, state.step config .emit = some final ∧ final.Idle ∧
      final.requested = state.requested ∧
      ∀ domain, ¬ (state.power.pendingPowerDomainResetValid = true ∧
          state.power.pendingPowerDomainResetId.toNat = domain) →
        final.power.powerDomainReset domain = state.power.powerDomainReset domain := by
  refine ⟨state.setPower (state.power.emitPowerDomainReset config.toPowerConfig), ?_, ?_⟩
  · rw [step, PowerControl.runPowerDomainReset, if_pos woken, Option.map_some]
  · cases valid : state.power.pendingPowerDomainResetValid with
    | true =>
        rw [PowerControl.emitPowerDomainReset_pending asserts valid (tracked.pending valid).2]
        refine ⟨⟨silent, rfl⟩, rfl, fun domain other => ?_⟩
        exact Function.update_of_ne (fun same => other ⟨rfl, same.symm⟩) _ _
    | false =>
        rw [PowerControl.emitPowerDomainReset_idle _ valid]
        exact ⟨⟨silent, rfl⟩, rfl, fun _ _ => rfl⟩

include asserts in
theorem exists_drain (tracked : Tracked config state) :
    ∃ quiet final, (∀ event ∈ quiet, PowerStep.isMessage event = false) ∧
      run (step config) state quiet = some final ∧ final.Idle ∧
      final.requested = state.requested ∧
      ∀ domain, ¬ (state.power.pendingPowerDomainResetValid = true ∧
          state.power.pendingPowerDomainResetId.toNat = domain) →
        final.power.powerDomainReset domain = state.power.powerDomainReset domain := by
  cases notified : state.power.powerDomainResetEvent.due with
  | none =>
      cases woken : state.power.powerDomainResetWoken with
      | false =>
          exact ⟨[], state, nofun, rfl, ⟨notified, woken⟩, rfl, fun _ _ => rfl⟩
      | true =>
          obtain ⟨final, emitted, drained⟩ := emit_drains asserts tracked notified woken
          exact ⟨[.emit], final, by simp [PowerStep.isMessage],
            run_cons_eq_some.mpr ⟨final, emitted, rfl⟩, drained⟩
  | some due =>
      let elapsed : PowerRun := { state with now := due }
      let fired := elapsed.setPower
        { state.power with powerDomainResetEvent := {}, powerDomainResetWoken := true }
      have elapses : state.step config (.elapse due) = some elapsed := by
        rw [step, if_pos ⟨tracked.timely due notified, by simp [Event.permits, notified]⟩]
      have fires : elapsed.step config .fire = some fired := by
        have ready : elapsed.power.powerDomainResetEvent.ready elapsed.now = true := by
          simp [elapsed, power, Event.ready] at notified ⊢
          simp [notified]
        rw [step, PowerControl.firePowerDomainReset, if_pos ready, Option.map_some]
        rfl
      have trackedFired := tracked_step asserts (tracked_step asserts tracked elapses) fires
      obtain ⟨final, emitted, drained⟩ := emit_drains asserts trackedFired rfl rfl
      exact ⟨[.elapse due, .fire, .emit], final, by simp [PowerStep.isMessage],
        run_cons_eq_some.mpr ⟨elapsed, elapses, run_cons_eq_some.mpr ⟨fired, fires,
          run_cons_eq_some.mpr ⟨final, emitted, rfl⟩⟩⟩, drained⟩

include asserts in
theorem settles_iff_covered (tracked : Tracked config state) :
    Settles config state ↔ Covered state := by
  constructor
  · intro settles domain powerState last
    refine or_iff_not_imp_right.mpr fun uncovered => ?_
    obtain ⟨quiet, final, silent, reached, idle, requested, kept⟩ := exists_drain asserts tracked
    have level := settles quiet final silent reached idle domain powerState
      (by rw [requested, last])
    rwa [kept domain uncovered] at level
  · intro covered quiet final silent reached idle
    have sound : Tracked config final ∧ Covered final := by
      clear idle
      induction quiet generalizing state with
      | nil =>
          cases reached
          exact ⟨tracked, covered⟩
      | cons event rest inductionHypothesis =>
          obtain ⟨next, stepped, remaining⟩ := run_cons_eq_some.mp reached
          have harmless : KeepsPending state event :=
            keepsPending_of_quiet (silent event (List.mem_cons_self ..))
          exact inductionHypothesis (tracked_step asserts tracked stepped)
            ((covered_step_iff asserts tracked covered stepped).mpr harmless)
            (fun later member => silent later (List.mem_cons_of_mem _ member)) remaining
    exact sound.1.linesExact sound.2 idle

theorem tracked_initial (config : ScmiConfig) : Tracked config {} :=
  ⟨nofun, nofun, nofun⟩

/-- In a run from reset the lines settle after every step exactly when no message replaces a
request for another domain whose level is not driven yet. -/
theorem always_settles_iff (config : ScmiConfig)
    (asserts : config.powerDomainResetAssertOnPowerOff = true) (events : List PowerStep) :
    Always (step config) (Settles config) {} events ↔
      Along (step config) KeepsPending {} events := by
  have keeps : ∀ state event next, Tracked config state → step config state event = some next →
      Tracked config next := fun _ _ _ => tracked_step asserts
  rw [always_congr keeps (fun _ => settles_iff_covered asserts) (tracked_initial config)]
  exact always_iff_along_of_invariant keeps
    (fun _ _ _ tracked covered stepped => covered_step_iff asserts tracked covered stepped)
    (tracked_initial config) nofun

/-- The header of a `POWER_STATE_SET` message. -/
def stateSetHeader : BitVec 32 := 0x4404

/-- Flags, domain and state of a `POWER_STATE_SET` message. -/
def stateSetRequest (domain powerState : BitVec 32) : List Byte :=
  toBytes 4 0#32 ++ toBytes 4 domain ++ toBytes 4 powerState

theorem always_settles_iff_one_domain :
    let events : List PowerStep :=
      [.message stateSetHeader (stateSetRequest 0 0), .message stateSetHeader (stateSetRequest 0 1),
        .elapse 1, .fire, .emit]
    Always (step { powerDomainResetCount := 2 }) (Settles { powerDomainResetCount := 2 }) {}
        events ↔
      Along (step { powerDomainResetCount := 2 }) KeepsPending {} events :=
  always_settles_iff { powerDomainResetCount := 2 } rfl _

/-- Domain 0 is switched off, and domain 1 before the thread has run: the line of domain 0
is never asserted. -/
theorem not_linesExact_of_two_domains :
    ¬ Always (step { powerDomainResetCount := 2 })
      (fun state => state.Idle → state.LinesExact) {}
      [.message stateSetHeader (stateSetRequest 0 0), .message stateSetHeader (stateSetRequest 1 0),
        .elapse 1, .fire, .emit] := by
  intro always
  have reached := always_iff_prefix.mp always _ [] _ (List.append_nil _).symm rfl
  have level := reached ⟨rfl, rfl⟩ 0 0 rfl
  exact absurd level (by decide)

end PowerRun

end QboxPlatform.Mhu
