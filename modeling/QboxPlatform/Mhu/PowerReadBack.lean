import QboxPlatform.Mhu.PowerReset
import QboxPlatform.Mhu.Rings

/-!
# Reading a power state back

`POWER_STATE_GET` after any run of the pair.  The table holds the last state of each domain
it has an entry for; the domains past its end share the one variable that every
`POWER_STATE_SET` overwrites.
-/

namespace QboxPlatform.Mhu

open Foundation Psa

universe u v

/-- What the last of the updates with a relevant key has set. -/
def lastFor {Key : Type u} {Value : Type v} (relevant : Key → Bool) (updates : List (Key × Value)) :
    Option Value :=
  (updates.filter fun update => relevant update.1).getLast?.map Prod.snd

theorem lastFor_concat {Key : Type u} {Value : Type v} (relevant : Key → Bool)
    (updates : List (Key × Value)) (update : Key × Value) :
    lastFor relevant (updates ++ [update]) =
      if relevant update.1 then some update.2 else lastFor relevant updates := by
  unfold lastFor
  cases concerned : relevant update.1 with
  | true => simp [concerned]
  | false => simp [concerned]

/-- Whether a message that sets `other` is read back for `domain`: below the table's size
only the domain's own are, past it all of them. -/
def sharesState (domain other : BitVec 32) : Bool :=
  decide (powerDomainStateCount ≤ domain.toNat) || domain == other

namespace PowerControl

/-- Both places where a state is recorded are as before. -/
def SameStates (before after : PowerControl) : Prop :=
  after.powerDomainStates = before.powerDomainStates ∧
    after.powerDomainState = before.powerDomainState

theorem SameStates.refl (control : PowerControl) : SameStates control control := ⟨rfl, rfl⟩

theorem SameStates.trans {first second third : PowerControl} (before : first.SameStates second)
    (after : second.SameStates third) : first.SameStates third :=
  ⟨after.1.trans before.1, after.2.trans before.2⟩

theorem SameStates.read {before after : PowerControl} (same : before.SameStates after)
    (domain : BitVec 32) :
    after.readPowerDomainState domain = before.readPowerDomainState domain := by
  rw [readPowerDomainState, readPowerDomainState, same.1, same.2]

theorem read_applyPowerDomainState (config : PowerConfig) (now : Nat) (control : PowerControl)
    (other powerState domain : BitVec 32) :
    (control.applyPowerDomainState config now other powerState).readPowerDomainState domain =
      if sharesState domain other then powerState else control.readPowerDomainState domain := by
  unfold readPowerDomainState applyPowerDomainState sharesState
  by_cases tabled : domain.toNat < powerDomainStateCount
  · rw [if_pos tabled, if_pos tabled, decide_eq_false (Nat.not_le.mpr tabled), Bool.false_or]
    dsimp only
    by_cases own : domain = other
    · subst own
      rw [if_pos tabled, Function.update_self, beq_self_eq_true, if_pos rfl]
    · have apart : domain.toNat ≠ other.toNat := fun same => own (BitVec.eq_of_toNat_eq same)
      rw [beq_false_of_ne own, if_neg Bool.false_ne_true]
      split_ifs
      · exact Function.update_of_ne apart _ _
      · rfl
  · rw [if_neg tabled, if_neg tabled, decide_eq_true (Nat.not_lt.mp tabled), Bool.true_or,
      if_pos rfl]

theorem sameStates_writePowerDomainReset (config : PowerConfig) (control : PowerControl)
    (domainId : Nat) (asserted : Bool) :
    control.SameStates (control.writePowerDomainReset config domainId asserted) := by
  unfold writePowerDomainReset
  split_ifs
  · exact ⟨rfl, rfl⟩
  · exact .refl control

theorem sameStates_drivePowerDomainReset (config : PowerConfig) (control : PowerControl)
    (domainId : Nat) (powerState : BitVec 32) :
    control.SameStates (control.drivePowerDomainReset config domainId powerState) := by
  unfold drivePowerDomainReset
  dsimp only
  split_ifs
  · exact .trans (sameStates_writePowerDomainReset config control domainId true)
      (sameStates_writePowerDomainReset config _ domainId false)
  · exact sameStates_writePowerDomainReset config control domainId false
  · exact sameStates_writePowerDomainReset config control domainId true
  · exact .refl control
  · exact .refl control

theorem sameStates_emitPowerDomainReset (config : PowerConfig) (control : PowerControl) :
    control.SameStates (control.emitPowerDomainReset config) := by
  unfold emitPowerDomainReset
  dsimp only
  split_ifs
  · exact sameStates_drivePowerDomainReset config _ _ _
  · exact ⟨rfl, rfl⟩

theorem sameStates_emitSystemPowerReset (config : PowerConfig) (now : Nat)
    (control : PowerControl) : control.SameStates (control.emitSystemPowerReset config now) := by
  unfold emitSystemPowerReset
  split
  · exact .refl control
  · split_ifs <;> exact ⟨rfl, rfl⟩
  · exact ⟨rfl, rfl⟩

theorem sameStates_scheduleSystemPowerReset (config : PowerConfig) (now : Nat)
    (control : PowerControl) (systemState : BitVec 32) :
    control.SameStates (control.scheduleSystemPowerReset config now systemState) := by
  unfold scheduleSystemPowerReset
  split_ifs
  · exact ⟨rfl, rfl⟩
  · exact .refl control

end PowerControl

section Messages

variable (config : ScmiConfig) (now : Nat) (header : BitVec 32) (request : List Byte)
  (state : ScmiState)

theorem sameStates_rescheduleAfterStateGet :
    state.power.SameStates (rescheduleAfterStateGet now header state).power := by
  unfold rescheduleAfterStateGet
  split_ifs <;> exact ⟨rfl, rfl⟩

/-- Of all messages only `POWER_STATE_SET` changes what is read back, and that for the
domains that share the state with the one it names. -/
theorem read_message (domain : BitVec 32) :
    (rescheduleAfterStateGet now header
        (config.dispatchScmi now header request state).state).power.readPowerDomainState domain =
      (stateSet header request).elim (state.power.readPowerDomainState domain) fun set =>
        if sharesState domain set.1 then set.2 else state.power.readPowerDomainState domain := by
  cases set : stateSet header request with
  | none =>
      apply PowerControl.SameStates.read
      apply PowerControl.SameStates.trans _ (sameStates_rescheduleAfterStateGet now header _)
      rcases dispatchScmi_power config now header request state set with
        kept | ⟨systemState, scheduled⟩
      · rw [kept]
        exact .refl _
      · rw [scheduled]
        exact PowerControl.sameStates_scheduleSystemPowerReset _ now _ systemState
  | some target =>
      rw [power_message config now header request state set]
      exact PowerControl.read_applyPowerDomainState _ _ _ _ _ _

/-- A `POWER_STATE_GET` for a domain. -/
def IsStateGet (header : BitVec 32) (request : List Byte) (domain : BitVec 32) : Prop :=
  protocolId header = scmiProtocolPowerDomain ∧ msgId header = 0x5 ∧ readLe32 request 0 = domain

instance (header : BitVec 32) (request : List Byte) (domain : BitVec 32) :
    Decidable (IsStateGet header request domain) :=
  inferInstanceAs (Decidable (_ ∧ _))

theorem dispatchScmi_stateGet {domain : BitVec 32} (get : IsStateGet header request domain) :
    config.dispatchScmi now header request state =
      { payload := toBytes 4 (state.power.readPowerDomainState domain), state } := by
  obtain ⟨protocol, message, rfl⟩ := get
  unfold ScmiConfig.dispatchScmi ScmiConfig.respondScmiPowerDomain
  rw [if_neg (by rw [protocol]; decide), if_pos protocol, message]
  rfl

end Messages

section Slots

variable {Memory : Type u} (config : ScmiConfig) (bus : Bus Memory)

/-- The header and the request that `respond_scmi` finds in the slot of a channel, and the
memory after the reads. -/
def ScmiConfig.scmiRequest (channel : Nat) (memory : Memory) :
    (BitVec 32 × List Byte) × Memory :=
  let shmem := config.scmiShmem channel
  let (length, memory) := memRead 32 bus memory (shmem + scmiLength)
  let (header, memory) := memRead 32 bus memory (shmem + scmiHeader)
  let (request, memory) := config.readScmiRequestPayload bus memory channel length
  ((header, request), memory)

theorem respondScmi_eq {now channel : Nat} {memory after : Memory} {state : ScmiState}
    {header : BitVec 32} {request : List Byte}
    (asked : config.scmiRequest bus channel memory = ((header, request), after)) :
    config.respondScmi bus now channel memory state =
      (config.writeScmiResponse bus after channel header
          (config.dispatchScmi now header request state).status
          (config.dispatchScmi now header request state).payload,
        rescheduleAfterStateGet now header
          (config.dispatchScmi now header request state).state) := by
  obtain ⟨⟨rfl, rfl⟩, rfl⟩ := Prod.mk.inj asked |>.imp_left Prod.mk.inj
  rfl

end Slots

namespace MhuPair

variable {Memory : Type u} (config : Config) (bus : Bus Memory)

/-- The domain and the state of the `POWER_STATE_SET` that a step brings, if it brings one. -/
def stateSetBy (mhu : MhuPair Memory) (event : Step) : Option (BitVec 32 × BitVec 32) :=
  (mhu.rung event).bind fun (channel, _) =>
    if ringsScmi config channel then
      let asked := (config.scmi.scmiRequest bus channel mhu.memory).1
      stateSet asked.1 asked.2
    else none

/-- The `POWER_STATE_SET` messages of a run, oldest first. -/
def stateSets (start : MhuPair Memory) (events : List Step) : List (BitVec 32 × BitVec 32) :=
  history (step config bus)
    (fun mhu event sets => sets ++ (stateSetBy config bus mhu event).toList) start [] events

/-- A `POWER_STATE_GET` for the domain is answered with success and this state, in whichever
slot of the shared memory it stands. -/
def AnswersStateGet (mhu : MhuPair Memory) (domain powerState : BitVec 32) : Prop :=
  ∀ channel header request after,
    config.scmi.scmiRequest bus channel mhu.memory = ((header, request), after) →
    IsStateGet header request domain →
    (config.scmi.respondScmi bus mhu.now channel mhu.memory mhu.scmi).1 =
      config.scmi.writeScmiResponse bus after channel header scmiSuccess (toBytes 4 powerState)

variable {config bus} {mhu next : MhuPair Memory}

theorem answersStateGet_read (domain : BitVec 32) :
    mhu.AnswersStateGet config bus domain (mhu.scmi.power.readPowerDomainState domain) := by
  intro channel header request after asked get
  rw [respondScmi_eq config.scmi bus asked, dispatchScmi_stateGet _ _ _ _ _ get]

/-- What a step changes in the state that is read back for a domain. -/
theorem read_step {event : Step} (stepped : mhu.step config bus event = some next)
    (domain : BitVec 32) :
    next.scmi.power.readPowerDomainState domain =
      (mhu.stateSetBy config bus event).elim (mhu.scmi.power.readPowerDomainState domain)
        fun set =>
          if sharesState domain set.1 then set.2
          else mhu.scmi.power.readPowerDomainState domain := by
  cases event with
  | access side access =>
      rcases step_access_cases stepped with ⟨channel, value, rung, rfl⟩ | ⟨quiet, pbx, mbx, rfl⟩
      · rw [stateSetBy, rung, Option.bind_some, ringPostbox_scmi]
        dsimp only
        split_ifs with scmi
        · exact read_message config.scmi mhu.now _ _ mhu.scmi domain
        · rfl
      · rw [stateSetBy, quiet]
        rfl
  | firePowerDomainReset =>
      obtain ⟨power, fired, rfl⟩ := Option.map_eq_some_iff.mp stepped
      unfold PowerControl.firePowerDomainReset at fired
      split_ifs at fired
      rw [← Option.some.inj fired]
      rfl
  | runPowerDomainReset =>
      obtain ⟨power, ran, rfl⟩ := Option.map_eq_some_iff.mp stepped
      unfold PowerControl.runPowerDomainReset at ran
      split_ifs at ran
      rw [← Option.some.inj ran]
      exact (PowerControl.sameStates_emitPowerDomainReset _ _).read domain
  | runSystemPowerReset =>
      dsimp only [step] at stepped
      split_ifs at stepped
      rw [← Option.some.inj stepped]
      exact (PowerControl.sameStates_emitSystemPowerReset _ _ _).read domain
  | _ =>
      -- Time, the completions and the announcement do not touch the power states.
      dsimp only [step] at stepped
      split_ifs at stepped
      all_goals
        rw [← Option.some.inj stepped]
        rfl

/-- Every domain that was set is read back with the last state it shares. -/
def RecordsStates (mhu : MhuPair Memory) (sets : List (BitVec 32 × BitVec 32)) : Prop :=
  ∀ domain powerState, lastFor (sharesState domain) sets = some powerState →
    mhu.scmi.power.readPowerDomainState domain = powerState

theorem recordsStates_step {event : Step} {sets : List (BitVec 32 × BitVec 32)}
    (recorded : mhu.RecordsStates sets) (stepped : mhu.step config bus event = some next) :
    next.RecordsStates (sets ++ (mhu.stateSetBy config bus event).toList) := by
  intro domain powerState last
  rw [read_step stepped]
  cases set : mhu.stateSetBy config bus event with
  | none =>
      rw [set, Option.toList_none, List.append_nil] at last
      exact recorded domain powerState last
  | some target =>
      rw [set, Option.toList_some, lastFor_concat] at last
      dsimp only [Option.elim_some]
      split_ifs at last ⊢
      · exact Option.some.inj last
      · exact recorded domain powerState last

/-- `POWER_STATE_GET` returns the last state that a message set for the domain or, past the
end of the table, for any domain. -/
theorem powerState_read_back (config : Config) (bus : Bus Memory) (pbx mbx : FrameParams)
    (memory : Memory) {events : List Step} {final : MhuPair Memory}
    (reached : run (step config bus) (elaborated pbx mbx memory) events = some final)
    {domain powerState : BitVec 32}
    (last : lastFor (sharesState domain) (stateSets config bus (elaborated pbx mbx memory) events) =
      some powerState) :
    final.AnswersStateGet config bus domain powerState := by
  have recorded :
      final.RecordsStates (stateSets config bus (elaborated pbx mbx memory) events) := by
    apply history_invariant _ _ reached
    · intro state sets event next related stepped
      exact recordsStates_step related stepped
    · rintro domain powerState ⟨⟩
  rw [← recorded domain powerState last]
  exact answersStateGet_read domain

section Sample

/-- Three channels, each with a slot of 64 bytes from address 0 on. -/
def threeSlots : Config where
  scmi := { txShmem := 0, channelStride := 0x40, channelCount := 3 }

/-- A slot that holds a power-domain message. -/
def powerSlot (message : BitVec 32) (request : List (BitVec 32)) : List (BitVec 32) :=
  List.replicate 5 0 ++ [BitVec.ofNat 32 (4 + 4 * request.length), 0x4400 + message] ++
    (request ++ List.replicate (9 - request.length) 0)

/-- Domain 256 is set to 1 in the first slot, domain 0 to 2 in the second, and domain 256 is
asked for in the third. -/
def threeMessages (address : BitVec 64) : Byte :=
  ((powerSlot 4 [0, 256, 1] ++ powerSlot 4 [0, 0, 2] ++ powerSlot 5 [256]).flatMap
    (toBytes 4)).getD address.toNat 0

def threeChannels : FrameParams where
  channelCount := .clamp 3

/-- Both frames with the messages in shared memory. -/
def withMessages : MhuPair (BitVec 64 → Byte) :=
  elaborated threeChannels threeChannels threeMessages

/-- The doorbells of the first two channels. -/
def ringTwice : List Step :=
  [.access .pbx (.write 0x100c [1, 0, 0, 0]), .access .pbx (.write 0x102c [1, 0, 0, 0])]

theorem stateSets_ringTwice :
    stateSets threeSlots Bus.ram withMessages ringTwice = [(256, 1), (0, 2)] := by
  decide +kernel

theorem powerState_read_back_shared :
    ∃ final, run (step threeSlots Bus.ram) withMessages ringTwice = some final ∧
      final.AnswersStateGet threeSlots Bus.ram 256 2 :=
  ⟨_, rfl, powerState_read_back threeSlots Bus.ram threeChannels threeChannels threeMessages rfl
    (show lastFor (sharesState 256) (stateSets threeSlots Bus.ram withMessages ringTwice) =
        some 2 by
      rw [stateSets_ringTwice]; decide)⟩

/-- A domain past the table is not read back with its own last state. -/
theorem not_powerState_own_past_table :
    ∃ final, run (step threeSlots Bus.ram) withMessages ringTwice = some final ∧
      lastFor (· == 256) (stateSets threeSlots Bus.ram withMessages ringTwice) = some 1 ∧
        ¬ final.AnswersStateGet threeSlots Bus.ram 256 1 := by
  refine ⟨_, rfl, by rw [stateSets_ringTwice]; decide, fun answers => ?_⟩
  have answered := answers 2 _ _ _ rfl (by decide +kernel)
  have same := congrFun answered 0xa0
  revert same
  decide +kernel

end Sample

end MhuPair

end QboxPlatform.Mhu
