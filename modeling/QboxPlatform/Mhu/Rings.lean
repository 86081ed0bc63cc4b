import QboxPlatform.Mhu.Bridge
import QboxPlatform.Mhu.Step

/-!
# Doorbells of the postbox

Of all accesses only a write of `PBX_DBCW_SET` reaches beyond the two frames.  What it does
there is said once for each of the services behind the postbox.
-/

namespace QboxPlatform.Mhu

open Foundation Psa

universe u

namespace MhuPair

variable {Memory : Type u} {config : Config} {bus : Bus Memory}

/-- The channel and the value of a step that writes `PBX_DBCW_SET`. -/
def rung (mhu : MhuPair Memory) : Step → Option (Nat × BitVec 32)
  | .access .pbx (.write offset data) =>
      if rejected (.write offset data) = false ∧ data.length = 4 then
        (mhu.pbx.frame.decodeDbchOffset offset.toNat).bind fun (channel, regOffset) =>
          if regOffset = dbcwSet then some (channel, ofBytes 32 data) else none
      else none
  | _ => none

/-- Nothing but the two frames and their interrupt lines has changed. -/
def OnlyFrames (before after : MhuPair Memory) : Prop :=
  ∃ pbx mbx, after = { before with pbx := pbx, mbx := mbx }

theorem OnlyFrames.refl (mhu : MhuPair Memory) : mhu.OnlyFrames mhu := ⟨_, _, rfl⟩

theorem onlyFrames_setFrame (mhu : MhuPair Memory) (side : Side) (frame : Frame) :
    mhu.OnlyFrames (mhu.setFrame side frame) := by
  cases side
  · exact ⟨_, _, rfl⟩
  · exact ⟨_, _, rfl⟩

theorem onlyFrames_writeMbx32 (mhu : MhuPair Memory) (offset : Nat) (value : BitVec 32) :
    mhu.OnlyFrames (mhu.writeMbx32 config offset value) := by
  unfold writeMbx32 clearMbxDoorbellChannel
  split
  · split_ifs <;> exact ⟨_, _, rfl⟩
  · exact ⟨_, _, rfl⟩

theorem writePbx32_cases (mhu : MhuPair Memory) (offset : Nat) (value : BitVec 32) :
    (∃ channel, mhu.pbx.frame.decodeDbchOffset offset = some (channel, dbcwSet) ∧
        mhu.writePbx32 config bus offset value = mhu.ringPostbox config bus channel value) ∨
      (∀ channel, mhu.pbx.frame.decodeDbchOffset offset ≠ some (channel, dbcwSet)) ∧
        mhu.OnlyFrames (mhu.writePbx32 config bus offset value) := by
  unfold writePbx32
  cases decoded : mhu.pbx.frame.decodeDbchOffset offset with
  | none => exact .inr ⟨fun channel => nofun, ⟨_, _, rfl⟩⟩
  | some position =>
      obtain ⟨channel, regOffset⟩ := position
      dsimp only
      by_cases set : regOffset = dbcwSet
      · rw [if_pos set]
        exact .inl ⟨channel, by rw [set], rfl⟩
      · rw [if_neg set]
        refine .inr ⟨fun other same => set (Prod.mk.inj (Option.some.inj same)).2, ?_⟩
        split_ifs <;> exact ⟨_, _, rfl⟩

/-- An access rings the postbox, or leaves everything but the frames as it is. -/
theorem step_access_cases {mhu next : MhuPair Memory} {side : Side} {access : Access}
    (stepped : mhu.step config bus (.access side access) = some next) :
    (∃ channel value, mhu.rung (.access side access) = some (channel, value) ∧
        next = mhu.ringPostbox config bus channel value) ∨
      mhu.rung (.access side access) = none ∧ mhu.OnlyFrames next := by
  obtain ⟨⟨response, after⟩, transported, rfl⟩ := Option.map_eq_some_iff.mp stepped
  rcases bTransport_write transported with
    ⟨rfl, refused⟩ | ⟨address, data, rfl, accepted, inside, rfl⟩
  · refine .inr ⟨?_, .refl _⟩
    cases side with
    | mbx => rfl
    | pbx =>
        cases access with
        | read offset len => rfl
        | ignore offset len => rfl
        | write offset data => simp [rung, refused offset data rfl]
  · dsimp only
    by_cases word : data.length = 4
    · rw [if_pos word]
      cases side with
      | mbx => exact .inr ⟨rfl, onlyFrames_writeMbx32 _ _ _⟩
      | pbx =>
          simp only [rung, if_pos (And.intro accepted word)]
          rcases mhu.writePbx32_cases address.toNat (ofBytes 32 data) with
            ⟨channel, decoded, written⟩ | ⟨other, frames⟩
          · exact .inl ⟨channel, ofBytes 32 data, by simp [decoded], written⟩
          · refine .inr ⟨?_, frames⟩
            cases decoded : mhu.pbx.frame.decodeDbchOffset address.toNat with
            | none => rfl
            | some position =>
                have different : position.2 ≠ dbcwSet := by
                  intro same
                  exact other position.1 (by rw [decoded, ← same])
                rw [Option.bind_some, if_neg different]
    · rw [if_neg word]
      refine .inr ⟨?_, onlyFrames_setFrame _ _ _⟩
      cases side with
      | mbx => rfl
      | pbx => simp [rung, word]

section Rings

variable (mhu : MhuPair Memory) (channel : Nat) (value : BitVec 32)

/-- The doorbells that the SCMI agent answers. -/
def ringsScmi (config : Config) (channel : Nat) : Prop :=
  config.protocol = .scmi ∧ config.scmi.scmiChannelInRange channel = true

instance (config : Config) (channel : Nat) : Decidable (ringsScmi config channel) :=
  inferInstanceAs (Decidable (_ ∧ _))

/-- The completions that a doorbell asks for. -/
def completionsOf (config : Config) : List Completion :=
  if config.protocol = .doorbell ∧
      (triggersDoorbellAck config channel value = true ∨ config.rpmsg.enable = true) ∧
      channel < mhu.pbx.frame.channelCount.count ∧ value ≠ 0 then
    [⟨channel, value⟩]
  else []

/-- The doorbells that ask for the announcement. -/
def kicksRpmsg (config : Config) : Prop :=
  config.protocol = .doorbell ∧ triggersDoorbellAck config channel value = false

instance (config : Config) : Decidable (kicksRpmsg channel value config) :=
  inferInstanceAs (Decidable (_ ∧ _))

theorem answerDoorbell_scmi : (mhu.answerDoorbell config bus channel value).scmi = mhu.scmi := by
  unfold answerDoorbell completeSyntheticPostboxTransfer seedDoorbellAckMemory
    scheduleRpmsgNsInjection
  dsimp only
  split_ifs <;> rfl

theorem writePostboxDoorbell_scmi :
    (mhu.writePostboxDoorbell config bus channel value).scmi = mhu.scmi := by
  unfold writePostboxDoorbell
  dsimp only
  split
  · split_ifs <;> rfl
  · exact answerDoorbell_scmi _ _ _
  · rfl
  · rfl

/-- The SCMI agent is reached by its own doorbells alone. -/
theorem ringPostbox_scmi :
    (mhu.ringPostbox config bus channel value).scmi =
      if ringsScmi config channel then
        (config.scmi.respondScmi bus mhu.now channel mhu.memory mhu.scmi).2
      else mhu.scmi := by
  by_cases scmi : config.protocol = .scmi ∧ config.scmi.scmiChannelInRange channel = true
  · rw [ringPostbox, if_pos scmi]
    exact (if_pos scmi).symm
  · rw [ringPostbox, if_neg scmi]
    refine Eq.trans ?_ (if_neg scmi).symm
    dsimp only
    split_ifs
    · exact writePostboxDoorbell_scmi mhu channel value
    · exact writePostboxDoorbell_scmi mhu channel value

/-- What `complete_synthetic_postbox_transfer` leaves of the queue and its event, when these
completions are asked for. -/
structure Queues (config : Config) (asked : List Completion) (before after : MhuPair Memory) :
    Prop where
  completions : after.completions = before.completions ++ asked
  event : after.completionEvent =
    if asked = [] then before.completionEvent
    else before.completionEvent.notify (before.now + config.syntheticTxdoneDelay)
  woken : after.completionWoken = before.completionWoken
  now : after.now = before.now

theorem Queues.nothing {before after : MhuPair Memory}
    (completions : after.completions = before.completions)
    (event : after.completionEvent = before.completionEvent)
    (woken : after.completionWoken = before.completionWoken) (now : after.now = before.now) :
    Queues config [] before after :=
  ⟨by rw [completions, List.append_nil], by rw [event, if_pos rfl], woken, now⟩

theorem queues_completeSynthetic {start : MhuPair Memory}
    (counted : mhu.pbx.frame.channelCount = start.pbx.frame.channelCount)
    (completions : mhu.completions = start.completions)
    (event : mhu.completionEvent = start.completionEvent)
    (woken : mhu.completionWoken = start.completionWoken) (now : mhu.now = start.now) :
    Queues config
      (if channel < start.pbx.frame.channelCount.count ∧ value ≠ 0 then [⟨channel, value⟩] else [])
      start (mhu.completeSyntheticPostboxTransfer config channel value) := by
  unfold completeSyntheticPostboxTransfer
  rw [counted]
  by_cases dropped : start.pbx.frame.channelCount.count ≤ channel ∨ value = 0
  · have skipped : ¬ (channel < start.pbx.frame.channelCount.count ∧ value ≠ 0) := by
      rintro ⟨decoded, nonzero⟩
      exact dropped.elim (Nat.not_le.mpr decoded) nonzero
    rw [if_pos dropped, if_neg skipped]
    exact .nothing completions event woken now
  · have asked : channel < start.pbx.frame.channelCount.count ∧ value ≠ 0 := by
      rw [not_or, Nat.not_le] at dropped
      exact dropped
    rw [if_neg dropped, if_pos asked]
    refine ⟨?_, ?_, woken, now⟩
    · dsimp only
      rw [completions]
    · dsimp only
      rw [event, now, if_neg (List.cons_ne_nil _ _)]

theorem seedDoorbellAckMemory_eq (config : Config) (bus : Bus Memory) :
    ∃ memory, mhu.seedDoorbellAckMemory config bus = { mhu with memory := memory } := by
  unfold seedDoorbellAckMemory
  split_ifs
  · exact ⟨_, rfl⟩
  · exact ⟨_, rfl⟩

/-- A doorbell queues the completions it asks for and notifies the event for them. -/
theorem queues_answerDoorbell {start : MhuPair Memory} (protocol : config.protocol = .doorbell)
    (frames : start.OnlyFrames mhu)
    (counted : mhu.pbx.frame.channelCount = start.pbx.frame.channelCount) :
    Queues config (start.completionsOf channel value config) start
      (mhu.answerDoorbell config bus channel value) := by
  obtain ⟨pbx, mbx, rfl⟩ := frames
  unfold answerDoorbell completionsOf
  by_cases triggers : triggersDoorbellAck config channel value = true
  · obtain ⟨memory, seeded⟩ :=
      { start with pbx := pbx, mbx := mbx }.seedDoorbellAckMemory_eq config bus
    rw [if_pos triggers, seeded]
    simp only [protocol, triggers, true_or, true_and]
    exact queues_completeSynthetic _ channel value counted rfl rfl rfl rfl
  · rw [if_neg triggers]
    by_cases enabled : config.rpmsg.enable = true
    · rw [if_pos enabled]
      simp only [protocol, enabled, or_true, true_and]
      exact queues_completeSynthetic _ channel value counted rfl rfl rfl rfl
    · have nothing : ¬ (triggersDoorbellAck config channel value = true ∨
          config.rpmsg.enable = true) := not_or_intro triggers enabled
      rw [if_neg enabled, if_neg fun asked => nothing asked.2.1]
      exact .nothing rfl rfl rfl rfl

theorem queues_writePostboxDoorbell :
    Queues config (mhu.completionsOf channel value config) mhu
      (mhu.writePostboxDoorbell config bus channel value) := by
  have other (different : config.protocol ≠ .doorbell) :
      mhu.completionsOf channel value config = [] := if_neg fun asked => different asked.1
  unfold writePostboxDoorbell
  dsimp only
  split
  next protocol =>
    rw [other (by simp [protocol])]
    split_ifs <;> exact .nothing rfl rfl rfl rfl
  next protocol =>
    apply queues_answerDoorbell _ _ _ protocol ⟨_, _, rfl⟩
    simp [Frame.setStatusBits]
  next protocol =>
    rw [other (by simp [protocol])]
    exact .nothing rfl rfl rfl rfl
  next protocol =>
    rw [other (by simp [protocol])]
    exact .nothing rfl rfl rfl rfl

theorem queues_ringPostbox :
    Queues config (mhu.completionsOf channel value config) mhu
      (mhu.ringPostbox config bus channel value) := by
  unfold ringPostbox
  dsimp only
  split_ifs with scmi
  · have none : mhu.completionsOf channel value config = [] :=
      if_neg fun asked => by simp [scmi.1] at asked
    rw [none]
    exact .nothing rfl rfl rfl rfl
  · obtain ⟨completions, event, woken, now⟩ := queues_writePostboxDoorbell mhu channel value
    exact ⟨completions, event, woken, now⟩
  · exact queues_writePostboxDoorbell mhu channel value

theorem completeSyntheticPostboxTransfer_rpmsg :
    (mhu.completeSyntheticPostboxTransfer config channel value).rpmsg = mhu.rpmsg := by
  unfold completeSyntheticPostboxTransfer
  split_ifs <;> rfl

theorem answerDoorbell_rpmsg :
    (mhu.answerDoorbell config bus channel value).rpmsg =
      if triggersDoorbellAck config channel value = true then mhu.rpmsg
      else config.rpmsg.scheduleRpmsgNsInjection mhu.now mhu.rpmsg := by
  obtain ⟨memory, seeded⟩ := mhu.seedDoorbellAckMemory_eq config bus
  unfold answerDoorbell
  dsimp only
  rw [seeded]
  split_ifs
  · exact completeSyntheticPostboxTransfer_rpmsg _ channel value
  · exact completeSyntheticPostboxTransfer_rpmsg _ channel value
  · rfl

theorem writePostboxDoorbell_rpmsg :
    (mhu.writePostboxDoorbell config bus channel value).rpmsg =
      if kicksRpmsg channel value config then
        config.rpmsg.scheduleRpmsgNsInjection mhu.now mhu.rpmsg
      else mhu.rpmsg := by
  have other (different : config.protocol ≠ .doorbell) : ¬ kicksRpmsg channel value config :=
    fun kicks => different kicks.1
  unfold writePostboxDoorbell
  dsimp only
  split
  next protocol =>
    rw [if_neg (other (by simp [protocol]))]
    split_ifs <;> rfl
  next protocol =>
    rw [answerDoorbell_rpmsg]
    by_cases triggers : triggersDoorbellAck config channel value = true
    · rw [if_pos triggers, if_neg fun kicks => by simp [kicks.2] at triggers]
    · rw [if_neg triggers, if_pos ⟨protocol, Bool.eq_false_of_not_eq_true triggers⟩]
  next protocol => rw [if_neg (other (by simp [protocol]))]
  next protocol => rw [if_neg (other (by simp [protocol]))]

/-- A doorbell asks for the announcement or leaves its state alone. -/
theorem ringPostbox_rpmsg :
    (mhu.ringPostbox config bus channel value).rpmsg =
      if kicksRpmsg channel value config then
        config.rpmsg.scheduleRpmsgNsInjection mhu.now mhu.rpmsg
      else mhu.rpmsg := by
  by_cases scmi : config.protocol = .scmi ∧ config.scmi.scmiChannelInRange channel = true
  · rw [ringPostbox, if_pos scmi, if_neg fun kicks => by simp [kicks.1] at scmi]
    rfl
  · rw [ringPostbox, if_neg scmi]
    refine Eq.trans ?_ (@writePostboxDoorbell_rpmsg _ config bus mhu channel value)
    dsimp only
    split_ifs <;> rfl

end Rings

end MhuPair

end QboxPlatform.Mhu
