import QboxPlatform.Foundation.Run
import QboxPlatform.HostPpu.Ppu

/-!
# The reset line of the host PPU

Policies are written in any order with the steps of the thread.  The thread releases the reset
whatever the status has become since it was woken, and a status that is left for OFF by way of a
retention state is not seen as a power-off.
-/

namespace QboxPlatform.HostPpu

open Foundation

inductive PpuStep
  | writePwpr (value : BitVec 32)
  | fire
  | run

namespace Ppu

def step (params : Params) (ppu : Ppu) : PpuStep → Option Ppu
  | .writePwpr value => some (ppu.write32 params ppuPwpr value)
  | .fire => ppu.firePowerOnSequence
  | .run => ppu.runPowerOnSequence params

/-- The reset is asserted, and the thread waits. -/
def start (regs : Image) : Ppu where
  regs := regs
  powerOnSequencePending := false
  thread := .waiting
  powerOnReset := true
  powerOnLoad := false

def IsOn (ppu : Ppu) : Prop := powerStatusIsOn ppu.pwsr = true

def IsOff (ppu : Ppu) : Prop := powerStatusIsOff ppu.pwsr = true

/-- Nothing is under way. -/
def Settled (ppu : Ppu) : Prop :=
  ppu.powerOnSequencePending = false ∧ ppu.thread = .waiting

instance (ppu : Ppu) : Decidable ppu.IsOn := inferInstanceAs (Decidable (_ = _))
instance (ppu : Ppu) : Decidable ppu.IsOff := inferInstanceAs (Decidable (_ = _))
instance (ppu : Ppu) : Decidable ppu.Settled := inferInstanceAs (Decidable (_ ∧ _))

/-- The reset is not released while the status is OFF, and follows the status once nothing is
under way. -/
structure ResetSequenced (ppu : Ppu) : Prop where
  off : ppu.IsOff → ppu.powerOnReset = true
  settledOn : ppu.Settled → ppu.IsOn → ppu.powerOnReset = false
  settledOff : ppu.Settled → ppu.IsOff → ppu.powerOnReset = true

/-- The delay does not end while the status is OFF, and a policy that turns a status that is
neither ON nor OFF to OFF finds the reset asserted. -/
def ResetFollows (ppu : Ppu) : PpuStep → Prop
  | .writePwpr value =>
      powerStatusIsOff value = true → ¬ ppu.IsOn → ¬ ppu.IsOff → ppu.powerOnReset = true
  | .fire => True
  | .run => ppu.thread = .resetDelay → ¬ ppu.IsOff

instance (ppu : Ppu) : (event : PpuStep) → Decidable (ppu.ResetFollows event)
  | .writePwpr _ => inferInstanceAs (Decidable (_ → _))
  | .fire => isTrue trivial
  | .run => inferInstanceAs (Decidable (_ → _))

/-! ### Steps -/

variable {params : Params} {ppu next : Ppu}

@[simp]
theorem pwsr_store32_pwsr (status : BitVec 32) : (ppu.store32 ppuPwsr status).pwsr = status :=
  Image.load32_store32 _ _ _

@[simp]
theorem pwsr_observe (previousStatus status : BitVec 32) :
    (ppu.observePowerTransition params previousStatus status).pwsr = ppu.pwsr := by
  unfold observePowerTransition
  split_ifs
  · rfl
  · rfl
  · rfl

/-- What a policy does: it sets the status, starts the sequence on a transition to ON, and
asserts the reset on one from ON to OFF. -/
theorem write32_pwpr (assertsOnOff : params.powerOnResetAssertOnPowerOff = true)
    (value : BitVec 32) :
    (ppu.write32 params ppuPwpr value).pwsr = policyStatus ppu.pwsr value ∧
      (ppu.write32 params ppuPwpr value).thread = ppu.thread ∧
      (ppu.write32 params ppuPwpr value).powerOnSequencePending =
        (ppu.powerOnSequencePending || (!powerStatusIsOn ppu.pwsr && powerStatusIsOn value)) ∧
      (ppu.write32 params ppuPwpr value).powerOnReset =
        (ppu.powerOnReset || (powerStatusIsOn ppu.pwsr && powerStatusIsOff value)) := by
  simp only [write32, if_true, pwsr_observe, pwsr_store32_pwsr]
  refine ⟨trivial, ?_⟩
  rw [observePowerTransition, powerStatusIsOn_policyStatus, powerStatusIsOff_policyStatus,
    assertsOnOff, Bool.and_true]
  cases wasOn : powerStatusIsOn ppu.pwsr with
  | true =>
      cases off : powerStatusIsOff value with
      | true => simp [store32, writePowerOnReset]
      | false => simp [store32]
  | false =>
      cases on : powerStatusIsOn value with
      | true => simp [store32]
      | false => simp [store32]

theorem fire_spec (fired : ppu.firePowerOnSequence = some next) :
    next.pwsr = ppu.pwsr ∧ next.powerOnReset = ppu.powerOnReset ∧ next.thread ≠ .waiting := by
  rw [firePowerOnSequence] at fired
  split_ifs at fired with pending waiting
  · cases fired
    exact ⟨rfl, rfl, SequenceThread.noConfusion⟩
  · cases fired
    exact ⟨rfl, rfl, waiting⟩

/-- The reset is released at the end of the delay only, and this is how the thread comes back to
its event. -/
theorem run_spec (assertsReset : params.assertPowerOnReset = true)
    (ran : ppu.runPowerOnSequence params = some next) :
    next.pwsr = ppu.pwsr ∧ next.powerOnSequencePending = ppu.powerOnSequencePending ∧
      ((ppu.thread = .resetDelay ∧ next.powerOnReset = false) ∨
        (ppu.thread ≠ .resetDelay ∧ next.thread ≠ .waiting ∧
          next.powerOnReset = ppu.powerOnReset)) := by
  rw [runPowerOnSequence] at ran
  cases place : ppu.thread with
  | waiting =>
      rw [place] at ran
      cases ran
  | woken =>
      rw [place] at ran
      dsimp only at ran
      split_ifs at ran
      · cases ran
        exact ⟨rfl, rfl, by simp [writePowerOnLoad]⟩
      · cases ran
        exact ⟨rfl, rfl, by simp [beginResetDelay, assertsReset]⟩
  | loadPulse =>
      rw [place] at ran
      cases ran
      exact ⟨rfl, rfl, by simp [beginResetDelay, writePowerOnLoad, assertsReset]⟩
  | resetDelay =>
      rw [place] at ran
      cases ran
      exact ⟨rfl, rfl, by simp [writePowerOnReset]⟩

/-- While the status is ON and the reset asserted, the release is under way. -/
def ReleaseUnderWay (ppu : Ppu) : Prop :=
  ppu.IsOn → ppu.powerOnReset = true → ¬ ppu.Settled

theorem step_keeps_releaseUnderWay (assertsReset : params.assertPowerOnReset = true)
    (assertsOnOff : params.powerOnResetAssertOnPowerOff = true) {event : PpuStep}
    (underWay : ppu.ReleaseUnderWay) (stepped : ppu.step params event = some next) :
    next.ReleaseUnderWay := by
  intro on asserted settled
  cases event with
  | writePwpr value =>
      obtain ⟨status, thread, pending, reset⟩ := @write32_pwpr params ppu assertsOnOff value
      cases stepped
      rw [IsOn, status, powerStatusIsOn_policyStatus] at on
      rw [reset, not_off_of_on on, Bool.and_false, Bool.or_false] at asserted
      obtain ⟨idle, waits⟩ := settled
      rw [pending, on, Bool.and_true, Bool.or_eq_false_iff, Bool.not_eq_false'] at idle
      rw [thread] at waits
      exact underWay idle.2 asserted ⟨idle.1, waits⟩
  | fire => exact (fire_spec stepped).2.2 settled.2
  | run =>
      obtain ⟨-, -, ⟨-, released⟩ | ⟨-, busy, -⟩⟩ := run_spec assertsReset stepped
      · rw [released] at asserted
        cases asserted
      · exact busy settled.2

theorem resetSequenced_iff (underWay : ppu.ReleaseUnderWay) :
    ppu.ResetSequenced ↔ (ppu.IsOff → ppu.powerOnReset = true) := by
  constructor
  · exact ResetSequenced.off
  · intro off
    refine ⟨off, ?_, fun _ => off⟩
    intro settled on
    by_contra asserted
    exact underWay on (Bool.eq_true_of_not_eq_false asserted) settled

theorem step_off_iff (assertsReset : params.assertPowerOnReset = true)
    (assertsOnOff : params.powerOnResetAssertOnPowerOff = true) {event : PpuStep}
    (off : ppu.IsOff → ppu.powerOnReset = true) (stepped : ppu.step params event = some next) :
    (next.IsOff → next.powerOnReset = true) ↔ ppu.ResetFollows event := by
  cases event with
  | writePwpr value =>
      obtain ⟨status, -, -, reset⟩ := @write32_pwpr params ppu assertsOnOff value
      cases stepped
      rw [IsOff, status, powerStatusIsOff_policyStatus, reset, ResetFollows]
      refine forall_congr' fun isOff => ?_
      rw [isOff, Bool.and_true, Bool.or_eq_true]
      constructor
      · rintro (asserted | wasOn) notOn notOff
        · exact asserted
        · exact absurd wasOn notOn
      · intro asserted
        by_cases wasOn : ppu.IsOn
        · exact Or.inr wasOn
        · by_cases wasOff : ppu.IsOff
          · exact Or.inl (off wasOff)
          · exact Or.inl (asserted wasOn wasOff)
  | fire =>
      obtain ⟨status, reset, -⟩ := fire_spec stepped
      rw [IsOff, status, reset]
      exact iff_of_true off trivial
  | run =>
      obtain ⟨status, -, ⟨delayed, released⟩ | ⟨notDelayed, -, kept⟩⟩ :=
        run_spec assertsReset stepped
      · rw [IsOff, status, released, ResetFollows]
        constructor
        · intro asserted _ isOff
          exact Bool.noConfusion (asserted isOff)
        · intro notOff isOff
          exact absurd isOff (notOff delayed)
      · rw [IsOff, status, kept, ResetFollows]
        exact iff_of_true off fun delayed => absurd delayed notDelayed

/-! ### Runs -/

/-- The reset is sequenced in every state of exactly the runs in which the delay never ends at
OFF, and the status does not go to OFF by way of another one after the reset has been released. -/
theorem reset_sequenced_iff (assertsReset : params.assertPowerOnReset = true)
    (assertsOnOff : params.powerOnResetAssertOnPowerOff = true) {regs : Image}
    (initiallyOff : (start regs).IsOff) (steps : List PpuStep) :
    Always (step params) ResetSequenced (start regs) steps ↔
      Along (step params) ResetFollows (start regs) steps := by
  have underWay : (start regs).ReleaseUnderWay := by
    intro on
    rw [IsOff, not_off_of_on on] at initiallyOff
    cases initiallyOff
  apply always_iff_along_of_invariant
    (fun ppu event next => step_keeps_releaseUnderWay assertsReset assertsOnOff)
  · intro ppu event next underWay sequenced stepped
    rw [resetSequenced_iff (step_keeps_releaseUnderWay assertsReset assertsOnOff underWay stepped)]
    exact step_off_iff assertsReset assertsOnOff sequenced.off stepped
  · exact underWay
  · exact (resetSequenced_iff underWay).mpr fun _ => rfl

def sequencing : Params := { assertPowerOnReset := true, assertPowerOnLoad := true }

/-- On, the load pulse, the delay, the release, and off again. -/
theorem reset_sequenced_on_off :
    Always (step sequencing) ResetSequenced (start (resetRegisters sequencing))
      [.writePwpr 0x8, .fire, .run, .run, .run, .writePwpr 0x0] :=
  (reset_sequenced_iff rfl rfl (by decide) _).mpr (by decide)

/-- Off again during the delay: the reset is released all the same. -/
theorem reset_released_at_off :
    ¬ Always (step sequencing) ResetSequenced (start (resetRegisters sequencing))
      [.writePwpr 0x8, .fire, .run, .run, .writePwpr 0x0, .run] := by
  intro always
  have ends : ((run (step sequencing) (start (resetRegisters sequencing))
      [.writePwpr 0x8, .fire, .run, .run, .writePwpr 0x0, .run]).map fun ppu =>
        (decide ppu.IsOff, ppu.powerOnReset)) = some (true, false) := by decide
  obtain ⟨final, reached, facts⟩ := Option.map_eq_some_iff.mp ends
  have sequenced := always_iff_prefix.mp always _ [] final (List.append_nil _).symm reached
  rw [Prod.mk.injEq, decide_eq_true_iff] at facts
  rw [sequenced.off facts.1] at facts
  exact Bool.noConfusion facts.2

end Ppu

end QboxPlatform.HostPpu
