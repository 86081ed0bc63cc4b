import QboxPlatform.HostPpu.PowerOnReset

/-!
# The register port of the host PPU

Software reaches the policy through the register port.  A run of accesses, and of the thread, is a
run of the policies among them, as long as no copy of bytes goes over the status.
-/

namespace QboxPlatform.HostPpu

open Foundation

/-- An access of the port, or a step of the thread. -/
inductive PpuEvent
  | port (access : Access)
  | fire
  | run

/-- What an event does of its own to the status, the thread and the lines. -/
def PpuEvent.steps : PpuEvent → List PpuStep
  | .port (.write offset data) =>
      if data.length = 4 ∧ offset.toNat = ppuPwpr then [.writePwpr (ofBytes 32 data)] else []
  | .port _ => []
  | .fire => [.fire]
  | .run => [.run]

/-- A write is an aligned word, or misses the status. -/
def PpuEvent.MissesStatus : PpuEvent → Prop
  | .port (.write offset data) =>
      data.length = 4 ∧ offset.toNat % 4 = 0 ∨
        (Access.write offset data).writesTo ppuPwsr (ppuPwsr + 4) = false
  | _ => True

namespace Ppu

variable {params : Params} {first second next : Ppu}

def serve (params : Params) (ppu : Ppu) : PpuEvent → Option Ppu
  | .port access => (ppu.access params access).map Prod.snd
  | .fire => ppu.firePowerOnSequence
  | .run => ppu.runPowerOnSequence params

/-- Two units that differ at most in registers other than the status. -/
def SameStatus (first second : Ppu) : Prop :=
  second.pwsr = first.pwsr ∧ ∃ regs, second = { first with regs := regs }

theorem sameStatus_of_regs (ppu : Ppu) {regs : Image}
    (status : regs.load32 ppuPwsr = ppu.pwsr) : SameStatus { ppu with regs := regs } ppu :=
  ⟨status.symm, ppu.regs, rfl⟩

theorem SameStatus.trans {third : Ppu} (left : SameStatus first second)
    (right : SameStatus second third) : SameStatus first third := by
  obtain ⟨leftStatus, leftRegs, rfl⟩ := left
  obtain ⟨rightStatus, rightRegs, rfl⟩ := right
  exact ⟨rightStatus.trans leftStatus, rightRegs, rfl⟩

theorem SameStatus.write32_pwpr (same : SameStatus first second) (value : BitVec 32) :
    SameStatus (first.write32 params ppuPwpr value) (second.write32 params ppuPwpr value) := by
  obtain ⟨status, regs, rfl⟩ := same
  simp only [write32, if_true, status]
  refine ⟨?_, (({ first with regs := regs } : Ppu).store32 ppuPwpr value).regs.store32 ppuPwsr
    (policyStatus first.pwsr value), ?_⟩
  · rw [pwsr_observe, pwsr_observe, pwsr_store32_pwsr, pwsr_store32_pwsr]
  · unfold observePowerTransition
    split_ifs <;> rfl

/-- A step does not read the registers other than the status. -/
theorem SameStatus.step {event : PpuStep} (same : SameStatus first second)
    (stepped : first.step params event = some next) :
    ∃ final, second.step params event = some final ∧ SameStatus next final := by
  cases event with
  | writePwpr value =>
      cases stepped
      exact ⟨_, rfl, same.write32_pwpr value⟩
  | fire =>
      obtain ⟨status, regs, rfl⟩ := same
      simp only [Ppu.step, firePowerOnSequence] at stepped ⊢
      split_ifs at stepped ⊢
      all_goals
        cases stepped
        exact ⟨_, rfl, status, regs, rfl⟩
  | run =>
      obtain ⟨status, regs, rfl⟩ := same
      simp only [Ppu.step, runPowerOnSequence] at stepped ⊢
      cases place : first.thread with
      | waiting =>
          rw [place] at stepped
          cases stepped
      | woken =>
          rw [place] at stepped
          dsimp only at stepped ⊢
          split_ifs at stepped ⊢
          all_goals
            cases stepped
            exact ⟨_, rfl, status, regs, rfl⟩
      | loadPulse =>
          rw [place] at stepped
          cases stepped
          exact ⟨_, rfl, status, regs, rfl⟩
      | resetDelay =>
          rw [place] at stepped
          cases stepped
          exact ⟨_, rfl, status, regs, rfl⟩

/-- Words other than the policy leave the status alone. -/
theorem sameStatus_write32 (ppu : Ppu) {offset : Nat} (aligned : offset % 4 = 0)
    (other : offset ≠ ppuPwpr) (value : BitVec 32) :
    SameStatus (ppu.write32 params offset value) ppu := by
  have kept : offset ≠ ppuPwsr →
      (ppu.regs.store32 offset value).load32 ppuPwsr = ppu.pwsr := by
    intro apart
    apply Image.load32_store32_of_disjoint
    simp only [ppuPwsr] at apart ⊢
    omega
  rw [write32, if_neg other]
  split_ifs with pmer pwsr
  · subst pmer
    exact ppu.sameStatus_of_regs (kept (by decide))
  · exact ⟨rfl, ppu.regs, rfl⟩
  · exact ppu.sameStatus_of_regs (kept pwsr)

/-- An access that the port serves. -/
theorem access_spec {access : Access} {response : Response}
    (accessed : first.access params access = some (response, next)) :
    next = first ∨ ∃ offset data, access = .write offset data ∧
      ((data.length = 4 ∧ offset.toNat % 4 = 0) ∧
          next = first.write32 params offset.toNat (ofBytes 32 data) ∨
        ¬ (data.length = 4 ∧ offset.toNat % 4 = 0) ∧
          next = { first with regs := first.regs.write offset.toNat data }) := by
  unfold Ppu.access at accessed
  split_ifs at accessed with exceeds
  · cases accessed
    exact Or.inl rfl
  · cases access with
    | read offset len =>
        dsimp only at accessed
        split_ifs at accessed
        cases accessed
        exact Or.inl rfl
    | ignore offset len =>
        cases accessed
        exact Or.inl rfl
    | write offset data =>
        dsimp only at accessed
        split_ifs at accessed with outside word
        · cases accessed
          exact Or.inr ⟨offset, data, rfl, Or.inl ⟨word, rfl⟩⟩
        · cases accessed
          exact Or.inr ⟨offset, data, rfl, Or.inr ⟨word, rfl⟩⟩

/-- The policy register lies in the register array. -/
theorem access_pwpr (ppu : Ppu) {offset : BitVec 64} {data : List Byte} (word : data.length = 4)
    (policy : offset.toNat = ppuPwpr) :
    ppu.access params (.write offset data) =
      some (.ok [], ppu.write32 params ppuPwpr (ofBytes 32 data)) := by
  have accepted : (Access.write offset data).exceeds regBytes = false := by
    rw [Access.exceeds_eq_false_iff, Access.len, Access.offset, word, policy]
    decide
  have inside : ¬ regBytes < offset.toNat + data.length := by
    rw [policy, word]
    decide
  have aligned : data.length = 4 ∧ offset.toNat % 4 = 0 := by
    rw [policy]
    exact ⟨word, rfl⟩
  rw [Ppu.access, accepted, if_neg Bool.false_ne_true, ← policy]
  exact (if_neg inside).trans (if_pos aligned)

/-- An event does what its steps do. -/
theorem serve_simulates {event : PpuEvent} (misses : event.MissesStatus)
    (same : SameStatus first second) (served : first.serve params event = some next) :
    ∃ final, run (step params) second event.steps = some final ∧ SameStatus next final := by
  cases event with
  | fire =>
      have fired : first.step params .fire = some next := served
      obtain ⟨final, stepped, related⟩ := same.step fired
      exact ⟨final, run_cons_eq_some.mpr ⟨final, stepped, rfl⟩, related⟩
  | run =>
      have ran : first.step params .run = some next := served
      obtain ⟨final, stepped, related⟩ := same.step ran
      exact ⟨final, run_cons_eq_some.mpr ⟨final, stepped, rfl⟩, related⟩
  | port access =>
      obtain ⟨⟨response, reached⟩, accessed, rfl⟩ := Option.map_eq_some_iff.mp served
      cases access with
      | read offset len =>
          obtain rfl | ⟨_, _, other, -⟩ := access_spec accessed
          · exact ⟨second, rfl, same⟩
          · cases other
      | ignore offset len =>
          obtain rfl | ⟨_, _, other, -⟩ := access_spec accessed
          · exact ⟨second, rfl, same⟩
          · cases other
      | write offset data =>
          by_cases policy : data.length = 4 ∧ offset.toNat = ppuPwpr
          · rw [access_pwpr first policy.1 policy.2] at accessed
            cases accessed
            rw [PpuEvent.steps, if_pos policy]
            exact ⟨_, rfl, same.write32_pwpr _⟩
          · rw [PpuEvent.steps, if_neg policy]
            refine ⟨second, rfl, SameStatus.trans ?_ same⟩
            obtain rfl | ⟨_, _, this, ⟨word, rfl⟩ | ⟨notWord, rfl⟩⟩ := access_spec accessed
            · exact ⟨rfl, reached.regs, rfl⟩
            · cases this
              exact first.sameStatus_write32 word.2 (fun pwpr => policy ⟨word.1, pwpr⟩) _
            · cases this
              apply first.sameStatus_of_regs
              apply Image.load32_congr
              intro index above below
              apply Image.write_outside
              exact Access.outside_of_writesTo (misses.resolve_left notWord) ⟨above, below⟩

/-- The status, the lines and the thread after any run of accesses that keep off the status are
those after the policies among them. -/
theorem run_serve {events : List PpuEvent} (misses : ∀ event ∈ events, event.MissesStatus)
    (same : SameStatus first second) (served : run (serve params) first events = some next) :
    ∃ final, run (step params) second (events.flatMap PpuEvent.steps) = some final ∧
      SameStatus next final := by
  induction events generalizing first second with
  | nil =>
      cases served
      exact ⟨second, rfl, same⟩
  | cons event rest inductionHypothesis =>
      obtain ⟨middle, here, later⟩ := run_cons_eq_some.mp served
      obtain ⟨reached, stepped, related⟩ :=
        serve_simulates (misses event List.mem_cons_self) same here
      obtain ⟨final, remaining, agree⟩ := inductionHypothesis
        (fun event member => misses event (List.mem_cons_of_mem _ member)) related later
      refine ⟨final, ?_, agree⟩
      rw [List.flatMap_cons, run_append, stepped]
      exact remaining

end Ppu

end QboxPlatform.HostPpu
