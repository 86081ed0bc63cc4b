import QboxPlatform.Foundation.Since
import QboxPlatform.Zena.SysKey

/-!
# The safety status line

Which events raise the line of the safety status unit, and which ones take it back.
-/

namespace QboxPlatform.Zena

open Foundation

namespace Ssu

/-- The register and the value of a word write. -/
def wordWrite : Event → Option (Nat × BitVec 32)
  | .access (.write offset data) =>
      if (Access.write offset data).exceeds regBytes then none
      else if data.length = 4 ∧ offset.toNat % 4 = 0 then
        some (offset.toNat % 2 ^ 32, ofBytes 32 data)
      else none
  | _ => none

/-- A write of a protected register is let through. -/
def Opened (params : Params) (ssu : Ssu) : Prop :=
  params.enforceSysKey = false ∨ ssu.unlocked = true

/-- An enabled fault, or a write of the system control register that asks for an error state. -/
def Raises (params : Params) (ssu : Ssu) : Event → Prop
  | .criticalIn value =>
      value = true ∧ ssu.errCtrl &&& errCtrlEd ≠ 0 ∧ ssu.errImpdef &&& impdefCrEn ≠ 0
  | .nonCriticalIn value =>
      value = true ∧ ssu.errCtrl &&& errCtrlEd ≠ 0 ∧ ssu.errImpdef &&& impdefNcrEn ≠ 0
  | .access access =>
      ssu.Opened params ∧
        ∃ value, wordWrite (.access access) = some (Offset.sysCtrl, value) ∧ value &&& 2 ≠ 0

/-- A write that asks for a state without an error, or that leaves the error record invalid. -/
def Clears (params : Params) (ssu : Ssu) (event : Event) : Prop :=
  ssu.Opened params ∧
    ((∃ value, wordWrite event = some (Offset.sysCtrl, value) ∧ value &&& 2 = 0) ∨
      ∃ value, wordWrite event = some (Offset.errStatus, value) ∧
        (ssu.errStatus &&& errStatusV = 0 ∨ value &&& errStatusV ≠ 0))

def InError (ssu : Ssu) : Prop := ssu.sysStatus = sysStatusErrc ∨ ssu.sysStatus = sysStatusErrn

/-- The line is what the system status says. -/
structure Exact (ssu : Ssu) : Prop where
  line : ssu.line = ssu.safetyStatus
  status : ssu.safetyStatus = (ssu.sysStatus == sysStatusErrc || ssu.sysStatus == sysStatusErrn)

variable {params : Params} {ssu : Ssu}

theorem Exact.line_iff (exact : Exact ssu) : ssu.line = true ↔ ssu.InError := by
  rw [exact.line, exact.status, Bool.or_eq_true, beq_iff_eq, beq_iff_eq]
  exact Iff.rfl

theorem exact_updateOutput (same : ssu.line = ssu.safetyStatus) : Exact ssu.updateOutput := by
  unfold updateOutput
  dsimp only
  split
  · next settled => exact ⟨same, settled.symm⟩
  · exact ⟨rfl, rfl⟩

/-! ### The line follows the system status -/

theorem exact_setSequenceError (exact : Exact ssu) : Exact ssu.setSequenceError := by
  unfold setSequenceError
  dsimp only
  split
  · exact exact_updateOutput exact.line
  · exact exact_updateOutput exact.line

theorem exact_setFault (exact : Exact ssu) (critical : Bool) : Exact (ssu.setFault critical) := by
  unfold setFault
  split_ifs
  all_goals first | exact exact | exact exact_updateOutput exact.line

theorem exact_writeRegister (exact : Exact ssu) (offset : Nat) (value : BitVec 32) :
    Exact (ssu.writeRegister offset value) := by
  unfold writeRegister
  split_ifs
  · exact exact_updateOutput exact.line
  · exact exact_updateOutput exact.line
  · exact exact_updateOutput exact.line
  · exact exact_updateOutput exact.line
  · exact ⟨exact.line, exact.status⟩
  · exact exact

theorem exact_writeSysKey (exact : Exact ssu) (value : BitVec 32) :
    Exact (ssu.writeSysKey value) := by
  have written : Exact { ssu with unlocked := value == sysKeyValue } := ⟨exact.line, exact.status⟩
  unfold writeSysKey
  dsimp only
  split
  · exact written
  · exact exact_setSequenceError written

/-- What a protected write finds that is let through. -/
def taken (params : Params) (ssu : Ssu) : Ssu :=
  { ssu with unlocked := ssu.unlocked && !params.enforceSysKey }

theorem write32_of_opened {offset : Nat} (value : BitVec 32) (isNoKey : offset ≠ Offset.sysKey)
    (opened : ssu.Opened params) :
    ssu.write32 params offset value = (ssu.taken params).writeRegister offset value := by
  rcases opened with free | unlocked
  · simp [write32, isNoKey, requireUnlock, taken, free]
  · cases enforced : params.enforceSysKey with
    | false => simp [write32, isNoKey, requireUnlock, taken, enforced]
    | true => simp [write32, isNoKey, requireUnlock, taken, enforced, unlocked]

theorem write32_of_not_opened {offset : Nat} (value : BitVec 32) (isNoKey : offset ≠ Offset.sysKey)
    (closed : ¬ssu.Opened params) : ssu.write32 params offset value = ssu.setSequenceError := by
  obtain ⟨enforced, isLocked⟩ := not_or.mp closed
  exact write32_of_locked value (Bool.not_eq_false _ ▸ enforced) isNoKey
    (Bool.not_eq_true _ ▸ isLocked)

theorem exact_write32 (exact : Exact ssu) (offset : Nat) (value : BitVec 32) :
    Exact (ssu.write32 params offset value) := by
  by_cases isKey : offset = Offset.sysKey
  · rw [write32, if_pos isKey]
    exact exact_writeSysKey exact value
  · by_cases opened : ssu.Opened params
    · have found : Exact (ssu.taken params) := ⟨exact.line, exact.status⟩
      rw [write32_of_opened value isKey opened]
      exact exact_writeRegister found offset value
    · rw [write32_of_not_opened value isKey opened]
      exact exact_setSequenceError exact

/-! ### The system status -/

/-- An access is a word write, or changes nothing. -/
theorem step_access (params : Params) (ssu : Ssu) (access : Access) :
    ssu.step params (.access access) = some
      ((wordWrite (.access access)).elim ssu fun (offset, value) =>
        ssu.write32 params offset value) := by
  unfold step Ssu.access wordWrite
  cases access with
  | write offset data =>
      by_cases refused : (Access.write offset data).exceeds regBytes = true
      · simp only [refused, if_true, Option.elim]
      · by_cases isWord : data.length = 4 ∧ offset.toNat % 4 = 0
        · simp only [refused, isWord, if_true, if_false, Option.elim, and_self, Bool.false_eq_true]
        · simp only [refused, isWord, if_false, Option.elim, Bool.false_eq_true]
  | read offset len =>
      by_cases refused : (Access.read offset len).exceeds regBytes = true
      · simp only [refused, if_true, Option.elim]
      · simp only [refused, if_false, Option.elim, Bool.false_eq_true]
  | ignore offset len =>
      by_cases refused : (Access.ignore offset len).exceeds regBytes = true
      · simp only [refused, if_true, Option.elim]
      · simp only [refused, if_false, Option.elim, Bool.false_eq_true]

theorem inError_requestedStatus (value : BitVec 32) :
    requestedStatus value = sysStatusErrc ∨ requestedStatus value = sysStatusErrn ↔
      value &&& 2 ≠ 0 := by
  have field : value &&& 2 = (value &&& 3) &&& 2 := by
    rw [BitVec.and_assoc]
    rfl
  have small : (value &&& 3).toNat < 4 := by
    rw [BitVec.toNat_and]
    exact lt_of_le_of_lt Nat.and_le_right (by decide)
  rw [field]
  unfold requestedStatus
  generalize value &&& 3 = choice at small
  have choices : choice = 0 ∨ choice = 1 ∨ choice = 2 ∨ choice = 3 := by bv_omega
  rcases choices with rfl | rfl | rfl | rfl
  · decide
  · decide
  · decide
  · decide

/-- A write of the record clears the valid bit where the bit is written, and never sets it. -/
theorem writeStatus_valid (value : BitVec 32) :
    (ssu.writeStatus value).errStatus.getLsbD 30 =
      (ssu.errStatus.getLsbD 30 && !value.getLsbD 30) := by
  have clears : errStatusW1cMask.getLsbD 30 = true := by decide
  have keeps : errStatusRwWhenValidMask.getLsbD 30 = false := by decide
  unfold writeStatus
  rw [updateOutput_errStatus]
  dsimp only
  split
  · simp only [BitVec.getLsbD_or, BitVec.getLsbD_and, BitVec.getLsbD_not, clears, keeps]
    simp
  · simp only [BitVec.getLsbD_and, BitVec.getLsbD_not, clears]
    simp

theorem writeStatus_invalid (value : BitVec 32) :
    (ssu.writeStatus value).errStatus &&& errStatusV = 0 ↔
      ssu.errStatus &&& errStatusV = 0 ∨ value &&& errStatusV ≠ 0 := by
  have bit (word : BitVec 32) : word &&& errStatusV ≠ 0 ↔ word.getLsbD 30 = true :=
    and_bit_ne_zero_iff word (by decide)
  rw [← not_iff_not, not_or, not_ne_iff, ← ne_eq, ← ne_eq, bit, bit, writeStatus_valid,
    Bool.and_eq_true, Bool.not_eq_true', ← Bool.not_eq_true, ← bit value, not_ne_iff]

theorem writeStatus_sysStatus (value : BitVec 32) :
    (ssu.writeStatus value).sysStatus =
      if (ssu.writeStatus value).errStatus &&& errStatusV = 0 ∧
          (ssu.sysStatus = sysStatusErrc ∨ ssu.sysStatus = sysStatusErrn) then sysStatusSafe
      else ssu.sysStatus := by
  unfold writeStatus
  rw [updateOutput_sysStatus, updateOutput_errStatus]

theorem inError_writeStatus (value : BitVec 32) :
    (ssu.writeStatus value).InError ↔
      ssu.InError ∧ ¬(ssu.errStatus &&& errStatusV = 0 ∨ value &&& errStatusV ≠ 0) := by
  rw [← writeStatus_invalid, InError, writeStatus_sysStatus]
  by_cases invalid : (ssu.writeStatus value).errStatus &&& errStatusV = 0
  · by_cases error : ssu.InError
    · rw [if_pos ⟨invalid, error⟩]
      exact iff_of_false (by decide) fun held => held.2 invalid
    · rw [if_neg fun both => error both.2]
      exact iff_of_false error fun held => error held.1
  · rw [if_neg fun both => invalid both.1]
    exact ⟨fun error => ⟨error, invalid⟩, And.left⟩

theorem writeRegister_sysStatus (offset : Nat) (value : BitVec 32) :
    (ssu.writeRegister offset value).sysStatus =
      if offset = Offset.errStatus then (ssu.writeStatus value).sysStatus
      else if offset = Offset.sysCtrl then requestedStatus value else ssu.sysStatus := by
  unfold writeRegister
  by_cases isStatus : offset = Offset.errStatus
  · subst isStatus
    rfl
  · by_cases isCtrl : offset = Offset.sysCtrl
    · subst isCtrl
      exact updateOutput_sysStatus
    · rw [if_neg isStatus, if_neg isCtrl, if_neg isStatus, if_neg isCtrl]
      split_ifs
      · exact updateOutput_sysStatus
      · exact updateOutput_sysStatus
      · rfl
      · rfl

/-- What writes no word clears nothing. -/
theorem not_clears_of_silent {event : Event} (silent : wordWrite event = none) :
    ¬ssu.Clears params event := by
  rintro ⟨-, ⟨value, same, -⟩ | ⟨value, same, -⟩⟩
  · cases silent.symm.trans same
  · cases silent.symm.trans same

/-- A word write moves the system status into an error, or leaves it in one. -/
theorem inError_write32 {event : Event} {offset : Nat} {value : BitVec 32}
    (isWord : wordWrite event = some (offset, value)) :
    (ssu.write32 params offset value).InError ↔
      (ssu.Opened params ∧ ∃ value, wordWrite event = some (Offset.sysCtrl, value) ∧
          value &&& 2 ≠ 0) ∨ ssu.InError ∧ ¬ssu.Clears params event := by
  have word {register : Nat} {property : BitVec 32 → Prop} :
      (∃ value, wordWrite event = some (register, value) ∧ property value) ↔
        offset = register ∧ property value := by
    rw [isWord]
    constructor
    · rintro ⟨other, same, holds⟩
      obtain ⟨rfl, rfl⟩ := Prod.mk.inj (Option.some.inj same)
      exact ⟨rfl, holds⟩
    · rintro ⟨rfl, holds⟩
      exact ⟨value, rfl, holds⟩
  rw [Clears, word, word, word]
  by_cases isKey : offset = Offset.sysKey
  · have noCtrl : offset ≠ Offset.sysCtrl := by rw [isKey]; decide
    have noStatus : offset ≠ Offset.errStatus := by rw [isKey]; decide
    rw [write32, if_pos isKey, InError, (onlySequenceErrors_writeSysKey value).sysStatus, ← InError]
    simp only [noCtrl, noStatus, false_and, and_false, or_self, not_false_eq_true, and_true,
      false_or]
  · by_cases opened : ssu.Opened params
    · rw [write32_of_opened value isKey opened, InError, writeRegister_sysStatus]
      by_cases isStatus : offset = Offset.errStatus
      · have noCtrl : Offset.errStatus ≠ Offset.sysCtrl := by decide
        have written : ((ssu.taken params).writeStatus value).InError ↔
            ssu.InError ∧ ¬(ssu.errStatus &&& errStatusV = 0 ∨ value &&& errStatusV ≠ 0) :=
          inError_writeStatus value
        rw [if_pos isStatus, ← InError, written]
        simp only [noCtrl, isStatus, opened, false_and, and_false, false_or, true_and]
      · rw [if_neg isStatus]
        by_cases isCtrl : offset = Offset.sysCtrl
        · rw [if_pos isCtrl, inError_requestedStatus]
          by_cases asks : value &&& 2 = 0
          · simp only [isCtrl, opened, asks, ne_eq, not_true_eq_false, and_false, true_and, true_or,
              or_self]
          · simp only [isCtrl, opened, asks, ne_eq, not_false_eq_true, and_self, true_or]
        · have kept : (ssu.taken params).sysStatus = ssu.sysStatus := rfl
          rw [if_neg isCtrl, kept, ← InError]
          simp only [isCtrl, isStatus, false_and, and_false, or_self, not_false_eq_true, and_true,
            false_or]
    · rw [write32_of_not_opened value isKey opened, InError,
        refused_setSequenceError.errors.sysStatus, ← InError]
      simp only [opened, false_and, not_false_eq_true, and_true, false_or]

theorem inError_setFault (critical : Bool) :
    (ssu.setFault critical).InError ↔
      (ssu.errCtrl &&& errCtrlEd ≠ 0 ∧
        ssu.errImpdef &&& (if critical then impdefCrEn else impdefNcrEn) ≠ 0) ∨ ssu.InError := by
  by_cases disabled : ssu.errCtrl &&& errCtrlEd = 0
  · rw [setFault, if_pos disabled]
    exact (or_iff_right fun held => held.1 disabled).symm
  · have unmasked : ssu.setFault critical =
        if ssu.errImpdef &&& (if critical then impdefCrEn else impdefNcrEn) = 0 then ssu
        else ({ ssu with
          errStatus := ssu.errStatus ||| (errStatusV ||| errStatusIerrErrIn ||| errStatusSerrSw),
          sysStatus := if critical then sysStatusErrc else sysStatusErrn } : Ssu).updateOutput := by
      rw [setFault, if_neg disabled]
      cases critical with
      | true => simp
      | false => simp
    by_cases masked : ssu.errImpdef &&& (if critical then impdefCrEn else impdefNcrEn) = 0
    · rw [unmasked, if_pos masked]
      exact (or_iff_right fun held => held.2 masked).symm
    · rw [unmasked, if_neg masked, InError, updateOutput_sysStatus]
      refine iff_of_true ?_ (Or.inl ⟨disabled, masked⟩)
      cases critical with
      | true => exact Or.inl rfl
      | false => exact Or.inr rfl

/-- What a step does to the error state. -/
theorem inError_step {event : Event} {next : Ssu} (stepped : ssu.step params event = some next) :
    next.InError ↔ ssu.Raises params event ∨ ssu.InError ∧ ¬ssu.Clears params event := by
  cases event with
  | access access =>
      rw [step_access] at stepped
      obtain rfl := Option.some.inj stepped
      cases write : wordWrite (.access access) with
      | none =>
          have raisesNot : ¬ssu.Raises params (.access access) := by
            rintro ⟨-, value, same, -⟩
            cases write.symm.trans same
          rw [Option.elim, or_iff_right raisesNot, and_iff_left (not_clears_of_silent write)]
      | some word => exact inError_write32 write
  | criticalIn value =>
      obtain rfl := Option.some.inj stepped
      have clearsNot : ¬ssu.Clears params (.criticalIn value) := not_clears_of_silent rfl
      cases value with
      | true =>
          rw [if_pos rfl, inError_setFault, if_pos rfl, Raises, and_iff_left clearsNot]
          exact or_congr_left (and_iff_right rfl).symm
      | false =>
          rw [if_neg Bool.false_ne_true, Raises, and_iff_left clearsNot,
            or_iff_right fun held => Bool.false_ne_true held.1]
  | nonCriticalIn value =>
      obtain rfl := Option.some.inj stepped
      have clearsNot : ¬ssu.Clears params (.nonCriticalIn value) := not_clears_of_silent rfl
      cases value with
      | true =>
          rw [if_pos rfl, inError_setFault, if_neg Bool.false_ne_true, Raises,
            and_iff_left clearsNot]
          exact or_congr_left (and_iff_right rfl).symm
      | false =>
          rw [if_neg Bool.false_ne_true, Raises, and_iff_left clearsNot,
            or_iff_right fun held => Bool.false_ne_true held.1]

theorem exact_step {event : Event} {next : Ssu} (exact : Exact ssu)
    (stepped : ssu.step params event = some next) : Exact next := by
  cases event with
  | access access =>
      rw [step_access] at stepped
      obtain rfl := Option.some.inj stepped
      cases wordWrite (.access access) with
      | none => assumption
      | some word => exact exact_write32 exact word.1 word.2
  | criticalIn value =>
      obtain rfl := Option.some.inj stepped
      split
      · exact exact_setFault exact true
      · exact exact
  | nonCriticalIn value =>
      obtain rfl := Option.some.inj stepped
      split
      · exact exact_setFault exact false
      · exact exact

/-! ### Runs -/

/-- The line is high after a run exactly when some event has raised it, and no later one has
cleared it: no fault is lost, and nothing but a write that the key lets through takes it back. -/
theorem line_latches (params : Params) (events : List Event) :
    ∃ final, run (step params) resetRegisters events = some final ∧
      (final.line = true ↔
        ∃ front event back before after, events = front ++ event :: back ∧
          run (step params) resetRegisters front = some before ∧ before.Raises params event ∧
          before.step params event = some after ∧
          Along (step params) (fun ssu event => ¬ssu.Clears params event) after back) := by
  have total : (run (step params) resetRegisters events).isSome :=
    run_isSome_iff.mpr fun front event back middle _ _ => by cases event <;> rfl
  obtain ⟨final, reached⟩ := Option.isSome_iff_exists.mp total
  have started : Exact resetRegisters := ⟨rfl, rfl⟩
  have latched := @latch_iff_since _ _ (step params) (Raises params) (Clears params) Exact
    (fun ssu => ssu.line = true)
    (fun ssu event next exact stepped => exact_step exact stepped)
    (fun ssu event next exact stepped => by
      rw [(exact_step exact stepped).line_iff, exact.line_iff]
      exact inError_step stepped)
    resetRegisters final events started reached
  have low : ¬resetRegisters.line = true := Bool.false_ne_true
  refine ⟨final, reached, ?_⟩
  rw [latched, since_iff_split]
  exact or_iff_left fun held => low held.1

end Ssu

end QboxPlatform.Zena
