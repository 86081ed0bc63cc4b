import QboxPlatform.Foundation.OneShot
import QboxPlatform.Zena.Lines
import QboxPlatform.Zena.Ssu

/-!
# The key register

A write of the key value lets the next write of the bank through.  Every word write takes part,
also one to a register that does not exist; reads and writes of other lengths do not.
-/

namespace QboxPlatform.Zena

open Foundation

/-- What a word write means to the key. -/
def wordUse (isKey : Bool) (value : BitVec 32) : TokenUse :=
  if isKey then if value = sysKeyValue then .grant else .revoke else .spend

namespace Fmu

/-- What an access means to the key of a bank. -/
def keyUse (params : Params) (bank : Nat) : Access → TokenUse
  | .write offset data =>
      if (Access.write offset data).exceeds (params.bankCount * bankBytes) then .other
      else if data.length = 4 ∧ offset.toNat % 4 = 0 then
        match params.decode offset with
        | some (target, reg) =>
            if target = bank then wordUse (reg == sysKey) (ofBytes 32 data) else .other
        | none => .other
      else .other
  | _ => .other

def sequenceError : BitVec 32 := statusV ||| statusIerrIncSeq ||| statusSerrSw

/-- Between two states nothing has happened to the registers but sequence errors. -/
structure OnlySequenceErrors (params : Params) (before after : Fmu) : Prop where
  ctlr : ∀ bank, (after.banks bank).ctlr = (before.banks bank).ctlr
  impdef : ∀ bank, (after.banks bank).impdef = (before.banks bank).impdef
  status : ∀ bank index, (after.banks bank).status index = (before.banks bank).status index ∨
    (index = params.sequenceRecord ∧
      (after.banks bank).status index = (before.banks bank).status index ||| sequenceError)

/-- A write of a bank has been answered by a sequence error and by nothing else. -/
structure Refused (params : Params) (bank : Nat) (before after : Fmu) : Prop where
  others : ∀ other, other ≠ bank → after.banks other = before.banks other
  ctlr : (after.banks bank).ctlr = (before.banks bank).ctlr
  impdef : (after.banks bank).impdef = (before.banks bank).impdef
  unlocked : (after.banks bank).unlocked = (before.banks bank).unlocked
  status : ∀ index, index ≠ params.sequenceRecord →
    (after.banks bank).status index = (before.banks bank).status index
  recorded : (after.banks bank).status params.sequenceRecord =
    (before.banks bank).status params.sequenceRecord ||| sequenceError
  lines : Driven before → Settled params after

variable {params : Params} {fmu : Fmu}

theorem Refused.onlySequenceErrors {bank : Nat} {after : Fmu}
    (refused : Refused params bank fmu after) : OnlySequenceErrors params fmu after := by
  refine ⟨fun other => ?_, fun other => ?_, fun other index => ?_⟩
  · by_cases isBank : other = bank
    · rw [isBank, refused.ctlr]
    · rw [refused.others other isBank]
  · by_cases isBank : other = bank
    · rw [isBank, refused.impdef]
    · rw [refused.others other isBank]
  · by_cases isBank : other = bank
    · subst isBank
      by_cases isRecord : index = params.sequenceRecord
      · subst isRecord
        exact Or.inr ⟨rfl, refused.recorded⟩
      · exact Or.inl (refused.status index isRecord)
    · exact Or.inl (by rw [refused.others other isBank])

@[simp]
theorem updateIrqs_banks : (fmu.updateIrqs params).banks = fmu.banks := by
  unfold updateIrqs
  dsimp only
  split <;> rfl

theorem setBank_banks (bank : Nat) (content : Bank) (other : Nat) :
    (fmu.setBank bank content).banks other = if other = bank then content else fmu.banks other := by
  simp [setBank, Function.update_apply]

theorem setSequenceError_banks (bank other : Nat) :
    (fmu.setSequenceError params bank).banks other =
      if other = bank then (fmu.banks bank).setStatus params.sequenceRecord
        ((fmu.banks bank).status params.sequenceRecord ||| sequenceError)
      else fmu.banks other := by
  rw [setSequenceError, updateIrqs_banks, setBank_banks]
  rfl

theorem refused_setSequenceError (bank : Nat) :
    Refused params bank fmu (fmu.setSequenceError params bank) := by
  have here := @setSequenceError_banks params fmu bank bank
  rw [if_pos rfl] at here
  refine ⟨fun other isOther => ?_, ?_, ?_, ?_, fun index isOther => ?_, ?_, fun driven => ?_⟩
  · rw [setSequenceError_banks, if_neg isOther]
  · rw [here]
    rfl
  · rw [here]
    rfl
  · rw [here]
    rfl
  · rw [here]
    simp [Bank.setStatus, isOther]
  · rw [here]
    simp [Bank.setStatus]
  · exact updateIrqs_settled (driven_setBank _ _ driven)

theorem OnlySequenceErrors.refl (fmu : Fmu) : OnlySequenceErrors params fmu fmu :=
  ⟨fun _ => rfl, fun _ => rfl, fun _ _ => Or.inl rfl⟩

theorem onlySequenceErrors_writeSysKey (bank : Nat) (value : BitVec 32) :
    OnlySequenceErrors params fmu (fmu.writeSysKey params bank value) := by
  have unlocked : OnlySequenceErrors params fmu
      (fmu.setBank bank { fmu.banks bank with unlocked := value == sysKeyValue }) := by
    refine ⟨fun other => ?_, fun other => ?_, fun other index => Or.inl ?_⟩
    all_goals
      rw [setBank_banks]
      split <;> simp_all
  have refused := @refused_setSequenceError params
    (fmu.setBank bank { fmu.banks bank with unlocked := value == sysKeyValue }) bank
  unfold writeSysKey
  dsimp only
  split
  · exact unlocked
  · have errors := refused.onlySequenceErrors
    refine ⟨fun other => ?_, fun other => ?_, fun other index => ?_⟩
    · rw [errors.ctlr, unlocked.ctlr]
    · rw [errors.impdef, unlocked.impdef]
    · have same : ((fmu.setBank bank { fmu.banks bank with
          unlocked := value == sysKeyValue }).banks other).status index =
            (fmu.banks other).status index := by
        rw [setBank_banks]
        split <;> simp_all
      rw [← same]
      exact errors.status other index

theorem writeRecord_unlocked (bank index field : Nat) (value : BitVec 32) (other : Nat) :
    ((fmu.writeRecord params bank index field value).banks other).unlocked =
      (fmu.banks other).unlocked := by
  unfold writeRecord
  split_ifs
  · simp only [writeCtlr, updateIrqs_banks, setBank_banks]
    split <;> simp_all
  · simp only [clearRecordStatus, updateIrqs_banks, setBank_banks]
    split <;> simp_all [Bank.setStatus]
  · rfl

theorem writeImpdef_unlocked (bank index : Nat) (value : BitVec 32) (other : Nat) :
    ((fmu.writeImpdef params bank index value).banks other).unlocked =
      (fmu.banks other).unlocked := by
  unfold writeImpdef
  dsimp only
  split_ifs
  all_goals
    simp only [setSoftwareError, updateIrqs_banks, setBank_banks]
    split <;> simp_all [Bank.setStatus]

/-- A key write sets the flag of its bank or takes it back. -/
theorem writeSysKey_unlocked (bank : Nat) (value : BitVec 32) (other : Nat) :
    ((fmu.writeSysKey params bank value).banks other).unlocked =
      if other = bank then value == sysKeyValue else (fmu.banks other).unlocked := by
  have written : ((fmu.setBank bank { fmu.banks bank with
      unlocked := value == sysKeyValue }).banks other).unlocked =
        if other = bank then value == sysKeyValue else (fmu.banks other).unlocked := by
    rw [setBank_banks]
    split <;> rfl
  have refused := @refused_setSequenceError params
    (fmu.setBank bank { fmu.banks bank with unlocked := value == sysKeyValue }) bank
  unfold writeSysKey
  dsimp only
  split
  · exact written
  · rw [← written]
    by_cases isBank : other = bank
    · rw [isBank, refused.unlocked]
    · rw [refused.others other isBank]

/-- A write that finds the bank locked is a sequence error. -/
theorem write32_of_locked {offset : BitVec 64} {bank reg : Nat} (value : BitVec 32)
    (enforced : params.enforceSysKey = true)
    (decoded : params.decode offset = some (bank, reg)) (isNoKey : reg ≠ sysKey)
    (isLocked : (fmu.banks bank).unlocked = false) :
    fmu.write32 params offset value = fmu.setSequenceError params bank := by
  simp [write32, decoded, isNoKey, requireUnlock, enforced, isLocked]

/-- A write that finds the bank unlocked locks it. -/
theorem write32_of_unlocked {offset : BitVec 64} {bank reg : Nat} (value : BitVec 32) (other : Nat)
    (enforced : params.enforceSysKey = true)
    (decoded : params.decode offset = some (bank, reg)) (isNoKey : reg ≠ sysKey)
    (isUnlocked : (fmu.banks bank).unlocked = true) :
    ((fmu.write32 params offset value).banks other).unlocked =
      if other = bank then false else (fmu.banks other).unlocked := by
  have taken : ((fmu.setBank bank { fmu.banks bank with unlocked := false }).banks other).unlocked =
      if other = bank then false else (fmu.banks other).unlocked := by
    rw [setBank_banks]
    split <;> rfl
  rw [← taken]
  simp only [write32, decoded, isNoKey, requireUnlock, enforced, isUnlocked, if_false, if_true,
    Bool.not_true, Bool.false_eq_true]
  split
  · exact writeRecord_unlocked _ _ _ _ _
  · split
    · exact writeImpdef_unlocked _ _ _ _
    · rfl

/-- The flags follow the writes. -/
theorem unlocked_write32 {offset : BitVec 64} {bank reg : Nat} (value : BitVec 32) (other : Nat)
    (enforced : params.enforceSysKey = true)
    (decoded : params.decode offset = some (bank, reg)) :
    ((fmu.write32 params offset value).banks other).unlocked =
      (if bank = other then wordUse (reg == sysKey) value else .other).after
        (fmu.banks other).unlocked := by
  by_cases isKey : reg = sysKey
  · have written : fmu.write32 params offset value = fmu.writeSysKey params bank value := by
      simp [write32, decoded, isKey]
    rw [written, writeSysKey_unlocked]
    by_cases isBank : other = bank
    · by_cases isValue : value = sysKeyValue
      · simp [isBank, isKey, wordUse, isValue, TokenUse.after]
      · simp [isBank, isKey, wordUse, isValue, TokenUse.after]
    · simp [isBank, Ne.symm isBank, TokenUse.after]
  · cases unlocked : (fmu.banks bank).unlocked with
    | true =>
        rw [write32_of_unlocked value other enforced decoded isKey unlocked]
        by_cases isBank : other = bank
        · simp [isBank, isKey, wordUse, TokenUse.after]
        · simp [isBank, Ne.symm isBank, TokenUse.after]
    | false =>
        have refused := @refused_setSequenceError params fmu bank
        rw [write32_of_locked value enforced decoded isKey unlocked]
        by_cases isBank : other = bank
        · rw [isBank, refused.unlocked]
          simp [isKey, wordUse, TokenUse.after, unlocked]
        · rw [refused.others other isBank]
          simp [Ne.symm isBank, TokenUse.after]

/-- An access is nothing to the key, or a word write to a bank. -/
theorem step_keyUse {event : Access} {next : Fmu} (stepped : fmu.step params event = some next) :
    (next = fmu ∧ ∀ bank, keyUse params bank event = .other) ∨
    ∃ offset value bank reg, params.decode offset = some (bank, reg) ∧
      next = fmu.write32 params offset value ∧
      ∀ other, keyUse params other event =
        if bank = other then wordUse (reg == sysKey) value else .other := by
  cases stepped
  cases event with
  | read offset len =>
      left
      refine ⟨?_, fun _ => rfl⟩
      unfold Fmu.access
      split <;> rfl
  | ignore offset len =>
      left
      refine ⟨?_, fun _ => rfl⟩
      unfold Fmu.access
      split <;> rfl
  | write offset data =>
      by_cases isRejected : (Access.write offset data).exceeds (params.bankCount * bankBytes) = true
      · left
        simp [Fmu.access, keyUse, isRejected]
      · by_cases isWord : data.length = 4 ∧ offset.toNat % 4 = 0
        · cases decoded : params.decode offset with
          | none =>
              left
              simp [Fmu.access, keyUse, write32, isRejected, isWord, decoded]
          | some place =>
              obtain ⟨bank, reg⟩ := place
              right
              refine ⟨offset, ofBytes 32 data, bank, reg, decoded, ?_, fun other => ?_⟩
              · simp [Fmu.access, isRejected, isWord]
              · simp [keyUse, isRejected, isWord, decoded]
        · left
          simp [Fmu.access, keyUse, isRejected, isWord]

/-- Every change of the registers spends the key of its bank, and a write without the key is
refused. -/
theorem oneShot (enforced : params.enforceSysKey = true) (events : List Access) :
    OneShot (step params) (keyUse params)
      (fun before _ after => ¬ OnlySequenceErrors params before after) (Refused params)
      (resetRegisters params) events := by
  apply @oneShot_of_follows _ _ _ _ _ (fun unit bank => (unit.banks bank).unlocked)
  · intro state event next stepped bank
    rcases step_keyUse stepped with
      ⟨rfl, isOther⟩ | ⟨offset, value, target, reg, decoded, rfl, use⟩
    · rw [isOther bank]
      rfl
    · rw [use bank]
      exact unlocked_write32 value bank enforced decoded
  · intro event first second firstGrant secondGrant
    rcases @step_keyUse params (resetRegisters params) event _ rfl with
      ⟨-, isOther⟩ | ⟨offset, value, target, reg, -, -, use⟩
    · simp [isOther first] at firstGrant
    · have owner {bank : Nat} (grants : keyUse params bank event = .grant) : target = bank := by
        by_contra isOther
        simp [use bank, isOther] at grants
      rw [← owner firstGrant, ← owner secondGrant]
  · intro state event next stepped changes
    rcases step_keyUse stepped with
      ⟨rfl, -⟩ | ⟨offset, value, target, reg, decoded, rfl, use⟩
    · exact absurd (OnlySequenceErrors.refl _) changes
    · have isNoKey : reg ≠ sysKey := by
        intro isKey
        have written : state.write32 params offset value =
            state.writeSysKey params target value := by
          simp [write32, decoded, isKey]
        rw [written] at changes
        exact changes (onlySequenceErrors_writeSysKey target value)
      have isUnlocked : (state.banks target).unlocked = true := by
        by_contra isLocked
        rw [write32_of_locked value enforced decoded isNoKey (by simpa using isLocked)] at changes
        exact changes (refused_setSequenceError target).onlySequenceErrors
      exact ⟨target, by simp [use target, wordUse, isNoKey], isUnlocked⟩
  · intro state event next bank stepped spends isLocked
    rcases step_keyUse stepped with
      ⟨rfl, isOther⟩ | ⟨offset, value, target, reg, decoded, rfl, use⟩
    · simp [isOther bank] at spends
    · have isBank : target = bank := by
        by_contra isOther
        simp [use bank, isOther] at spends
      subst isBank
      have isNoKey : reg ≠ sysKey := by
        intro isKey
        simp only [use target, isKey, wordUse, beq_self_eq_true, if_true] at spends
        split at spends <;> cases spends
      rw [write32_of_locked value enforced decoded isNoKey isLocked]
      exact refused_setSequenceError target
  · intro bank
    rfl

end Fmu

namespace Ssu

/-- What an event means to the key of the unit. -/
def keyUse (_ : Unit) : Event → TokenUse
  | .access (.write offset data) =>
      if (Access.write offset data).exceeds regBytes then .other
      else if data.length = 4 ∧ offset.toNat % 4 = 0 then
        wordUse (offset.toNat % 2 ^ 32 == Offset.sysKey) (ofBytes 32 data)
      else .other
  | _ => .other

def sequenceError : BitVec 32 := errStatusV ||| errStatusIerrIncSeq ||| errStatusSerrSw

/-- Between two states nothing has happened to the registers but sequence errors. -/
structure OnlySequenceErrors (before after : Ssu) : Prop where
  errCtrl : after.errCtrl = before.errCtrl
  errImpdef : after.errImpdef = before.errImpdef
  sysStatus : after.sysStatus = before.sysStatus
  statusDetail : after.statusDetail = before.statusDetail
  errStatus : after.errStatus = before.errStatus ∨
    after.errStatus = before.errStatus ||| sequenceError

/-- A write has been answered by a sequence error, where the unit records it, and by nothing
else. -/
structure Refused (_ : Unit) (before after : Ssu) : Prop where
  errors : OnlySequenceErrors before after
  recorded : after.errStatus = if before.errImpdef &&& impdefIncSeq ≠ 0 then
    before.errStatus ||| sequenceError else before.errStatus
  unlocked : after.unlocked = before.unlocked
  output : before.updateOutput = before →
    after.safetyStatus = before.safetyStatus ∧ after.line = before.line

/-- The access changes more than a sequence error does. -/
def Changes (before : Ssu) : Event → Ssu → Prop
  | .access _, after => ¬ OnlySequenceErrors before after
  | _, _ => False

variable {params : Params} {ssu : Ssu}

theorem OnlySequenceErrors.refl (ssu : Ssu) : OnlySequenceErrors ssu ssu :=
  ⟨rfl, rfl, rfl, rfl, Or.inl rfl⟩

@[simp]
theorem updateOutput_errCtrl : ssu.updateOutput.errCtrl = ssu.errCtrl := by
  unfold updateOutput
  dsimp only
  split <;> rfl

@[simp]
theorem updateOutput_errStatus : ssu.updateOutput.errStatus = ssu.errStatus := by
  unfold updateOutput
  dsimp only
  split <;> rfl

@[simp]
theorem updateOutput_errImpdef : ssu.updateOutput.errImpdef = ssu.errImpdef := by
  unfold updateOutput
  dsimp only
  split <;> rfl

@[simp]
theorem updateOutput_sysStatus : ssu.updateOutput.sysStatus = ssu.sysStatus := by
  unfold updateOutput
  dsimp only
  split <;> rfl

@[simp]
theorem updateOutput_statusDetail : ssu.updateOutput.statusDetail = ssu.statusDetail := by
  unfold updateOutput
  dsimp only
  split <;> rfl

@[simp]
theorem updateOutput_unlocked : ssu.updateOutput.unlocked = ssu.unlocked := by
  unfold updateOutput
  dsimp only
  split <;> rfl

/-- An output that says what the system status says stays. -/
theorem updateOutput_eq_self_iff :
    ssu.updateOutput = ssu ↔
      (ssu.sysStatus == sysStatusErrc || ssu.sysStatus == sysStatusErrn) = ssu.safetyStatus := by
  constructor
  · intro same
    have output := congrArg Ssu.safetyStatus same
    unfold updateOutput at output
    dsimp only at output
    split at output
    · assumption
    · exact output
  · intro same
    simp [updateOutput, same]

theorem refused_setSequenceError : Refused () ssu ssu.setSequenceError := by
  unfold setSequenceError
  dsimp only
  split
  · next records =>
      refine ⟨⟨?_, ?_, ?_, ?_, ?_⟩, ?_, ?_, fun settled => ?_⟩
      · simp
      · simp
      · simp
      · simp
      · simp [sequenceError]
      · rw [if_pos records, updateOutput_errStatus]
        rfl
      · simp
      · have output := updateOutput_eq_self_iff.mp settled
        simp [updateOutput, output]
  · next silent =>
      refine ⟨⟨?_, ?_, ?_, ?_, ?_⟩, ?_, ?_, fun settled => ?_⟩
      · simp
      · simp
      · simp
      · simp
      · simp
      · rw [if_neg silent, updateOutput_errStatus]
      · simp
      · rw [settled]
        exact ⟨rfl, rfl⟩

theorem onlySequenceErrors_writeSysKey (value : BitVec 32) :
    OnlySequenceErrors ssu (ssu.writeSysKey value) := by
  have errors := (@refused_setSequenceError { ssu with unlocked := value == sysKeyValue }).errors
  unfold writeSysKey
  dsimp only
  split
  · exact ⟨rfl, rfl, rfl, rfl, Or.inl rfl⟩
  · exact ⟨errors.errCtrl, errors.errImpdef, errors.sysStatus, errors.statusDetail,
      errors.errStatus⟩

theorem writeSysKey_unlocked (value : BitVec 32) :
    (ssu.writeSysKey value).unlocked = (value == sysKeyValue) := by
  unfold writeSysKey
  dsimp only
  split
  · rfl
  · exact refused_setSequenceError.unlocked

theorem writeRegister_unlocked (offset : Nat) (value : BitVec 32) :
    (ssu.writeRegister offset value).unlocked = ssu.unlocked := by
  unfold writeRegister
  split_ifs
  · simp
  · simp [writeStatus]
  · simp
  · simp [writeSysCtrl]
  · rfl
  · rfl

theorem setFault_unlocked (critical : Bool) : (ssu.setFault critical).unlocked = ssu.unlocked := by
  unfold setFault
  split_ifs <;> simp

theorem write32_of_locked {offset : Nat} (value : BitVec 32)
    (enforced : params.enforceSysKey = true) (isNoKey : offset ≠ Offset.sysKey)
    (isLocked : ssu.unlocked = false) :
    ssu.write32 params offset value = ssu.setSequenceError := by
  simp [write32, isNoKey, requireUnlock, enforced, isLocked]

/-- The flag follows the writes. -/
theorem unlocked_write32 (offset : Nat) (value : BitVec 32)
    (enforced : params.enforceSysKey = true) :
    (ssu.write32 params offset value).unlocked =
      (wordUse (offset == Offset.sysKey) value).after ssu.unlocked := by
  by_cases isKey : offset = Offset.sysKey
  · have written : ssu.write32 params offset value = ssu.writeSysKey value := by
      simp [write32, isKey]
    rw [written, writeSysKey_unlocked]
    by_cases isValue : value = sysKeyValue <;> simp [isKey, wordUse, isValue, TokenUse.after]
  · cases unlocked : ssu.unlocked with
    | true =>
        simp [write32, isKey, requireUnlock, enforced, unlocked, writeRegister_unlocked, wordUse,
          TokenUse.after]
    | false =>
        rw [write32_of_locked value enforced isKey unlocked, refused_setSequenceError.unlocked]
        simp [isKey, wordUse, TokenUse.after, unlocked]

/-- An event is nothing to the key, or a word write. -/
theorem step_keyUse {event : Event} {next : Ssu} (stepped : ssu.step params event = some next) :
    (keyUse () event = .other ∧ ¬ Changes ssu event next ∧ next.unlocked = ssu.unlocked) ∨
    ∃ offset data, event = .access (.write offset data) ∧
      keyUse () event = wordUse (offset.toNat % 2 ^ 32 == Offset.sysKey) (ofBytes 32 data) ∧
      next = ssu.write32 params (offset.toNat % 2 ^ 32) (ofBytes 32 data) := by
  have still {access : Access} : ¬ Changes ssu (.access access) ssu :=
    not_not_intro (OnlySequenceErrors.refl ssu)
  cases event with
  | criticalIn value =>
      cases stepped
      refine Or.inl ⟨rfl, not_false, ?_⟩
      split
      · exact setFault_unlocked true
      · rfl
  | nonCriticalIn value =>
      cases stepped
      refine Or.inl ⟨rfl, not_false, ?_⟩
      split
      · exact setFault_unlocked false
      · rfl
  | access access =>
      cases stepped
      cases access with
      | read offset len =>
          have unmoved : (ssu.access params (.read offset len)).2 = ssu := by
            unfold Ssu.access
            split <;> rfl
          rw [unmoved]
          exact Or.inl ⟨rfl, still, rfl⟩
      | ignore offset len =>
          have unmoved : (ssu.access params (.ignore offset len)).2 = ssu := by
            unfold Ssu.access
            split <;> rfl
          rw [unmoved]
          exact Or.inl ⟨rfl, still, rfl⟩
      | write offset data =>
          by_cases isRejected : (Access.write offset data).exceeds regBytes = true
          · left
            have unmoved : (ssu.access params (.write offset data)).2 = ssu := by
              simp [Ssu.access, isRejected]
            rw [unmoved]
            exact ⟨by simp [keyUse, isRejected], still, rfl⟩
          · by_cases isWord : data.length = 4 ∧ offset.toNat % 4 = 0
            · right
              refine ⟨offset, data, rfl, ?_, ?_⟩
              · simp [keyUse, isRejected, isWord]
              · simp [Ssu.access, isRejected, isWord]
            · left
              have unmoved : (ssu.access params (.write offset data)).2 = ssu := by
                simp [Ssu.access, isRejected, isWord]
              rw [unmoved]
              exact ⟨by simp [keyUse, isRejected, isWord], still, rfl⟩

/-- Every change of the registers spends the key, and a write without the key is refused. -/
theorem oneShot (enforced : params.enforceSysKey = true) (events : List Event) :
    OneShot (step params) keyUse Changes Refused resetRegisters events := by
  apply @oneShot_of_follows _ _ _ _ _ (fun unit _ => unit.unlocked)
  · intro state event next stepped index
    rcases step_keyUse stepped with ⟨isOther, -, same⟩ | ⟨offset, data, rfl, use, rfl⟩
    · rw [isOther, same]
      rfl
    · rw [use]
      exact unlocked_write32 _ _ enforced
  · intro event first second _ _
    rfl
  · intro state event next stepped changes
    rcases step_keyUse stepped with ⟨-, still, -⟩ | ⟨offset, data, rfl, use, rfl⟩
    · exact absurd changes still
    · have isNoKey : offset.toNat % 2 ^ 32 ≠ Offset.sysKey := by
        intro isKey
        have written : state.write32 params (offset.toNat % 2 ^ 32) (ofBytes 32 data) =
            state.writeSysKey (ofBytes 32 data) := by
          rw [write32, if_pos isKey]
        rw [written] at changes
        exact changes (onlySequenceErrors_writeSysKey (ofBytes 32 data))
      have isUnlocked : state.unlocked = true := by
        by_contra isLocked
        rw [write32_of_locked _ enforced isNoKey (by simpa using isLocked)] at changes
        exact changes refused_setSequenceError.errors
      refine ⟨(), ?_, isUnlocked⟩
      rw [use, wordUse, if_neg (by simpa using isNoKey)]
  · intro state event next index stepped spends isLocked
    rcases step_keyUse stepped with ⟨isOther, -, -⟩ | ⟨offset, data, rfl, use, rfl⟩
    · rw [isOther] at spends
      cases spends
    · have isNoKey : offset.toNat % 2 ^ 32 ≠ Offset.sysKey := by
        intro isKey
        simp only [use, isKey, wordUse, beq_self_eq_true, if_true] at spends
        split at spends <;> cases spends
      rw [write32_of_locked _ enforced isNoKey isLocked]
      exact refused_setSequenceError
  · intro index
    rfl

end Ssu

/-- The key is a one-shot token in both units. -/
theorem sysKey_oneShot (fmuParams : Fmu.Params) (ssuParams : Ssu.Params)
    (fmuEnforced : fmuParams.enforceSysKey = true) (ssuEnforced : ssuParams.enforceSysKey = true)
    (accesses : List Access) (events : List Ssu.Event) :
    OneShot (Fmu.step fmuParams) (Fmu.keyUse fmuParams)
        (fun before _ after => ¬ Fmu.OnlySequenceErrors fmuParams before after)
        (Fmu.Refused fmuParams) (Fmu.resetRegisters fmuParams) accesses ∧
      OneShot (Ssu.step ssuParams) Ssu.keyUse Ssu.Changes Ssu.Refused Ssu.resetRegisters events :=
  ⟨Fmu.oneShot fmuEnforced accesses, Ssu.oneShot ssuEnforced events⟩

/-- Both units with a key that is used, wasted and wrong. -/
theorem sysKey_oneShot_smallTraffic :
    OneShot (Fmu.step {}) (Fmu.keyUse {})
        (fun before _ after => ¬ Fmu.OnlySequenceErrors {} before after) (Fmu.Refused {})
        (Fmu.resetRegisters {})
        [.write 0x18bfc#64 (toBytes 4 sysKeyValue), .write 0x10008#64 (toBytes 4 0#32),
          .write 0x10048#64 (toBytes 4 0#32)] ∧
      OneShot (Ssu.step {}) Ssu.keyUse Ssu.Changes Ssu.Refused Ssu.resetRegisters
        [.access (.write 0x804#64 (toBytes 4 sysKeyValue)),
          .access (.write 0x804#64 (toBytes 4 0#32)), .access (.write 0x810#64 (toBytes 4 3#32))] :=
  sysKey_oneShot {} {} rfl rfl _ _

end QboxPlatform.Zena
