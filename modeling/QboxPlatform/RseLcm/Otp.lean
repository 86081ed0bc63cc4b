import QboxPlatform.RseLcm.Registers

/-!
# The one-time programmable memory

Programming sets bits and the lock ends it.  An access that lies across an edge of the memory is
stored like any other, so the memory is one-time exactly in the runs whose straddling writes put
there nothing but what programming could.
-/

namespace QboxPlatform.RseLcm

open Foundation

def Params.InOtp (params : Params) (index : Nat) : Prop :=
  otpWindow ≤ index ∧ index < params.otpLimit

/-- No programmed bit is cleared from one state to a later one, and a locked memory stays. -/
structure OneTime (params : Params) (earlier later : Lcm) : Prop where
  programmed : ∀ index, params.InOtp index → SubBits (earlier.regs index) (later.regs index)
  locked : earlier.otpLocked = true → later.otpLocked = true
  frozen : earlier.otpLocked = true → ∀ index, params.InOtp index →
    later.regs index = earlier.regs index

namespace OneTime

variable {params : Params}

theorem refl (lcm : Lcm) : OneTime params lcm lcm where
  programmed index _ := SubBits.refl (lcm.regs index)
  locked isLocked := isLocked
  frozen _ _ _ := rfl

theorem trans {first second third : Lcm} (lower : OneTime params first second)
    (upper : OneTime params second third) : OneTime params first third where
  programmed index inside := (lower.programmed index inside).trans (upper.programmed index inside)
  locked isLocked := upper.locked (lower.locked isLocked)
  frozen isLocked index inside := by
    rw [upper.frozen (lower.locked isLocked) index inside, lower.frozen isLocked index inside]

end OneTime

namespace Lcm

variable {params : Params} {lcm : Lcm}

/-- A write across an edge of the memory keeps the bits that are set there, and all bits once
the memory is locked. -/
def KeepsOtp (params : Params) (lcm : Lcm) : Access → Prop
  | .write offset data =>
      rejected (.write offset data) = false → isOtpAccess params offset data.length = false →
        ∀ position, (inside : position < data.length) →
          params.InOtp (offset.toNat + position) →
          if lcm.otpLocked then data[position] = lcm.regs (offset.toNat + position)
          else SubBits (lcm.regs (offset.toNat + position)) data[position]
  | _ => True

theorem store32_regs_outside (offset : Nat) (value : BitVec 32) {index : Nat}
    (outside : index < offset ∨ offset + 4 ≤ index) :
    (lcm.store32 offset value).regs index = lcm.regs index :=
  lcm.regs.store32_outside offset value outside

/-- The life cycle moves by one step, or by both steps at once. -/
theorem updateLcsFromOtpWrite_cases (params : Params) (lcm : Lcm) (offset len : Nat) :
    lcm.updateLcsFromOtpWrite params offset len = lcm ∨
    (rangeIncludes offset len otpCmConfig2 = true ∧ lcm.load32 lcsValue = lcsCm ∧
      lcm.updateLcsFromOtpWrite params offset len = lcm.store32 lcsValue lcsDm) ∨
    (rangeIncludes offset len otpDmConfig = true ∧
      (lcm.load32 lcsValue = lcsDm ∨
        rangeIncludes offset len otpCmConfig2 = true ∧ lcm.load32 lcsValue = lcsCm) ∧
      lcm.updateLcsFromOtpWrite params offset len =
        { lcm.store32 lcsValue lcsSe with
          otpLocked := lcm.otpLocked || params.otpLockAfterProvision }) := by
  have stored (first second : BitVec 32) :
      (lcm.regs.store32 lcsValue first).store32 lcsValue second =
        lcm.regs.store32 lcsValue second := by
    funext index
    simp only [Image.store32_apply]
    split <;> rfl
  have isDm : (lcm.store32 lcsValue lcsDm).load32 lcsValue = lcsDm :=
    Image.load32_store32 lcm.regs lcsValue lcsDm
  by_cases provisioned :
      rangeIncludes offset len otpCmConfig2 = true ∧ lcm.load32 lcsValue = lcsCm
  · have checked :
        (rangeIncludes offset len otpCmConfig2 && lcm.load32 lcsValue == lcsCm) = true := by
      simp [provisioned]
    simp only [updateLcsFromOtpWrite, if_pos checked, isDm]
    cases coversDm : rangeIncludes offset len otpDmConfig with
    | true =>
        right; right
        refine ⟨rfl, Or.inr provisioned, ?_⟩
        cases locks : params.otpLockAfterProvision <;> simp [store32, stored]
    | false =>
        right; left
        simp [provisioned]
  · have checked :
        ¬ (rangeIncludes offset len otpCmConfig2 && lcm.load32 lcsValue == lcsCm) = true := by
      simpa using provisioned
    simp only [updateLcsFromOtpWrite, if_neg checked]
    by_cases secures : rangeIncludes offset len otpDmConfig = true ∧ lcm.load32 lcsValue = lcsDm
    · right; right
      refine ⟨secures.1, Or.inl secures.2, ?_⟩
      cases locks : params.otpLockAfterProvision <;> simp [secures, store32]
    · left
      simp [secures]

theorem updateLcsFromOtpWrite_regs (offset len : Nat) {index : Nat} (above : 4 ≤ index) :
    (lcm.updateLcsFromOtpWrite params offset len).regs index = lcm.regs index := by
  have outside : index < lcsValue ∨ lcsValue + 4 ≤ index := Or.inr above
  rcases lcm.updateLcsFromOtpWrite_cases params offset len with
    same | ⟨-, -, same⟩ | ⟨-, -, same⟩
  all_goals rw [same]
  all_goals exact store32_regs_outside lcsValue _ outside

@[simp]
theorem flushOtpImage_regs : (lcm.flushOtpImage params).regs = lcm.regs := by
  unfold flushOtpImage
  split <;> rfl

theorem program_regs (offset : Nat) (data : List Byte) {index : Nat} (above : 4 ≤ index) :
    (lcm.program params offset data).regs index = orBytes lcm.regs offset data index := by
  simp [program, updateLcsFromOtpWrite_regs _ _ above]

theorem subBits_orBytes (regs : Image) (offset : Nat) (data : List Byte) (index : Nat) :
    SubBits (regs index) (orBytes regs offset data index) := by
  unfold orBytes
  split
  · exact subBits_or_left _ _
  · exact SubBits.refl _

/-- Above the registers a word write is a plain store. -/
theorem write32_regs (offset : Nat) (value : BitVec 32) {index : Nat}
    (inMemory : otpWindow ≤ index) :
    (lcm.write32 params offset value).regs index = lcm.regs.store32 offset value index := by
  by_cases isIgnored : offset ∈ ignoredRegisters
  · have below : offset + 4 ≤ otpWindow := by
      simp only [ignoredRegisters, List.mem_cons, List.not_mem_nil, or_false] at isIgnored
      rcases isIgnored with rfl | rfl | rfl | rfl | rfl | rfl <;> decide
    rw [Image.store32_outside _ _ _ (Or.inr (below.trans inMemory))]
    simp [write32, isIgnored]
  · by_cases isEnable : offset = spEnable
    · subst isEnable
      have outside : index < spEnable ∨ spEnable + 4 ≤ index :=
        Or.inr (inMemory.trans' (by decide))
      rw [Image.store32_outside _ _ _ outside, write32, if_neg isIgnored, if_pos rfl]
      split_ifs <;> exact store32_regs_outside spEnable _ outside
    · simp [write32, isIgnored, isEnable, store32]

theorem write32_otpLocked (offset : Nat) (value : BitVec 32) (isLocked : lcm.otpLocked = true) :
    (lcm.write32 params offset value).otpLocked = true := by
  unfold write32
  split_ifs <;> simp [store32, isLocked]

/-- A write that is stored plainly in the memory. -/
theorem oneTime_plain_iff {next : Lcm} {offset : BitVec 64} {data : List Byte}
    (isAccepted : rejected (.write offset data) = false)
    (isPlain : isOtpAccess params offset data.length = false)
    (stored : ∀ index, params.InOtp index →
      next.regs index = lcm.regs.write offset.toNat data index)
    (locks : lcm.otpLocked = true → next.otpLocked = true) :
    OneTime params lcm next ↔ KeepsOtp params lcm (.write offset data) := by
  constructor
  · intro oneTime _ _ position inside inOtp
    have now := stored _ inOtp
    rw [Image.write_inside _ _ _ inside] at now
    split
    · next isLocked => rw [← now, oneTime.frozen isLocked _ inOtp]
    · rw [← now]
      exact oneTime.programmed _ inOtp
  · intro keeps
    have unchanged (index : Nat) (outside : ¬ (offset.toNat ≤ index ∧
        index < offset.toNat + data.length)) :
        lcm.regs.write offset.toNat data index = lcm.regs index :=
      lcm.regs.write_outside offset.toNat data (by omega)
    refine ⟨fun index inOtp => ?_, locks, fun isLocked index inOtp => ?_⟩
    · rw [stored index inOtp]
      by_cases covered : offset.toNat ≤ index ∧ index < offset.toNat + data.length
      · obtain ⟨position, rfl⟩ := Nat.exists_eq_add_of_le covered.1
        have inside : position < data.length := by omega
        have kept := keeps isAccepted isPlain position inside inOtp
        rw [Image.write_inside _ _ _ inside]
        split at kept
        · simp [kept]
        · exact kept
      · rw [unchanged index covered]
        exact SubBits.refl _
    · rw [stored index inOtp]
      by_cases covered : offset.toNat ≤ index ∧ index < offset.toNat + data.length
      · obtain ⟨position, rfl⟩ := Nat.exists_eq_add_of_le covered.1
        have inside : position < data.length := by omega
        have kept := keeps isAccepted isPlain position inside inOtp
        rw [Image.write_inside _ _ _ inside]
        simpa [isLocked] using kept
      · exact unchanged index covered

/-- One access keeps the memory one-time exactly if it meets the condition. -/
theorem oneTime_step_iff {event : Access} {next : Lcm}
    (stepped : lcm.step params event = some next) :
    OneTime params lcm next ↔ KeepsOtp params lcm event := by
  have unmoved {event : Access} (met : KeepsOtp params lcm event) :
      OneTime params lcm lcm ↔ KeepsOtp params lcm event :=
    iff_of_true (OneTime.refl lcm) met
  cases step_effect stepped with
  | refused event isRejected =>
      apply unmoved
      cases event with
      | write offset data =>
          intro isAccepted
          simp [isRejected] at isAccepted
      | read offset len => trivial
      | ignore offset len => trivial
  | read offset len => exact unmoved trivial
  | ignore offset len => exact unmoved trivial
  | locked offset data isProgramming isLocked =>
      apply unmoved
      intro _ isPlain
      simp [isProgramming] at isPlain
  | programmed offset data isProgramming isOpen =>
      apply iff_of_true
      · refine ⟨fun index inOtp => ?_, by simp [isOpen], by simp [isOpen]⟩
        rw [program_regs _ _ (inOtp.1.trans' (by decide))]
        exact subBits_orBytes lcm.regs _ data index
      · intro _ isPlain
        simp [isProgramming] at isPlain
  | word offset data isAccepted isPlain isWord =>
      apply oneTime_plain_iff isAccepted isPlain
      · intro index inOtp
        have encoded : toBytes 4 (ofBytes 32 data) = data :=
          isWord.1 ▸ toBytes_ofBytes data (by omega)
        rw [write32_regs _ _ inOtp.1, Image.store32, encoded]
      · exact write32_otpLocked _ _
  | bytes offset data isAccepted isPlain isNoWord =>
      exact oneTime_plain_iff isAccepted isPlain (fun _ _ => rfl) id

/-- The memory is one-time over a run exactly if every write across its edges keeps it. -/
theorem evolves_oneTime_iff (params : Params) (start : Lcm) (events : List Access) :
    Evolves (step params) (OneTime params) start events ↔
      Along (step params) (KeepsOtp params) start events := by
  rw [evolves_iff_along OneTime.refl fun _ _ _ => OneTime.trans]
  apply along_congr
  intro before event after stepped
  rw [← oneTime_step_iff stepped]
  simp [stepped]

/-- Eight zero bytes across the lower edge clear the word that was programmed behind it. -/
theorem not_evolves_oneTime_straddling :
    ¬ Evolves (step {}) (OneTime {}) (resetRegisters {} none)
      [.write 0x1000#64 (List.replicate 4 0xff), .write 0xffc#64 (List.replicate 8 0)] := by
  intro evolves
  have set : (run (step {}) (resetRegisters {} none)
      [.write 0x1000#64 (List.replicate 4 0xff)]).map (fun lcm => lcm.regs 0x1000) =
        some 0xff := by
    decide +kernel
  have cleared : (run (step {}) (resetRegisters {} none) [.write 0x1000#64 (List.replicate 4 0xff),
      .write 0xffc#64 (List.replicate 8 0)]).map (fun lcm => lcm.regs 0x1000) = some 0 := by
    decide +kernel
  obtain ⟨earlier, programmed, isSet⟩ := Option.map_eq_some_iff.mp set
  obtain ⟨later, overwritten, isCleared⟩ := Option.map_eq_some_iff.mp cleared
  have onwards := @run_append _ _ (step {}) (resetRegisters {} none)
    [.write 0x1000#64 (List.replicate 4 0xff)] [.write 0xffc#64 (List.replicate 8 0)]
  rw [List.singleton_append, overwritten, programmed, Option.bind_some] at onwards
  have oneTime := evolves [_] [_] [] earlier later rfl programmed onwards.symm
  have kept := oneTime.programmed 0x1000 ⟨by decide, by decide⟩ 0 (by rw [isSet]; decide)
  rw [isCleared] at kept
  simp at kept

end Lcm

end QboxPlatform.RseLcm
