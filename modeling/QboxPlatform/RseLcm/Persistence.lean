import QboxPlatform.RseLcm.Otp

/-!
# The one-time programmable memory across power cycles

With write-back the file follows the memory as long as no plain write reaches into it, so that the
next construction of the module finds what was programmed.
-/

namespace QboxPlatform.RseLcm

open Foundation

/-- The file at `otp_image` is loaded and written back. -/
structure Params.WritesBack (params : Params) : Prop where
  enabled : params.otpWriteback = true
  named : params.otpImage ≠ ""

namespace Lcm

variable {params : Params} {lcm next : Lcm} {access : Access}

/-- Byte `index` of the file, with zeros behind its end. -/
def imageByte (lcm : Lcm) (index : Nat) : Byte := (lcm.imageFile.getD []).getD index 0

/-- The front of the file is the memory. -/
def Persisted (params : Params) (lcm : Lcm) : Prop :=
  ∀ index, params.InOtp index → lcm.imageByte (index - otpWindow) = lcm.regs index

/-- A plain write reaches into the memory. -/
def Straddles (params : Params) (access : Access) : Prop :=
  rejected access = false ∧ isOtpAccess params access.offset access.len = false ∧
    access.writesTo otpWindow params.otpLimit = true

instance (params : Params) (access : Access) : Decidable (Straddles params access) :=
  inferInstanceAs (Decidable (_ ∧ _ ∧ _))

theorem otpLimit_le (params : Params) : params.otpLimit ≤ regBytes := by
  rw [Params.otpLimit, regBytes, otpWindow]
  omega

/-- Naturally aligned accesses stay on one side of the edges of a memory of whole double words. -/
theorem not_straddles_of_aligned {access : Access} (aligned : access.len ∣ access.offset.toNat)
    (whole : 8 ∣ params.otpSize.toNat) : ¬ Straddles params access := by
  rintro ⟨isAccepted, isPlain, writes⟩
  cases access with
  | read offset len => exact Bool.false_ne_true writes
  | ignore offset len => exact Bool.false_ne_true writes
  | write offset data =>
      have supported := isSupportedLength_iff.mp (Access.exceeds_eq_false_iff.mp isAccepted).1
      rw [Access.writesTo, Bool.and_eq_true, decide_eq_true_eq, decide_eq_true_eq] at writes
      rw [isOtpAccess, Bool.and_eq_false_iff, decide_eq_false_iff_not,
        decide_eq_false_iff_not] at isPlain
      have bounded := otpLimit_le params
      have divides : 8 ∣ params.otpLimit := by
        rw [Params.otpLimit, otpWindow, regBytes]
        omega
      dsimp only [Access.len, Access.offset] at *
      rw [otpWindow] at writes isPlain
      rw [regBytes] at bounded
      rcases supported with length | length | length | length
      all_goals
        rw [length] at aligned writes isPlain
        omega

/-! ### What the file holds -/

theorem flushOtpImage_imageFile (writesBack : params.WritesBack) :
    (lcm.flushOtpImage params).imageFile =
      some (lcm.regs.read otpWindow (params.otpLimit - otpWindow) ++
        (lcm.imageFile.getD []).drop (params.otpLimit - otpWindow)) := by
  have flushes : (!params.otpWriteback || params.otpImage == "") = false := by
    simp [writesBack.enabled, writesBack.named]
  simp [flushOtpImage, flushes]

theorem persisted_flushOtpImage (writesBack : params.WritesBack) :
    Persisted params (lcm.flushOtpImage params) := by
  rintro index ⟨above, below⟩
  have inside : index - otpWindow <
      (lcm.regs.read otpWindow (params.otpLimit - otpWindow)).length := by
    rw [Image.length_read]
    omega
  rw [imageByte, flushOtpImage_imageFile writesBack, Option.getD_some, flushOtpImage_regs,
    List.getD_append _ _ _ _ inside, List.getD_eq_getElem _ _ inside, Image.getElem_read,
    Nat.add_sub_cancel' above]

/-- The module finds the file in its memory. -/
theorem resetRegisters_regs (named : params.otpImage ≠ "") (imageFile : Option (List Byte))
    {index : Nat} (above : otpWindow ≤ index) (below : index < regBytes) :
    (resetRegisters params imageFile).regs index =
      (imageFile.getD []).getD (index - otpWindow) 0 := by
  have keeps (lcm : Lcm) (offset : Nat) (value : BitVec 32) (low : offset + 4 ≤ otpWindow) :
      (lcm.store32 offset value).regs index = lcm.regs index :=
    store32_regs_outside offset value (Or.inr (low.trans above))
  have loads (lcm : Lcm) (empty : lcm.regs index = 0) (front : lcm.imageFile = imageFile) :
      (lcm.loadOtpImage params).regs index = (imageFile.getD []).getD (index - otpWindow) 0 := by
    rw [loadOtpImage, front]
    cases imageFile with
    | none => exact empty
    | some contents =>
        have inside : index - otpWindow < regBytes - otpWindow := by omega
        simp only [beq_iff_eq, if_neg named, Image.write, if_pos above, empty, Option.getD_some]
        rw [List.getD_eq_getElem?_getD, List.getElem?_take_of_lt inside,
          ← List.getD_eq_getElem?_getD]
  apply loads
  · simp only [List.range_succ, List.range_zero, List.nil_append, List.cons_append,
      List.foldl_cons, List.foldl_nil]
    repeat rw [keeps _ _ _ (by decide)]
  · rfl

@[simp]
theorem resetRegisters_imageFile (imageFile : Option (List Byte)) :
    (resetRegisters params imageFile).imageFile = imageFile := by
  have loads (lcm : Lcm) : (lcm.loadOtpImage params).imageFile = lcm.imageFile := by
    unfold loadOtpImage
    split
    · split <;> rfl
    · rfl
  exact loads _

theorem persisted_resetRegisters (named : params.otpImage ≠ "") (imageFile : Option (List Byte)) :
    Persisted params (resetRegisters params imageFile) := by
  rintro index ⟨above, below⟩
  rw [resetRegisters_regs named imageFile above (below.trans_le (otpLimit_le params)), imageByte,
    resetRegisters_imageFile]

/-! ### What an access does to the memory and the file -/

/-- A plain write that misses the memory changes neither the memory nor the file. -/
theorem plain_write_same {offset : BitVec 64} {data : List Byte}
    (isAccepted : rejected (.write offset data) = false)
    (isPlain : isOtpAccess params offset data.length = false)
    (apart : ¬ Straddles params (.write offset data)) {index : Nat} (inOtp : params.InOtp index) :
    lcm.regs.write offset.toNat data index = lcm.regs index := by
  have misses : (Access.write offset data).writesTo otpWindow params.otpLimit = false := by
    by_contra writes
    exact apart ⟨isAccepted, isPlain, Bool.not_eq_false _ ▸ writes⟩
  exact lcm.regs.write_outside offset.toNat data (Access.outside_of_writesTo misses inOtp)

theorem write32_imageFile (offset : Nat) (value : BitVec 32) :
    (lcm.write32 params offset value).imageFile = lcm.imageFile := by
  unfold write32
  split_ifs <;> rfl

/-- An access leaves the memory and the file as they are, or programs the memory and writes it
back. -/
theorem step_memory (apart : ¬ Straddles params access)
    (stepped : lcm.step params access = some next) :
    (∀ index, params.InOtp index → next.regs index = lcm.regs index) ∧
        next.imageFile = lcm.imageFile ∨
      (∀ index, params.InOtp index → SubBits (lcm.regs index) (next.regs index)) ∧
        ∃ programmed : Lcm, next = programmed.flushOtpImage params := by
  cases step_effect stepped with
  | refused access isRejected => exact Or.inl ⟨fun _ _ => rfl, rfl⟩
  | read offset len => exact Or.inl ⟨fun _ _ => rfl, rfl⟩
  | ignore offset len => exact Or.inl ⟨fun _ _ => rfl, rfl⟩
  | locked offset data isProgramming isLocked => exact Or.inl ⟨fun _ _ => rfl, rfl⟩
  | programmed offset data isProgramming isOpen =>
      refine Or.inr ⟨fun index inOtp => ?_, _, rfl⟩
      rw [program_regs _ _ (inOtp.1.trans' (by decide))]
      exact subBits_orBytes lcm.regs _ data index
  | word offset data isAccepted isPlain isWord =>
      refine Or.inl ⟨fun index inOtp => ?_, write32_imageFile _ _⟩
      have encoded : toBytes 4 (ofBytes 32 data) = data :=
        isWord.1 ▸ toBytes_ofBytes data (by omega)
      rw [write32_regs _ _ inOtp.1, Image.store32, encoded]
      exact plain_write_same isAccepted isPlain apart inOtp
  | bytes offset data isAccepted isPlain isNoWord =>
      exact Or.inl ⟨fun index inOtp => plain_write_same isAccepted isPlain apart inOtp, rfl⟩

theorem persisted_step (writesBack : params.WritesBack) (apart : ¬ Straddles params access)
    (persisted : Persisted params lcm) (stepped : lcm.step params access = some next) :
    Persisted params next := by
  rcases step_memory apart stepped with ⟨sameMemory, sameFile⟩ | ⟨-, programmed, rfl⟩
  · intro index inOtp
    rw [sameMemory index inOtp, ← persisted index inOtp, imageByte, imageByte, sameFile]
  · exact persisted_flushOtpImage writesBack

theorem subBits_step (apart : ¬ Straddles params access)
    (stepped : lcm.step params access = some next) {index : Nat} (inOtp : params.InOtp index) :
    SubBits (lcm.regs index) (next.regs index) := by
  rcases step_memory apart stepped with ⟨sameMemory, -⟩ | ⟨grows, -⟩
  · rw [sameMemory index inOtp]
    exact SubBits.refl _
  · exact grows index inOtp

/-- The next construction of the module finds the memory as it was. -/
theorem resetRegisters_of_persisted (named : params.otpImage ≠ "")
    (persisted : Persisted params lcm) {index : Nat} (inOtp : params.InOtp index) :
    (resetRegisters params lcm.imageFile).regs index = lcm.regs index := by
  rw [resetRegisters_regs named _ inOtp.1 (inOtp.2.trans_le (otpLimit_le params)),
    ← persisted index inOtp, imageByte]

end Lcm

end QboxPlatform.RseLcm
