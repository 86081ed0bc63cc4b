import QboxPlatform.Foundation.Copies
import QboxPlatform.RseKmu.Registers

/-!
# The keys that the hardware slots hold

At reset the slots are one copy of the front of the OTP image, and they keep it until a write to
the key registers.
-/

namespace QboxPlatform.RseKmu

open Foundation

/-- A hardware slot with a place in the OTP image. -/
def IsHardwareSlot (slot : Nat) : Prop := 1 ≤ slot ∧ slot < hwSlotCount

instance (slot : Nat) : Decidable (IsHardwareSlot slot) := inferInstanceAs (Decidable (_ ∧ _))

/-- Where the key of a hardware slot lies in the OTP image. -/
def otpOffset (slot : Nat) : Nat := (slot - 1) * otpHwKeyBytes

/-- The configuration register of a slot. -/
def configReg (slot : Nat) : Nat := kmuKscBase + slot * 4

/-- The command that exports the key of a slot. -/
def exportCommand (slot : Nat) (value : BitVec 32) : Access :=
  .write (BitVec.ofNat 64 (configReg slot)) (toBytes 4 value)

namespace Kmu

variable {params : Params} {kmu next : Kmu} {sent : List Export}

/-- Slots behind one another, filled from places behind one another. -/
theorem loadKeys_range (contents : List Byte) (first count : Nat) (kmu : Kmu) :
    loadKeys contents
        ((List.range' first count).map fun slot => (slot + 1, slot * otpHwKeyBytes)) kmu =
      { kmu with
        regs := kmu.regs.write (keyReg (first + 1))
          ((contents.drop (first * otpHwKeyBytes)).take (count * otpHwKeyBytes)) } := by
  induction count generalizing first kmu with
  | zero =>
      rw [Nat.zero_mul, List.take_zero, Image.write_nil]
      rfl
  | succ count inductionHypothesis =>
      rw [List.range'_succ, List.map_cons, loadKeys]
      by_cases full : ((contents.drop (first * otpHwKeyBytes)).take otpHwKeyBytes).length =
          otpHwKeyBytes
      · have parts : (contents.drop (first * otpHwKeyBytes)).take ((count + 1) * otpHwKeyBytes) =
            (contents.drop (first * otpHwKeyBytes)).take otpHwKeyBytes ++
              (contents.drop ((first + 1) * otpHwKeyBytes)).take (count * otpHwKeyBytes) := by
          rw [Nat.succ_mul, Nat.add_comm (count * _), List.take_add, List.drop_drop, Nat.succ_mul]
        have behind : keyReg (first + 1) + otpHwKeyBytes = keyReg (first + 1 + 1) := by
          simp only [keyReg, otpHwKeyBytes, kmuKskStride]
          ring
        rw [if_pos full, inductionHypothesis, parts, Image.write_append, full, behind]
      · have short : (contents.drop (first * otpHwKeyBytes)).length ≤ otpHwKeyBytes := by
          rw [List.length_take] at full
          omega
        have more : otpHwKeyBytes ≤ (count + 1) * otpHwKeyBytes :=
          Nat.le_mul_of_pos_left _ (Nat.succ_pos count)
        rw [if_neg full, List.take_of_length_le short, List.take_of_length_le (short.trans more)]

/-- The hardware slots after reset, as one copy. -/
theorem loadKeys_otpOffsets (contents : List Byte) (kmu : Kmu) :
    loadKeys contents otpOffsets kmu =
      { kmu with regs := kmu.regs.write (keyReg 1) (contents.take (6 * otpHwKeyBytes)) } := by
  have range := loadKeys_range contents 0 6 kmu
  rwa [Nat.zero_mul, List.drop_zero] at range

theorem keyReg_bounds {slot : Nat} (isHardware : IsHardwareSlot slot) {position : Nat}
    (inside : position < kmuKskStride) :
    keyReg 1 ≤ keyReg slot + position ∧ keyReg slot + position < keyReg hwSlotCount ∧
      keyReg slot + position - keyReg 1 = otpOffset slot + position := by
  obtain ⟨positive, below⟩ := isHardware
  simp only [keyReg, otpOffset, kmuKskBase, kmuKskStride, otpHwKeyBytes, slotWords,
    hwSlotCount] at *
  omega

/-- After reset a hardware slot holds its part of the image, with zeros behind the image's end. -/
theorem key_resetRegisters (named : params.otpImage ≠ "") (imageFile : Option (List Byte))
    {slot : Nat} (isHardware : IsHardwareSlot slot) :
    (resetRegisters params imageFile).key slot =
      (List.range kmuKskStride).map fun position =>
        (imageFile.getD []).getD (otpOffset slot + position) 0 := by
  apply List.map_congr_left
  intro position member
  obtain ⟨above, below, place⟩ := keyReg_bounds isHardware (List.mem_range.mp member)
  have low : keyReg 1 ≤ keyReg slot + position := above
  have high : keyReg slot + position < kmuRd8 := below.trans (by decide)
  have front : otpOffset slot + position < 6 * otpHwKeyBytes := by
    rw [← place]
    simp only [keyReg, kmuKskBase, kmuKskStride, otpHwKeyBytes, slotWords, hwSlotCount] at *
    omega
  have keeps (kmu : Kmu) (offset : Nat) (value : BitVec 32) (before : offset + 4 ≤ keyReg 1) :
      (kmu.store32 offset value).regs (keyReg slot + position) =
        kmu.regs (keyReg slot + position) :=
    store32_regs_outside offset value (Or.inr (before.trans low))
  have loads (kmu : Kmu) (empty : kmu.regs (keyReg slot + position) = 0) :
      (kmu.loadOtpHardwareKeys params imageFile).regs (keyReg slot + position) =
        (imageFile.getD []).getD (otpOffset slot + position) 0 := by
    unfold loadOtpHardwareKeys
    cases imageFile with
    | none => exact empty
    | some contents =>
        simp only [beq_iff_eq, if_neg named, loadKeys_otpOffsets, Image.write, if_pos low, place,
          empty, Option.getD_some]
        rw [List.getD_eq_getElem?_getD, List.getElem?_take_of_lt front,
          ← List.getD_eq_getElem?_getD]
  rw [resetRegisters, storeAll_regs_outside]
  · apply loads
    simp only [hwSlotCount, storeAll, List.range_succ, List.range_zero, List.nil_append,
      List.cons_append, List.foldl_cons, List.foldl_nil]
    repeat rw [keeps _ _ _ (by decide)]
  · simp only [List.mem_cons, List.not_mem_nil, or_false, forall_eq_or_imp, forall_eq]
    simp only [kmuRd8, kmuRd16, kmuRd32, pidr4, pidr0, pidr1, pidr2, pidr3, cidr0, cidr1, cidr2,
      cidr3] at *
    omega

/-- An access that writes to none of a slot's key registers keeps the key. -/
theorem key_access {access : Access} {response : Response}
    (accessed : kmu.access params access = some (response, next, sent)) {slot : Nat}
    (quiet : access.writesTo (keyReg slot) (keyReg slot + kmuKskStride) = false) :
    next.key slot = kmu.key slot := by
  apply Image.read_congr
  intro index above below
  have high : kmuIs + 4 ≤ keyReg slot := by
    simp only [kmuIs, keyReg, kmuKskBase]
    omega
  exact access_regs_outside accessed high quiet ⟨above, below⟩

/-! ### Exports -/

theorem acknowledge_and {command status value mask : BitVec 32}
    (command_apart : command &&& mask = 0) (status_apart : status &&& mask = 0) :
    acknowledge command status value &&& mask = value &&& mask := by
  unfold acknowledge
  split_ifs
  · apply BitVec.eq_of_getLsbD_eq
    intro bit _
    have unset := congrArg (fun word => word.getLsbD bit) command_apart
    have unraised := congrArg (fun word => word.getLsbD bit) status_apart
    simp only [BitVec.getLsbD_and, BitVec.getLsbD_or, BitVec.getLsbD_not, BitVec.getLsbD_zero,
      BitVec.ofNat_eq_ofNat] at unset unraised ⊢
    cases selected : mask.getLsbD bit with
    | false => simp
    | true =>
        rw [selected, Bool.and_true] at unset unraised
        simp_all
  · rfl

/-- An export sends the key of the slot, whatever else the command asks for. -/
theorem access_exportCommand (params : Params) (kmu : Kmu) {slot : Nat}
    (isSlot : slot < slotCount) {value : BitVec 32} (commands : value &&& kmuKscEk ≠ 0) :
    ∃ next : Kmu, kmu.access params (exportCommand slot value) =
        some (.ok [], next, kmu.exportKey params slot) ∧
      ∀ slot, next.key slot = kmu.key slot := by
  have place : (BitVec.ofNat 64 (configReg slot)).toNat = configReg slot := by
    rw [BitVec.toNat_ofNat, Nat.mod_eq_of_lt]
    rw [configReg, kmuKscBase, slotCount] at *
    omega
  have below : configReg slot + 4 ≤ keyReg 0 := by
    simp only [configReg, keyReg, kmuKscBase, kmuKskBase, slotCount] at *
    omega
  have inRange : keyReg 0 ≤ regBytes := by decide
  have accepted : (exportCommand slot value).exceeds regBytes = false := by
    rw [Access.exceeds_eq_false_iff]
    simp only [exportCommand, Access.len, Access.offset, length_toBytes, place]
    refine ⟨rfl, ?_⟩
    have small : keyReg 0 < 2 ^ 64 := by decide
    rw [Nat.mod_eq_of_lt (by omega)]
    omega
  have isWord : (toBytes 4 value).length = 4 ∧ configReg slot % 4 = 0 := by
    refine ⟨length_toBytes 4 value, ?_⟩
    rw [configReg, kmuKscBase]
    omega
  have isPlain : configReg slot ∉ ignoredRegisters ∧ configReg slot ≠ kmuIc := by
    have bounds : kmuKscBase ≤ configReg slot ∧ configReg slot < kmuRd8 := by
      simp only [configReg, kmuKscBase, kmuRd8, slotCount] at *
      omega
    simp only [ignoredRegisters, List.mem_cons, List.not_mem_nil, or_false, kmuBc, kmuIs, kmuIc,
      kmuRd8, kmuRd16, kmuRd32, pidr4, pidr0, pidr1, pidr2, pidr3, cidr0, cidr1, cidr2, cidr3,
      kmuKscBase] at *
    omega
  have isSlotRegister : isSlotReg (configReg slot) kmuKscBase = true := by
    simp only [isSlotReg, configReg, Nat.add_sub_cancel_left, Nat.mul_mod_left, BEq.rfl,
      Bool.and_true, Bool.and_eq_true]
    exact ⟨decide_eq_true (by omega), decide_eq_true (by omega)⟩
  have slotOf : (configReg slot - kmuKscBase) / 4 = slot := by
    rw [configReg]
    omega
  have exports : acknowledge kmuKscVks kmuKscKsr (acknowledge kmuKscIks kmuKscKsip value) &&&
      kmuKscEk ≠ 0 := by
    rwa [acknowledge_and (by decide) (by decide), acknowledge_and (by decide) (by decide)]
  have written : (kmu.write32 params (configReg slot) value).2 = kmu.exportKey params slot := by
    rw [write32, if_neg isPlain.1, if_neg isPlain.2, if_pos isSlotRegister]
    dsimp only [writeKmuksc]
    rw [if_pos exports, slotOf]
  have accessed : kmu.access params (exportCommand slot value) =
      some (.ok [], (kmu.write32 params (configReg slot) value).1, kmu.exportKey params slot) := by
    unfold Kmu.access
    rw [accepted, if_neg Bool.false_ne_true]
    dsimp only [exportCommand]
    rw [place, if_pos isWord, ofBytes_toBytes value (by decide), if_neg (by rw [isWord.1]; omega),
      ← written]
  refine ⟨_, accessed, fun other => key_access accessed ?_⟩
  have later : keyReg 0 ≤ keyReg other := by
    simp only [keyReg, kmuKskStride, slotWords]
    omega
  simp only [exportCommand, Access.writesTo, place, length_toBytes, Bool.and_eq_false_iff,
    decide_eq_false_iff_not]
  omega

end Kmu

end QboxPlatform.RseKmu
