import QboxPlatform.Zena.Fmu

/-!
# The interrupt lines and the group status

The lines are driven only when a derived value changes, yet after every access they carry
exactly what the records say, and the group words show the valid bits record by record.
-/

namespace QboxPlatform.Zena

open Foundation

namespace Fmu

/-- The group status register that shows a record. -/
def groupRegister (index : Nat) : Nat :=
  (if index % 64 < 32 then errgsrLowBase else errgsrHighBase) + index / 64 * errgsrStride

def groupAddress (bank index : Nat) : BitVec 64 :=
  BitVec.ofNat 64 (bank * bankBytes + groupRegister index)

/-- A record of the unit that satisfies a condition. -/
def SomeRecord (params : Params) (fmu : Fmu) (condition : Bank → Nat → Prop) : Prop :=
  ∃ bank, bank < params.bankCount ∧ ∃ index, index < params.recordCount ∧
    condition (fmu.banks bank) index

/-- The lines and the group words say what the records say. -/
structure Exact (params : Params) (fmu : Fmu) : Prop where
  critical : fmu.lines.criticalIrq = true ↔ SomeRecord params fmu fun bank index =>
    params.isCriticalRecord index = true ∧ (bank.status index).getLsbD 30 = true ∧
      (bank.ctlr index).getLsbD 13 = true
  nonCritical : fmu.lines.nonCriticalIrq = true ↔ SomeRecord params fmu fun bank index =>
    params.isNonCriticalRecord index = true ∧ (bank.status index).getLsbD 30 = true ∧
      ((bank.ctlr index).getLsbD 3 = true ∨ (bank.ctlr index).getLsbD 4 = true ∨
        (bank.ctlr index).getLsbD 8 = true)
  criticalSsu : fmu.lines.criticalSsu = fmu.lines.criticalIrq
  nonCriticalSsu : fmu.lines.nonCriticalSsu = fmu.lines.nonCriticalIrq
  groups : ∀ bank, bank < params.bankCount → ∀ index, index < maxRecords →
    ∃ word : BitVec 32,
      fmu.access params (.read (groupAddress bank index) 4) = (.ok (toBytes 4 word), fmu) ∧
      (word.getLsbD (index % 32) = true ↔
        index < params.recordCount ∧ ((fmu.banks bank).status index).getLsbD 30 = true)

/-- The sockets carry the values that the unit remembers. -/
def Driven (fmu : Fmu) : Prop := fmu.emitIrqs = fmu

/-- The remembered values are the derived ones. -/
structure Settled (params : Params) (fmu : Fmu) : Prop where
  driven : Driven fmu
  critical : fmu.criticalIrq = fmu.anyRecord params (raisesCritical params)
  nonCritical : fmu.nonCriticalIrq = fmu.anyRecord params (raisesNonCritical params)

variable {params : Params} {fmu : Fmu}

theorem driven_setBank (index : Nat) (bank : Bank) (driven : Driven fmu) :
    Driven (fmu.setBank index bank) := by
  have same := congrArg (fun unit => unit.setBank index bank) driven
  exact same

theorem updateIrqs_settled (driven : Driven fmu) : Settled params (fmu.updateIrqs params) := by
  unfold updateIrqs
  dsimp only
  split
  · exact ⟨rfl, rfl, rfl⟩
  · next same =>
      simp only [Bool.or_eq_true, bne_iff_ne, ne_eq, not_or, not_not] at same
      exact ⟨driven, same.1.symm, same.2.symm⟩

/-- The derived values do not look at the key. -/
theorem settled_setUnlocked (bank : Nat) (unlocked : Bool) (settled : Settled params fmu) :
    Settled params (fmu.setBank bank { fmu.banks bank with unlocked := unlocked }) := by
  have same (raises : Bank → Nat → Bool)
      (ignores : ∀ current index, raises { current with unlocked := unlocked } index =
        raises current index) :
      (fmu.setBank bank { fmu.banks bank with unlocked := unlocked }).anyRecord params raises =
        fmu.anyRecord params raises := by
    unfold anyRecord setBank
    congr 1
    funext other
    congr 1
    funext index
    by_cases isBank : other = bank
    · subst isBank
      simp [ignores]
    · simp [isBank]
  refine ⟨driven_setBank bank _ settled.driven, ?_, ?_⟩
  · rw [same _ fun _ _ => rfl]
    exact settled.critical
  · rw [same _ fun _ _ => rfl]
    exact settled.nonCritical

theorem settled_requireUnlock (bank : Nat) (settled : Settled params fmu) :
    Settled params (fmu.requireUnlock params bank).2 := by
  unfold requireUnlock
  split_ifs
  · exact settled
  · exact settled_setUnlocked bank false settled
  · exact updateIrqs_settled (driven_setBank _ _ settled.driven)

theorem settled_writeRecord (bank index field : Nat) (value : BitVec 32)
    (settled : Settled params fmu) :
    Settled params (fmu.writeRecord params bank index field value) := by
  unfold writeRecord
  split_ifs
  · exact updateIrqs_settled (driven_setBank _ _ settled.driven)
  · exact updateIrqs_settled (driven_setBank _ _ settled.driven)
  · exact settled

theorem settled_writeImpdef (bank index : Nat) (value : BitVec 32) (driven : Driven fmu) :
    Settled params (fmu.writeImpdef params bank index value) := by
  unfold writeImpdef
  dsimp only
  split_ifs
  · exact updateIrqs_settled (driven_setBank _ _ (driven_setBank _ _ driven))
  · exact updateIrqs_settled (driven_setBank _ _ driven)
  · exact updateIrqs_settled (driven_setBank _ _ (driven_setBank _ _ driven))
  · exact updateIrqs_settled (driven_setBank _ _ driven)

theorem settled_writeSysKey (bank : Nat) (value : BitVec 32) (settled : Settled params fmu) :
    Settled params (fmu.writeSysKey params bank value) := by
  have written := settled_setUnlocked bank (value == sysKeyValue) settled
  unfold writeSysKey
  dsimp only
  split
  · exact written
  · exact updateIrqs_settled (driven_setBank _ _ written.driven)

theorem settled_write32 (offset : BitVec 64) (value : BitVec 32) (settled : Settled params fmu) :
    Settled params (fmu.write32 params offset value) := by
  unfold write32
  cases params.decode offset with
  | none => exact settled
  | some place =>
      obtain ⟨bank, reg⟩ := place
      have taken := settled_requireUnlock bank settled
      dsimp only
      split
      · exact settled_writeSysKey bank value settled
      · split
        · exact taken
        · split
          · exact settled_writeRecord bank _ _ value taken
          · split
            · exact settled_writeImpdef bank _ value taken.driven
            · exact taken

theorem settled_step {access : Access} {next : Fmu} (settled : Settled params fmu)
    (stepped : fmu.step params access = some next) : Settled params next := by
  cases stepped
  unfold Fmu.access
  split
  · exact settled
  · cases access with
    | read offset len => exact settled
    | ignore offset len => exact settled
    | write offset data =>
        dsimp only
        split
        · exact settled_write32 offset _ settled
        · exact settled

/-- The loop over all records, as a statement. -/
theorem anyRecord_iff {raises : Bank → Nat → Bool} {condition : Bank → Nat → Prop}
    (same : ∀ bank index, raises bank index = true ↔ condition bank index) :
    fmu.anyRecord params raises = true ↔ SomeRecord params fmu condition := by
  simp [anyRecord, SomeRecord, same]

theorem raisesCritical_iff (bank : Bank) (index : Nat) :
    raisesCritical params bank index = true ↔
      params.isCriticalRecord index = true ∧ (bank.status index).getLsbD 30 = true ∧
        (bank.ctlr index).getLsbD 13 = true := by
  have valid := and_bit_ne_zero_iff (bank.status index) (show 30 < 32 by decide)
  have enabled := and_bit_ne_zero_iff (bank.ctlr index) (show 13 < 32 by decide)
  simp only [raisesCritical, statusV, ctlrCi, Bool.and_eq_true, bne_iff_ne, valid, enabled]
  rw [and_assoc, and_left_comm]

theorem raisesNonCritical_iff (bank : Bank) (index : Nat) :
    raisesNonCritical params bank index = true ↔
      params.isNonCriticalRecord index = true ∧ (bank.status index).getLsbD 30 = true ∧
        ((bank.ctlr index).getLsbD 3 = true ∨ (bank.ctlr index).getLsbD 4 = true ∨
          (bank.ctlr index).getLsbD 8 = true) := by
  have valid := and_bit_ne_zero_iff (bank.status index) (show 30 < 32 by decide)
  have enabled {bit : Nat} (inside : bit < 32) :=
    and_bit_ne_zero_iff (bank.ctlr index) inside
  have some_enabled : bank.ctlr index &&& (ctlrFi ||| ctlrUe ||| ctlrCfi) ≠ 0 ↔
      (bank.ctlr index).getLsbD 3 = true ∨ (bank.ctlr index).getLsbD 4 = true ∨
        (bank.ctlr index).getLsbD 8 = true := by
    rw [← enabled (by decide : 3 < 32), ← enabled (by decide : 4 < 32),
      ← enabled (by decide : 8 < 32)]
    simp only [ctlrFi, ctlrUe, ctlrCfi, BitVec.and_or_distrib_left, ne_eq]
    rw [show (0 : BitVec 32) = 0#32 from rfl, BitVec.or_eq_zero_iff, BitVec.or_eq_zero_iff,
      and_assoc, not_and_or, not_and_or]
  simp only [raisesNonCritical, statusV, Bool.and_eq_true, bne_iff_ne, valid, some_enabled]
  rw [and_assoc, and_left_comm]

/-- Bits that a loop sets one after the other. -/
theorem getLsbD_foldl_set {condition : Nat → Prop} [DecidablePred condition] (indices : List Nat)
    (start : BitVec 32) {bit : Nat} (inside : bit < 32) :
    (indices.foldl (fun value index => if condition index then value ||| (1#32 <<< index)
      else value) start).getLsbD bit = true ↔
      start.getLsbD bit = true ∨ (bit ∈ indices ∧ condition bit) := by
  induction indices generalizing start with
  | nil => simp
  | cons first rest inductionHypothesis =>
      rw [List.foldl_cons, inductionHypothesis]
      by_cases holds : condition first
      · have set : (start ||| 1#32 <<< first).getLsbD bit = true ↔
            start.getLsbD bit = true ∨ bit = first := by
          rw [← BitVec.twoPow_eq]
          simp [inside]
        simp only [holds, if_true, set, List.mem_cons]
        grind
      · simp only [holds, if_false, List.mem_cons]
        grind

theorem getLsbD_groupStatusWord (bank : Bank) (group : Nat) (high : Bool) {bit : Nat}
    (inside : bit < 32) :
    (groupStatusWord params bank group high).getLsbD bit = true ↔
      group * 64 + (if high then 32 else 0) + bit < params.recordCount ∧
        (bank.status (group * 64 + (if high then 32 else 0) + bit)).getLsbD 30 = true := by
  have valid (index : Nat) := and_bit_ne_zero_iff (bank.status index) (show 30 < 32 by decide)
  unfold groupStatusWord
  dsimp only
  rw [getLsbD_foldl_set _ _ inside, List.mem_range, statusV, valid]
  simp [inside]

theorem groupRegister_bounds {index : Nat} (inside : index < maxRecords) :
    errgsrLowBase ≤ groupRegister index ∧
      groupRegister index < errgsrHighBase + 6 * errgsrStride ∧
      groupRegister index % 4 = 0 := by
  simp only [groupRegister, maxRecords, errgsrLowBase, errgsrHighBase, errgsrStride] at *
  split <;> omega

theorem toNat_groupAddress {bank index : Nat} (bankInside : bank < params.bankCount)
    (inside : index < maxRecords) :
    (groupAddress bank index).toNat = bank * bankBytes + groupRegister index := by
  have bounds := groupRegister_bounds inside
  have bankBound : bank < maxBanks := Nat.lt_of_lt_of_le bankInside (Nat.min_le_right _ _)
  rw [groupAddress, BitVec.toNat_ofNat]
  simp only [maxBanks, bankBytes, errgsrHighBase, errgsrStride] at *
  omega

theorem decode_groupAddress {bank index : Nat} (bankInside : bank < params.bankCount)
    (inside : index < maxRecords) :
    params.decode (groupAddress bank index) = some (bank, groupRegister index) := by
  have bounds := groupRegister_bounds inside
  have bankBound : bank < maxBanks := Nat.lt_of_lt_of_le bankInside (Nat.min_le_right _ _)
  simp only [maxBanks, errgsrHighBase, errgsrStride] at *
  have bankPart : (bank * bankBytes + groupRegister index) / bankBytes % 2 ^ 32 = bank := by
    simp only [bankBytes]
    omega
  have regPart : (bank * bankBytes + groupRegister index) % bankBytes = groupRegister index := by
    simp only [bankBytes]
    omega
  simp only [Params.decode, toNat_groupAddress bankInside inside, bankPart, regPart, bankInside,
    if_true]

/-- The group status registers show one group each. -/
theorem readGroup_groupRegister (bank : Bank) {index : Nat} (inside : index < maxRecords) :
    ((readGroup params bank errgsrLowBase (groupRegister index) false).orElse fun _ =>
      readGroup params bank errgsrHighBase (groupRegister index) true) =
        some (groupStatusWord params bank (index / 64) (decide (32 ≤ index % 64))) := by
  simp only [maxRecords] at inside
  by_cases low : index % 64 < 32
  · have selected : errgsrLowBase ≤ groupRegister index ∧
        groupRegister index < errgsrLowBase + 6 * errgsrStride ∧
          (groupRegister index - errgsrLowBase) % errgsrStride = 0 := by
      simp only [groupRegister, low, if_true, errgsrLowBase, errgsrStride]
      omega
    have group : (groupRegister index - errgsrLowBase) / errgsrStride = index / 64 := by
      simp only [groupRegister, low, if_true, errgsrLowBase, errgsrStride]
      omega
    have isLow : ¬ 32 ≤ index % 64 := Nat.not_le.mpr low
    simp [readGroup, selected, group, isLow]
  · have passed : ¬ (errgsrLowBase ≤ groupRegister index ∧
        groupRegister index < errgsrLowBase + 6 * errgsrStride ∧
          (groupRegister index - errgsrLowBase) % errgsrStride = 0) := by
      simp only [groupRegister, low, if_false, errgsrLowBase, errgsrHighBase, errgsrStride]
      omega
    have selected : errgsrHighBase ≤ groupRegister index ∧
        groupRegister index < errgsrHighBase + 6 * errgsrStride ∧
          (groupRegister index - errgsrHighBase) % errgsrStride = 0 := by
      simp only [groupRegister, low, if_false, errgsrHighBase, errgsrStride]
      omega
    have group : (groupRegister index - errgsrHighBase) / errgsrStride = index / 64 := by
      simp only [groupRegister, low, if_false, errgsrHighBase, errgsrStride]
      omega
    rw [readGroup, if_neg passed, readGroup, if_pos selected, group]
    simp [Nat.not_lt.mp low]

theorem decodeRecord_groupRegister {index : Nat} (inside : index < maxRecords) :
    params.decodeRecord (groupRegister index) = none := by
  have bounds := groupRegister_bounds inside
  rw [Params.decodeRecord, if_pos]
  simp only [recordSpaceBytes, errgsrLowBase] at *
  omega

theorem decodeImpdef_groupRegister {index : Nat} (inside : index < maxRecords) :
    params.decodeImpdef (groupRegister index) = none := by
  have bounds := groupRegister_bounds inside
  have records : params.recordCount ≤ maxRecords := Nat.min_le_right _ _
  unfold Params.decodeImpdef
  split_ifs with isBelow isOdd isRecord
  · rfl
  · rfl
  · simp only [maxRecords, errgsrLowBase, errImpdefBase, errImpdefStride] at *
    omega
  · rfl

theorem groupRegister_ne_sysKey {index : Nat} (inside : index < maxRecords) :
    groupRegister index ≠ sysKey := by
  have bounds := groupRegister_bounds inside
  simp only [sysKey, errgsrLowBase] at *
  omega

theorem read32_groupAddress {bank index : Nat} (bankInside : bank < params.bankCount)
    (inside : index < maxRecords) :
    fmu.read32 params (groupAddress bank index) =
      groupStatusWord params (fmu.banks bank) (index / 64) (decide (32 ≤ index % 64)) := by
  rw [read32, decode_groupAddress bankInside inside]
  dsimp only
  rw [decodeRecord_groupRegister inside]
  dsimp only
  rw [decodeImpdef_groupRegister inside]
  dsimp only
  rw [if_neg (groupRegister_ne_sysKey inside), readGroup_groupRegister _ inside, Option.getD_some]

theorem access_groupAddress {bank index : Nat} (bankInside : bank < params.bankCount)
    (inside : index < maxRecords) :
    fmu.access params (.read (groupAddress bank index) 4) =
      (.ok (toBytes 4 (groupStatusWord params (fmu.banks bank) (index / 64)
        (decide (32 ≤ index % 64)))), fmu) := by
  have bounds := groupRegister_bounds inside
  have address := toNat_groupAddress bankInside inside
  have bankBound : params.bankCount ≤ maxBanks := Nat.min_le_right _ _
  have aligned : (groupAddress bank index).toNat % 4 = 0 := by
    rw [address]
    simp only [bankBytes]
    omega
  have isAccepted : (Access.read (groupAddress bank index) 4).exceeds
      (params.bankCount * bankBytes) = false := by
    refine Access.exceeds_eq_false_iff.mpr ⟨rfl, ?_⟩
    simp only [Access.len, Access.offset, address, bankBytes, maxBanks, errgsrHighBase,
      errgsrStride] at *
    omega
  rw [access, isAccepted, if_neg Bool.false_ne_true, readBytes_word _ aligned,
    read32_groupAddress bankInside inside]

theorem exact_of_settled (settled : Settled params fmu) : Exact params fmu := by
  have lines : fmu.lines = fmu.emitIrqs.lines := congrArg Fmu.lines settled.driven.symm
  refine ⟨?_, ?_, ?_, ?_, fun bank bankInside index inside => ⟨_,
    access_groupAddress bankInside inside, ?_⟩⟩
  · rw [lines, emitIrqs, settled.critical]
    exact anyRecord_iff raisesCritical_iff
  · rw [lines, emitIrqs, settled.nonCritical]
    exact anyRecord_iff raisesNonCritical_iff
  · rw [lines]
    rfl
  · rw [lines]
    rfl
  · rw [getLsbD_groupStatusWord _ _ _ (Nat.mod_lt _ (by decide))]
    have position : index / 64 * 64 + (if decide (32 ≤ index % 64) = true then 32 else 0) +
        index % 32 = index := by
      split <;> simp_all <;> omega
    rw [position]

theorem settled_resetRegisters : Settled params (resetRegisters params) := by
  have quiet (raises : Bank → Nat → Bool)
      (needsValid : ∀ bank index, raises bank index = true →
        bank.status index &&& statusV ≠ 0) :
      (resetRegisters params).anyRecord params raises = false := by
    apply Bool.eq_false_iff.mpr
    intro raised
    obtain ⟨bank, -, index, -, raises⟩ := (anyRecord_iff fun _ _ => Iff.rfl).mp raised
    exact needsValid _ _ raises (by simp [resetRegisters])
  refine ⟨rfl, ?_, ?_⟩
  · rw [quiet]
    · rfl
    · intro bank index raises
      simp only [raisesCritical, Bool.and_eq_true, bne_iff_ne] at raises
      exact raises.1.1
  · rw [quiet]
    · rfl
    · intro bank index raises
      simp only [raisesNonCritical, Bool.and_eq_true, bne_iff_ne] at raises
      exact raises.1.1

/-- In every state of every run the lines and the group words say what the records say. -/
theorem always_exact (params : Params) (accesses : List Access) :
    Always (step params) (Exact params) (resetRegisters params) accesses := by
  have settled : Always (step params) (Settled params) (resetRegisters params) accesses :=
    always_of_along (fun _ _ _ settled (_ : True) stepped => settled_step settled stepped)
      settled_resetRegisters (along_of_forall (fun _ _ _ => trivial) _)
  apply always_iff_prefix.mpr
  intro front back final split reached
  have settledAlways := always_iff_prefix.mp settled
  exact exact_of_settled (settledAlways front back final split reached)

end Fmu

end QboxPlatform.Zena
