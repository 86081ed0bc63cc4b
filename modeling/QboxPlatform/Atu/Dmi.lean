import QboxPlatform.Atu.Translate

/-!
# Direct memory access through the unit

`translation_get_direct_mem_ptr` turns a grant of the target behind the unit into one over
logical addresses, through the region that serves the request.
-/

namespace QboxPlatform.Atu

open Foundation

/-- `tlm_dmi`: a host pointer and the addresses it covers, both ends included. -/
structure Dmi where
  pointer : BitVec 64
  startAddress : BitVec 64
  endAddress : BitVec 64
  deriving DecidableEq

/-- The kinds of access a pointer can be asked for. -/
inductive Command
  | read
  | write
  | ignore
  deriving DecidableEq

/-- What the target behind the unit answers to a request for a pointer. -/
abbrev Target := Command → BitVec 64 → BitVec 32 → Option Dmi

/-- The logical addresses that an offset takes into a downstream range. -/
def mapBack (offset : BitVec 64) (downstream : Dmi) : Option (BitVec 64 × BitVec 64) :=
  if offsetIsNegative offset then
    let delta := negativeOffsetDelta offset
    if max64 - delta < downstream.startAddress then none
    else
      some (downstream.startAddress + delta,
        if max64 - delta < downstream.endAddress then max64 else downstream.endAddress + delta)
  else if downstream.endAddress < offset then none
  else
    some (if downstream.startAddress < offset then 0 else downstream.startAddress - offset,
      downstream.endAddress - offset)

/-- `std::max` and `std::min`. -/
def stdMax (first second : BitVec 64) : BitVec 64 := if first < second then second else first
def stdMin (first second : BitVec 64) : BitVec 64 := if second < first then second else first

theorem stdMax_le {first second address : BitVec 64} :
    stdMax first second ≤ address ↔ first ≤ address ∧ second ≤ address := by
  unfold stdMax
  split_ifs <;> bv_omega

theorem le_stdMin {first second address : BitVec 64} :
    address ≤ stdMin first second ↔ address ≤ first ∧ address ≤ second := by
  unfold stdMin
  split_ifs <;> bv_omega

/-- The end of `translation_get_direct_mem_ptr`: the downstream grant mapped back through
the region and clipped to it. -/
def clipGrant (logical : BitVec 64) (len : BitVec 32) (info : TranslationInfo)
    (downstream : Dmi) : Option Dmi :=
  match mapBack info.offset downstream with
  | none => none
  | some (logicalStart, logicalEnd) =>
      if logicalEnd < logicalStart then none
      else
        let upstreamStart := stdMax logicalStart info.logicalStart
        let upstreamEnd := stdMin logicalEnd info.logicalEnd
        if upstreamEnd < upstreamStart ∨ logical < upstreamStart ∨
            upstreamEnd < rangeEnd logical len then none
        else if !offsetIsNegative info.offset && max64 - info.offset < upstreamStart then none
        else
          match applyRegionOffset upstreamStart info.offset with
          | none => none
          | some physicalStart =>
              if physicalStart < downstream.startAddress then none
              else
                some {
                  pointer := downstream.pointer + (physicalStart - downstream.startAddress)
                  startAddress := upstreamStart
                  endAddress := upstreamEnd }

namespace RseAtu

/-- `translation_get_direct_mem_ptr`. -/
def getDirectMemPtr (config : AtuConfig) (target : Target) (atu : RseAtu) (command : Command)
    (logical : BitVec 64) (len : BitVec 32) : Option Dmi :=
  if !config.initiatorBound || !config.enableDmi then none
  else
    match atu.translateRange config logical len with
    | .error _ => none
    | .ok info => (target command info.physical len).bind (clipGrant logical len info)

end RseAtu

section Ranges

/-- An address that an offset keeps inside 64 bits has an image. -/
theorem exists_applyRegionOffset {address offset : BitVec 64}
    (low : 0 ≤ (address.toNat : Int) + offset.toInt)
    (high : (address.toNat : Int) + offset.toInt < 2 ^ 64) :
    ∃ physical, applyRegionOffset address offset = some physical := by
  refine ⟨BitVec.ofNat 64 (address.toNat + offset.toInt).toNat, ?_⟩
  rw [applyRegionOffset_eq_some, BitVec.toNat_ofNat]
  omega

/-- The range mapped back consists of the addresses that the offset takes into the
downstream range. -/
theorem mem_mapBack {offset : BitVec 64} {downstream : Dmi} {first last : BitVec 64}
    (mapped : mapBack offset downstream = some (first, last)) (address : BitVec 64) :
    first ≤ address ∧ address ≤ last ↔
      ∃ physical, applyRegionOffset address offset = some physical ∧
        downstream.startAddress ≤ physical ∧ physical ≤ downstream.endAddress := by
  have value := BitVec.toInt_eq_toNat_cond offset
  have offsetBound := offset.isLt
  have addressBound := address.isLt
  have startBound := downstream.startAddress.isLt
  have endBound := downstream.endAddress.isLt
  -- Both sides compare the signed sum with the ends of the downstream range.
  have image : (∃ physical, applyRegionOffset address offset = some physical ∧
        downstream.startAddress ≤ physical ∧ physical ≤ downstream.endAddress) ↔
      (downstream.startAddress.toNat : Int) ≤ address.toNat + offset.toInt ∧
        (address.toNat : Int) + offset.toInt ≤ downstream.endAddress.toNat := by
    constructor
    · rintro ⟨physical, applied, low, high⟩
      rw [applyRegionOffset_eq_some] at applied
      rw [BitVec.le_def] at low high
      omega
    · rintro ⟨low, high⟩
      obtain ⟨physical, applied⟩ := exists_applyRegionOffset (show 0 ≤ _ by omega)
        (show (address.toNat : Int) + offset.toInt < 2 ^ 64 by omega)
      refine ⟨physical, applied, ?_⟩
      rw [applyRegionOffset_eq_some] at applied
      rw [BitVec.le_def, BitVec.le_def]
      omega
  rw [image, BitVec.le_def, BitVec.le_def]
  unfold mapBack at mapped
  by_cases negative : offsetIsNegative offset = true
  · have high := (offsetIsNegative_iff offset).mp negative
    rw [if_neg (by omega)] at value
    have delta : (-offset).toNat = 2 ^ 64 - offset.toNat := by
      rw [BitVec.toNat_neg]
      omega
    have room : (max64 - -offset).toNat = offset.toNat - 1 := by
      rw [max64, BitVec.toNat_sub, BitVec.toNat_allOnes, delta]
      omega
    rw [if_pos negative, negativeOffsetDelta_eq] at mapped
    dsimp only at mapped
    split_ifs at mapped with beyond cut
    · obtain ⟨rfl, rfl⟩ := Prod.mk.inj (Option.some.inj mapped)
      rw [BitVec.lt_def, room] at beyond cut
      rw [BitVec.toNat_add, delta, max64, BitVec.toNat_allOnes]
      omega
    · obtain ⟨rfl, rfl⟩ := Prod.mk.inj (Option.some.inj mapped)
      rw [BitVec.lt_def, room] at beyond cut
      rw [BitVec.toNat_add, BitVec.toNat_add, delta]
      omega
  · have low := mt (offsetIsNegative_iff offset).mpr negative
    rw [if_pos (by omega)] at value
    rw [if_neg negative] at mapped
    split_ifs at mapped with before cut
    · obtain ⟨rfl, rfl⟩ := Prod.mk.inj (Option.some.inj mapped)
      rw [BitVec.lt_def] at before cut
      have zero : (0 : BitVec 64).toNat = 0 := rfl
      rw [BitVec.toNat_sub_of_le (by rw [BitVec.le_def]; omega), zero]
      omega
    · obtain ⟨rfl, rfl⟩ := Prod.mk.inj (Option.some.inj mapped)
      rw [BitVec.lt_def] at before cut
      rw [BitVec.toNat_sub_of_le (by rw [BitVec.le_def]; omega),
        BitVec.toNat_sub_of_le (by rw [BitVec.le_def]; omega)]
      omega

/-- What a grant is: the addresses of the region that its offset takes into the downstream
range, with a pointer that follows the offset. -/
structure Clipped (info : TranslationInfo) (downstream grant : Dmi) : Prop where
  covers : ∀ address : BitVec 64,
    grant.startAddress ≤ address ∧ address ≤ grant.endAddress ↔
      info.logicalStart ≤ address ∧ address ≤ info.logicalEnd ∧
        ∃ physical, applyRegionOffset address info.offset = some physical ∧
          downstream.startAddress ≤ physical ∧ physical ≤ downstream.endAddress
  pointer : ∃ physical, applyRegionOffset grant.startAddress info.offset = some physical ∧
    grant.pointer = downstream.pointer + (physical - downstream.startAddress)

theorem clipped_of_clipGrant {logical : BitVec 64} {len : BitVec 32} {info : TranslationInfo}
    {downstream grant : Dmi} (granted : clipGrant logical len info downstream = some grant) :
    Clipped info downstream grant := by
  unfold clipGrant at granted
  split at granted
  · cases granted
  · next logicalStart logicalEnd mapped =>
    dsimp only at granted
    split_ifs at granted with empty outside overflow
    · split at granted
      · cases granted
      · next physicalStart applied =>
        split_ifs at granted with before
        obtain rfl := Option.some.inj granted
        refine ⟨fun address => ?_, physicalStart, applied, rfl⟩
        rw [← mem_mapBack mapped address, stdMax_le, le_stdMin]
        exact ⟨fun inside => ⟨inside.1.2, inside.2.2, inside.1.1, inside.2.1⟩,
          fun inside => ⟨⟨inside.2.2.1, inside.1⟩, inside.2.2.2, inside.2.1⟩⟩

/-- The pointer of the grant at an address is the downstream pointer at its image. -/
theorem Clipped.pointer_add {info : TranslationInfo} {downstream grant : Dmi}
    (clipped : Clipped info downstream grant) {address physical : BitVec 64}
    (applied : applyRegionOffset address info.offset = some physical) :
    grant.pointer + (address - grant.startAddress) =
      downstream.pointer + (physical - downstream.startAddress) := by
  obtain ⟨physicalStart, start, pointer⟩ := clipped.pointer
  have image := applyRegionOffset_eq_add applied
  have imageStart := applyRegionOffset_eq_add start
  rw [pointer, image, imageStart]
  ring

end Ranges

namespace Dmi

/-- The pointer leads to the bytes of the memory behind the unit, over its whole range. -/
def Correct (downstream : Dmi) (host memory : BitVec 64 → Byte) : Prop :=
  ∀ physical, downstream.startAddress ≤ physical → physical ≤ downstream.endAddress →
    host (downstream.pointer + (physical - downstream.startAddress)) = memory physical

/-- Every byte of the range is the one that a translated access reaches. -/
def Agrees (config : AtuConfig) (atu : RseAtu) (grant : Dmi) (host memory : BitVec 64 → Byte) :
    Prop :=
  ∀ address, grant.startAddress ≤ address → address ≤ grant.endAddress →
    ∃ info, atu.translateRange config address 1 = .ok info ∧
      host (grant.pointer + (address - grant.startAddress)) = memory info.physical

end Dmi

namespace RseAtu

/-- At every address of the chosen region whose image is in the downstream range, the
lowest-indexed enabled region is permitted and has the same offset. -/
def SameOffset (config : AtuConfig) (atu : RseAtu) (info : TranslationInfo)
    (downstream : Dmi) : Prop :=
  ∀ address physical, info.logicalStart ≤ address → address ≤ info.logicalEnd →
    applyRegionOffset address info.offset = some physical →
    downstream.startAddress ≤ physical → physical ≤ downstream.endAddress →
    ∀ region, atu.First address 1 region →
      atu.regionSecurityAllowed config region = true ∧ atu.regionOffset region = some info.offset

variable {config : AtuConfig} {target : Target} {atu : RseAtu} {command : Command}
  {logical : BitVec 64} {len : BitVec 32} {info : TranslationInfo} {downstream grant : Dmi}

/-- Each single byte of the region that served an access is served by it, so that some
region is the first to serve it. -/
theorem exists_first_of_mem {region : Nat} (chosen : atu.First logical len region)
    {address : BitVec 64} (low : atu.regionStart region ≤ address)
    (high : address ≤ atu.regionEnd region - 1) : ∃ first, atu.First address 1 first := by
  obtain ⟨configured, startLow, endHigh, -, enabled⟩ := chosen.serves
  have serves : atu.Serves address 1 region := by
    have single : accessLen 1 = 1 := rfl
    refine ⟨configured, low, by bv_omega, ?_, enabled⟩
    rw [single]
    bv_omega
  obtain ⟨first, -, isFirst⟩ := exists_first chosen.supported serves
  exact ⟨first, isFirst⟩

/-- The bytes under a granted pointer are those that translated accesses reach, whatever
correct grant the target gave, exactly when no lower-indexed region with another outcome
overlaps the granted range. -/
theorem agrees_iff (chosen : atu.translateRange config logical len = .ok info)
    (served : target command info.physical len = some downstream)
    (granted : atu.getDirectMemPtr config target command logical len = some grant) :
    (∀ host memory, downstream.Correct host memory → grant.Agrees config atu host memory) ↔
      atu.SameOffset config info downstream := by
  have clipped : Clipped info downstream grant := by
    unfold getDirectMemPtr at granted
    split_ifs at granted
    rw [chosen] at granted
    dsimp only at granted
    rw [served] at granted
    exact clipped_of_clipGrant granted
  obtain ⟨region, isChosen, translated⟩ := translateRange_ok.mp chosen
  obtain ⟨-, -, -, -, start, finish, -⟩ := translateIn_ok.mp translated
  constructor
  · intro agrees address physical low high applied inside inside' first isFirst
    have covered := (clipped.covers address).mpr ⟨low, high, physical, applied, inside, inside'⟩
    -- A memory that tells this physical byte from every other one.
    let memory : BitVec 64 → Byte := fun target => if target = physical then 1 else 0
    let host : BitVec 64 → Byte := fun pointer =>
      memory (downstream.startAddress + (pointer - downstream.pointer))
    have back (target : BitVec 64) :
        host (downstream.pointer + (target - downstream.startAddress)) = memory target := by
      have same : downstream.startAddress +
          (downstream.pointer + (target - downstream.startAddress) - downstream.pointer) =
            target := by ring
      dsimp only [host]
      rw [same]
    obtain ⟨found, single, sameByte⟩ := agrees host memory (fun target _ _ => back target) address
      covered.1 covered.2
    obtain ⟨first', isFirst', translated'⟩ := translateRange_ok.mp single
    obtain rfl := isFirst.unique isFirst'
    obtain ⟨offset, applied', allowed, -⟩ := translateIn_ok.mp translated'
    refine ⟨allowed, ?_⟩
    rw [clipped.pointer_add applied, back] at sameByte
    have samePhysical : found.physical = physical := by
      by_contra other
      simp [memory, other] at sameByte
    rw [samePhysical] at applied'
    rw [offset, applyRegionOffset_injective applied' applied]
  · intro same host memory correct address low high
    obtain ⟨startLow, endHigh, physical, applied, inside, inside'⟩ :=
      (clipped.covers address).mp ⟨low, high⟩
    obtain ⟨first, isFirst⟩ :=
      exists_first_of_mem isChosen (start ▸ startLow) (finish ▸ endHigh)
    obtain ⟨allowed, offset⟩ := same address physical startLow endHigh applied inside inside'
      first isFirst
    refine ⟨⟨first, atu.regionStart first, atu.regionEnd first - 1, atu.regionOffsetPages first,
      info.offset, physical⟩, translateRange_ok.mpr ⟨first, isFirst, translateIn_ok.mpr
        ⟨offset, applied, allowed, rfl, rfl, rfl, rfl⟩⟩, ?_⟩
    rw [clipped.pointer_add applied]
    exact correct physical inside inside'

/-- Region 0 shifts page 1 by 0x100 pages; region 1 covers pages 0 to 3 without a shift. -/
def overlappingRegions : RseAtu :=
  [(0x020, 1), (0x0a0, 1), (0x120, 0x100), (0x0a4, 3), (0x004, 3)].foldl
    (fun atu (write : Nat × BitVec 32) => (atu.write32 write.1 write.2).1) (resetRegisters {})

/-- A target that grants all addresses at the null pointer. -/
def flatTarget : Target := fun _ _ _ => some ⟨0, 0, max64⟩

theorem translateRange_overlappingRegions :
    overlappingRegions.translateRange { enableDmi := true } 0 4 =
      .ok ⟨1, 0, 0x3fff, 0, 0, 0⟩ := by
  rfl

theorem getDirectMemPtr_overlappingRegions :
    overlappingRegions.getDirectMemPtr { enableDmi := true } flatTarget .read 0 4 =
      some ⟨0, 0, 0x3fff⟩ := by
  rfl

theorem agrees_iff_overlappingRegions :
    (∀ host memory, Dmi.Correct ⟨0, 0, max64⟩ host memory →
        Dmi.Agrees { enableDmi := true } overlappingRegions ⟨0, 0, 0x3fff⟩ host memory) ↔
      overlappingRegions.SameOffset { enableDmi := true } ⟨1, 0, 0x3fff, 0, 0, 0⟩
        ⟨0, 0, max64⟩ :=
  agrees_iff translateRange_overlappingRegions rfl getDirectMemPtr_overlappingRegions

/-- The pointer granted through region 1 covers page 1, which accesses reach through
region 0. -/
theorem not_agrees_overlappingRegions :
    overlappingRegions.getDirectMemPtr { enableDmi := true } flatTarget .read 0 4 =
        some ⟨0, 0, 0x3fff⟩ ∧
      ¬ ∀ host memory, Dmi.Correct ⟨0, 0, max64⟩ host memory →
        Dmi.Agrees { enableDmi := true } overlappingRegions ⟨0, 0, 0x3fff⟩ host memory := by
  refine ⟨getDirectMemPtr_overlappingRegions, fun agrees => ?_⟩
  let memory : BitVec 64 → Byte := fun target => if target = 0x1000 then 1 else 0
  have correct : Dmi.Correct ⟨0, 0, max64⟩ memory memory := by
    intro physical _ _
    simp
  obtain ⟨info, translated, same⟩ := agrees memory memory correct 0x1000 (by decide) (by decide)
  have reached : overlappingRegions.translateRange { enableDmi := true } 0x1000 1 =
      .ok ⟨0, 0x1000, 0x1fff, 0x100, 0x100000, 0x101000⟩ := rfl
  obtain rfl := Except.ok.inj (reached.symm.trans translated)
  exact absurd same (by decide)

end RseAtu

end QboxPlatform.Atu
