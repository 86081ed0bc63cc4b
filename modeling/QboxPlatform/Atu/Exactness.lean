import QboxPlatform.Atu.Translate

/-!
# Which translations succeed

The regions and their offsets as numbers: a translation adds a signed number of bytes to the
address, and the kind of a fault tells which of the conditions has failed.
-/

namespace QboxPlatform.Atu

open Foundation

namespace RseAtu

variable (config : AtuConfig) (atu : RseAtu) (logical : BitVec 64) (len : BitVec 32)

/-- The number of bytes of an access; an empty one counts as one byte. -/
def accessBytes (len : BitVec 32) : Nat := max 1 len.toNat

/-- The first address of a region. -/
def firstByte (region : Nat) : Nat := (atu.regionStartPage region).toNat * 2 ^ atu.pageShift

/-- The address behind a region, whose end page belongs to it. -/
def endByte (region : Nat) : Nat := ((atu.regionEndPage region).toNat + 1) * 2 ^ atu.pageShift

/-- A configured region holds the first byte of the access. -/
def Holds (region : Nat) : Prop :=
  atu.regionConfigured region = true ∧ atu.firstByte region ≤ logical.toNat ∧
    logical.toNat < atu.endByte region

/-- A configured region contains the whole access. -/
def Contains (region : Nat) : Prop :=
  atu.Holds logical region ∧ logical.toNat + accessBytes len ≤ atu.endByte region

/-- The lowest-indexed enabled one of the supported regions that contain the access. -/
structure Selected (region : Nat) : Prop where
  supported : region < atu.supportedRegionCount
  contains : atu.Contains logical len region
  enabled : atu.regionEnabled region = true
  lowest : ∀ lower < region, atu.Contains logical len lower → atu.regionEnabled lower = false

/-- The page offset of a region fits the address width after the shift. -/
def OffsetFits (region : Nat) : Prop :=
  (atu.regionOffsetPages region).toNat * 2 ^ atu.pageShift < 2 ^ 64

instance (region : Nat) : Decidable (atu.OffsetFits region) := inferInstanceAs (Decidable (_ < _))

/-- The byte offset of a region, a signed number. -/
def byteOffset (region : Nat) : Int :=
  (BitVec.ofNat 64 ((atu.regionOffsetPages region).toNat * 2 ^ atu.pageShift)).toInt

/-- The address with the byte offset is an address. -/
def SumFits (region : Nat) : Prop :=
  0 ≤ (logical.toNat : Int) + atu.byteOffset region ∧
    (logical.toNat : Int) + atu.byteOffset region < 2 ^ 64

/-- What each kind of fault tells. -/
def FaultReason : TranslationFault → Prop
  | .outOfRange =>
      (∀ region, ¬ atu.Selected logical len region) ∧
        ∃ region < atu.supportedRegionCount, atu.Holds logical region ∧
          ¬ atu.Contains logical len region
  | .disabled =>
      (∀ region, ¬ atu.Selected logical len region) ∧
        (∀ region < atu.supportedRegionCount, atu.Holds logical region →
          atu.Contains logical len region) ∧
        ∃ region < atu.supportedRegionCount, atu.Contains logical len region
  | .unmapped => ∀ region < atu.supportedRegionCount, ¬ atu.Holds logical region
  | .overflow =>
      ∃ region, atu.Selected logical len region ∧
        ¬ (atu.OffsetFits region ∧ atu.SumFits logical region)
  | .permission =>
      ∃ region, atu.Selected logical len region ∧ atu.OffsetFits region ∧
        atu.SumFits logical region ∧ atu.regionSecurityAllowed config region = false

section Numbers

variable {config atu logical len} {region : Nat}

theorem pageShift_le (atu : RseAtu) : atu.pageShift ≤ 15 := by
  have masked : (atu.load32 atubc &&& atubcPsMask).toNat ≤ atubcPsMask.toNat := by
    rw [BitVec.toNat_and]
    exact Nat.and_le_right
  have mask : atubcPsMask.toNat = 0xf0 := by decide
  rw [pageShift, BitVec.toNat_ushiftRight, Nat.shiftRight_eq_div_pow, atubcPsOff]
  omega

theorem pageSize_le (atu : RseAtu) : 2 ^ atu.pageShift ≤ 2 ^ 15 :=
  Nat.pow_le_pow_right Nat.two_pos atu.pageShift_le

theorem endByte_le (atu : RseAtu) (region : Nat) : atu.endByte region ≤ 2 ^ 47 := by
  have pages : (atu.regionEndPage region).toNat + 1 ≤ 2 ^ 32 := (atu.regionEndPage region).isLt
  exact (Nat.mul_le_mul pages atu.pageSize_le).trans (by norm_num)

theorem firstByte_lt (atu : RseAtu) (region : Nat) : atu.firstByte region < 2 ^ 47 := by
  have pages : (atu.regionStartPage region).toNat < 2 ^ 32 := (atu.regionStartPage region).isLt
  exact (Nat.mul_lt_mul_of_lt_of_le pages atu.pageSize_le (Nat.two_pow_pos 15)).trans_le
    (by norm_num)

/-- Page numbers of 32 bits are not shifted out of an address. -/
theorem regionStart_toNat (atu : RseAtu) (region : Nat) :
    (atu.regionStart region).toNat = atu.firstByte region := by
  have bound := atu.firstByte_lt region
  have page := (atu.regionStartPage region).isLt
  rw [firstByte] at bound ⊢
  rw [regionStart, BitVec.toNat_shiftLeft, BitVec.toNat_setWidth, Nat.shiftLeft_eq,
    Nat.mod_eq_of_lt (show (atu.regionStartPage region).toNat < 2 ^ 64 by omega),
    Nat.mod_eq_of_lt (by omega)]

theorem regionEnd_toNat (atu : RseAtu) (region : Nat) :
    (atu.regionEnd region).toNat = atu.endByte region := by
  have bound := atu.endByte_le region
  have page := (atu.regionEndPage region).isLt
  have one : (1 : BitVec 64).toNat = 1 := rfl
  rw [endByte] at bound ⊢
  rw [regionEnd, BitVec.toNat_shiftLeft, BitVec.toNat_add, BitVec.toNat_setWidth, one,
    Nat.shiftLeft_eq, Nat.mod_eq_of_lt (show (atu.regionEndPage region).toNat < 2 ^ 64 by omega),
    Nat.mod_eq_of_lt (show (atu.regionEndPage region).toNat + 1 < 2 ^ 64 by omega),
    Nat.mod_eq_of_lt (by omega)]

theorem accessLen_toNat (len : BitVec 32) : (accessLen len).toNat = accessBytes len := by
  have bound := len.isLt
  have one : (1 : BitVec 64).toNat = 1 := rfl
  have zero : len = 0 ↔ len.toNat = 0 := by
    rw [← BitVec.toNat_inj]
    rfl
  rw [accessLen, accessBytes]
  split_ifs with empty
  · rw [one]
    have none := zero.mp empty
    omega
  · rw [BitVec.toNat_setWidth]
    have some := mt zero.mpr empty
    omega

/-- The check of the first byte. -/
theorem holds_iff :
    atu.Holds logical region ↔ atu.regionConfigured region = true ∧
      ¬ (atu.regionEnd region ≤ atu.regionStart region ∨ logical < atu.regionStart region ∨
        atu.regionEnd region ≤ logical) := by
  rw [Holds, BitVec.le_def, BitVec.lt_def, BitVec.le_def, regionStart_toNat, regionEnd_toNat]
  refine and_congr_right fun _ => ?_
  omega

/-- The check of the last byte. -/
theorem contains_iff :
    atu.Contains logical len region ↔ atu.Holds logical region ∧
      ¬ atu.regionEnd region - logical < accessLen len := by
  rw [Contains]
  refine and_congr_right fun holds => ?_
  obtain ⟨-, -, below⟩ := holds
  have bound := atu.endByte_le region
  rw [BitVec.lt_def, BitVec.toNat_sub, regionEnd_toNat, accessLen_toNat]
  omega

theorem serves_iff :
    atu.Serves logical len region ↔
      atu.Contains logical len region ∧ atu.regionEnabled region = true := by
  rw [contains_iff, holds_iff, Serves, not_or, not_or, BitVec.not_le, BitVec.not_le,
    BitVec.not_lt, BitVec.not_lt]
  constructor
  · rintro ⟨configured, start, finish, whole, enabled⟩
    have some : atu.regionStart region < atu.regionEnd region := by
      rw [BitVec.lt_def]
      exact Nat.lt_of_le_of_lt (BitVec.le_def.mp start) (BitVec.lt_def.mp finish)
    exact ⟨⟨⟨configured, some, start, finish⟩, whole⟩, enabled⟩
  · rintro ⟨⟨⟨configured, -, start, finish⟩, whole⟩, enabled⟩
    exact ⟨configured, start, finish, whole, enabled⟩

theorem first_iff : atu.First logical len region ↔ atu.Selected logical len region := by
  constructor
  · rintro ⟨supported, serves, lowest⟩
    obtain ⟨contains, enabled⟩ := serves_iff.mp serves
    refine ⟨supported, contains, enabled, ?_⟩
    intro lower below lowerContains
    by_contra lowerEnabled
    exact lowest lower below
      (serves_iff.mpr ⟨lowerContains, Bool.eq_true_of_not_eq_false lowerEnabled⟩)
  · rintro ⟨supported, contains, enabled, lowest⟩
    refine ⟨supported, serves_iff.mpr ⟨contains, enabled⟩, ?_⟩
    intro lower below lowerServes
    obtain ⟨lowerContains, lowerEnabled⟩ := serves_iff.mp lowerServes
    rw [lowest lower below lowerContains] at lowerEnabled
    cases lowerEnabled

theorem regionOffset_eq_some {offset : BitVec 64} :
    atu.regionOffset region = some offset ↔
      atu.OffsetFits region ∧
        offset = BitVec.ofNat 64 ((atu.regionOffsetPages region).toNat * 2 ^ atu.pageShift) := by
  have shifted : atu.regionOffsetPages region <<< atu.pageShift =
      BitVec.ofNat 64 ((atu.regionOffsetPages region).toNat * 2 ^ atu.pageShift) := by
    apply BitVec.eq_of_toNat_eq
    rw [BitVec.toNat_shiftLeft, Nat.shiftLeft_eq, BitVec.toNat_ofNat]
  have fits : ¬ max64 >>> atu.pageShift < atu.regionOffsetPages region ↔ atu.OffsetFits region := by
    rw [OffsetFits, BitVec.lt_def, BitVec.toNat_ushiftRight, max64, BitVec.toNat_allOnes,
      Nat.shiftRight_eq_div_pow, not_lt, Nat.le_div_iff_mul_le (Nat.two_pow_pos _)]
    omega
  rw [regionOffset, ← shifted, ← fits]
  split_ifs with overflows
  · simp [overflows]
  · simp [overflows, eq_comm]

end Numbers

section Walk

variable {config atu logical len}

instance (region : Nat) : Decidable (atu.Holds logical region) :=
  inferInstanceAs (Decidable (_ ∧ _))

instance (region : Nat) : Decidable (atu.Contains logical len region) :=
  inferInstanceAs (Decidable (_ ∧ _))

/-- The pending fault behind a region that does not serve the access. -/
def nextFault (atu : RseAtu) (logical : BitVec 64) (len : BitVec 32)
    (pendingFault : TranslationFault) (region : Nat) : TranslationFault :=
  if atu.Contains logical len region then
    if pendingFault = .unmapped then .disabled else pendingFault
  else if atu.Holds logical region then .outOfRange
  else pendingFault

theorem translateRegions_skip {remaining region : Nat} {pendingFault : TranslationFault}
    (other : ¬ (atu.Contains logical len region ∧ atu.regionEnabled region = true)) :
    translateRegions config atu logical len (remaining + 1) region pendingFault =
      translateRegions config atu logical len remaining (region + 1)
        (nextFault atu logical len pendingFault region) := by
  rw [translateRegions, nextFault]
  by_cases configured : atu.regionConfigured region = true
  · rw [if_neg (by simp [configured])]
    by_cases outside : atu.regionEnd region ≤ atu.regionStart region ∨
        logical < atu.regionStart region ∨ atu.regionEnd region ≤ logical
    · have notHolds : ¬ atu.Holds logical region := fun holds => (holds_iff.mp holds).2 outside
      rw [if_pos outside, if_neg (fun contains => notHolds contains.1), if_neg notHolds]
    · have holds := holds_iff.mpr ⟨configured, outside⟩
      rw [if_neg outside]
      by_cases short : atu.regionEnd region - logical < accessLen len
      · rw [if_pos short, if_neg (fun contains => (contains_iff.mp contains).2 short),
          if_pos holds]
      · have contains := contains_iff.mpr ⟨holds, short⟩
        have notEnabled : ¬ atu.regionEnabled region = true := fun enabled =>
          other ⟨contains, enabled⟩
        rw [if_neg short, if_pos (by simp [notEnabled]), if_pos contains]
  · have notHolds : ¬ atu.Holds logical region := fun holds => configured holds.1
    rw [if_pos (by simp [configured]), if_neg (fun contains => notHolds contains.1),
      if_neg notHolds]

/-- Without a region that serves the access, the walk ends with the pending fault. -/
theorem translateRegions_none {remaining region : Nat} {pendingFault : TranslationFault}
    (none : ∀ candidate, region ≤ candidate → candidate < region + remaining →
      ¬ (atu.Contains logical len candidate ∧ atu.regionEnabled candidate = true)) :
    translateRegions config atu logical len remaining region pendingFault =
      .error ((List.range' region remaining).foldl (nextFault atu logical len) pendingFault) := by
  induction remaining generalizing region pendingFault with
  | zero => rfl
  | succ remaining inductionHypothesis =>
      rw [translateRegions_skip (none region le_rfl (by omega)), inductionHypothesis]
      · rfl
      · intro candidate low high
        exact none candidate (by omega) (by omega)

/-- A region that is too short decides the pending fault; otherwise one that contains the access
does, if nothing is pending yet. -/
theorem foldl_nextFault (regions : List Nat) (pendingFault : TranslationFault) :
    regions.foldl (nextFault atu logical len) pendingFault =
      if ∃ region ∈ regions, atu.Holds logical region ∧ ¬ atu.Contains logical len region then
        .outOfRange
      else if pendingFault = .unmapped ∧ ∃ region ∈ regions, atu.Contains logical len region then
        .disabled
      else pendingFault := by
  induction regions generalizing pendingFault with
  | nil => simp
  | cons region rest inductionHypothesis =>
      rw [List.foldl_cons, inductionHypothesis, nextFault]
      by_cases contains : atu.Contains logical len region
      · have holds := contains.1
        by_cases nothing : pendingFault = .unmapped
        · simp [contains, holds, nothing]
        · simp [contains, holds, nothing]
      · by_cases holds : atu.Holds logical region
        · simp [contains, holds]
        · simp [contains, holds]

/-- The regions that the walk has passed decide the fault when none serves the access. -/
theorem translateRange_none {fault : TranslationFault}
    (none : ∀ region, ¬ atu.Selected logical len region) :
    atu.translateRange config logical len = .error fault ↔
      fault =
        if ∃ region ∈ List.range' 0 atu.supportedRegionCount,
            atu.Holds logical region ∧ ¬ atu.Contains logical len region then .outOfRange
        else if ∃ region ∈ List.range' 0 atu.supportedRegionCount,
            atu.Contains logical len region then .disabled
        else .unmapped := by
  have noneServes : ∀ candidate, 0 ≤ candidate → candidate < 0 + atu.supportedRegionCount →
      ¬ (atu.Contains logical len candidate ∧ atu.regionEnabled candidate = true) := by
    intro candidate _ supported serves
    obtain ⟨first, -, isFirst⟩ := exists_first (by omega) (serves_iff.mpr serves)
    exact none first (first_iff.mp isFirst)
  rw [translateRange, translateRegions_none noneServes, foldl_nextFault]
  simp only [true_and, Except.error.injEq]
  exact eq_comm

/-- The walk ends at the first region that serves the access. -/
theorem translateRegions_selected {remaining region found : Nat} {pendingFault : TranslationFault}
    (low : region ≤ found) (high : found < region + remaining)
    (contains : atu.Contains logical len found) (enabled : atu.regionEnabled found = true)
    (lowest : ∀ candidate, region ≤ candidate → candidate < found →
      ¬ (atu.Contains logical len candidate ∧ atu.regionEnabled candidate = true)) :
    translateRegions config atu logical len remaining region pendingFault =
      atu.translateIn config logical found := by
  induction remaining generalizing region pendingFault with
  | zero => omega
  | succ remaining inductionHypothesis =>
      rcases Nat.eq_or_lt_of_le low with rfl | passed
      · obtain ⟨holds, whole⟩ := contains_iff.mp contains
        obtain ⟨configured, inside⟩ := holds_iff.mp holds
        rw [translateRegions, if_neg (by simp [configured]), if_neg inside, if_neg whole,
          if_neg (by simp [enabled])]
      · rw [translateRegions_skip (lowest region le_rfl passed)]
        apply inductionHypothesis passed (by omega)
        intro candidate above below
        exact lowest candidate (by omega) below

theorem translateRange_selected {region : Nat} (selected : atu.Selected logical len region) :
    atu.translateRange config logical len = atu.translateIn config logical region := by
  obtain ⟨supported, contains, enabled, lowest⟩ := selected
  apply translateRegions_selected (Nat.zero_le region) (by omega) contains enabled
  rintro candidate - below ⟨candidateContains, candidateEnabled⟩
  rw [lowest candidate below candidateContains] at candidateEnabled
  cases candidateEnabled

end Walk

section Exactness

variable {config atu logical len} {region : Nat}

theorem Selected.unique {other : Nat} (selected : atu.Selected logical len region)
    (otherSelected : atu.Selected logical len other) : region = other :=
  (first_iff.mpr selected).unique (first_iff.mpr otherSelected)

/-- The signed sum. -/
theorem sum_eq_some {physical : BitVec 64} :
    applyRegionOffset logical
        (BitVec.ofNat 64 ((atu.regionOffsetPages region).toNat * 2 ^ atu.pageShift)) =
          some physical ↔
      (physical.toNat : Int) = logical.toNat + atu.byteOffset region :=
  applyRegionOffset_eq_some

theorem sumFits_iff :
    atu.SumFits logical region ↔
      ∃ physical : BitVec 64, (physical.toNat : Int) = logical.toNat + atu.byteOffset region := by
  constructor
  · rintro ⟨low, high⟩
    refine ⟨BitVec.ofNat 64 ((logical.toNat : Int) + atu.byteOffset region).toNat, ?_⟩
    rw [BitVec.toNat_ofNat]
    omega
  · rintro ⟨physical, sum⟩
    have bound := physical.isLt
    constructor
    · omega
    · omega

/-- What the selected region makes of the access. -/
theorem translateIn_ok_iff {info : TranslationInfo} :
    atu.translateIn config logical region = .ok info ↔
      (atu.OffsetFits region ∧ atu.regionSecurityAllowed config region = true) ∧
        (info.physical.toNat : Int) = logical.toNat + atu.byteOffset region ∧
        info.offset = BitVec.ofNat 64 ((atu.regionOffsetPages region).toNat * 2 ^ atu.pageShift) ∧
        info.region = region ∧ info.logicalStart = atu.regionStart region ∧
        info.logicalEnd = atu.regionEnd region - 1 ∧
        info.offsetPages = atu.regionOffsetPages region := by
  rw [translateIn_ok, regionOffset_eq_some]
  constructor
  · rintro ⟨⟨fits, offset⟩, applied, allowed, rest⟩
    rw [offset, sum_eq_some] at applied
    exact ⟨⟨fits, allowed⟩, applied, offset, rest⟩
  · rintro ⟨⟨fits, allowed⟩, sum, offset, rest⟩
    refine ⟨⟨fits, offset⟩, ?_, allowed, rest⟩
    rwa [offset, sum_eq_some]

theorem exists_translateIn_ok (fits : atu.OffsetFits region) (sumFits : atu.SumFits logical region)
    (allowed : atu.regionSecurityAllowed config region = true) :
    ∃ info, atu.translateIn config logical region = .ok info := by
  obtain ⟨physical, sum⟩ := sumFits_iff.mp sumFits
  refine ⟨{
    region := region
    logicalStart := atu.regionStart region
    logicalEnd := atu.regionEnd region - 1
    offsetPages := atu.regionOffsetPages region
    offset := BitVec.ofNat 64 ((atu.regionOffsetPages region).toNat * 2 ^ atu.pageShift)
    physical := physical }, ?_⟩
  exact translateIn_ok_iff.mpr ⟨⟨fits, allowed⟩, sum, rfl, rfl, rfl, rfl, rfl⟩

theorem regionOffset_eq_none : atu.regionOffset region = none ↔ ¬ atu.OffsetFits region := by
  rw [Option.eq_none_iff_forall_ne_some]
  constructor
  · intro none fits
    exact none _ (regionOffset_eq_some.mpr ⟨fits, rfl⟩)
  · intro overflows offset shifted
    exact overflows (regionOffset_eq_some.mp shifted).1

theorem sum_eq_none :
    applyRegionOffset logical
        (BitVec.ofNat 64 ((atu.regionOffsetPages region).toNat * 2 ^ atu.pageShift)) = none ↔
      ¬ atu.SumFits logical region := by
  rw [Option.eq_none_iff_forall_ne_some, sumFits_iff, not_exists]
  exact forall_congr' fun physical => sum_eq_some.not

theorem translateIn_error_iff {fault : TranslationFault} :
    atu.translateIn config logical region = .error fault ↔
      (fault = .overflow ∧ ¬ (atu.OffsetFits region ∧ atu.SumFits logical region)) ∨
        (fault = .permission ∧ atu.OffsetFits region ∧ atu.SumFits logical region ∧
          atu.regionSecurityAllowed config region = false) := by
  rw [translateIn]
  cases shifted : atu.regionOffset region with
  | none =>
      have overflows := regionOffset_eq_none.mp shifted
      simp only [Except.error.injEq, overflows, false_and, not_false_iff, and_true, and_false,
        or_false]
      exact eq_comm
  | some offset =>
      obtain ⟨fits, rfl⟩ := regionOffset_eq_some.mp shifted
      dsimp only
      cases applied : applyRegionOffset logical
          (BitVec.ofNat 64 ((atu.regionOffsetPages region).toNat * 2 ^ atu.pageShift)) with
      | none =>
          have leaves := sum_eq_none.mp applied
          simp only [Except.error.injEq, leaves, false_and, not_false_iff, and_true, and_false,
            or_false]
          exact eq_comm
      | some physical =>
          have sumFits := sumFits_iff.mpr ⟨physical, sum_eq_some.mp applied⟩
          cases allowed : atu.regionSecurityAllowed config region with
          | true => simp only [if_true, reduceCtorEq, fits, sumFits, and_true, not_true,
              and_false, or_false]
          | false =>
              simp only [Bool.false_eq_true, if_false, Except.error.injEq, fits, sumFits, and_true,
                not_true, and_false, false_or]
              exact eq_comm

theorem translateRange_ok_iff {info : TranslationInfo} :
    atu.translateRange config logical len = .ok info ↔
      ∃ region, atu.Selected logical len region ∧
        atu.translateIn config logical region = .ok info := by
  rw [translateRange_ok]
  simp only [first_iff]

theorem translateRange_error_iff {fault : TranslationFault} :
    atu.translateRange config logical len = .error fault ↔
      FaultReason config atu logical len fault := by
  by_cases serves : ∃ region, atu.Selected logical len region
  · obtain ⟨region, selected⟩ := serves
    have supported := selected.supported
    have contains := selected.contains
    have only : ∀ other, atu.Selected logical len other ↔ other = region := by
      intro other
      constructor
      · exact fun otherSelected => otherSelected.unique selected
      · rintro rfl
        exact selected
    rw [translateRange_selected selected, translateIn_error_iff]
    cases fault with
    | unmapped => simpa [FaultReason] using ⟨region, supported, contains.1⟩
    | disabled => simp [FaultReason, only]
    | outOfRange => simp [FaultReason, only]
    | permission => simp [FaultReason, only]
    | overflow => simp [FaultReason, only]
  · have none : ∀ region, ¬ atu.Selected logical len region := not_exists.mp serves
    have members : ∀ region, region ∈ List.range' 0 atu.supportedRegionCount ↔
        region < atu.supportedRegionCount := by
      intro region
      rw [List.mem_range'_1]
      omega
    rw [translateRange_none none]
    simp only [members]
    by_cases short : ∃ region < atu.supportedRegionCount,
        atu.Holds logical region ∧ ¬ atu.Contains logical len region
    · rw [if_pos short]
      obtain ⟨region, supported, holds, notContains⟩ := short
      cases fault with
      | unmapped => simpa [FaultReason] using ⟨region, supported, holds⟩
      | disabled =>
          simp only [reduceCtorEq, FaultReason, false_iff]
          rintro ⟨-, whole, -⟩
          exact notContains (whole region supported holds)
      | outOfRange =>
          exact iff_of_true rfl ⟨none, region, supported, holds, notContains⟩
      | permission => simp [FaultReason, none]
      | overflow => simp [FaultReason, none]
    · rw [if_neg short]
      push Not at short
      by_cases some : ∃ region < atu.supportedRegionCount, atu.Contains logical len region
      · rw [if_pos some]
        cases fault with
        | unmapped =>
            obtain ⟨region, supported, contains⟩ := some
            simpa [FaultReason] using ⟨region, supported, contains.1⟩
        | disabled => exact iff_of_true rfl ⟨none, short, some⟩
        | outOfRange =>
            simp only [reduceCtorEq, FaultReason, false_iff]
            rintro ⟨-, region, supported, holds, notContains⟩
            exact notContains (short region supported holds)
        | permission => simp [FaultReason, none]
        | overflow => simp [FaultReason, none]
      · rw [if_neg some]
        have noneHolds : ∀ region < atu.supportedRegionCount, ¬ atu.Holds logical region :=
          fun region supported holds => some ⟨region, supported, short region supported holds⟩
        cases fault with
        | unmapped => exact iff_of_true rfl noneHolds
        | disabled =>
            simp only [reduceCtorEq, FaultReason, false_iff]
            exact fun reason => some reason.2.2
        | outOfRange =>
            simp only [reduceCtorEq, FaultReason, false_iff]
            rintro ⟨-, region, supported, holds, -⟩
            exact noneHolds region supported holds
        | permission => simp [FaultReason, none]
        | overflow => simp [FaultReason, none]

/-- A latched fault changes two words. -/
theorem latchTranslationFault_spec (atu : RseAtu) (logical : BitVec 64) :
    (atu.latchTranslationFault logical).load32 atuis = atu.load32 atuis ||| atuisMismatchError ∧
      (atu.latchTranslationFault logical).load32 atuma = logical.setWidth 32 ∧
      ∀ index, (index < atuis ∨ atuis + 4 ≤ index) → (index < atuma ∨ atuma + 4 ≤ index) →
        (atu.latchTranslationFault logical).regs index = atu.regs index := by
  refine ⟨?_, Image.load32_store32 _ _ _, ?_⟩
  · have apart : atuis + 4 ≤ atuma ∨ atuma + 4 ≤ atuis := by decide
    exact (Image.load32_store32_of_disjoint _ _ apart).trans (Image.load32_store32 _ _ _)
  · intro index outsideStatus outsideAddress
    simp only [latchTranslationFault, store32]
    rw [Image.store32_outside _ _ _ outsideAddress, Image.store32_outside _ _ _ outsideStatus]

/-- The regions lie so low that a positive offset of 63 bits does not reach the end of the address
space, and a negative one only goes down. -/
theorem no_byte_wraps {physical : BitVec 64} (contains : atu.Contains logical len region)
    (sum : (physical.toNat : Int) = logical.toNat + atu.byteOffset region) :
    physical.toNat + accessBytes len ≤ 2 ^ 64 := by
  have low := contains.2
  have bound := atu.endByte_le region
  have offsetBound := @BitVec.toInt_lt 64
    (BitVec.ofNat 64 ((atu.regionOffsetPages region).toNat * 2 ^ atu.pageShift))
  rw [byteOffset] at sum
  omega

/-- A translation succeeds exactly if a region is selected, its offset and the sum fit and its
attributes are permitted.  It adds the signed byte offset, and no byte of the access wraps.  A
fault tells which condition has failed, and changes the two registers of the latch, if at all. -/
theorem translation_exact (config : AtuConfig) (atu : RseAtu) (logical : BitVec 64)
    (len : BitVec 32) (latchFault : Bool) :
    ((∃ info, (atu.translateRangeLatching config logical len latchFault).1 = .ok info) ↔
        ∃ region, atu.Selected logical len region ∧ atu.OffsetFits region ∧
          atu.SumFits logical region ∧ atu.regionSecurityAllowed config region = true) ∧
      (∀ info, (atu.translateRangeLatching config logical len latchFault).1 = .ok info →
        atu.Selected logical len info.region ∧
          (info.physical.toNat : Int) = logical.toNat + atu.byteOffset info.region ∧
          info.physical.toNat + accessBytes len ≤ 2 ^ 64 ∧
          (atu.translateRangeLatching config logical len latchFault).2 = atu) ∧
      (∀ fault, (atu.translateRangeLatching config logical len latchFault).1 = .error fault ↔
        FaultReason config atu logical len fault) ∧
      (∀ fault, (atu.translateRangeLatching config logical len latchFault).1 = .error fault →
        if latchFault then
          (atu.translateRangeLatching config logical len latchFault).2.load32 atuis =
              atu.load32 atuis ||| atuisMismatchError ∧
            (atu.translateRangeLatching config logical len latchFault).2.load32 atuma =
              logical.setWidth 32
        else (atu.translateRangeLatching config logical len latchFault).2 = atu) ∧
      ∀ index, (index < atuis ∨ atuis + 4 ≤ index) → (index < atuma ∨ atuma + 4 ≤ index) →
        (atu.translateRangeLatching config logical len latchFault).2.regs index =
          atu.regs index := by
  have ok : ∀ info, (atu.translateRangeLatching config logical len latchFault).1 = .ok info ↔
      atu.translateRange config logical len = .ok info := by
    intro info
    rw [translateRangeLatching]
    cases atu.translateRange config logical len with
    | ok _ => rfl
    | error _ => rfl
  have error : ∀ fault, (atu.translateRangeLatching config logical len latchFault).1 =
      .error fault ↔ atu.translateRange config logical len = .error fault := by
    intro fault
    rw [translateRangeLatching]
    cases atu.translateRange config logical len with
    | ok _ => rfl
    | error _ => rfl
  have afterOk : ∀ info, atu.translateRange config logical len = .ok info →
      (atu.translateRangeLatching config logical len latchFault).2 = atu := by
    intro info translated
    rw [translateRangeLatching, translated]
  have afterError : ∀ fault, atu.translateRange config logical len = .error fault →
      (atu.translateRangeLatching config logical len latchFault).2 =
        if latchFault then atu.latchTranslationFault logical else atu := by
    intro fault failed
    rw [translateRangeLatching, failed]
  simp only [ok, error]
  obtain ⟨status, address, others⟩ := latchTranslationFault_spec atu logical
  refine ⟨?_, ?_, fun fault => translateRange_error_iff, ?_, ?_⟩
  · constructor
    · rintro ⟨info, translated⟩
      obtain ⟨region, selected, translated⟩ := translateRange_ok_iff.mp translated
      obtain ⟨⟨fits, allowed⟩, sum, -⟩ := translateIn_ok_iff.mp translated
      exact ⟨region, selected, fits, sumFits_iff.mpr ⟨_, sum⟩, allowed⟩
    · rintro ⟨region, selected, fits, sumFits, allowed⟩
      obtain ⟨info, translated⟩ := exists_translateIn_ok fits sumFits allowed
      exact ⟨info, translateRange_ok_iff.mpr ⟨region, selected, translated⟩⟩
  · intro info translated
    have unchanged := afterOk info translated
    obtain ⟨region, selected, translated⟩ := translateRange_ok_iff.mp translated
    obtain ⟨-, sum, -, rfl, -⟩ := translateIn_ok_iff.mp translated
    exact ⟨selected, sum, no_byte_wraps selected.contains sum, unchanged⟩
  · intro fault failed
    rw [afterError fault failed]
    cases latchFault with
    | true => exact ⟨status, address⟩
    | false => exact if_neg Bool.false_ne_true
  · intro index outsideStatus outsideAddress
    cases outcome : atu.translateRange config logical len with
    | ok info => rw [afterOk info outcome]
    | error fault =>
        rw [afterError fault outcome]
        cases latchFault with
        | true => exact others index outsideStatus outsideAddress
        | false => rfl

end Exactness

end RseAtu

end QboxPlatform.Atu
