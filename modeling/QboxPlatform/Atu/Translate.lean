import QboxPlatform.Atu.Registers

/-!
# Address translation

`translate_range` walks the regions in index order, and the first enabled region that
contains the whole access decides the outcome.
-/

namespace QboxPlatform.Atu

open Foundation

inductive TranslationFault
  | unmapped
  | disabled
  | outOfRange
  | permission
  | overflow
  deriving DecidableEq

/-- `translation_info` of a successful translation. -/
structure TranslationInfo where
  region : Nat
  logicalStart : BitVec 64
  logicalEnd : BitVec 64
  offsetPages : BitVec 64
  offset : BitVec 64
  physical : BitVec 64
  deriving DecidableEq

/-- `std::numeric_limits<uint64_t>::max()`. -/
def max64 : BitVec 64 := BitVec.allOnes 64

def offsetIsNegative (offset : BitVec 64) : Bool := offset &&& 1#64 <<< 63 != 0

def negativeOffsetDelta (offset : BitVec 64) : BitVec 64 := ~~~offset + 1

/-- Add a signed offset to an address, unless the sum leaves the 64-bit range. -/
def applyRegionOffset (logical offset : BitVec 64) : Option (BitVec 64) :=
  if offsetIsNegative offset then
    if logical < negativeOffsetDelta offset then none
    else some (logical - negativeOffsetDelta offset)
  else if max64 - offset < logical then none
  else some (logical + offset)

/-- `range_end`: the last address of an access, cut off at the end of the address space. -/
def rangeEnd (start : BitVec 64) (len : BitVec 32) : BitVec 64 :=
  if len = 0 then start
  else
    let span := len.setWidth 64 - 1
    if max64 - span < start then max64 else start + span

namespace RseAtu

/-- The first address of a region. -/
def regionStart (atu : RseAtu) (region : Nat) : BitVec 64 :=
  (atu.regionStartPage region).setWidth 64 <<< atu.pageShift

/-- The address after the last one of a region. -/
def regionEnd (atu : RseAtu) (region : Nat) : BitVec 64 :=
  ((atu.regionEndPage region).setWidth 64 + 1) <<< atu.pageShift

def accessLen (len : BitVec 32) : BitVec 64 := if len = 0 then 1 else len.setWidth 64

/-- The byte offset of a region, unless its pages overflow. -/
def regionOffset (atu : RseAtu) (region : Nat) : Option (BitVec 64) :=
  if max64 >>> atu.pageShift < atu.regionOffsetPages region then none
  else some (atu.regionOffsetPages region <<< atu.pageShift)

section Translation

variable (config : AtuConfig) (atu : RseAtu)

/-- The end of the loop body, for the region that serves the access. -/
def translateIn (logical : BitVec 64) (region : Nat) :
    Except TranslationFault TranslationInfo :=
  match atu.regionOffset region with
  | none => .error .overflow
  | some offset =>
      match applyRegionOffset logical offset with
      | none => .error .overflow
      | some physical =>
          if atu.regionSecurityAllowed config region then
            .ok {
              region := region
              logicalStart := atu.regionStart region
              logicalEnd := atu.regionEnd region - 1
              offsetPages := atu.regionOffsetPages region
              offset := offset
              physical := physical }
          else .error .permission

/-- The loop of `translate_range` over `remaining` regions. -/
def translateRegions (logical : BitVec 64) (len : BitVec 32) :
    (remaining region : Nat) → TranslationFault → Except TranslationFault TranslationInfo
  | 0, _, pendingFault => .error pendingFault
  | remaining + 1, region, pendingFault =>
      if !atu.regionConfigured region then
        translateRegions logical len remaining (region + 1) pendingFault
      else if atu.regionEnd region ≤ atu.regionStart region ∨
          logical < atu.regionStart region ∨ atu.regionEnd region ≤ logical then
        translateRegions logical len remaining (region + 1) pendingFault
      else if atu.regionEnd region - logical < accessLen len then
        translateRegions logical len remaining (region + 1) .outOfRange
      else if !atu.regionEnabled region then
        translateRegions logical len remaining (region + 1)
          (if pendingFault = .unmapped then .disabled else pendingFault)
      else atu.translateIn config logical region

/-- `translate_range`, without the latching of a fault. -/
def translateRange (logical : BitVec 64) (len : BitVec 32) :
    Except TranslationFault TranslationInfo :=
  translateRegions config atu logical len atu.supportedRegionCount 0 .unmapped

/-- `latch_translation_fault`. -/
def latchTranslationFault (logical : BitVec 64) : RseAtu :=
  (atu.store32 atuis (atu.load32 atuis ||| atuisMismatchError)).store32 atuma
    (logical.setWidth 32)

/-- `translate_address`: the physical address, and the registers with a fault latched. -/
def translateAddress (logical : BitVec 64) (len : BitVec 32) : Option (BitVec 64) × RseAtu :=
  match atu.translateRange config logical len with
  | .ok info => (some info.physical, atu)
  | .error _ => (none, atu.latchTranslationFault logical)

/-- `translate_range`, with the registers after it: a fault is latched on request. -/
def translateRangeLatching (logical : BitVec 64) (len : BitVec 32) (latchFault : Bool) :
    Except TranslationFault TranslationInfo × RseAtu :=
  match atu.translateRange config logical len with
  | .ok info => (.ok info, atu)
  | .error fault => (.error fault, if latchFault then atu.latchTranslationFault logical else atu)

end Translation

end RseAtu

section Offsets

theorem offsetIsNegative_iff (offset : BitVec 64) :
    offsetIsNegative offset = true ↔ 2 ^ 63 ≤ offset.toNat := by
  have top : (1#64 <<< 63 : BitVec 64) = BitVec.twoPow 64 63 := rfl
  have bit : offset.getLsbD 63 = offset.msb := (BitVec.msb_eq_getLsbD_last offset).symm
  rw [offsetIsNegative, top, BitVec.and_twoPow, bit, BitVec.msb_eq_decide, bne_iff_ne]
  by_cases high : 2 ^ 63 ≤ offset.toNat
  · simp only [high, decide_true, if_true, iff_true]
    decide
  · simp

theorem negativeOffsetDelta_eq (offset : BitVec 64) : negativeOffsetDelta offset = -offset :=
  (BitVec.neg_eq_not_add offset).symm

/-- The offset is signed: what is added is its two's complement value. -/
theorem applyRegionOffset_eq_some {logical offset physical : BitVec 64} :
    applyRegionOffset logical offset = some physical ↔
      (physical.toNat : Int) = logical.toNat + offset.toInt := by
  have value := BitVec.toInt_eq_toNat_cond offset
  have bound := offset.isLt
  unfold applyRegionOffset
  by_cases negative : offsetIsNegative offset = true
  · have high := (offsetIsNegative_iff offset).mp negative
    rw [if_pos negative, negativeOffsetDelta_eq]
    rw [if_neg (by omega)] at value
    have delta : (-offset).toNat = 2 ^ 64 - offset.toNat := by
      rw [BitVec.toNat_neg]
      omega
    split_ifs with below
    · rw [BitVec.lt_def, delta] at below
      simp only [false_iff]
      omega
    · rw [BitVec.lt_def, delta] at below
      rw [Option.some.injEq, ← BitVec.toNat_inj, BitVec.toNat_sub, delta]
      omega
  · have low := mt (offsetIsNegative_iff offset).mpr negative
    rw [if_neg negative]
    rw [if_pos (by omega)] at value
    have room : (max64 - offset).toNat = 2 ^ 64 - 1 - offset.toNat := by
      rw [max64, BitVec.toNat_sub, BitVec.toNat_allOnes]
      omega
    split_ifs with above
    · rw [BitVec.lt_def, room] at above
      simp only [false_iff]
      omega
    · rw [BitVec.lt_def, room] at above
      rw [Option.some.injEq, ← BitVec.toNat_inj, BitVec.toNat_add]
      omega

theorem applyRegionOffset_eq_add {logical offset physical : BitVec 64}
    (applied : applyRegionOffset logical offset = some physical) :
    physical = logical + offset := by
  rw [applyRegionOffset_eq_some] at applied
  apply BitVec.eq_of_toNat_eq
  have value := BitVec.toInt_eq_toNat_cond offset
  rw [BitVec.toNat_add]
  split_ifs at value <;> omega

/-- Two offsets that take an address to the same place are equal. -/
theorem applyRegionOffset_injective {logical first second physical : BitVec 64}
    (applied : applyRegionOffset logical first = some physical)
    (applied' : applyRegionOffset logical second = some physical) : first = second := by
  rw [applyRegionOffset_eq_some] at applied applied'
  exact BitVec.eq_of_toInt_eq (by omega)

end Offsets

namespace RseAtu

variable {config : AtuConfig} {atu : RseAtu} {logical : BitVec 64} {len : BitVec 32}

/-- The region is configured and enabled and contains the whole access. -/
def Serves (atu : RseAtu) (logical : BitVec 64) (len : BitVec 32) (region : Nat) : Prop :=
  atu.regionConfigured region = true ∧ atu.regionStart region ≤ logical ∧
    logical < atu.regionEnd region ∧ accessLen len ≤ atu.regionEnd region - logical ∧
    atu.regionEnabled region = true

/-- The lowest-indexed region that serves the access. -/
structure First (atu : RseAtu) (logical : BitVec 64) (len : BitVec 32) (region : Nat) : Prop where
  supported : region < atu.supportedRegionCount
  serves : atu.Serves logical len region
  lowest : ∀ lower < region, ¬ atu.Serves logical len lower

theorem First.unique {first second : Nat} (isFirst : atu.First logical len first)
    (isSecond : atu.First logical len second) : first = second := by
  rcases Nat.lt_trichotomy first second with below | same | above
  · exact absurd isFirst.serves (isSecond.lowest first below)
  · exact same
  · exact absurd isSecond.serves (isFirst.lowest second above)

theorem exists_first {region : Nat} (supported : region < atu.supportedRegionCount)
    (serves : atu.Serves logical len region) :
    ∃ first ≤ region, atu.First logical len first := by
  classical
  have some_region : ∃ candidate, atu.Serves logical len candidate := ⟨region, serves⟩
  have below := Nat.find_min' some_region serves
  exact ⟨Nat.find some_region, below, ⟨below.trans_lt supported, Nat.find_spec some_region,
    fun lower low => Nat.find_min some_region low⟩⟩

/-- A successful walk ends in the lowest-indexed region that serves the access. -/
theorem translateRegions_ok {remaining region : Nat} {pendingFault : TranslationFault}
    {info : TranslationInfo} :
    translateRegions config atu logical len remaining region pendingFault = .ok info ↔
      ∃ found, region ≤ found ∧ found < region + remaining ∧ atu.Serves logical len found ∧
        (∀ lower < found, region ≤ lower → ¬ atu.Serves logical len lower) ∧
        atu.translateIn config logical found = .ok info := by
  induction remaining generalizing region pendingFault with
  | zero =>
      simp only [translateRegions, reduceCtorEq, false_iff, not_exists]
      rintro found ⟨low, high, -⟩
      omega
  | succ remaining inductionHypothesis =>
      -- A region that does not serve the access is passed over.
      have skip (other : ¬ atu.Serves logical len region) (fault : TranslationFault) :
          translateRegions config atu logical len remaining (region + 1) fault = .ok info ↔
            ∃ found, region ≤ found ∧ found < region + (remaining + 1) ∧
              atu.Serves logical len found ∧
              (∀ lower < found, region ≤ lower → ¬ atu.Serves logical len lower) ∧
              atu.translateIn config logical found = .ok info := by
        rw [inductionHypothesis]
        constructor
        · rintro ⟨found, low, high, serves, lowest, translated⟩
          refine ⟨found, by omega, by omega, serves, fun lower below above => ?_, translated⟩
          by_cases here : lower = region
          · exact here ▸ other
          · exact lowest lower below (by omega)
        · rintro ⟨found, low, high, serves, lowest, translated⟩
          have apart : found ≠ region := fun here => other (here ▸ serves)
          exact ⟨found, by omega, by omega, serves,
            fun lower below above => lowest lower below (by omega), translated⟩
      unfold translateRegions
      by_cases configured : atu.regionConfigured region = true
      · rw [if_neg (by simp [configured])]
        by_cases outside : atu.regionEnd region ≤ atu.regionStart region ∨
            logical < atu.regionStart region ∨ atu.regionEnd region ≤ logical
        · rw [if_pos outside]
          refine skip (fun serves => ?_) _
          obtain ⟨-, above, below, -⟩ := serves
          rcases outside with empty | before | after <;> bv_omega
        · rw [if_neg outside]
          push Not at outside
          by_cases short : atu.regionEnd region - logical < accessLen len
          · rw [if_pos short]
            exact skip (fun serves => BitVec.not_le.mpr short serves.2.2.2.1) _
          · rw [if_neg short]
            by_cases enabled : atu.regionEnabled region = true
            · rw [if_neg (by simp [enabled])]
              have serves : atu.Serves logical len region :=
                ⟨configured, BitVec.not_lt.mp outside.2.1, BitVec.not_le.mp outside.2.2,
                  BitVec.not_lt.mp short, enabled⟩
              constructor
              · intro translated
                exact ⟨region, le_rfl, by omega, serves, fun lower below above => by omega,
                  translated⟩
              · rintro ⟨found, low, high, -, lowest, translated⟩
                by_cases here : found = region
                · exact here ▸ translated
                · exact absurd serves (lowest region (by omega) le_rfl)
            · rw [if_pos (by simp [enabled])]
              exact skip (fun serves => enabled serves.2.2.2.2) _
      · rw [if_pos (by simp [configured])]
        exact skip (fun serves => configured serves.1) _

/-- `translate_range` succeeds exactly when the first region that serves the access
translates it. -/
theorem translateRange_ok {info : TranslationInfo} :
    atu.translateRange config logical len = .ok info ↔
      ∃ region, atu.First logical len region ∧
        atu.translateIn config logical region = .ok info := by
  rw [translateRange, translateRegions_ok]
  constructor
  · rintro ⟨region, -, high, serves, lowest, translated⟩
    exact ⟨region, ⟨by omega, serves, fun lower below => lowest lower below (Nat.zero_le _)⟩,
      translated⟩
  · rintro ⟨region, ⟨supported, serves, lowest⟩, translated⟩
    exact ⟨region, Nat.zero_le _, by omega, serves, fun lower below _ => lowest lower below,
      translated⟩

/-- What a region makes of an address. -/
theorem translateIn_ok {region : Nat} {info : TranslationInfo} :
    atu.translateIn config logical region = .ok info ↔
      atu.regionOffset region = some info.offset ∧
        applyRegionOffset logical info.offset = some info.physical ∧
        atu.regionSecurityAllowed config region = true ∧ info.region = region ∧
        info.logicalStart = atu.regionStart region ∧
        info.logicalEnd = atu.regionEnd region - 1 ∧
        info.offsetPages = atu.regionOffsetPages region := by
  unfold translateIn
  constructor
  · intro translated
    split at translated
    · cases translated
    · next offset shifted =>
      split at translated
      · cases translated
      · next physical applied =>
        split_ifs at translated with allowed
        obtain rfl := Except.ok.inj translated
        exact ⟨shifted, applied, allowed, rfl, rfl, rfl, rfl⟩
  · rintro ⟨shifted, applied, allowed, rfl, start, finish, pages⟩
    rw [shifted]
    dsimp only
    rw [applied]
    dsimp only
    rw [if_pos allowed, ← start, ← finish, ← pages]

end RseAtu

end QboxPlatform.Atu
