import QboxPlatform.Atu.Translate
import QboxPlatform.Foundation.Run

/-!
# Register writes and granted direct access

A translation depends on the configuration word, the enables and the region arrays.  Word writes
to any of these invalidate the direct access granted through the unit; writes of other widths are
copied into the registers and never do.
-/

namespace QboxPlatform.Atu

open Foundation

namespace RseAtu

/-- `invalidate_translation_dmi` reaches the translation socket. -/
def invalidatesTranslationDmi (config : AtuConfig) (translationBound : Bool) : Bool :=
  config.enableDmi && translationBound

/-- The outcome of `translate_range`: a physical address or a failure. -/
def outcome (config : AtuConfig) (atu : RseAtu) (logical : BitVec 64) (len : BitVec 32) :
    Option (BitVec 64) :=
  match atu.translateRange config logical len with
  | .ok info => some info.physical
  | .error _ => none

/-- What changes the registers: the register port, and translations that latch their faults. -/
inductive AtuEvent
  | port (access : Access)
  | translate (logical : BitVec 64) (len : BitVec 32)

def step (config : AtuConfig) (atu : RseAtu) : AtuEvent → Option RseAtu
  | .port access => (atu.access access).map fun (_, next, _) => next
  | .translate logical len => some (atu.translateAddress config logical len).2

/-- If the event is a register access that changes the outcome of some translation, it
invalidates the granted direct access. -/
def LeavesNoStaleGrant (config : AtuConfig) (translationBound : Bool) (atu : RseAtu)
    (event : AtuEvent) : Prop :=
  ∀ access response next mappingChanged, event = .port access →
    atu.access access = some (response, next, mappingChanged) →
    (∃ logical len, next.outcome config logical len ≠ atu.outcome config logical len) →
    (mappingChanged && invalidatesTranslationDmi config translationBound) = true

/-! ### The registers that translations read -/

def regionArrays : List Nat :=
  [aturslaBase, aturelaBase, aturavLBase, aturavMBase, aturobaBase, aturgpvBase]

/-- The same configuration, enables and regions. -/
structure SameTables (before after : RseAtu) : Prop where
  configuration : after.load32 atubc = before.load32 atubc
  enables : after.load32 atuc = before.load32 atuc
  regions : ∀ base ∈ regionArrays, ∀ region < regionCount,
    after.load32 (base + region * regionStride) = before.load32 (base + region * regionStride)

namespace SameTables

variable {before after : RseAtu}

theorem refl (atu : RseAtu) : SameTables atu atu := ⟨rfl, rfl, fun _ _ _ _ => rfl⟩

theorem pageShift (same : SameTables before after) : after.pageShift = before.pageShift := by
  rw [RseAtu.pageShift, RseAtu.pageShift, same.configuration]

section Region

variable {region : Nat} (inside : region < regionCount)

include inside

theorem startPage (same : SameTables before after) :
    after.regionStartPage region = before.regionStartPage region :=
  same.regions aturslaBase (by decide) region inside

theorem endPage (same : SameTables before after) :
    after.regionEndPage region = before.regionEndPage region :=
  same.regions aturelaBase (by decide) region inside

theorem offsetPages (same : SameTables before after) :
    after.regionOffsetPages region = before.regionOffsetPages region := by
  rw [regionOffsetPages, regionOffsetPages, same.regions aturavMBase (by decide) region inside,
    same.regions aturavLBase (by decide) region inside]

theorem roba (same : SameTables before after) :
    after.regionRoba region = before.regionRoba region := by
  rw [regionRoba, regionRoba, same.regions aturobaBase (by decide) region inside]

theorem configured (same : SameTables before after) :
    after.regionConfigured region = before.regionConfigured region := by
  rw [regionConfigured, regionConfigured, same.startPage inside, same.endPage inside,
    same.offsetPages inside, same.roba inside,
    same.regions aturgpvBase (by decide) region inside]

theorem start (same : SameTables before after) :
    after.regionStart region = before.regionStart region := by
  rw [regionStart, regionStart, same.startPage inside, same.pageShift]

theorem finish (same : SameTables before after) :
    after.regionEnd region = before.regionEnd region := by
  rw [regionEnd, regionEnd, same.endPage inside, same.pageShift]

theorem translateIn (same : SameTables before after) (config : AtuConfig)
    (logical : BitVec 64) :
    after.translateIn config logical region = before.translateIn config logical region := by
  have offset : after.regionOffset region = before.regionOffset region := by
    rw [regionOffset, regionOffset, same.offsetPages inside, same.pageShift]
  have security : after.regionSecurityAllowed config region =
      before.regionSecurityAllowed config region := by
    rw [regionSecurityAllowed, regionSecurityAllowed, same.roba inside]
  rw [RseAtu.translateIn, RseAtu.translateIn, offset, security, same.start inside,
    same.finish inside, same.offsetPages inside]

end Region

theorem enabled (same : SameTables before after) (region : Nat) :
    after.regionEnabled region = before.regionEnabled region := by
  rw [regionEnabled, regionEnabled, same.enables]

theorem translateRegions (same : SameTables before after) (config : AtuConfig)
    (logical : BitVec 64) (len : BitVec 32) {remaining region : Nat}
    (inside : region + remaining ≤ regionCount) (pendingFault : TranslationFault) :
    RseAtu.translateRegions config after logical len remaining region pendingFault =
      RseAtu.translateRegions config before logical len remaining region pendingFault := by
  induction remaining generalizing region pendingFault with
  | zero => rfl
  | succ remaining inductionHypothesis =>
      have here : region < regionCount := by omega
      have rest : region + 1 + remaining ≤ regionCount := by omega
      rw [RseAtu.translateRegions, RseAtu.translateRegions, same.configured here,
        same.start here, same.finish here, same.enabled region, same.translateIn here,
        inductionHypothesis rest, inductionHypothesis rest, inductionHypothesis rest]

/-- Translations read nothing else. -/
theorem outcome (same : SameTables before after) (config : AtuConfig) (logical : BitVec 64)
    (len : BitVec 32) : after.outcome config logical len = before.outcome config logical len := by
  have supported : after.supportedRegionCount = before.supportedRegionCount := by
    rw [supportedRegionCount, supportedRegionCount, same.configuration]
  have inside : 0 + before.supportedRegionCount ≤ regionCount := by
    rw [Nat.zero_add]
    exact Nat.min_le_right _ _
  rw [RseAtu.outcome, RseAtu.outcome, translateRange, translateRange, supported,
    same.translateRegions config logical len inside]

end SameTables

/-- The bytes of the registers that translations read. -/
def FeedsTranslation (index : Nat) : Prop :=
  index < atuis ∨ aturslaBase ≤ index ∧ index < aturgpvBase + regionCount * regionStride

theorem sameTables_of_bytes {before after : RseAtu}
    (same : ∀ index, FeedsTranslation index → after.regs index = before.regs index) :
    SameTables before after := by
  have words : ∀ offset, (∀ index, offset ≤ index → index < offset + 4 → FeedsTranslation index) →
      after.load32 offset = before.load32 offset := by
    intro offset covered
    apply Image.load32_congr
    intro index above below
    exact same index (covered index above below)
  have arrays : ∀ base ∈ regionArrays,
      aturslaBase ≤ base ∧ base ≤ aturgpvBase := by decide
  refine ⟨words atubc ?_, words atuc ?_, ?_⟩
  · intro index above below
    exact Or.inl (Nat.lt_trans below (by decide))
  · intro index above below
    exact Or.inl below
  · intro base member region inside
    obtain ⟨low, high⟩ := arrays base member
    apply words
    intro index above below
    right
    simp only [regionCount, regionStride] at inside above below ⊢
    omega

/-! ### Word writes -/

theorem isRegionArrayOffset_of_feeds {offset : Nat} (aligned : offset % 4 = 0)
    (above : aturslaBase ≤ offset) (below : offset < aturgpvBase + regionCount * regionStride) :
    isRegionArrayOffset offset = true := by
  simp only [isRegionArrayOffset, inRange, Bool.or_eq_true, Bool.and_eq_true, decide_eq_true_eq,
    beq_iff_eq]
  simp only [aturslaBase, aturelaBase, aturavLBase, aturavMBase, aturobaBase, aturgpvBase,
    regionCount, regionStride] at above below ⊢
  omega

/-- A store outside the bytes that translations read. -/
theorem sameTables_store32 (atu : RseAtu) {offset : Nat} (value : BitVec 32)
    (apart : ∀ index, FeedsTranslation index → index < offset ∨ offset + 4 ≤ index) :
    SameTables atu (atu.store32 offset value) := by
  apply sameTables_of_bytes
  intro index feeds
  exact atu.regs.store32_outside offset value (apart index feeds)

theorem SameTables.trans {first second third : RseAtu} (left : SameTables first second)
    (right : SameTables second third) : SameTables first third :=
  ⟨right.configuration.trans left.configuration, right.enables.trans left.enables,
    fun base member region inside =>
      (right.regions base member region inside).trans (left.regions base member region inside)⟩

/-- The words between the enables and the region arrays. -/
theorem sameTables_store32_control (atu : RseAtu) {offset : Nat} (value : BitVec 32)
    (above : atuis ≤ offset) (below : offset + 4 ≤ aturslaBase) :
    SameTables atu (atu.store32 offset value) := by
  apply sameTables_store32
  rintro index (low | ⟨high, -⟩)
  · exact Or.inl (Nat.lt_of_lt_of_le low above)
  · exact Or.inr (Nat.le_trans below high)

/-- A word write invalidates, or leaves what translations read. -/
theorem write32_invalidates_or_same (atu : RseAtu) {offset : Nat} (aligned : offset % 4 = 0)
    (value : BitVec 32) :
    (atu.write32 offset value).2 = true ∨ SameTables atu (atu.write32 offset value).1 := by
  unfold write32
  split
  · exact Or.inr (SameTables.refl atu)
  · next writable =>
    split
    · right
      exact (sameTables_store32_control atu _ (by decide) (by decide)).trans
        (sameTables_store32_control _ value (by decide) (by decide))
    · split
      · next control =>
        rcases control with rfl | rfl
        · exact Or.inl rfl
        · exact Or.inr (sameTables_store32_control atu value (by decide) (by decide))
      · next other =>
        split
        · exact Or.inl rfl
        · next plain =>
          right
          apply sameTables_store32
          rintro index (low | ⟨high, bounded⟩)
          · simp only [atubc, atuc, atuis] at writable other low
            omega
          · by_contra covered
            apply plain
            apply isRegionArrayOffset_of_feeds aligned <;>
              simp only [aturslaBase, aturgpvBase, regionCount, regionStride] at * <;> omega

/-! ### Copies -/

/-- The lowest-indexed region that serves the access is permitted and takes it to the address. -/
def Maps (config : AtuConfig) (atu : RseAtu) (logical : BitVec 64) (len : BitVec 32)
    (physical : BitVec 64) : Prop :=
  ∃ region offset, atu.First logical len region ∧
    atu.regionSecurityAllowed config region = true ∧ atu.regionOffset region = some offset ∧
    applyRegionOffset logical offset = some physical

/-- The regions take every access to the same place. -/
def SameMapping (config : AtuConfig) (before after : RseAtu) : Prop :=
  ∀ logical len physical,
    after.Maps config logical len physical ↔ before.Maps config logical len physical

theorem outcome_eq_some {config : AtuConfig} {atu : RseAtu} {logical : BitVec 64}
    {len : BitVec 32} {physical : BitVec 64} :
    atu.outcome config logical len = some physical ↔ atu.Maps config logical len physical := by
  have found : atu.outcome config logical len = some physical ↔
      ∃ info, atu.translateRange config logical len = .ok info ∧ info.physical = physical := by
    rw [outcome]
    cases translated : atu.translateRange config logical len with
    | ok info => simp
    | error fault => simp
  rw [found]
  constructor
  · rintro ⟨info, translated, rfl⟩
    obtain ⟨region, isFirst, inRegion⟩ := translateRange_ok.mp translated
    obtain ⟨offset, applied, allowed, -⟩ := translateIn_ok.mp inRegion
    exact ⟨region, info.offset, isFirst, allowed, offset, applied⟩
  · rintro ⟨region, offset, isFirst, allowed, regionOffset, applied⟩
    refine ⟨⟨region, atu.regionStart region, atu.regionEnd region - 1,
      atu.regionOffsetPages region, offset, physical⟩, ?_, rfl⟩
    apply translateRange_ok.mpr
    exact ⟨region, isFirst, translateIn_ok.mpr ⟨regionOffset, applied, allowed, rfl, rfl, rfl, rfl⟩⟩

theorem sameMapping_iff {config : AtuConfig} {before after : RseAtu} :
    SameMapping config before after ↔
      ∀ logical len, after.outcome config logical len = before.outcome config logical len := by
  constructor
  · intro same logical len
    apply Option.ext
    intro physical
    have here := same logical len physical
    rwa [← outcome_eq_some, ← outcome_eq_some] at here
  · intro same logical len physical
    rw [← outcome_eq_some, ← outcome_eq_some, same]

/-- A copy that touches none of the bytes that translations read keeps the mapping. -/
theorem sameMapping_write (config : AtuConfig) (atu : RseAtu) {offset : Nat} {data : List Byte}
    (apart : ∀ index, FeedsTranslation index → index < offset ∨ offset + data.length ≤ index) :
    SameMapping config atu ⟨atu.regs.write offset data⟩ := by
  have tables : SameTables atu ⟨atu.regs.write offset data⟩ := by
    apply sameTables_of_bytes
    intro index feeds
    exact atu.regs.write_outside offset data (apart index feeds)
  exact sameMapping_iff.mpr fun logical len => tables.outcome config logical len

/-- A write that the port accepts is an aligned word, or a copy that keeps the mapping. -/
def Harmless (config : AtuConfig) (atu : RseAtu) (event : AtuEvent) : Prop :=
  ∀ offset data, event = .port (.write offset data) → isSupportedLength data.length = true →
    offset.toNat + data.length ≤ regBytes →
    data.length = 4 ∧ offset.toNat % 4 = 0 ∨
      SameMapping config atu ⟨atu.regs.write offset.toNat data⟩

section Runs

variable {config : AtuConfig} {translationBound : Bool}

/-- An accepted write, by the path it takes. -/
theorem access_write (atu : RseAtu) {offset : BitVec 64} {data : List Byte}
    (supported : isSupportedLength data.length = true)
    (inside : offset.toNat + data.length ≤ regBytes) :
    atu.access (.write offset data) =
      if data.length = 4 ∧ offset.toNat % 4 = 0 then
        some (.ok [], atu.write32 offset.toNat (ofBytes 32 data))
      else some (.ok [], ⟨atu.regs.write offset.toNat data⟩, false) := by
  have small : (offset.toNat + data.length) % 2 ^ 64 ≤ regBytes :=
    Nat.le_trans (Nat.mod_le _ _) inside
  have accepted : rejected (.write offset data) = false := by
    rw [rejected, Access.len, Access.offset, supported]
    simpa using small
  rw [access, accepted, if_neg Bool.false_ne_true]
  exact if_neg (Nat.not_lt.mpr inside)

/-- Only accepted writes change the registers. -/
theorem access_changes {atu next : RseAtu} {access : Access} {response : Response}
    {mappingChanged : Bool} (accessed : atu.access access = some (response, next, mappingChanged)) :
    next = atu ∨ ∃ offset data, access = .write offset data ∧
      isSupportedLength data.length = true ∧ offset.toNat + data.length ≤ regBytes := by
  unfold RseAtu.access at accessed
  split at accessed
  · cases accessed
    exact Or.inl rfl
  · next accepted =>
    split at accessed
    · cases accessed
    · next inside =>
      cases access with
      | read offset len =>
          cases accessed
          exact Or.inl rfl
      | ignore offset len =>
          cases accessed
          exact Or.inl rfl
      | write offset data =>
          right
          refine ⟨offset, data, rfl, ?_, Nat.not_lt.mp inside⟩
          rw [rejected, Bool.or_eq_true, not_or, Access.len] at accepted
          simpa using accepted.1

/-- In every state, an event can leave a stale grant exactly if it is not harmless. -/
theorem leavesNoStaleGrant_iff
    (issues : invalidatesTranslationDmi config translationBound = true) (atu : RseAtu)
    (event : AtuEvent) :
    LeavesNoStaleGrant config translationBound atu event ↔ Harmless config atu event := by
  constructor
  · rintro leaves offset data rfl supported inside
    have path := access_write atu supported inside
    by_cases word : data.length = 4 ∧ offset.toNat % 4 = 0
    · exact Or.inl word
    · right
      rw [if_neg word] at path
      apply sameMapping_iff.mpr
      by_contra changed
      push Not at changed
      exact Bool.noConfusion (leaves _ _ _ _ rfl path changed)
  · rintro harmless access response next mappingChanged rfl accessed changed
    obtain ⟨logical, len, different⟩ := changed
    rcases access_changes accessed with rfl | ⟨offset, data, rfl, supported, inside⟩
    · exact absurd rfl different
    · rw [access_write atu supported inside] at accessed
      by_cases word : data.length = 4 ∧ offset.toNat % 4 = 0
      · rw [if_pos word] at accessed
        obtain ⟨-, written⟩ := Prod.mk.inj (Option.some.inj accessed)
        rcases write32_invalidates_or_same atu word.2 (ofBytes 32 data) with invalidates | same
        · rw [written] at invalidates
          rw [issues, Bool.and_true]
          exact invalidates
        · rw [written] at same
          exact absurd (same.outcome config logical len) different
      · rw [if_neg word] at accessed
        obtain ⟨-, rfl, -⟩ := accessed
        rcases harmless offset data rfl supported inside with isWord | same
        · exact absurd isWord word
        · exact absurd (sameMapping_iff.mp same logical len) different

/-- A write is an aligned word, or a copy that touches none of the bytes that translations
read. -/
def MissesTables : AtuEvent → Prop
  | .port (.write offset data) =>
      data.length = 4 ∧ offset.toNat % 4 = 0 ∨
        ∀ index, FeedsTranslation index →
          index < offset.toNat ∨ offset.toNat + data.length ≤ index
  | _ => True

theorem MissesTables.harmless {event : AtuEvent} (misses : MissesTables event) (atu : RseAtu) :
    Harmless config atu event := by
  rintro offset data rfl - -
  exact misses.imp_right fun apart => sameMapping_write config atu apart

/-- Runs whose copies stay off the tables leave no stale grant. -/
theorem along_leavesNoStaleGrant_of_misses
    (issues : invalidatesTranslationDmi config translationBound = true) (atu : RseAtu)
    {events : List AtuEvent} (misses : ∀ event ∈ events, MissesTables event) :
    Along (step config) (LeavesNoStaleGrant config translationBound) atu events := by
  apply along_of_forall
  intro event member state
  exact (leavesNoStaleGrant_iff issues state event).mpr ((misses event member).harmless state)

/-- In a run of register accesses and translations from reset, no write leaves a stale grant
exactly if every step is harmless. -/
theorem along_leavesNoStaleGrant_iff
    (issues : invalidatesTranslationDmi config translationBound = true)
    (events : List AtuEvent) :
    Along (step config) (LeavesNoStaleGrant config translationBound) (resetRegisters config)
        events ↔
      Along (step config) (Harmless config) (resetRegisters config) events := by
  have pointwise : LeavesNoStaleGrant config translationBound = Harmless config :=
    funext₂ fun atu event => propext (leavesNoStaleGrant_iff issues atu event)
  rw [pointwise]

/-- Word writes that map page 1 to itself, and the copy of a byte that disables the region. -/
def disablingByte : List AtuEvent :=
  [.port (.write 0x20 [1, 0, 0, 0]), .port (.write 0xa0 [1, 0, 0, 0]),
    .port (.write 4 [1, 0, 0, 0]), .port (.write 4 [0])]

theorem along_leavesNoStaleGrant_iff_disablingByte :
    Along (step { enableDmi := true }) (LeavesNoStaleGrant { enableDmi := true } true)
        (resetRegisters { enableDmi := true }) disablingByte ↔
      Along (step { enableDmi := true }) (Harmless { enableDmi := true })
        (resetRegisters { enableDmi := true }) disablingByte :=
  along_leavesNoStaleGrant_iff rfl disablingByte

/-- The byte write takes the translation of page 1 away without an invalidation. -/
theorem not_leavesNoStaleGrant_disablingByte :
    ¬Along (step { enableDmi := true }) (LeavesNoStaleGrant { enableDmi := true } true)
      (resetRegisters { enableDmi := true }) disablingByte := by
  intro along
  obtain ⟨-, along⟩ := along _ rfl
  obtain ⟨-, along⟩ := along _ rfl
  obtain ⟨-, along⟩ := along _ rfl
  obtain ⟨leaves, -⟩ := along _ rfl
  have issued := leaves _ _ _ _ rfl rfl ⟨0x1000, 4, by decide⟩
  exact Bool.noConfusion issued

end Runs

end RseAtu

end QboxPlatform.Atu
