import QboxPlatform.StrataFlash.FlashArray

/-!
# The map of the erased sectors is sound

A sector is flagged only if all its bytes are `0xff`.  The map may be left alone by a change that
writes `0xff` bytes, and by one that clears the flags of the sectors it programs.
-/

namespace QboxPlatform.StrataFlash

open Foundation

namespace FlashArray

variable {array : FlashArray}

/-- The offset lies in the sector with the index. -/
def InSector (array : FlashArray) (index position : Nat) : Prop :=
  position < array.size ∧ array.sectorIndex position = index

theorem sectorSize_pos (nonzero : array.sectorSize ≠ 0) : 0 < array.sectorSize.toNat := by
  apply Nat.pos_of_ne_zero
  intro zero
  exact nonzero (BitVec.eq_of_toNat_eq zero)

/-- The bounds of a sector that begins inside the array do not wrap. -/
theorem sectorEnd_eq {start : Nat} (aligned : array.sectorSize.toNat ∣ start)
    (inside : start < array.size) :
    array.sectorEnd start = min (start + array.sectorSize.toNat) array.size := by
  have bounded := array.sectorSize.isLt
  have fits := array.fits
  have small : start + array.sectorSize.toNat < 2 ^ 64 := by
    obtain ⟨count, rfl⟩ := aligned
    rcases Nat.eq_zero_or_pos count with rfl | positive
    · omega
    · have covers : array.sectorSize.toNat ≤ array.sectorSize.toNat * count :=
        Nat.le_mul_of_pos_right _ positive
      omega
  rw [sectorEnd, Nat.mod_eq_of_lt small]

theorem mem_sector {index position : Nat} (nonzero : array.sectorSize ≠ 0)
    (inside : index * array.sectorSize.toNat < array.size) :
    index * array.sectorSize.toNat ≤ position ∧
        position < array.sectorEnd (index * array.sectorSize.toNat) ↔
      array.InSector index position := by
  have positive := array.sectorSize_pos nonzero
  have next : (index + 1) * array.sectorSize.toNat =
      index * array.sectorSize.toNat + array.sectorSize.toNat := Nat.succ_mul _ _
  have quotient : array.sectorIndex position = index ↔
      index * array.sectorSize.toNat ≤ position ∧
        position < (index + 1) * array.sectorSize.toNat := by
    rw [sectorIndex, Nat.eq_iff_le_and_ge, Nat.le_div_iff_mul_le positive,
      ← Nat.lt_succ_iff, Nat.div_lt_iff_lt_mul positive]
    tauto
  rw [sectorEnd_eq (Dvd.intro_left _ rfl) inside, InSector, quotient, Nat.lt_min, next]
  tauto

theorem allErased_iff {start last : Nat} :
    array.allErased start last = true ↔
      ∀ position, start ≤ position → position < last → array.bytes position = 0xff := by
  rw [allErased, List.all_eq_true]
  constructor
  · intro erased position above below
    have member : position - start ∈ List.range (last - start) :=
      List.mem_range.mpr (by omega)
    have byte := erased _ member
    rw [Nat.add_sub_cancel' above] at byte
    exact eq_of_beq byte
  · intro erased index member
    have below := List.mem_range.mp member
    exact beq_iff_eq.mpr (erased _ (Nat.le_add_right _ _) (by omega))

/-- The sectors that the map counts begin inside the array. -/
theorem sector_start {index : Nat} (counted : index < array.sectorCount) :
    array.sectorSize ≠ 0 ∧ index * array.sectorSize.toNat < array.size := by
  unfold sectorCount at counted
  split at counted
  · cases counted
  · next geometry =>
    obtain ⟨nonzero, nonempty⟩ := not_or.mp geometry
    have positive := array.sectorSize_pos nonzero
    refine ⟨nonzero, ?_⟩
    have bounded : index * array.sectorSize.toNat + array.sectorSize.toNat ≤
        array.size + array.sectorSize.toNat - 1 := by
      have below := Nat.mul_le_of_le_div _ _ _ (Nat.succ_le_of_lt counted)
      rw [Nat.succ_mul] at below
      exact below.trans (Nat.mod_le _ _)
    omega

theorem scanSector_iff {index : Nat} (counted : index < array.sectorCount) :
    array.scanSector index = true ↔
      ∀ position, array.InSector index position → array.bytes position = 0xff := by
  obtain ⟨nonzero, inside⟩ := sector_start counted
  have small : index * array.sectorSize.toNat < 2 ^ 64 := inside.trans (by
    have fits := array.fits
    omega)
  rw [scanSector, Nat.mod_eq_of_lt small, allErased_iff]
  constructor
  · intro erased position member
    obtain ⟨above, below⟩ := (mem_sector nonzero inside).mpr member
    exact erased position above below
  · intro erased position above below
    exact erased position ((mem_sector nonzero inside).mp ⟨above, below⟩)

/-- The map belongs to the geometry of the array. -/
structure InSync (array : FlashArray) : Prop where
  sectorSize : array.sectorErasedMapSize = array.sectorSize
  length : array.sectorErased.length = array.sectorCount

/-- Every flagged sector is erased. -/
def Sound (array : FlashArray) : Prop :=
  ∀ index position, array.sectorErased.getD index false = true →
    array.InSector index position → array.bytes position = 0xff

/-- Once allocated, the array has a sound map of its own geometry. -/
structure Tracked (array : FlashArray) : Prop where
  inSync : array.size ≠ 0 → array.InSync
  sound : array.Sound

theorem ensure_of_inSync (inSync : array.InSync) : array.ensureSectorErasedMap = array := by
  rw [ensureSectorErasedMap, if_neg]
  rintro (size | length)
  · exact size inSync.sectorSize
  · exact length inSync.length

theorem inSync_rebuild (array : FlashArray) : array.rebuildSectorErasedMap.InSync where
  sectorSize := rfl
  length := by
    rw [rebuildSectorErasedMap, List.length_map, List.length_range]
    rfl

theorem sound_rebuild (array : FlashArray) : array.rebuildSectorErasedMap.Sound := by
  intro index position flagged member
  have counted : index < array.sectorCount := by
    by_contra beyond
    rw [rebuildSectorErasedMap, List.getD_eq_default] at flagged
    · cases flagged
    · rw [List.length_map, List.length_range]
      exact Nat.le_of_not_lt beyond
  have scanned : array.scanSector index = true := by
    rwa [rebuildSectorErasedMap, List.getD_eq_getElem _ _ (by simpa using counted),
      List.getElem_map, List.getElem_range] at flagged
  exact (scanSector_iff counted).mp scanned position member

theorem inSync_ensure (array : FlashArray) : array.ensureSectorErasedMap.InSync := by
  by_cases inSync : array.InSync
  · rw [ensure_of_inSync inSync]
    exact inSync
  · rw [ensureSectorErasedMap, if_pos]
    · exact inSync_rebuild array
    · by_contra same
      obtain ⟨size, length⟩ := not_or.mp same
      exact inSync ⟨not_not.mp size, not_not.mp length⟩

/-- A map that is in sync has to be sound; any other one is rebuilt. -/
theorem sound_ensure (sound : array.InSync → array.Sound) :
    array.ensureSectorErasedMap.Sound := by
  by_cases inSync : array.InSync
  · rw [ensure_of_inSync inSync]
    exact sound inSync
  · rw [ensureSectorErasedMap, if_pos]
    · exact sound_rebuild array
    · by_contra same
      obtain ⟨size, length⟩ := not_or.mp same
      exact inSync ⟨not_not.mp size, not_not.mp length⟩

theorem tracked_rebuild (array : FlashArray) : array.rebuildSectorErasedMap.Tracked :=
  ⟨fun _ => array.inSync_rebuild, array.sound_rebuild⟩

/-- Without sectors no sector is flagged. -/
theorem sound_of_noSectors (inSync : array.size ≠ 0 → array.InSync)
    (noSectors : array.sectorSize = 0 ∨ array.size = 0) : array.Sound := by
  intro index position flagged member
  have nonempty : array.size ≠ 0 := Nat.pos_iff_ne_zero.mp (Nat.zero_lt_of_lt member.1)
  have none : array.sectorErased.length = 0 := by
    rw [(inSync nonempty).length, sectorCount, if_pos noSectors]
  rw [List.eq_nil_of_length_eq_zero none] at flagged
  cases flagged

/-- A change of the contents leaves the map in sync. -/
theorem InSync.ofBytes (inSync : array.InSync) (bytes : Image) :
    { array with bytes := bytes }.InSync := ⟨inSync.sectorSize, inSync.length⟩

/-- A change of the contents that writes `0xff` bytes only leaves the map sound. -/
theorem Sound.ofBytes (sound : array.Sound) {bytes : Image}
    (erasing : ∀ index, bytes index ≠ array.bytes index → bytes index = 0xff) :
    { array with bytes := bytes }.Sound := by
  intro index position flagged member
  by_cases changed : bytes position = array.bytes position
  · exact changed.trans (sound index position flagged member)
  · exact erasing position changed

theorem getD_set_false {flags : List Bool} {cleared index : Nat}
    (flagged : (flags.set cleared false).getD index false = true) :
    flags.getD index false = true ∧ index ≠ cleared := by
  have inside : index < (flags.set cleared false).length := by
    by_contra beyond
    rw [List.getD_eq_default _ _ (Nat.le_of_not_lt beyond)] at flagged
    cases flagged
  rw [List.getD_eq_getElem _ _ inside, List.getElem_set] at flagged
  rw [List.length_set] at inside
  split at flagged
  · cases flagged
  · next other =>
    rw [List.getD_eq_getElem _ _ inside]
    exact ⟨flagged, Ne.symm other⟩

/-- The loop of `mark_programmed_range` leaves the flags of the sectors whose bytes in the range
are all `0xff`. -/
theorem markLoop_spec (array : FlashArray) (offset len : Nat) :
    ∃ flags : List Bool,
      (List.range len).foldl
          (fun marked index =>
            if marked.bytes (offset + index) = 0xff then marked
            else marked.clearSector (offset + index)) array =
        { array with sectorErased := flags } ∧
      flags.length = array.sectorErased.length ∧
      ∀ sector, flags.getD sector false = true →
        array.sectorErased.getD sector false = true ∧
          ∀ index < len, array.sectorIndex (offset + index) = sector →
            array.bytes (offset + index) = 0xff := by
  induction len with
  | zero =>
      exact ⟨array.sectorErased, rfl, rfl,
        fun _ flagged => ⟨flagged, fun _ below => nomatch below⟩⟩
  | succ len inductionHypothesis =>
      obtain ⟨flags, marked, length, kept⟩ := inductionHypothesis
      rw [List.range_succ, List.foldl_append, marked, List.foldl_cons, List.foldl_nil]
      by_cases erased : array.bytes (offset + len) = 0xff
      · refine ⟨flags, if_pos erased, length, ?_⟩
        intro sector flagged
        refine ⟨(kept sector flagged).1, ?_⟩
        intro index below same
        rcases Nat.lt_succ_iff_lt_or_eq.mp below with earlier | rfl
        · exact (kept sector flagged).2 index earlier same
        · exact erased
      · refine ⟨flags.set (array.sectorIndex (offset + len)) false, if_neg erased, ?_, ?_⟩
        · rw [List.length_set, length]
        · intro sector flagged
          obtain ⟨before, other⟩ := getD_set_false flagged
          refine ⟨(kept sector before).1, ?_⟩
          intro index below same
          rcases Nat.lt_succ_iff_lt_or_eq.mp below with earlier | rfl
          · exact (kept sector before).2 index earlier same
          · exact absurd same.symm other

/-- Contents that change in a range only, whose sectors are then marked. -/
theorem tracked_markProgrammedRange (tracked : array.Tracked) {bytes : Image} {offset len : Nat}
    (changes : ∀ index, bytes index ≠ array.bytes index →
      offset ≤ index ∧ index < offset + len) :
    ({ array with bytes := bytes }.markProgrammedRange offset len).Tracked := by
  have inSync : array.size ≠ 0 → { array with bytes := bytes }.InSync :=
    fun nonempty => (tracked.inSync nonempty).ofBytes bytes
  unfold markProgrammedRange
  split
  · next skipped =>
    refine ⟨inSync, ?_⟩
    rcases skipped with rfl | noSectors
    · apply tracked.sound.ofBytes
      intro index changed
      have range := changes index changed
      omega
    · exact sound_of_noSectors inSync noSectors
  · next marking =>
    obtain ⟨-, -, nonempty⟩ := by simpa only [not_or] using marking
    rw [ensure_of_inSync (inSync nonempty)]
    obtain ⟨flags, marked, length, kept⟩ :=
      markLoop_spec { array with bytes := bytes } offset len
    rw [marked]
    refine ⟨fun _ => ⟨(inSync nonempty).sectorSize, length.trans (inSync nonempty).length⟩, ?_⟩
    intro sector position flagged member
    obtain ⟨before, erased⟩ := kept sector flagged
    by_cases changed : bytes position = array.bytes position
    · exact changed.trans (tracked.sound sector position before member)
    · obtain ⟨above, below⟩ := changes position changed
      have byte := erased (position - offset) (by omega)
      rw [Nat.add_sub_cancel' above] at byte
      exact byte member.2

/-- For a map in sync the shortcut for one byte marks what the range of one byte does. -/
theorem markProgrammedByte_eq (inSync : array.size ≠ 0 → array.InSync) (offset : Nat) :
    array.markProgrammedByte offset = array.markProgrammedRange offset 1 := by
  unfold markProgrammedByte markProgrammedRange
  by_cases noSectors : array.sectorSize = 0 ∨ array.size = 0
  · rw [if_pos (noSectors.elim Or.inl fun empty => Or.inr (Or.inl empty)),
      if_pos (Or.inr noSectors)]
  · obtain ⟨nonzero, nonempty⟩ := not_or.mp noSectors
    have marking : ¬((1 : Nat) = 0 ∨ array.sectorSize = 0 ∨ array.size = 0) := by
      rintro (one | rest)
      · cases one
      · exact noSectors rest
    rw [if_neg marking, ensure_of_inSync (inSync nonempty), List.range_one, List.foldl_cons,
      List.foldl_nil, Nat.add_zero]
    by_cases erased : array.bytes offset = 0xff
    · rw [if_pos (Or.inr (Or.inr erased)), if_pos erased]
    · rw [if_neg erased, if_neg]
      rintro (zero | empty | byte)
      · exact nonzero zero
      · exact nonempty empty
      · exact erased byte

theorem markProgrammedByte_copy (tracked : array.Tracked) (offset : Nat) (data : List Byte) :
    (array.copy offset data).markProgrammedByte offset =
      (array.copy offset data).markProgrammedRange offset 1 := by
  apply markProgrammedByte_eq
  intro nonempty
  exact (tracked.inSync nonempty).ofBytes _

theorem sectorIndex_start (nonzero : array.sectorSize ≠ 0) (offset : Nat) :
    array.sectorIndex (array.sectorStart offset) = array.sectorIndex offset :=
  Nat.mul_div_cancel _ (sectorSize_pos nonzero)

theorem sectorStart_inside {offset : Nat} (inside : offset < array.size) :
    array.sectorStart offset < array.size :=
  Nat.lt_of_le_of_lt (Nat.div_mul_le_self _ _) inside

/-- The bytes that `erase_sector` fills are those of the sector of the offset. -/
theorem mem_fillSector {offset : Nat} (nonzero : array.sectorSize ≠ 0)
    (inside : offset < array.size) (position : Nat) :
    array.sectorStart offset ≤ position ∧
        position < array.sectorEnd (array.sectorStart offset) ↔
      array.InSector (array.sectorIndex offset) position :=
  mem_sector nonzero (sectorStart_inside inside)

theorem tracked_ensure (tracked : array.Tracked) : array.ensureSectorErasedMap.Tracked :=
  ⟨fun _ => array.inSync_ensure, sound_ensure fun _ => tracked.sound⟩

theorem sectorIsErased_eq (tracked : array.Tracked) (nonzero : array.sectorSize ≠ 0)
    (nonempty : array.size ≠ 0) (start : Nat) :
    array.sectorIsErased start =
      (array.sectorErased.getD (array.sectorIndex start) false, array) := by
  have geometry : ¬(array.sectorSize = 0 ∨ array.size = 0) := not_or.mpr ⟨nonzero, nonempty⟩
  rw [sectorIsErased, if_neg geometry, ensure_of_inSync (tracked.inSync nonempty)]

theorem getD_set_true {flags : List Bool} {marked index : Nat}
    (flagged : (flags.set marked true).getD index false = true) :
    flags.getD index false = true ∨ index = marked := by
  by_cases same : index = marked
  · exact Or.inr same
  · left
    rw [List.getD_eq_getElem?_getD, List.getElem?_set_ne (Ne.symm same)] at flagged
    rwa [List.getD_eq_getElem?_getD]

/-- A sector that is filled and then marked. -/
theorem tracked_markSectorErased (tracked : array.Tracked) (nonzero : array.sectorSize ≠ 0)
    {offset : Nat} (inside : offset < array.size) :
    ((array.fillSector offset).markSectorErased (array.sectorStart offset)).Tracked := by
  have nonempty : array.size ≠ 0 := Nat.pos_iff_ne_zero.mp (Nat.zero_lt_of_lt inside)
  have geometry : ¬((array.fillSector offset).sectorSize = 0 ∨
      (array.fillSector offset).size = 0) := not_or.mpr ⟨nonzero, nonempty⟩
  have inSync : (array.fillSector offset).InSync := (tracked.inSync nonempty).ofBytes _
  have filled : (array.fillSector offset).Sound := by
    apply tracked.sound.ofBytes
    intro index changed
    by_cases covered : array.sectorStart offset ≤ index ∧
        index < array.sectorEnd (array.sectorStart offset)
    · exact if_pos covered
    · exact absurd (if_neg covered) changed
  unfold markSectorErased
  rw [if_neg geometry, ensure_of_inSync inSync]
  refine ⟨fun _ => ⟨inSync.sectorSize, (List.length_set ..).trans inSync.length⟩, ?_⟩
  intro sector position flagged member
  rcases getD_set_true flagged with before | rfl
  · exact filled sector position before member
  · apply if_pos
    apply (mem_fillSector nonzero inside position).mpr
    exact ⟨member.1, member.2.trans (sectorIndex_start nonzero offset)⟩

theorem tracked_refreshSectorErasedRange (tracked : array.Tracked) {bytes : Image}
    {offset len : Nat}
    (changes : ∀ index, bytes index ≠ array.bytes index →
      offset ≤ index ∧ index < offset + len) :
    ({ array with bytes := bytes }.refreshSectorErasedRange offset len).Tracked := by
  have inSync : array.size ≠ 0 → { array with bytes := bytes }.InSync :=
    fun nonempty => (tracked.inSync nonempty).ofBytes bytes
  unfold refreshSectorErasedRange
  split
  · next skipped =>
    refine ⟨inSync, ?_⟩
    rcases skipped with rfl | noSectors
    · apply tracked.sound.ofBytes
      intro index changed
      have range := changes index changed
      omega
    · exact sound_of_noSectors inSync noSectors
  · next refreshing =>
    obtain ⟨some, nonzero, nonempty⟩ := by simpa only [not_or] using refreshing
    rw [ensure_of_inSync (inSync nonempty)]
    dsimp only
    refine ⟨fun _ => ⟨(inSync nonempty).sectorSize,
      (List.length_mapIdx ..).trans (inSync nonempty).length⟩, ?_⟩
    intro sector position flagged member
    have counted : sector < array.sectorErased.length := by
      by_contra beyond
      rw [List.getD_eq_default _ _ ((List.length_mapIdx ..).le.trans (Nat.le_of_not_lt beyond))]
        at flagged
      cases flagged
    rw [List.getD_eq_getElem _ _ ((List.length_mapIdx ..).symm ▸ counted),
      List.getElem_mapIdx] at flagged
    split at flagged
    · have inMap : sector < { array with bytes := bytes }.sectorCount :=
        (inSync nonempty).length ▸ counted
      exact (scanSector_iff inMap).mp flagged position member
    · next outside =>
      have unchanged : bytes position = array.bytes position := by
        by_contra changed
        obtain ⟨above, below⟩ := changes position changed
        apply outside
        rw [← member.2]
        exact ⟨Nat.div_le_div_right above, Nat.div_le_div_right (by omega)⟩
      apply unchanged.trans
      apply tracked.sound sector position _ member
      rw [List.getD_eq_getElem _ _ counted]
      exact flagged

theorem tracked_ensureStorage (tracked : array.Tracked) (size : Fin (2 ^ 63)) :
    (array.ensureStorage size).Tracked := by
  unfold ensureStorage
  split
  · exact tracked
  · refine ⟨fun _ => ⟨rfl, List.length_replicate ..⟩, ?_⟩
    intro sector position flagged member
    rfl

theorem tracked_loadImage (tracked : array.Tracked) (offset : Nat) (data : List Byte) :
    (array.loadImage offset data).Tracked := by
  unfold loadImage
  split
  · apply tracked_refreshSectorErasedRange tracked
    intro index changed
    by_contra outside
    exact changed (array.bytes.write_outside offset data (by omega))
  · exact tracked

end FlashArray

end QboxPlatform.StrataFlash
