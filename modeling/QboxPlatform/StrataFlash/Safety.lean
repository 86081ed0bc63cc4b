import QboxPlatform.StrataFlash.Checked
import QboxPlatform.StrataFlash.Contents

/-!
# The checks of the flash

All of them succeed in every reachable flash, except that of the division in `erase_sector`.
-/

namespace QboxPlatform.StrataFlash

open Foundation

namespace FlashArray

variable {array : FlashArray}

theorem checkedByte_eq {offset : Nat} (inside : offset < array.size) :
    array.checkedByte offset = some (array.bytes offset) := if_pos inside

theorem sectorSize_toNat_ne (nonzero : array.sectorSize ≠ 0) : array.sectorSize.toNat ≠ 0 :=
  (sectorSize_pos nonzero).ne'

theorem checkedSectorCount_eq (array : FlashArray) :
    array.checkedSectorCount = some array.sectorCount := by
  unfold checkedSectorCount sectorCount
  split
  · rfl
  · next geometry => exact checkedDiv_eq (sectorSize_toNat_ne (not_or.mp geometry).1) _

theorem checkedScanSector_eq {index : Nat} (counted : index < array.sectorCount) :
    array.checkedScanSector index = some (array.scanSector index) := by
  obtain ⟨nonzero, inside⟩ := sector_start counted
  have fits := array.fits
  have small : index * array.sectorSize.toNat < 2 ^ 64 := by omega
  have ordered : index * array.sectorSize.toNat ≤
      array.sectorEnd (index * array.sectorSize.toNat) := by
    rw [sectorEnd_eq (Dvd.intro_left _ rfl) inside]
    exact le_min (Nat.le_add_right _ _) inside.le
  have allowed := checkedRange_eq ordered (array.sectorEnd_le (index * array.sectorSize.toNat))
  unfold checkedScanSector scanSector
  simp only [Nat.mod_eq_of_lt small, allowed]
  rfl

theorem checkedInitialize_eq (array : FlashArray) :
    array.checkedInitializeSectorErasedMap = some array.initializeSectorErasedMap := by
  unfold checkedInitializeSectorErasedMap
  rw [checkedSectorCount_eq]
  rfl

theorem checkedRebuild_eq (array : FlashArray) :
    array.checkedRebuildSectorErasedMap = some array.rebuildSectorErasedMap := by
  unfold checkedRebuildSectorErasedMap
  rw [checkedSectorCount_eq]
  dsimp only [Option.bind_eq_bind, Option.bind_some]
  split
  · next noSectors =>
    have none : array.sectorCount = 0 := if_pos noSectors
    rw [rebuildSectorErasedMap, none]
    rfl
  · have scanned := @foldlM_checkedSet _ (List.range array.sectorCount) array.checkedScanSector
      array.scanSector (List.replicate array.sectorCount true)
      (fun index member => checkedScanSector_eq (List.mem_range.mp member))
      (fun index member => by rw [List.length_replicate]; exact List.mem_range.mp member)
    have flags : ((List.replicate array.sectorCount true).mapIdx fun index erased =>
        if index ∈ List.range array.sectorCount then array.scanSector index else erased) =
        (List.range array.sectorCount).map array.scanSector := by
      apply List.ext_getElem
      · rw [List.length_mapIdx, List.length_replicate, List.length_map, List.length_range]
      · intro index left right
        rw [List.length_map, List.length_range] at right
        rw [List.getElem_mapIdx, if_pos (List.mem_range.mpr right), List.getElem_map,
          List.getElem_range]
    rw [flags] at scanned
    rw [scanned]
    rfl

theorem checkedEnsure_eq (array : FlashArray) :
    array.checkedEnsureSectorErasedMap = some array.ensureSectorErasedMap := by
  unfold checkedEnsureSectorErasedMap ensureSectorErasedMap
  rw [checkedSectorCount_eq, checkedRebuild_eq]
  by_cases size : array.sectorErasedMapSize = array.sectorSize
  · rw [if_neg (not_not.mpr size)]
    by_cases length : array.sectorErased.length = array.sectorCount
    · rw [if_neg (not_or.mpr ⟨not_not.mpr size, not_not.mpr length⟩)]
      exact if_neg (not_not.mpr length)
    · rw [if_pos (Or.inr length)]
      exact if_pos length
  · rw [if_pos size, if_pos (Or.inl size)]

theorem ensure_sectorCount (array : FlashArray) :
    array.ensureSectorErasedMap.sectorErased.length = array.ensureSectorErasedMap.sectorCount :=
  array.inSync_ensure.length

theorem checkedRefresh_eq {offset len : Nat} (inside : offset + len ≤ array.size) :
    array.checkedRefreshSectorErasedRange offset len =
      some (array.refreshSectorErasedRange offset len) := by
  unfold checkedRefreshSectorErasedRange refreshSectorErasedRange
  split
  · rfl
  · next refreshing =>
    obtain ⟨-, nonzero, -⟩ := by simpa only [not_or] using refreshing
    have fits := array.fits
    have small : offset + len - 1 < 2 ^ 64 := by omega
    have same := SameContents.ensure array
    rw [checkedEnsure_eq, checkedDiv_eq (sectorSize_toNat_ne nonzero),
      checkedDiv_eq (sectorSize_toNat_ne nonzero), Nat.mod_eq_of_lt small]
    dsimp only [Option.bind_eq_bind, Option.bind_some]
    generalize ensured : array.ensureSectorErasedMap = current at same ⊢
    have length : current.sectorErased.length = current.sectorCount :=
      ensured ▸ array.ensure_sectorCount
    have members : ∀ index, index ∈ List.range' (offset / array.sectorSize.toNat)
          (min ((offset + len - 1) / array.sectorSize.toNat + 1) current.sectorErased.length -
            offset / array.sectorSize.toNat) ↔
        current.sectorIndex offset ≤ index ∧ index ≤ current.sectorIndex (offset + len - 1) ∧
          index < current.sectorErased.length := by
      intro index
      rw [List.mem_range'_1, sectorIndex, sectorIndex, same.sectorSize]
      omega
    have scanned := @foldlM_checkedSet _ _ current.checkedScanSector current.scanSector
      current.sectorErased
      (fun index member => checkedScanSector_eq (length ▸ ((members index).mp member).2.2))
      (fun index member => ((members index).mp member).2.2)
    rw [scanned]
    refine congrArg some ?_
    have flags : (current.sectorErased.mapIdx fun index erased =>
        if index ∈ List.range' (offset / array.sectorSize.toNat)
            (min ((offset + len - 1) / array.sectorSize.toNat + 1) current.sectorErased.length -
              offset / array.sectorSize.toNat) then current.scanSector index else erased) =
        current.sectorErased.mapIdx fun index erased =>
          if current.sectorIndex offset ≤ index ∧ index ≤ current.sectorIndex (offset + len - 1)
          then current.scanSector index else erased := by
      apply List.ext_getElem
      · rw [List.length_mapIdx, List.length_mapIdx]
      · intro index left right
        rw [List.length_mapIdx] at right
        rw [List.getElem_mapIdx, List.getElem_mapIdx]
        simp only [members, right, and_true]
    rw [flags]

theorem checkedSetSector_eq (nonzero : array.sectorSize ≠ 0) (offset : Nat) (erased : Bool) :
    array.checkedSetSector offset erased =
      some { array with
        sectorErased := array.sectorErased.set (array.sectorIndex offset) erased } := by
  unfold checkedSetSector
  rw [checkedDiv_eq (sectorSize_toNat_ne nonzero)]
  dsimp only [Option.bind_eq_bind, Option.bind_some]
  split
  · next inside =>
    rw [checkedSet_eq inside]
    rfl
  · next outside =>
    rw [sectorIndex, List.set_eq_of_length_le (Nat.le_of_not_lt outside)]
    rfl

theorem ensure_sectorSize (nonzero : array.sectorSize ≠ 0) :
    array.ensureSectorErasedMap.sectorSize ≠ 0 :=
  (SameContents.ensure array).sectorSize.symm ▸ nonzero

theorem checkedMarkProgrammedByte_eq {offset : Nat} (inside : offset < array.size) :
    array.checkedMarkProgrammedByte offset = some (array.markProgrammedByte offset) := by
  unfold checkedMarkProgrammedByte markProgrammedByte
  rw [checkedByte_eq inside, checkedEnsure_eq]
  dsimp only [Option.bind_eq_bind, Option.bind_some]
  by_cases noSectors : array.sectorSize = 0 ∨ array.size = 0
  · rw [if_pos noSectors, if_pos (noSectors.imp_right Or.inl)]
  · obtain ⟨nonzero, nonempty⟩ := not_or.mp noSectors
    rw [if_neg noSectors]
    by_cases erased : array.bytes offset = 0xff
    · rw [if_pos erased, if_pos (Or.inr (Or.inr erased))]
      rfl
    · have marking : ¬(array.sectorSize = 0 ∨ array.size = 0 ∨ array.bytes offset = 0xff) :=
        not_or.mpr ⟨nonzero, not_or.mpr ⟨nonempty, erased⟩⟩
      rw [if_neg erased, if_neg marking, checkedSetSector_eq (ensure_sectorSize nonzero)]
      rfl

theorem checkedMarkProgrammedRange_eq {offset len : Nat} (inside : offset + len ≤ array.size) :
    array.checkedMarkProgrammedRange offset len = some (array.markProgrammedRange offset len) := by
  unfold checkedMarkProgrammedRange markProgrammedRange
  split
  · rfl
  · next marking =>
    obtain ⟨-, nonzero, -⟩ := by simpa only [not_or] using marking
    have same := SameContents.ensure array
    rw [checkedEnsure_eq]
    dsimp only [Option.bind_eq_bind, Option.bind_some]
    apply @foldlM_eq_foldl _ _ _ _ fun marked : FlashArray =>
      marked.sectorSize ≠ 0 ∧ offset + len ≤ marked.size
    · intro marked index member kept
      obtain ⟨sectors, bounded⟩ := kept
      have below := List.mem_range.mp member
      rw [checkedByte_eq (show offset + index < marked.size by omega), Option.bind_some,
        checkedSetSector_eq sectors]
      split
      · rfl
      · rfl
    · intro marked index member kept
      split
      · exact kept
      · exact kept
    · exact ⟨ensure_sectorSize nonzero, same.size.symm ▸ inside⟩

theorem checkedSectorIsErased_eq (array : FlashArray) (start : Nat) :
    array.checkedSectorIsErased start = some (array.sectorIsErased start) := by
  unfold checkedSectorIsErased sectorIsErased
  split
  · rfl
  · next geometry =>
    have nonzero := (not_or.mp geometry).1
    rw [checkedEnsure_eq, checkedDiv_eq (sectorSize_toNat_ne nonzero)]
    dsimp only [Option.bind_eq_bind, Option.bind_some]
    have index : array.ensureSectorErasedMap.sectorIndex start =
        start / array.sectorSize.toNat := by
      rw [sectorIndex, (SameContents.ensure array).sectorSize]
    rw [index]
    split
    · next inside =>
      rw [List.getElem?_eq_getElem inside, List.getD_eq_getElem _ _ inside]
      rfl
    · next outside =>
      rw [List.getD_eq_default _ _ (Nat.le_of_not_lt outside)]
      rfl

theorem checkedMarkSectorErased_eq (array : FlashArray) (start : Nat) :
    array.checkedMarkSectorErased start = some (array.markSectorErased start) := by
  unfold checkedMarkSectorErased markSectorErased
  split
  · rfl
  · next geometry =>
    rw [checkedEnsure_eq]
    exact checkedSetSector_eq (ensure_sectorSize (not_or.mp geometry).1) start true

theorem SameContents.sectorIsErased (array : FlashArray) (start : Nat) :
    SameContents array (array.sectorIsErased start).2 := by
  unfold FlashArray.sectorIsErased
  split
  · exact refl array
  · exact ensure array

theorem checkedFill_eq {offset : Nat} (inside : offset < array.size) {current : FlashArray}
    (same : SameContents array current) :
    current.checkedFill (array.sectorStart offset)
        (array.sectorEnd (array.sectorStart offset)) = some (current.fillSector offset) := by
  have started := sectorStart_inside inside
  have ordered : array.sectorStart offset ≤ array.sectorEnd (array.sectorStart offset) := by
    have aligned : array.sectorSize.toNat ∣ array.sectorStart offset := Dvd.intro_left _ rfl
    rw [sectorEnd_eq aligned started]
    exact le_min (Nat.le_add_right _ _) started.le
  have bounded := array.sectorEnd_le (array.sectorStart offset)
  have start : current.sectorStart offset = array.sectorStart offset := by
    rw [sectorStart, sectorIndex, same.sectorSize]
    rfl
  have last : current.sectorEnd (array.sectorStart offset) =
      array.sectorEnd (array.sectorStart offset) := by
    rw [sectorEnd, same.sectorSize, same.size]
    rfl
  rw [← same.size] at bounded
  rw [checkedFill, checkedRange_eq ordered bounded, fillSector, start, last]
  rfl

theorem checkedEnsureStorage_eq (array : FlashArray) (size : Fin (2 ^ 63)) :
    array.checkedEnsureStorage size = some (array.ensureStorage size) := by
  unfold checkedEnsureStorage ensureStorage
  split
  · rfl
  · exact checkedInitialize_eq _

theorem checkedLoadImage_eq (array : FlashArray) (offset : Nat) (data : List Byte) :
    array.checkedLoadImage offset data = some (array.loadImage offset data) := by
  unfold checkedLoadImage loadImage
  split
  · next inside =>
    have bounded := inRange_iff.mp inside
    rw [checkedRange_eq (Nat.le_add_right _ _) bounded]
    exact @checkedRefresh_eq (array.copy offset data) _ _ bounded
  · rfl

end FlashArray

namespace Backing

/-- Every copy into the mapping lies inside the array. -/
theorem checkedCopyRange_eq (backing : Backing) (array : FlashArray) (offset len : Nat) :
    backing.checkedCopyRange array offset len = some (backing.copyRange array offset len) := by
  unfold checkedCopyRange copyRange
  split
  · rfl
  · next inside =>
    have bounded : offset + len ≤ array.size :=
      FlashArray.inRange_iff.mp (by simpa only [Bool.not_eq_true', Bool.not_eq_false] using inside)
    cases backing.mapping with
    | none => rfl
    | some mapping =>
        dsimp only
        split
        · rfl
        · rw [checkedRange_eq (Nat.le_add_right _ _) bounded]
          rfl

theorem checkedFlushDeferred_eq (backing : Backing) (array : FlashArray) :
    backing.checkedFlushDeferred array = some (backing.flushDeferred array) := by
  have written : backing.checkedWriteWhileFlushing array backing.dirtyStart backing.dirtyLength =
      some (backing.writeWhileFlushing array backing.dirtyStart backing.dirtyLength) := by
    unfold checkedWriteWhileFlushing writeWhileFlushing
    split
    · rfl
    · dsimp only
      split
      · exact checkedCopyRange_eq _ array _ _
      · rfl
  unfold checkedFlushDeferred flushDeferred
  rw [written]
  split
  · rfl
  · split
    · rfl
    · dsimp only [Option.bind_eq_bind, Option.bind_some]
      split
      · rfl
      · rfl

end Backing

theorem Stats.checkedMaybeWriteStats_eq (stats : Stats) :
    stats.checkedMaybeWriteStats = some stats.maybeWriteStats := by
  unfold checkedMaybeWriteStats maybeWriteStats
  dsimp only
  generalize stats.counters .readAccesses + stats.counters .writeAccesses = total
  by_cases skipped : stats.statsInterval = 0 ∨ stats.statsFile = "" ∨ total = 0 ∨
      total = stats.lastStatsAccess
  · rw [if_pos skipped, if_pos]
    tauto
  · obtain ⟨interval, file, some, later⟩ := by simpa only [not_or] using skipped
    have nonzero : stats.statsInterval.toNat ≠ 0 := fun zero =>
      interval (BitVec.eq_of_toNat_eq zero)
    have wide : (stats.statsInterval.setWidth 64).toNat = stats.statsInterval.toNat :=
      BitVec.toNat_setWidth_of_le (by decide)
    have rest : total % stats.statsInterval.setWidth 64 = 0 ↔
        total.toNat % stats.statsInterval.toNat = 0 := by
      rw [← BitVec.toNat_inj, BitVec.toNat_umod, wide]
      rfl
    rw [if_neg skipped, checkedMod_eq nonzero]
    dsimp only [Option.bind_eq_bind, Option.bind_some]
    by_cases due : total.toNat % stats.statsInterval.toNat = 0
    · rw [if_neg (not_not.mpr due), if_neg]
      · rfl
      · simp only [interval, file, some, later, rest, due, ne_eq, not_true, or_self,
          not_false_eq_true]
    · rw [if_pos due, if_pos]
      · rfl
      · simp only [rest, due, ne_eq, not_false_eq_true, or_true]

namespace Flash

variable {flash : Flash}

theorem checkedFlush_eq (flash : Flash) :
    flash.checkedFlushDeferredBacking = some flash.flushDeferredBacking := by
  unfold checkedFlushDeferredBacking flushDeferredBacking
  rw [Backing.checkedFlushDeferred_eq]
  dsimp only [Option.bind_eq_bind, Option.bind_some]
  split
  · rfl
  · rfl

theorem checkedClose_eq (flash : Flash) :
    flash.checkedCloseBackingFile = some flash.closeBackingFile := by
  rw [checkedCloseBackingFile, checkedFlush_eq]
  rfl

theorem checkedEnsureBackingFile_eq (flash : Flash) :
    flash.checkedEnsureBackingFile = some flash.ensureBackingFile := by
  unfold checkedEnsureBackingFile ensureBackingFile
  rw [checkedClose_eq]
  split
  · rfl
  · split
    · rfl
    · rfl

theorem checkedWriteNow_eq (flash : Flash) (offset len : Nat) :
    flash.checkedWriteBackingRangeNow offset len =
      some (flash.writeBackingRangeNow offset len) := by
  unfold checkedWriteBackingRangeNow writeBackingRangeNow
  rw [checkedEnsureBackingFile_eq]
  split
  · rfl
  · dsimp only [Option.bind_eq_bind, Option.bind_some]
    split
    · rw [Backing.checkedCopyRange_eq]
      rfl
    · rfl

theorem checkedWriteBackingRange_eq (flash : Flash) (offset len : Nat) :
    flash.checkedWriteBackingRange offset len = some (flash.writeBackingRange offset len) := by
  unfold checkedWriteBackingRange writeBackingRange
  split
  · rfl
  · split
    · rfl
    · dsimp only
      split
      · split
        · exact checkedFlush_eq _
        · rfl
      · rw [checkedWriteNow_eq]
        rfl

/-- Without sectors both are undefined. -/
theorem checkedEraseSector_eq {offset : Nat} (inside : offset < flash.array.size) :
    flash.checkedEraseSector offset = flash.eraseSector offset := by
  unfold checkedEraseSector eraseSector
  by_cases zero : flash.array.sectorSize = 0
  · have undefined : checkedDiv offset flash.array.sectorSize.toNat = none := by
      rw [zero]
      rfl
    rw [undefined, if_pos zero]
    rfl
  · have start : offset / flash.array.sectorSize.toNat * flash.array.sectorSize.toNat =
        flash.array.sectorStart offset := rfl
    rw [checkedDiv_eq (FlashArray.sectorSize_toNat_ne zero), if_neg zero]
    dsimp only [Option.bind_eq_bind, Option.bind_some, count]
    rw [start, FlashArray.checkedSectorIsErased_eq]
    dsimp only [Option.bind_some]
    have looked := FlashArray.SameContents.sectorIsErased flash.array
      (flash.array.sectorStart offset)
    generalize flash.array.sectorIsErased (flash.array.sectorStart offset) = outcome at looked ⊢
    obtain ⟨erased, array⟩ := outcome
    split
    · rfl
    · rw [FlashArray.checkedFill_eq inside looked, Option.bind_some,
        FlashArray.checkedMarkSectorErased_eq, Option.bind_some, checkedWriteBackingRange_eq]
      rfl

theorem checkedIsSectorAligned_eq (flash : Flash) (offset : Nat) (data : List Byte) :
    flash.checkedIsSectorAlignedProgramFfErase offset data =
      some (flash.isSectorAlignedProgramFfErase offset data) := by
  unfold checkedIsSectorAlignedProgramFfErase isSectorAlignedProgramFfErase
  split
  · next guarded =>
    have nonzero : flash.array.sectorSize ≠ 0 := bne_iff_ne.mp (Bool.and_eq_true_iff.mp guarded).2
    rw [guarded, checkedMod_eq (FlashArray.sectorSize_toNat_ne nonzero)]
    rfl
  · next unguarded =>
    rw [Bool.not_eq_true] at unguarded
    rw [unguarded]
    rfl

theorem checkedProgramByte_eq {offset : Nat} (inside : offset < flash.array.size)
    (value : Byte) :
    flash.checkedProgramByte offset value = some (flash.programByte offset value) := by
  unfold checkedProgramByte programByte
  rw [FlashArray.checkedByte_eq inside]
  dsimp only [Option.bind_eq_bind, Option.bind_some]
  split
  · have marked := @FlashArray.checkedMarkProgrammedByte_eq (flash.array.copy offset
      [flash.programmedByte (flash.array.bytes offset) value]) offset inside
    rw [marked, Option.bind_some, checkedWriteBackingRange_eq]
    rfl
  · rfl

theorem checkedProgramLoop_eq {offset : Nat} {data : List Byte}
    (inside : offset + data.length ≤ flash.array.size) :
    flash.checkedProgramLoop offset data = some (flash.programLoop offset data) := by
  unfold checkedProgramLoop programLoop
  apply @foldlM_eq_foldl _ _ _ _ fun _ => True
  · intro loop item member _
    have position := List.snd_lt_of_mem_zipIdx member
    rw [FlashArray.checkedByte_eq (by omega)]
    rfl
  · exact fun _ _ _ _ => trivial
  · trivial

theorem checkedProgramRange_eq {offset : Nat} {data : List Byte}
    (inside : offset + data.length ≤ flash.array.size) :
    flash.checkedProgramRange offset data = some (flash.programRange offset data) := by
  have invariant := flash.partialLoop_invariant offset data.length data (Nat.le_refl _)
  have counts : ((flash.count .programOps 1).count .programBytes data.length).programLoop
      offset data = flash.partialLoop offset data.length data := rfl
  unfold checkedProgramRange programRange
  dsimp only
  rw [checkedProgramLoop_eq (by exact inside), counts]
  dsimp only [Option.bind_eq_bind, Option.bind_some]
  have bounds := invariant.bounds
  generalize flash.partialLoop offset data.length data = loop at bounds ⊢
  split
  · next some =>
    have ordered : loop.firstChanged ≤ loop.lastChanged ∧ loop.lastChanged < data.length := by
      rcases bounds with ⟨none, -⟩ | ordered
      · exact absurd none some
      · exact ordered
    have bounded : offset + loop.firstChanged + (loop.lastChanged - loop.firstChanged + 1) ≤
        flash.array.size := by omega
    rw [FlashArray.checkedMarkProgrammedRange_eq (by exact bounded), Option.bind_some,
      checkedWriteBackingRange_eq]
    rfl
  · rfl

theorem checkedProgram_eq {offset : Nat} {data : List Byte} (some : data ≠ [])
    (inside : offset + data.length ≤ flash.array.size) :
    flash.checkedProgram offset data = flash.program offset data := by
  have positive := List.length_pos_iff.mpr some
  unfold checkedProgram program
  rw [checkedIsSectorAligned_eq]
  dsimp only [Option.bind_eq_bind, Option.bind_some]
  split
  · exact checkedEraseSector_eq (show offset < flash.array.size by omega)
  · split
    · exact checkedProgramByte_eq (by omega) _
    · exact checkedProgramRange_eq inside

theorem overwrite_nil {Item : Type} (items : List Item) (position : Nat) :
    overwrite items position [] = items := by
  apply List.ext_getElem
  · exact length_overwrite _ _ _
  · intro index left right
    simp only [overwrite, List.getElem_mapIdx, List.getD_nil, ite_self]

theorem overwrite_append {Item : Type} (items data : List Item) (position : Nat) (item : Item) :
    overwrite items position (data ++ [item]) =
      (overwrite items position data).set (position + data.length) item := by
  apply List.ext_getElem
  · rw [length_overwrite, List.length_set, length_overwrite]
  · intro index left right
    rw [List.getElem_set]
    simp only [overwrite, List.getElem_mapIdx]
    by_cases last : position + data.length = index
    · have there : index - position = data.length := by omega
      rw [if_pos last, if_pos (by omega), there, List.getD_append_right _ _ _ _ (Nat.le_refl _),
        Nat.sub_self]
      rfl
    · rw [if_neg last]
      split
      · next reached =>
        rcases Nat.lt_or_ge (index - position) data.length with before | beyond
        · rw [List.getD_append _ _ _ _ before]
        · rw [List.getD_eq_default _ _ beyond, List.getD_eq_default]
          rw [List.length_append, List.length_singleton]
          omega
      · rfl

theorem checkedCopyData_eq {buffer : WriteBuffer}
    (marked : buffer.written.length = buffer.data.length) {relative : Nat} (data : List Byte)
    {count : Nat} (short : count ≤ data.length)
    (inside : count ≤ buffer.data.length - relative) :
    checkedCopyData buffer relative data count =
      some { buffer with
        data := overwrite buffer.data relative (data.take count)
        written := overwrite buffer.written relative ((data.take count).map fun _ => true) } := by
  unfold checkedCopyData
  induction count with
  | zero =>
      rw [List.take_zero, List.map_nil, overwrite_nil, overwrite_nil]
      rfl
  | succ count inductionHypothesis =>
      have here : relative + count < buffer.data.length := by omega
      have length : (data.take count).length = count := List.length_take_of_le (by omega)
      have before := inductionHypothesis (by omega) (by omega)
      rw [List.range_succ, List.foldlM_append, before]
      dsimp only [Option.bind_eq_bind, Option.bind_some]
      rw [List.foldlM_cons, List.getElem?_eq_getElem short]
      dsimp only [Option.bind_eq_bind, Option.bind_some]
      rw [checkedSet_eq (by rw [length_overwrite]; exact here), Option.bind_some,
        checkedSet_eq (by rw [length_overwrite, marked]; exact here), Option.bind_some,
        List.take_succ_eq_append_getElem short, List.map_append, overwrite_append, length,
        List.map_singleton, overwrite_append, List.length_map, length]
      rfl

theorem checkedCollect_eq (wellFormed : flash.WellFormed) (offset : Nat) (data : List Byte) :
    flash.checkedCollectWriteBufferData offset data =
      some (flash.collectWriteBufferData offset data) := by
  unfold checkedCollectWriteBufferData collectWriteBufferData
  dsimp only
  split
  · rfl
  · split
    · rfl
    · rw [checkedCopyData_eq wellFormed.marked data (Nat.min_le_left _ _) (Nat.min_le_right _ _)]
      have taken : data.take (min data.length
            (flash.writeBuffer.data.length - (offset - flash.writeBuffer.base))) =
          data.take (flash.writeBuffer.data.length - (offset - flash.writeBuffer.base)) := by
        rw [List.take_eq_take_iff]
        omega
      rw [taken]
      rfl

theorem checkedConfirm_eq (wellFormed : flash.WellFormed)
    (pending : flash.control.pending = .writeBufferData) :
    flash.checkedConfirmWriteBuffer = flash.confirmWriteBuffer := by
  unfold checkedConfirmWriteBuffer confirmWriteBuffer
  dsimp only
  split
  · next complete =>
    have some := buffer_ne_nil wellFormed.marked complete
    have programmed := @checkedProgram_eq
      (((flash.count .writeBufferConfirmCmds 1).count .writeBufferOps 1).count
        .writeBufferBytes flash.writeBuffer.data.length) _ _ some (wellFormed.buffered pending)
    refine (congrArg (fun outcome => outcome.bind fun next => Option.some next.clearWriteBuffer)
      programmed).trans ?_
    exact Option.map_eq_bind.symm
  · rfl

theorem checkedHandleCommand_eq {offset : Nat} (inside : offset < flash.array.size)
    (command : Byte) :
    flash.checkedHandleCommand offset command = flash.handleCommand offset command := by
  unfold checkedHandleCommand
  dsimp only
  split
  · next erases =>
    have pending := erases.1
    rw [checkedEraseSector_eq (by exact inside), handleCommand, pending]
    exact (if_pos erases.2).symm
  · rfl

theorem checkedWrite_eq (wellFormed : flash.WellFormed) {offset : Nat} {data : List Byte}
    (some : data ≠ []) (inside : offset + data.length ≤ flash.array.size) :
    flash.checkedWrite offset data = flash.write offset data := by
  have positive := List.length_pos_iff.mpr some
  unfold checkedWrite write
  split
  · exact checkedProgram_eq some inside
  · split
    · rfl
    · split
      · next pending =>
        split
        · exact checkedConfirm_eq wellFormed pending
        · exact checkedCollect_eq wellFormed offset data
      · apply checkedHandleCommand_eq
        rw [flash.invalidateDmi_array]
        omega

theorem checkedEnsureStorage_eq (flash : Flash) :
    flash.checkedEnsureStorage = some flash.ensureStorage := by
  unfold checkedEnsureStorage
  rw [FlashArray.checkedEnsureStorage_eq]
  rfl

theorem checkedReadByte_eq {offset : Nat} (inside : offset < flash.array.size) :
    flash.checkedReadByte offset = some (flash.readByte offset) := by
  unfold checkedReadByte readByte
  cases flash.control.mode with
  | readArray => exact FlashArray.checkedByte_eq inside
  | _ => rfl

theorem checkedReadData_eq {offset len : Nat} (inside : offset + len ≤ flash.array.size) :
    flash.checkedReadData offset len = some (flash.readData offset len) := by
  have bytes : (List.range len).mapM (fun index => flash.checkedReadByte (offset + index)) =
      some ((List.range len).map fun index => flash.readByte (offset + index)) := by
    apply mapM_eq_map
    intro index member
    have below := List.mem_range.mp member
    exact checkedReadByte_eq (by omega)
  unfold checkedReadData readData
  cases flash.control.mode with
  | readArray =>
      dsimp only
      rw [checkedRange_eq (Nat.le_add_right _ _) inside]
      rfl
  | readStatus => rfl
  | readId => exact bytes
  | readQuery => exact bytes

theorem checkedFinishAccess_eq (flash : Flash) :
    flash.checkedFinishAccess = some flash.finishAccess := by
  unfold checkedFinishAccess finishAccess
  dsimp only
  split
  · rw [Stats.checkedMaybeWriteStats_eq]
    rfl
  · rfl

theorem checkedFastAccess_eq (wellFormed : flash.WellFormed) (access : Access) :
    flash.checkedFastAccess access = flash.fastAccess access := by
  unfold checkedFastAccess fastAccess
  rw [checkedEnsureStorage_eq]
  dsimp only [Option.bind_eq_bind, Option.bind_some]
  split
  · rfl
  · next accepted =>
    have bounds := accepts_iff.mp accepted
    cases access with
    | read offset len =>
        dsimp only
        rw [checkedReadData_eq (by exact bounds.2)]
        rfl
    | ignore offset len => rfl
    | write offset data =>
        have ready := wellFormed_ensureStorage wellFormed
        have some := List.length_pos_iff.mp (Nat.pos_of_ne_zero bounds.1)
        dsimp only
        rw [checkedWrite_eq ready some (by exact bounds.2)]
        exact Option.map_eq_bind.symm

theorem checkedFullAccess_eq (wellFormed : flash.WellFormed) (access : Access) :
    flash.checkedFullAccess access = flash.fullAccess access := by
  unfold checkedFullAccess fullAccess
  rw [checkedEnsureStorage_eq]
  dsimp only [Option.bind_eq_bind, Option.bind_some]
  split
  · rfl
  · next accepted =>
    have bounds := accepts_iff.mp accepted
    cases access with
    | read offset len =>
        dsimp only
        rw [checkedReadData_eq (by exact bounds.2)]
        dsimp only [Option.bind_some]
        rw [checkedFinishAccess_eq]
        rfl
    | ignore offset len => rfl
    | write offset data =>
        have counts : SameButStats flash.ensureStorage
            ((flash.ensureStorage.count .writeAccesses 1).count .writeBytes data.length) :=
          ⟨_, rfl⟩
        have ready := counts.looked.sameCore.wellFormed (wellFormed_ensureStorage wellFormed)
        have some := List.length_pos_iff.mp (Nat.pos_of_ne_zero bounds.1)
        dsimp only
        rw [checkedWrite_eq ready some (by exact bounds.2)]
        simp only [checkedFinishAccess_eq, Option.bind_some]
        exact Option.map_eq_bind.symm

theorem ensureStorage_ensureStorage (flash : Flash) :
    flash.ensureStorage.ensureStorage = flash.ensureStorage := by
  have same : (flash.array.ensureStorage flash.params.size).ensureStorage flash.params.size =
      flash.array.ensureStorage flash.params.size := by
    by_cases allocated : flash.array.size = 0
    · by_cases empty : flash.params.size.val = 0
      · have first : flash.array.ensureStorage flash.params.size = _ :=
          if_neg (not_not.mpr allocated)
        rw [first]
        exact if_neg (not_not.mpr empty)
      · have first : flash.array.ensureStorage flash.params.size = _ :=
          if_neg (not_not.mpr allocated)
        rw [first]
        exact if_pos empty
    · rw [ensureStorage_of_allocated allocated, ensureStorage_of_allocated allocated]
  exact congrArg (fun array => { flash with array := array }) same

/-- In a well-formed flash the checks fail only where the program is undefined. -/
theorem checkedStep_eq (wellFormed : flash.WellFormed) (event : FlashEvent) :
    flash.checkedStep event = flash.step event := by
  cases event with
  | access access debug =>
      have same : flash.checkedAccess access debug = flash.access access debug := by
        unfold checkedAccess Flash.access
        rw [checkedFastAccess_eq wellFormed, checkedFullAccess_eq wellFormed]
      rw [checkedStep, same, step, respond, Option.map_map]
      rfl
  | load offset data =>
      rw [checkedStep, checkedLoadImage, checkedEnsureStorage_eq]
      dsimp only [Option.bind_eq_bind, Option.bind_some]
      rw [FlashArray.checkedLoadImage_eq]
      rfl
  | setSectorSize size =>
      rw [checkedStep, checkedSetSectorSize, FlashArray.checkedRebuild_eq]
      rfl
  | setDeferBackingWrite enable =>
      rw [checkedStep, checkedFlush_eq]
      rfl
  | setDeferBackingFlushInterval interval =>
      rw [checkedStep, checkedFlush_eq]
      rfl
  | setBackingFile path =>
      rw [checkedStep, checkedFlush_eq]
      rfl
  | directMemory command offset len =>
      rw [checkedStep, checkedEnsureStorage_eq]
      dsimp only [Option.bind_eq_bind, Option.bind_some]
      rw [step, respond, getDirectMemPtr, ensureStorage_ensureStorage]
      rfl
  | _ => rfl

theorem write_undefined (pending : flash.control.pending = .erase) (offset : Nat)
    {data : List Byte} (acknowledged : data.getD 0 0 = cmdBlockEraseAck)
    (zero : flash.array.sectorSize = 0) : flash.write offset data = none := by
  have control : (flash.invalidateDmi.recordCommand (data.getD 0 0)).control.pending = .erase :=
    (congrArg Control.pending flash.invalidateDmi_control).trans pending
  have sectors : (flash.invalidateDmi.recordCommand (data.getD 0 0)).array.sectorSize = 0 :=
    (congrArg FlashArray.sectorSize flash.invalidateDmi_array).trans zero
  rw [write, pending, if_neg (by decide), if_neg (by decide), if_neg (by decide), handleCommand,
    control]
  dsimp only
  rw [if_pos acknowledged, eraseSector, if_pos sectors]

theorem access_undefined {access : Access} (erases : flash.ErasesWithoutSectors access)
    (debug : Bool) : flash.access access debug = none := by
  obtain ⟨offset, data, rfl, accepted, pending, acknowledged, zero⟩ := erases
  rw [← ensureStorage_sectorSize] at zero
  unfold Flash.access
  split
  · unfold fastAccess
    dsimp only
    rw [if_neg (accepts_iff.mpr accepted)]
    exact congrArg (Option.map _) (@write_undefined flash.ensureStorage pending _ _
      acknowledged zero)
  · unfold fullAccess
    dsimp only
    rw [if_neg (accepts_iff.mpr accepted)]
    exact congrArg (Option.map _) (@write_undefined
      ((flash.ensureStorage.count .writeAccesses 1).count .writeBytes data.length) pending _ _
      acknowledged zero)

/-- The event confirms a block erase while the sector size is zero. -/
def DividesByZero (flash : Flash) (event : FlashEvent) : Prop :=
  ∃ access debug, event = .access access debug ∧ flash.ErasesWithoutSectors access

theorem step_isSome_iff (wellFormed : flash.WellFormed) (event : FlashEvent) :
    (flash.step event).isSome = true ↔ ¬flash.DividesByZero event := by
  cases event with
  | access access debug =>
      by_cases erases : flash.ErasesWithoutSectors access
      · rw [step, respond, access_undefined erases]
        refine iff_of_false Bool.false_ne_true (not_not.mpr ?_)
        exact ⟨access, debug, rfl, erases⟩
      · obtain ⟨reply, next, accessed⟩ := access_defined wellFormed erases debug
        rw [step, respond, accessed]
        refine iff_of_true rfl ?_
        rintro ⟨other, flag, same, erasing⟩
        obtain ⟨rfl, -⟩ := FlashEvent.access.inj same
        exact erases erasing
  | _ =>
      refine iff_of_true rfl ?_
      rintro ⟨access, debug, same, -⟩
      cases same

/-- A run passes all its checks exactly when no step of it confirms a block erase while the
sector size is zero. -/
theorem checked_run_iff (config : FlashConfig) (events : List FlashEvent) :
    (run checkedStep (start config) events).isSome = true ↔
      ∀ front event back flash, events = front ++ event :: back →
        run checkedStep (start config) front = some flash → ¬flash.DividesByZero event := by
  have same : ∀ events, run checkedStep (start config) events = run step (start config) events :=
    run_congr_of_invariant (fun _ _ _ => wellFormed_step)
      (fun _ event kept => checkedStep_eq kept event) (wellFormed_start config)
  rw [same, run_isSome_iff]
  simp only [same]
  refine forall₄_congr fun front event back flash => ?_
  refine forall₂_congr fun parts reached => ?_
  exact step_isSome_iff (wellFormed_reachable reached) event

theorem erase_divides_by_zero :
    run checkedStep (start { smallConfig "" ⟨0, fun _ => 0⟩ with sectorSize := 0 })
      [.access (.write 0 [cmdBlockErase]) false, .access (.write 0 [cmdBlockEraseAck]) false] =
        none := rfl

end Flash

end QboxPlatform.StrataFlash
