import QboxPlatform.StrataFlash.SectorMap
import QboxPlatform.StrataFlash.Step

/-!
# What programming and erasing store

Both end in the same way: either no byte of the array changes, or the changed bytes lie in a
range that is handed to the write-back, in an array whose map is kept.
-/

namespace QboxPlatform.StrataFlash

open Foundation

namespace FlashArray

/-- Two arrays that differ in their maps only. -/
structure SameContents (before after : FlashArray) : Prop where
  size : after.size = before.size
  bytes : after.bytes = before.bytes
  sectorSize : after.sectorSize = before.sectorSize

namespace SameContents

theorem refl (array : FlashArray) : SameContents array array := ⟨rfl, rfl, rfl⟩

theorem trans {first second third : FlashArray} (left : SameContents first second)
    (right : SameContents second third) : SameContents first third :=
  ⟨right.size.trans left.size, right.bytes.trans left.bytes,
    right.sectorSize.trans left.sectorSize⟩

theorem ensure (array : FlashArray) : SameContents array array.ensureSectorErasedMap := by
  unfold ensureSectorErasedMap
  split
  · exact ⟨rfl, rfl, rfl⟩
  · exact refl array

theorem markProgrammedRange (array : FlashArray) (offset len : Nat) :
    SameContents array (array.markProgrammedRange offset len) := by
  unfold FlashArray.markProgrammedRange
  split
  · exact refl array
  · obtain ⟨flags, marked, -, -⟩ := markLoop_spec array.ensureSectorErasedMap offset len
    rw [marked]
    exact (ensure array).trans ⟨rfl, rfl, rfl⟩

theorem markSectorErased (array : FlashArray) (start : Nat) :
    SameContents array (array.markSectorErased start) := by
  unfold FlashArray.markSectorErased
  split
  · exact refl array
  · exact (ensure array).trans ⟨rfl, rfl, rfl⟩

theorem refreshSectorErasedRange (array : FlashArray) (offset len : Nat) :
    SameContents array (array.refreshSectorErasedRange offset len) := by
  unfold FlashArray.refreshSectorErasedRange
  split
  · exact refl array
  · exact (ensure array).trans ⟨rfl, rfl, rfl⟩

end SameContents

theorem inRange_iff {array : FlashArray} {offset len : Nat} :
    array.inRange offset len = true ↔ offset + len ≤ array.size := by
  rw [inRange, Bool.and_eq_true, decide_eq_true_eq, decide_eq_true_eq]
  omega

theorem sectorEnd_le (array : FlashArray) (start : Nat) : array.sectorEnd start ≤ array.size :=
  Nat.min_le_right _ _

end FlashArray

namespace Flash

variable {flash : Flash}

/-- Two flashes that differ in their statistics only. -/
def SameButStats (before after : Flash) : Prop := ∃ stats, after = { before with stats := stats }

theorem SameButStats.refl (flash : Flash) : SameButStats flash flash := ⟨_, rfl⟩

theorem SameButStats.trans {first second third : Flash} (left : SameButStats first second)
    (right : SameButStats second third) : SameButStats first third := by
  obtain ⟨stats, rfl⟩ := left
  obtain ⟨others, rfl⟩ := right
  exact ⟨others, rfl⟩

theorem sameButStats_count (flash : Flash) (counter : Counter) (delta : Nat) :
    SameButStats flash (flash.count counter delta) := ⟨_, rfl⟩

/-- The end of a command that leaves the array with the given bytes. -/
inductive Stored (flash : Flash) (bytes : Image) : Flash → Prop
  /-- No byte changes. -/
  | same (counted : Flash) (counts : SameButStats flash counted)
      (unchanged : bytes = flash.array.bytes) : Stored flash bytes counted.ready
  /-- The bytes that change lie in a range that is written back. -/
  | range (changed : Flash)
      (counts : SameButStats { flash with array := changed.array } changed)
      (contents : FlashArray.SameContents { flash.array with bytes := bytes } changed.array)
      (tracked : changed.array.Tracked) (first len : Nat)
      (changes : ∀ index, bytes index ≠ flash.array.bytes index →
        first ≤ index ∧ index < first + len)
      (inside : first + len ≤ flash.array.size) :
      Stored flash bytes (changed.writeBackingRange first len).ready

theorem Stored.ofCounts {counted next : Flash} {bytes : Image}
    (stored : Stored counted bytes next) (counts : SameButStats flash counted) :
    Stored flash bytes next := by
  obtain ⟨stats, rfl⟩ := counts
  cases stored with
  | same counted counts unchanged =>
      obtain ⟨others, rfl⟩ := counts
      exact Stored.same _ ⟨_, rfl⟩ unchanged
  | range changed counts contents tracked first len changes inside =>
      obtain ⟨others, same⟩ := counts
      exact @Stored.range flash bytes changed ⟨others, same⟩ contents tracked first len changes
        inside

/-- The array with some bytes programmed. -/
def programmedBytes (flash : Flash) (offset : Nat) (data : List Byte) : Image := fun position =>
  if offset ≤ position ∧ position < offset + data.length then
    flash.programmedByte (flash.array.bytes position) (data.getD (position - offset) 0)
  else flash.array.bytes position

theorem programmedBytes_append (flash : Flash) (offset : Nat) (data : List Byte) (value : Byte) :
    flash.programmedBytes offset (data ++ [value]) =
      (flash.programmedBytes offset data).write (offset + data.length)
        [flash.programmedByte (flash.array.bytes (offset + data.length)) value] := by
  funext position
  rcases Nat.lt_trichotomy position (offset + data.length) with before | rfl | beyond
  · rw [Image.write_outside _ _ _ (Or.inl before), programmedBytes, programmedBytes,
      List.length_append, List.length_singleton]
    by_cases covered : offset ≤ position
    · rw [if_pos ⟨covered, Nat.lt_succ_of_lt before⟩, if_pos ⟨covered, before⟩,
        List.getD_append _ _ _ _ (by omega)]
    · rw [if_neg fun inside => covered inside.1, if_neg fun inside => covered inside.1]
  · have written := Image.write_inside (flash.programmedBytes offset data)
      (offset + data.length)
      [flash.programmedByte (flash.array.bytes (offset + data.length)) value] Nat.zero_lt_one
    rw [Nat.add_zero] at written
    rw [written, programmedBytes, List.length_append, List.length_singleton,
      if_pos ⟨Nat.le_add_right _ _, Nat.lt_succ_self _⟩, Nat.add_sub_cancel_left,
      List.getD_append_right _ _ _ _ (Nat.le_refl _), Nat.sub_self]
    rfl
  · rw [Image.write_outside _ _ _ (Or.inr beyond), programmedBytes, programmedBytes,
      List.length_append, List.length_singleton, if_neg (by omega), if_neg (by omega)]

/-- The loop over a part of the data, with the initial value of its first changed position. -/
def partialLoop (flash : Flash) (offset total : Nat) (data : List Byte) : ProgramLoop :=
  data.zipIdx.foldl (fun loop (value, position) => flash.programStep offset loop position value)
    ⟨flash.array.bytes, 0, total, 0⟩

theorem partialLoop_append (flash : Flash) (offset total : Nat) (data : List Byte)
    (value : Byte) :
    flash.partialLoop offset total (data ++ [value]) =
      flash.programStep offset (flash.partialLoop offset total data) data.length value := by
  rw [partialLoop, List.zipIdx_append, List.foldl_append, Nat.zero_add]
  rfl

/-- What the loop has found: nothing changed, or the first and the last change. -/
structure LoopInvariant (flash : Flash) (offset total : Nat) (data : List Byte)
    (loop : ProgramLoop) : Prop where
  bytes : loop.bytes = flash.programmedBytes offset data
  bounds : (loop.firstChanged = total ∧ loop.bytes = flash.array.bytes) ∨
    (loop.firstChanged ≤ loop.lastChanged ∧ loop.lastChanged < data.length)
  changes : ∀ position, loop.bytes position ≠ flash.array.bytes position →
    offset + loop.firstChanged ≤ position ∧ position ≤ offset + loop.lastChanged

theorem partialLoop_invariant (flash : Flash) (offset total : Nat) (data : List Byte)
    (enough : data.length ≤ total) :
    LoopInvariant flash offset total data (flash.partialLoop offset total data) := by
  induction data using List.reverseRecOn with
  | nil =>
      refine ⟨?_, Or.inl ⟨rfl, rfl⟩, fun position changed => absurd rfl changed⟩
      funext position
      exact (if_neg fun covered => Nat.lt_irrefl _ (covered.1.trans_lt covered.2)).symm
  | append_singleton data value inductionHypothesis =>
      rw [List.length_append, List.length_singleton] at enough
      obtain ⟨bytes, bounds, changes⟩ := inductionHypothesis (Nat.le_of_succ_le enough)
      have old : (flash.partialLoop offset total data).bytes (offset + data.length) =
          flash.array.bytes (offset + data.length) := by
        rw [bytes]
        exact if_neg fun covered => Nat.lt_irrefl _ covered.2
      have appended := flash.programmedBytes_append offset data value
      rw [partialLoop_append, programStep, old]
      split
      · next same =>
        have kept : flash.programmedBytes offset (data ++ [value]) =
            flash.programmedBytes offset data := by
          rw [appended, same]
          funext position
          by_cases here : position = offset + data.length
          · rw [here, ← old, bytes]
            exact Image.write_inside _ _ [_] Nat.zero_lt_one
          · exact Image.write_outside _ _ _ (by simp only [List.length_singleton]; omega)
        refine ⟨bytes.trans kept.symm, ?_, changes⟩
        rcases bounds with unchanged | ⟨ordered, inside⟩
        · exact Or.inl unchanged
        · refine Or.inr ⟨ordered, inside.trans ?_⟩
          rw [List.length_append]
          exact Nat.lt_succ_self _
      · refine ⟨?_, Or.inr ⟨Nat.min_le_right _ _, ?_⟩, ?_⟩
        · rw [appended, ← bytes]
        · rw [List.length_append]
          exact Nat.lt_succ_self _
        · intro position changed
          by_cases here : position = offset + data.length
          · rw [here]
            exact ⟨Nat.add_le_add_left (Nat.min_le_right _ _) _, Nat.le_refl _⟩
          · have earlier : (flash.partialLoop offset total data).bytes position ≠
                flash.array.bytes position := by
              have other : position < offset + data.length ∨
                  offset + data.length + 1 ≤ position := Nat.lt_or_gt_of_ne here
              intro same
              exact changed ((Image.write_outside _ _ [_] other).trans same)
            have before := changes position earlier
            refine ⟨(Nat.add_le_add_left (Nat.min_le_left _ _) _).trans before.1, ?_⟩
            apply before.2.trans
            rcases bounds with ⟨-, unchanged⟩ | ⟨-, inside⟩
            · exact absurd (congrFun unchanged position) earlier
            · exact Nat.add_le_add_left inside.le _

theorem programRange_stored (tracked : flash.array.Tracked) {offset : Nat} {data : List Byte}
    (inside : offset + data.length ≤ flash.array.size) :
    Stored flash (flash.programmedBytes offset data) (flash.programRange offset data) := by
  have invariant := flash.partialLoop_invariant offset data.length data (Nat.le_refl _)
  have counts : ((flash.count .programOps 1).count .programBytes data.length).programLoop
      offset data = flash.partialLoop offset data.length data := rfl
  unfold programRange
  dsimp only
  rw [counts]
  obtain ⟨bytes, bounds, changes⟩ := invariant
  generalize flash.partialLoop offset data.length data = loop at bytes bounds changes ⊢
  split
  · next some =>
    have ordered : loop.firstChanged ≤ loop.lastChanged ∧ loop.lastChanged < data.length := by
      rcases bounds with ⟨none, -⟩ | ordered
      · exact absurd none some
      · exact ordered
    have range : ∀ index, loop.bytes index ≠ flash.array.bytes index →
        offset + loop.firstChanged ≤ index ∧
          index < offset + loop.firstChanged + (loop.lastChanged - loop.firstChanged + 1) := by
      intro index changed
      have between := changes index changed
      omega
    rw [← bytes]
    refine Stored.range _ ?_ ?_ ?_ _ _ range ?_
    · exact ⟨_, rfl⟩
    · exact FlashArray.SameContents.markProgrammedRange _ _ _
    · exact FlashArray.tracked_markProgrammedRange tracked range
    · omega
  · next none =>
    have unchanged : loop.bytes = flash.array.bytes := by
      rcases bounds with ⟨-, unchanged⟩ | ⟨ordered, inside⟩
      · exact unchanged
      · exact absurd (ordered.trans_lt inside).ne none
    rw [unchanged]
    exact Stored.same _ ⟨_, rfl⟩ (bytes.symm.trans unchanged)

theorem programmedBytes_nil (flash : Flash) (offset : Nat) :
    flash.programmedBytes offset [] = flash.array.bytes := by
  funext position
  exact if_neg fun covered => Nat.lt_irrefl _ (covered.1.trans_lt covered.2)

theorem programmedBytes_singleton (flash : Flash) (offset : Nat) (value : Byte) :
    flash.programmedBytes offset [value] =
      flash.array.bytes.write offset
        [flash.programmedByte (flash.array.bytes offset) value] := by
  have appended := flash.programmedBytes_append offset [] value
  rwa [programmedBytes_nil, List.nil_append, List.length_nil, Nat.add_zero] at appended

theorem programByte_stored (tracked : flash.array.Tracked) {offset : Nat} (value : Byte)
    (inside : offset < flash.array.size) :
    Stored flash (flash.programmedBytes offset [value]) (flash.programByte offset value) := by
  unfold programByte
  dsimp only
  split
  · have range : ∀ index,
        flash.programmedBytes offset [value] index ≠ flash.array.bytes index →
          offset ≤ index ∧ index < offset + 1 := by
      intro index changed
      by_contra outside
      exact changed (if_neg outside)
    rw [FlashArray.markProgrammedByte_copy tracked, FlashArray.copy, ← programmedBytes_singleton]
    refine Stored.range _ ?_ ?_ ?_ _ _ range inside
    · exact ⟨_, rfl⟩
    · exact FlashArray.SameContents.markProgrammedRange _ _ _
    · exact FlashArray.tracked_markProgrammedRange tracked range
  · next same =>
    refine Stored.same _ ⟨_, rfl⟩ ?_
    rw [programmedBytes_singleton, not_not.mp same]
    funext position
    by_cases here : position = offset
    · rw [here]
      exact Image.write_inside flash.array.bytes offset [_] Nat.zero_lt_one
    · exact Image.write_outside _ _ [_] (Nat.lt_or_gt_of_ne here)

theorem eraseSector_stored (tracked : flash.array.Tracked)
    (nonzero : flash.array.sectorSize ≠ 0) {offset : Nat} (inside : offset < flash.array.size) :
    ∃ next, flash.eraseSector offset = some next ∧
      Stored flash (flash.array.fillSector offset).bytes next := by
  have nonempty : flash.array.size ≠ 0 := Nat.pos_iff_ne_zero.mp (Nat.zero_lt_of_lt inside)
  have looked := FlashArray.sectorIsErased_eq tracked nonzero nonempty
    (flash.array.sectorStart offset)
  have started := FlashArray.sectorStart_inside inside
  have bounded := flash.array.sectorEnd_le (flash.array.sectorStart offset)
  have range : ∀ index, (flash.array.fillSector offset).bytes index ≠ flash.array.bytes index →
      flash.array.sectorStart offset ≤ index ∧
        index < flash.array.sectorEnd (flash.array.sectorStart offset) := by
    intro index changed
    by_contra outside
    exact changed (if_neg outside)
  unfold eraseSector
  rw [if_neg nonzero]
  dsimp only [count]
  rw [looked]
  dsimp only
  split
  · next erased =>
    refine ⟨_, rfl, Stored.same _ ⟨_, rfl⟩ ?_⟩
    funext position
    by_contra changed
    have member := (FlashArray.mem_fillSector nonzero inside position).mp (range position changed)
    rw [FlashArray.sectorIndex_start nonzero] at erased
    have blank := tracked.sound _ position erased member
    exact changed ((if_pos (range position changed)).trans blank.symm)
  · refine ⟨_, rfl, ?_⟩
    refine Stored.range _ ?_ ?_ ?_ _ _ ?_ ?_
    · exact ⟨_, rfl⟩
    · exact FlashArray.SameContents.markSectorErased _ _
    · exact FlashArray.tracked_markSectorErased tracked nonzero inside
    · intro index changed
      have covered := range index changed
      omega
    · omega

theorem program_stored (tracked : flash.array.Tracked) {offset : Nat} {data : List Byte}
    (some : data ≠ []) (inside : offset + data.length ≤ flash.array.size) :
    ∃ bytes next, flash.program offset data = Option.some next ∧ Stored flash bytes next ∧
      (flash.isSectorAlignedProgramFfErase offset data = false →
        bytes = flash.programmedBytes offset data) := by
  unfold program
  split
  · next erasing =>
    have nonzero : flash.array.sectorSize ≠ 0 := by
      simp only [isSectorAlignedProgramFfErase, Bool.and_eq_true, bne_iff_ne] at erasing
      exact erasing.1.2
    have aligned : offset < flash.array.size := by
      have positive := List.length_pos_iff.mpr some
      omega
    obtain ⟨next, erased, stored⟩ := @eraseSector_stored
      (((flash.count .programOps 1).count .programBytes data.length).count
        .compatFfSectorEraseOps 1) tracked nonzero offset aligned
    exact ⟨_, next, erased, stored.ofCounts ⟨_, rfl⟩, fun other => nomatch erasing.symm.trans other⟩
  · refine ⟨flash.programmedBytes offset data, ?_⟩
    split
    · next single =>
      obtain ⟨value, rfl⟩ :=
        List.length_eq_one_iff.mp (eq_of_beq (Bool.and_eq_true_iff.mp single).2)
      exact ⟨_, rfl, programByte_stored tracked value inside, fun _ => rfl⟩
    · exact ⟨_, rfl, programRange_stored tracked inside, fun _ => rfl⟩

namespace Stored

variable {bytes : Image} {next : Flash}

theorem frame (stored : Stored flash bytes next) :
    next.params = flash.params ∧ next.control = ⟨.readStatus, .none, statusReady⟩ ∧
      next.writeBuffer = flash.writeBuffer ∧ next.dmiGranted = flash.dmiGranted ∧
      next.grants = flash.grants := by
  cases stored with
  | same counted counts unchanged =>
      obtain ⟨stats, rfl⟩ := counts
      exact ⟨rfl, rfl, rfl, rfl, rfl⟩
  | range changed counts contents tracked first len changes inside =>
      obtain ⟨stats, same⟩ := counts
      have written := WritesBack.writeBackingRange changed first len
      exact ⟨written.params.trans (by rw [same]), rfl, written.writeBuffer.trans (by rw [same]),
        written.dmiGranted.trans (by rw [same]), written.grants.trans (by rw [same])⟩

theorem contents (stored : Stored flash bytes next) :
    FlashArray.SameContents { flash.array with bytes := bytes } next.array := by
  cases stored with
  | same counted counts unchanged =>
      obtain ⟨stats, rfl⟩ := counts
      exact ⟨rfl, unchanged.symm, rfl⟩
  | range changed counts contents tracked first len changes inside =>
      have written := (WritesBack.writeBackingRange changed first len).array
      exact contents.trans ⟨congrArg _ written, congrArg _ written, congrArg _ written⟩

theorem tracked (stored : Stored flash bytes next) (before : flash.array.Tracked) :
    next.array.Tracked := by
  cases stored with
  | same counted counts unchanged =>
      obtain ⟨stats, rfl⟩ := counts
      exact before
  | range changed counts contents tracked first len changes inside =>
      exact (WritesBack.writeBackingRange changed first len).array.symm ▸ tracked

end Stored

end Flash

end QboxPlatform.StrataFlash
