import QboxPlatform.StrataFlash.Accesses

/-!
# The backing file loses no write

The offsets at which the file may differ from the array are those of the dirty range.  Between
a change of the array and its write-back the changed range is stale as well.
-/

namespace QboxPlatform.StrataFlash

open Foundation

theorem File.copy_bytes (file : File) (array : FlashArray) (offset len position : Nat) :
    (file.copy array offset len).bytes position =
      if offset ≤ position ∧ position < offset + len then array.bytes position
      else file.bytes position := by
  unfold File.copy
  dsimp only
  by_cases covered : offset ≤ position ∧ position < offset + len
  · obtain ⟨index, rfl⟩ := Nat.exists_eq_add_of_le covered.1
    have inside : index < (array.bytes.read offset len).length := by
      rw [Image.length_read]
      exact Nat.lt_of_add_lt_add_left covered.2
    rw [if_pos covered, Image.write_inside _ _ _ inside, Image.getElem_read]
  · rw [if_neg covered, Image.write_outside]
    rw [Image.length_read]
    omega

namespace Backing

/-- The offset lies in the dirty range. -/
def Pending (backing : Backing) (position : Nat) : Prop :=
  backing.dirty = true ∧ backing.dirtyStart ≤ position ∧ position ≤ backing.dirtyEnd

/-- The backing file is the named one, and it holds the bytes of the array except at the stale
offsets. -/
structure Kept (path : String) (stale : Nat → Prop) (array : FlashArray) (backing : Backing) :
    Prop where
  named : backing.backingFile = path
  dirtyInside : backing.dirty = true →
    backing.dirtyStart ≤ backing.dirtyEnd ∧ backing.dirtyEnd < array.size
  file : ∃ file, backing.files path = some file ∧ file.size ≠ 0 ∧ array.size ≤ file.size ∧
    (∀ mapping, backing.mapping = some mapping →
      mapping.path = path ∧ mapping.size = file.size) ∧
    ∀ position < array.size, file.bytes position = array.bytes position ∨ stale position

variable {path : String} {stale : Nat → Prop} {array : FlashArray} {backing : Backing}

theorem Kept.weaken (kept : Kept path stale array backing) {wider : Nat → Prop}
    (covers : ∀ position, stale position → wider position) : Kept path wider array backing := by
  obtain ⟨named, dirtyInside, file, found, filled, large, mapped, bytes⟩ := kept
  refine ⟨named, dirtyInside, file, found, filled, large, mapped, ?_⟩
  intro position inside
  exact (bytes position inside).imp_right (covers position)

/-- Opening the file leaves its contents alone. -/
theorem Kept.release (kept : Kept path stale array backing) :
    Kept path stale array backing.release := by
  obtain ⟨named, dirtyInside, file, found, filled, large, -, bytes⟩ := kept
  exact ⟨named, dirtyInside, file, found, filled, large, nofun, bytes⟩

theorem Kept.open (kept : Kept path stale array backing) :
    ∃ opened mapping, backing.openBackingFile = (true, opened) ∧
      opened.mapping = some mapping ∧ opened.dirty = backing.dirty ∧
      opened.dirtyStart = backing.dirtyStart ∧ opened.dirtyEnd = backing.dirtyEnd ∧
      Kept path stale array opened := by
  obtain ⟨named, dirtyInside, file, found, filled, large, -, bytes⟩ := kept
  refine ⟨{ backing with
    mapping := Option.some ⟨path, file.size, backing.mappings⟩
    mappings := backing.mappings + 1 }, _, ?_, rfl, rfl, rfl, rfl, ?_⟩
  · rw [openBackingFile, named, found]
    dsimp only
    rw [if_neg filled]
  · refine ⟨named, dirtyInside, file, found, filled, large, ?_, bytes⟩
    intro mapping same
    rw [← Option.some.inj same]
    exact ⟨rfl, rfl⟩

theorem isOpen_iff (kept : Kept path stale array backing) :
    backing.isOpen = true ↔ ∃ mapping, backing.mapping = some mapping := by
  obtain ⟨named, -, file, -, -, -, mapped, -⟩ := kept
  cases mapping : backing.mapping with
  | none => simp [isOpen, mapping]
  | some mapping' =>
      simp [isOpen, mapping, named, (mapped mapping' mapping).1]

theorem Kept.ensureWhileFlushing (kept : Kept path stale array backing) (set : path ≠ "") :
    ∃ opened mapping, backing.ensureWhileFlushing = (true, opened) ∧
      opened.mapping = some mapping ∧ opened.dirty = backing.dirty ∧
      opened.dirtyStart = backing.dirtyStart ∧ opened.dirtyEnd = backing.dirtyEnd ∧
      Kept path stale array opened := by
  have some : ¬backing.backingFile = "" := kept.named ▸ set
  unfold Backing.ensureWhileFlushing
  rw [if_neg some]
  split
  · next isOpen =>
    obtain ⟨mapping, mapped⟩ := (isOpen_iff kept).mp isOpen
    exact ⟨backing, mapping, rfl, mapped, rfl, rfl, rfl, kept⟩
  · exact kept.release.open

/-- A copy into the mapping makes its range current. -/
theorem Kept.copyRange (kept : Kept path stale array backing) {mapping : Mapping}
    (mapped : backing.mapping = some mapping) {offset len : Nat}
    (inside : offset + len ≤ array.size) :
    ∃ copied, backing.copyRange array offset len = (true, copied) ∧
      copied.dirty = backing.dirty ∧ copied.dirtyStart = backing.dirtyStart ∧
      copied.dirtyEnd = backing.dirtyEnd ∧
      Kept path (fun position => stale position ∧ ¬(offset ≤ position ∧ position < offset + len))
        array copied := by
  obtain ⟨named, dirtyInside, file, found, filled, large, mappings, bytes⟩ := kept
  obtain ⟨samePath, sameSize⟩ := mappings mapping mapped
  have within : ¬(!array.inRange offset len) = true := by
    rw [FlashArray.inRange_iff.mpr inside]
    decide
  have fits : ¬(mapping.size < offset ∨ mapping.size - offset < len) := by omega
  refine ⟨{ backing with
    files := Function.update backing.files path (some (file.copy array offset len)) }, ?_, rfl,
    rfl, rfl, named, dirtyInside, file.copy array offset len, Function.update_self .., filled,
    large, mappings, ?_⟩
  · rw [Backing.copyRange, if_neg within, mapped]
    dsimp only
    rw [if_neg fits, samePath, found]
    rfl
  · intro position below
    rw [File.copy_bytes]
    split
    · exact Or.inl rfl
    · next outside =>
      exact (bytes position below).imp_right fun before => ⟨before, outside⟩

/-- A flush leaves nothing dirty, and what was only dirty is current. -/
theorem Kept.flushDeferred
    (kept : Kept path (fun position => backing.Pending position ∨ stale position) array backing)
    (set : path ≠ "") :
    (backing.flushDeferred array).2.dirty = false ∧
      Kept path stale array (backing.flushDeferred array).2 := by
  have some : ¬backing.backingFile = "" := kept.named ▸ set
  unfold Backing.flushDeferred
  rw [if_neg some]
  split
  · next clean =>
    have notDirty : backing.dirty = false := by simpa using clean
    refine ⟨notDirty, kept.weaken ?_⟩
    rintro position (⟨dirty, -⟩ | before)
    · cases notDirty.symm.trans dirty
    · exact before
  · next unclean =>
    have dirty : backing.dirty = true := by simpa using unclean
    obtain ⟨ordered, below⟩ := kept.dirtyInside dirty
    obtain ⟨opened, mapping, ensured, mapped, -, -, -, before⟩ :=
      kept.ensureWhileFlushing set
    obtain ⟨copied, success, -, -, -, after⟩ := before.copyRange mapped
      (show backing.dirtyStart + backing.dirtyLength ≤ array.size by
        rw [dirtyLength]
        omega)
    have length : backing.dirtyLength ≠ 0 := Nat.succ_ne_zero _
    rw [writeWhileFlushing, if_neg length, ensured]
    dsimp only
    rw [if_pos rfl, success]
    dsimp only
    rw [if_pos rfl]
    refine ⟨rfl, ?_⟩
    obtain ⟨named, -, file, found, filled, large, mappings, bytes⟩ := after
    refine ⟨named, nofun, file, found, filled, large, mappings, ?_⟩
    intro position inside
    rcases bytes position inside with current | ⟨⟨-, above, upTo⟩ | before, outside⟩
    · exact Or.inl current
    · exact absurd ⟨above, by rw [dirtyLength]; omega⟩ outside
    · exact Or.inr before

/-- Marking moves a stale range into the dirty one. -/
theorem Kept.markBackingDirty {offset len : Nat}
    (kept : Kept path (fun position => backing.Pending position ∨
      (offset ≤ position ∧ position < offset + len)) array backing)
    (inside : offset + len ≤ array.size) :
    Kept path (backing.markBackingDirty offset len).Pending array
      (backing.markBackingDirty offset len) := by
  unfold Backing.markBackingDirty
  split
  · next none =>
    refine kept.weaken ?_
    rintro position (before | ⟨above, below⟩)
    · exact before
    · omega
  · next some =>
    dsimp only
    obtain ⟨named, dirtyInside, file, found, filled, large, mappings, bytes⟩ := kept
    split
    · next clean =>
      refine ⟨named, fun _ => ?_, file, found, filled, large, mappings, ?_⟩
      · dsimp only
        omega
      · intro position below
        refine (bytes position below).imp_right ?_
        rintro (⟨dirty, -⟩ | range)
        · rw [dirty] at clean
          cases clean
        · exact ⟨rfl, range.1, by dsimp only; omega⟩
    · next unclean =>
      have dirty : backing.dirty = true := by simpa using unclean
      obtain ⟨ordered, last⟩ := dirtyInside dirty
      refine ⟨named, fun _ => ?_, file, found, filled, large, mappings, ?_⟩
      · dsimp only
        omega
      · intro position below
        refine (bytes position below).imp_right ?_
        rintro (⟨-, above, upTo⟩ | range)
        · exact ⟨dirty, (Nat.min_le_left _ _).trans above, upTo.trans (Nat.le_max_left _ _)⟩
        · refine ⟨dirty, (Nat.min_le_right _ _).trans range.1, ?_⟩
          dsimp only
          omega

end Backing

namespace Flash

variable {flash : Flash} {path : String} {stale : Nat → Prop}

/-- The backing file holds the array, but for the dirty range and the stale offsets. -/
def Backs (path : String) (stale : Nat → Prop) (flash : Flash) : Prop :=
  flash.backing.Kept path (fun position => flash.backing.Pending position ∨ stale position)
    flash.array

theorem Backs.weaken (backs : flash.Backs path stale) {wider : Nat → Prop}
    (covers : ∀ position, stale position → wider position) : flash.Backs path wider :=
  Backing.Kept.weaken backs fun position => Or.imp_right (covers position)

theorem Backs.flushDeferredBacking (backs : flash.Backs path stale) (set : path ≠ "") :
    flash.flushDeferredBacking.backing.dirty = false ∧
      flash.flushDeferredBacking.backing.Kept path stale flash.flushDeferredBacking.array := by
  rw [flushDeferredBacking_backing, (WritesBack.flushDeferredBacking flash).array]
  exact Backing.Kept.flushDeferred backs set

theorem flush_of_clean (clean : flash.backing.dirty = false) :
    flash.flushDeferredBacking.backing = flash.backing := by
  rw [flushDeferredBacking_backing, Backing.flushDeferred, clean]
  rfl

/-- Without a dirty range only the stale offsets are left. -/
theorem backs_of_kept (kept : flash.backing.Kept path stale flash.array) :
    flash.Backs path stale := Backing.Kept.weaken kept fun _ => Or.inr

theorem Backs.closeBackingFile (backs : flash.Backs path stale) (set : path ≠ "") :
    flash.closeBackingFile.backing.Kept path stale flash.closeBackingFile.array :=
  (backs.flushDeferredBacking set).2.release

theorem Backs.ensureBackingFile (backs : flash.Backs path stale) (set : path ≠ "") :
    ∃ opened mapping, flash.ensureBackingFile = (true, opened) ∧
      opened.backing.mapping = some mapping ∧ opened.array = flash.array ∧
      opened.Backs path stale := by
  have some : ¬flash.backing.backingFile = "" := backs.named ▸ set
  unfold Flash.ensureBackingFile
  rw [if_neg some]
  split
  · next isOpen =>
    obtain ⟨mapping, mapped⟩ := (Backing.isOpen_iff backs).mp isOpen
    exact ⟨flash, mapping, rfl, mapped, rfl, backs⟩
  · have array := (WritesBack.closeBackingFile flash).array
    obtain ⟨opened, mapping, success, mapped, -, -, -, kept⟩ := (backs.closeBackingFile set).open
    dsimp only
    rw [success]
    exact ⟨_, mapping, rfl, mapped, array, backs_of_kept kept⟩

/-- A range that is written back is current. -/
theorem Backs.writeBackingRangeNow (backs : flash.Backs path stale) (set : path ≠ "")
    {offset len : Nat} (inside : offset + len ≤ flash.array.size)
    (range : ∀ position, stale position → offset ≤ position ∧ position < offset + len) :
    (flash.writeBackingRangeNow offset len).2.Backs path (fun _ => False) := by
  unfold Flash.writeBackingRangeNow
  split
  · next none =>
    refine backs.weaken fun position before => ?_
    have between := range position before
    omega
  · obtain ⟨opened, mapping, ensured, mapped, array, before⟩ := backs.ensureBackingFile set
    obtain ⟨copied, success, dirty, first, last, after⟩ :=
      Backing.Kept.copyRange before mapped (array.symm ▸ inside)
    rw [ensured]
    dsimp only
    rw [if_pos rfl, success]
    dsimp only
    refine Backing.Kept.weaken after ?_
    rintro position ⟨pending | before, outside⟩
    · left
      unfold Backing.Pending
      rw [dirty, first, last]
      exact pending
    · exact absurd (range position before) outside

theorem Backs.ofSameContents (backs : flash.Backs path stale) {next : Flash}
    (backing : next.backing = flash.backing) (size : next.array.size = flash.array.size)
    (bytes : next.array.bytes = flash.array.bytes) : next.Backs path stale := by
  unfold Backs
  obtain ⟨named, dirtyInside, file⟩ := backs
  rw [backing]
  refine ⟨named, ?_, ?_⟩
  · rw [size]
    exact dirtyInside
  · rw [size, bytes]
    exact file

theorem Backs.ofSameBacking (backs : flash.Backs path stale) {next : Flash}
    (backing : next.backing = flash.backing) (array : next.array = flash.array) :
    next.Backs path stale :=
  backs.ofSameContents backing (congrArg FlashArray.size array) (congrArg FlashArray.bytes array)

/-- A deferred write-back moves the range into the dirty one. -/
theorem Backs.deferRange (backs : flash.Backs path stale) {offset len : Nat}
    (inside : offset + len ≤ flash.array.size)
    (range : ∀ position, stale position → offset ≤ position ∧ position < offset + len)
    {next : Flash} (array : next.array = flash.array) {deferred : BitVec 64}
    (backing : next.backing =
      { flash.backing.markBackingDirty offset len with deferredSinceFlush := deferred }) :
    next.Backs path (fun _ => False) := by
  have pending : flash.backing.Kept path (fun position => flash.backing.Pending position ∨
      (offset ≤ position ∧ position < offset + len)) flash.array :=
    Backing.Kept.weaken backs fun position => Or.imp_right (range position)
  unfold Backs
  rw [array, backing]
  obtain ⟨named, dirtyInside, file⟩ :=
    (pending.markBackingDirty inside).weaken fun position => Or.inl
  exact ⟨named, dirtyInside, file⟩

theorem Backs.writeBackingRange (backs : flash.Backs path stale) (set : path ≠ "")
    {offset len : Nat} (inside : offset + len ≤ flash.array.size)
    (range : ∀ position, stale position → offset ≤ position ∧ position < offset + len) :
    (flash.writeBackingRange offset len).Backs path (fun _ => False) := by
  have within : ¬(!flash.array.inRange offset len) = true := by
    rw [FlashArray.inRange_iff.mpr inside]
    decide
  unfold Flash.writeBackingRange
  split
  · next skipped =>
    refine backs.weaken fun position before => ?_
    rcases skipped with none | unset
    · have between := range position before
      omega
    · exact set (backs.named.symm.trans unset)
  · dsimp only
    split
    · split
      · refine backs_of_kept (Backs.flushDeferredBacking ?_ set).2
        apply backs.deferRange inside range
        · rfl
        · rfl
      · apply backs.deferRange inside range
        · rfl
        · rfl
    · refine Backs.writeBackingRangeNow ?_ set inside range
      exact backs.ofSameBacking rfl rfl

/-- A command that stores keeps the file behind the array. -/
theorem Stored.backs {bytes : Image} {next : Flash} (stored : Stored flash bytes next)
    (backs : flash.Backs path (fun _ => False)) (set : path ≠ "") :
    next.Backs path (fun _ => False) := by
  cases stored with
  | same counted counts unchanged =>
      obtain ⟨stats, rfl⟩ := counts
      exact backs
  | range changed counts contents tracked first len changes inside =>
      obtain ⟨stats, same⟩ := counts
      have backing : changed.backing = flash.backing := by rw [same]
      have size : changed.array.size = flash.array.size := contents.size
      have before : changed.Backs path
          (fun position => first ≤ position ∧ position < first + len) := by
        unfold Backs
        rw [backing]
        obtain ⟨named, dirtyInside, file, found, filled, large, mappings, current⟩ := backs
        refine ⟨named, size.symm ▸ dirtyInside, file, found, filled, size.symm ▸ large, mappings,
          ?_⟩
        intro position below
        by_cases here : bytes position = flash.array.bytes position
        · rw [contents.bytes]
          dsimp only
          rw [here]
          refine (current position (size ▸ below)).imp_right ?_
          rintro (pending | none)
          · exact Or.inl pending
          · cases none
        · exact Or.inr (Or.inr (changes position here))
      have after := before.writeBackingRange set (size.symm ▸ inside) fun position => id
      exact after.ofSameBacking rfl rfl

/-- What a write says about the backing file: untouched, or as a stored command leaves it. -/
theorem Wrote.backs {offset : Nat} {data : List Byte} {next : Flash}
    (wrote : Wrote flash offset data next) (backs : flash.Backs path (fun _ => False))
    (set : path ≠ "") : next.Backs path (fun _ => False) := by
  have invalidated := flash.invalidateDmi_backing
  cases wrote with
  | programs pending next programs =>
      obtain ⟨bytes, stored, -⟩ := programs
      exact stored.backs backs set
  | begins pending =>
      have same := sameStorage_beginWriteBuffer flash offset data
      exact backs.ofSameBacking same.backing same.array
  | collects pending unconfirmed =>
      have same := sameStorage_collectWriteBufferData flash offset data
      exact backs.ofSameBacking same.backing same.array
  | confirms pending confirmed counted next counts programs =>
      obtain ⟨bytes, stored, -⟩ := programs
      have same := counts.sameStorage
      have after := stored.backs (backs.ofSameBacking same.backing same.array) set
      exact after.ofSameBacking rfl rfl
  | erases pending acknowledged counted next counts stored =>
      have same := counts.sameStorage
      exact stored.backs (backs.ofSameBacking (same.backing.trans invalidated)
        (same.array.trans flash.invalidateDmi_array)) set
  | locks pending acknowledged counted counts =>
      have same := counts.sameStorage
      exact backs.ofSameBacking (same.backing.trans invalidated)
        (same.array.trans flash.invalidateDmi_array)
  | starts pending other counted counts =>
      have same := counts.sameStorage
      have started := sameStorage_startCommand counted (data.getD 0 0)
      exact backs.ofSameBacking (started.backing.trans (same.backing.trans invalidated))
        (started.array.trans (same.array.trans flash.invalidateDmi_array))

/-- The invariant of a run: the allocated array is behind the file, and nothing is dirty before
the allocation. -/
structure Lossless (path : String) (flash : Flash) : Prop where
  wellFormed : flash.WellFormed
  backs : flash.ensureStorage.Backs path (fun _ => False)
  unallocated : flash.array.size = 0 → flash.backing.dirty = false

theorem ensureStorage_idem (array : FlashArray) (size : Fin (2 ^ 63)) :
    (array.ensureStorage size).ensureStorage size = array.ensureStorage size := by
  by_cases allocated : array.size = 0
  · have unallocated : ¬array.size ≠ 0 := not_not.mpr allocated
    by_cases empty : size.val = 0
    · rw [FlashArray.ensureStorage, if_neg]
      · rw [FlashArray.ensureStorage, if_neg unallocated]
        rfl
      · rw [FlashArray.ensureStorage, if_neg unallocated]
        exact not_not.mpr empty
    · apply ensureStorage_of_allocated
      rw [FlashArray.ensureStorage, if_neg unallocated]
      exact empty
  · rw [ensureStorage_of_allocated allocated, ensureStorage_of_allocated allocated]

theorem ensureStorage_congr_size {first second : FlashArray} (size : Fin (2 ^ 63))
    (same : first.size = second.size) :
    (first.ensureStorage size).size = (second.ensureStorage size).size := by
  unfold FlashArray.ensureStorage
  rw [same]
  split
  · exact same
  · rfl

theorem ensureStorage_congr_bytes {first second : FlashArray} (size : Fin (2 ^ 63))
    (same : first.size = second.size) (bytes : first.bytes = second.bytes) :
    (first.ensureStorage size).bytes = (second.ensureStorage size).bytes := by
  unfold FlashArray.ensureStorage
  rw [same]
  split
  · exact bytes
  · rfl

theorem ensureStorage_of_size (allocated : flash.array.size ≠ 0) : flash.ensureStorage = flash := by
  rw [ensureStorage, ensureStorage_of_allocated allocated]

/-- Backed by the file after its allocation, from any state that has been allocated. -/
theorem lossless_of_backs {next : Flash} (wellFormed : next.WellFormed)
    (backs : next.Backs path (fun _ => False)) (allocated : next.array.size ≠ 0) :
    next.Lossless path := by
  refine ⟨wellFormed, ?_, fun empty => absurd empty allocated⟩
  rw [ensureStorage_of_size allocated]
  exact backs

theorem Lossless.looked (lossless : flash.Lossless path) {next : Flash}
    (looked : Looked flash.ensureStorage next) (wellFormed : next.WellFormed) :
    next.Lossless path := by
  obtain ⟨stats, ranges, rfl⟩ := looked
  refine ⟨wellFormed, ?_, ?_⟩
  · refine lossless.backs.ofSameBacking ?_ ?_
    · rfl
    · exact ensureStorage_idem flash.array flash.params.size
  · intro empty
    apply lossless.unallocated
    by_contra allocated
    rw [ensureStorage_of_size allocated] at empty
    exact allocated empty

theorem Lossless.accessed (lossless : flash.Lossless path) (set : path ≠ "") {access : Access}
    {next : Flash} (accessed : flash.Accessed access next) : next.Lossless path := by
  have wellFormed := wellFormed_accessed lossless.wellFormed accessed
  rcases accessed with ⟨looked, -⟩ | ⟨offset, data, rfl, accepted, written⟩
  · exact lossless.looked looked wellFormed
  · obtain ⟨counted, wrote, counts, stored, after⟩ := written
    have ready := counts.looked.sameCore.wellFormed (wellFormed_ensureStorage lossless.wellFormed)
    have some := List.length_pos_iff.mp (Nat.pos_of_ne_zero accepted.1)
    obtain ⟨stats, rfl⟩ := counts
    have outcome := write_wrote ready some accepted.2 stored
    have backs : Backs path (fun _ => False) { flash.ensureStorage with stats := stats } :=
      lossless.backs
    have allocated : wrote.array.size ≠ 0 := by
      rw [outcome.size]
      exact Nat.pos_iff_ne_zero.mp (Nat.lt_of_lt_of_le (Nat.pos_of_ne_zero accepted.1)
        (Nat.le_of_add_left_le accepted.2))
    obtain ⟨others, rfl⟩ := after
    exact lossless_of_backs wellFormed ((outcome.backs backs set).ofSameBacking rfl rfl) allocated

/-- A range is only found in an allocated array. -/
theorem size_ne_zero_of_grantable {command : DmiCommand} {offset len : Nat} {range : DmiRange}
    (granted : flash.grantable command offset len = some range) :
    flash.ensureStorage.array.size ≠ 0 := by
  intro empty
  unfold grantable at granted
  rw [DmiRanges.find, empty, if_pos (Or.inl rfl)] at granted
  split at granted
  · cases granted
  · cases granted

theorem Backs.dmiPointer (backs : flash.Backs path stale) (set : path ≠ "") (range : DmiRange) :
    (flash.dmiPointer range).2.Backs path stale := by
  have some : ¬flash.backing.backingFile = "" := backs.named ▸ set
  obtain ⟨opened, mapping, ensured, -, -, after⟩ := backs.ensureBackingFile set
  unfold Flash.dmiPointer
  rw [if_neg some, ensured]
  exact after

theorem Lossless.directMemory (lossless : flash.Lossless path) (set : path ≠ "")
    (command : DmiCommand) (offset len : Nat) :
    (flash.getDirectMemPtr command offset len).2.Lossless path := by
  have core := sameCore_getDirectMemPtr flash command offset len
  have wellFormed := core.wellFormed (wellFormed_ensureStorage lossless.wellFormed)
  cases granted : flash.grantable command offset len with
  | none => exact lossless.looked (getDirectMemPtr_refused granted) wellFormed
  | some range =>
      obtain ⟨looked, ⟨others, ranges, rfl⟩, request⟩ := getDirectMemPtr_granted granted
      obtain ⟨stats, pointed⟩ := grantDmi_eq _ range
      have before : Backs path (fun _ => False)
          { flash.ensureStorage with stats := others, dmiRanges := ranges } := lossless.backs
      have flushed := backs_of_kept (before.flushDeferredBacking set).2
      have after := flushed.dmiPointer set range
      have allocated : (flash.getDirectMemPtr command offset len).2.array.size ≠ 0 := by
        rw [core.array]
        exact size_ne_zero_of_grantable granted
      refine lossless_of_backs wellFormed ?_ allocated
      rw [request, pointed]
      exact after.ofSameBacking rfl rfl

theorem Backs.setDeferral (backs : flash.Backs path stale) (write : Bool)
    (interval : BitVec 32) {next : Flash} (array : next.array = flash.array)
    (backing : next.backing = { flash.backing with
      deferBackingWrite := write, deferBackingFlushInterval := interval }) :
    next.Backs path stale := by
  unfold Backs
  rw [array, backing]
  exact ⟨backs.named, backs.dirtyInside, backs.file⟩

/-- A change of the deferral flushes first. -/
theorem Lossless.setDeferral (lossless : flash.Lossless path) (set : path ≠ "") (write : Bool)
    (interval : BitVec 32) {next : Flash} (same : SameCore flash next)
    (backing : next.backing = { flash.flushDeferredBacking.backing with
      deferBackingWrite := write, deferBackingFlushInterval := interval }) :
    next.Lossless path := by
  have wellFormed := same.wellFormed lossless.wellFormed
  by_cases empty : flash.array.size = 0
  · rw [flush_of_clean (lossless.unallocated empty)] at backing
    refine ⟨wellFormed, ?_, fun _ => ?_⟩
    · refine lossless.backs.setDeferral write interval ?_ backing
      rw [ensureStorage, ensureStorage, same.array, same.params]
    · rw [backing]
      exact lossless.unallocated empty
  · have backs := lossless.backs
    rw [ensureStorage_of_size empty] at backs
    have flushed := backs_of_kept (backs.flushDeferredBacking set).2
    have array := (WritesBack.flushDeferredBacking flash).array
    apply lossless_of_backs wellFormed
    · exact flushed.setDeferral write interval (same.array.trans array.symm) backing
    · rwa [same.array]

/-- The events that leave the configuration of the backing file and the array's size alone, and
change the array through the device only. -/
def KeepsBackingFile : FlashEvent → Prop
  | .load _ _ => False
  | .setSize _ => False
  | .setBackingFile _ => False
  | _ => True

theorem lossless_step {event : FlashEvent} {next : Flash} (lossless : flash.Lossless path)
    (set : path ≠ "") (keeps : KeepsBackingFile event)
    (stepped : flash.step event = some next) : next.Lossless path := by
  obtain ⟨⟨output, final⟩, responded, rfl⟩ := Option.map_eq_some_iff.mp stepped
  have flushed := (WritesBack.flushDeferredBacking flash).sameCore
  cases event with
  | access access debug =>
      obtain ⟨⟨reply, next⟩, accessed, same⟩ := Option.map_eq_some_iff.mp responded
      obtain ⟨-, rfl⟩ := Prod.mk.inj same
      exact lossless.accessed set (accessed_of_access accessed)
  | directMemory command offset len =>
      obtain ⟨-, rfl⟩ := Prod.mk.inj (Option.some.inj responded)
      exact lossless.directMemory set command offset.toNat len.toNat
  | setDeferBackingWrite enable =>
      obtain ⟨-, rfl⟩ := Prod.mk.inj (Option.some.inj responded)
      refine lossless.setDeferral set enable _ ?_ rfl
      exact ⟨flushed.params, flushed.array, flushed.control, flushed.writeBuffer⟩
  | setDeferBackingFlushInterval interval =>
      obtain ⟨-, rfl⟩ := Prod.mk.inj (Option.some.inj responded)
      refine lossless.setDeferral set _ interval ?_ rfl
      exact ⟨flushed.params, flushed.array, flushed.control, flushed.writeBuffer⟩
  | load offset data => exact keeps.elim
  | setSize size => exact keeps.elim
  | setBackingFile path => exact keeps.elim
  | setSectorSize size =>
      obtain ⟨-, rfl⟩ := Prod.mk.inj (Option.some.inj responded)
      have tracked := FlashArray.tracked_rebuild { flash.array with sectorSize := size }
      refine ⟨lossless.wellFormed.ofArray tracked rfl, ?_, lossless.unallocated⟩
      refine lossless.backs.ofSameContents ?_ ?_ ?_
      · rfl
      · exact ensureStorage_congr_size flash.params.size rfl
      · exact ensureStorage_congr_bytes flash.params.size rfl rfl
  | _ =>
      obtain ⟨-, rfl⟩ := Prod.mk.inj (Option.some.inj responded)
      exact ⟨⟨lossless.wellFormed.tracked, lossless.wellFormed.buffered,
        lossless.wellFormed.marked, lossless.wellFormed.collecting⟩, lossless.backs,
        lossless.unallocated⟩

/-- Loading an image leaves the backing file alone. -/
theorem backing_of_loads {config : FlashConfig} {loads : List FlashEvent}
    (onlyLoads : ∀ event ∈ loads, ∃ offset data, event = .load offset data)
    (loaded : run step (start config) loads = some flash) :
    flash.backing = (start config).backing := by
  have met : Along step (fun _ event => ∃ offset data, event = FlashEvent.load offset data)
      (start config) loads := along_of_forall (fun event member _ => onlyLoads event member) _
  have keeps : ∀ before event next, before.backing = (start config).backing →
      (∃ offset data, event = FlashEvent.load offset data) → step before event = some next →
        next.backing = (start config).backing := by
    rintro before event next same ⟨offset, data, rfl⟩ stepped
    rw [← Option.some.inj stepped]
    exact same
  exact run_invariant_along keeps rfl met loaded

theorem lossless_initial {config : FlashConfig} {initial : Flash}
    (wellFormed : initial.WellFormed) (backing : initial.backing = (start config).backing)
    {file : File} (opens : config.files config.backingFile = some file) (filled : file.size ≠ 0)
    (large : initial.ensureStorage.array.size ≤ file.size)
    (equal : ∀ position < initial.ensureStorage.array.size,
      file.bytes position = initial.ensureStorage.array.bytes position) :
    initial.Lossless config.backingFile := by
  refine ⟨wellFormed, ?_, fun _ => ?_⟩
  · have same : initial.ensureStorage.backing = (start config).backing := backing
    unfold Backs
    rw [same]
    exact ⟨rfl, nofun, file, opens, filled, large, nofun, fun position below =>
      Or.inl (equal position below)⟩
  · rw [backing]
    rfl

/-- Write-back loses nothing.  From a flash whose backing file holds the loaded image, every run
of the device leaves the file and the array differing in the dirty range only, and a flush makes
them equal. -/
theorem backingFile_lossless {config : FlashConfig} {loads : List FlashEvent} {initial : Flash}
    (onlyLoads : ∀ event ∈ loads, ∃ offset data, event = .load offset data)
    (loaded : run step (start config) loads = some initial) (set : config.backingFile ≠ "")
    {file : File} (opens : config.files config.backingFile = some file) (filled : file.size ≠ 0)
    (large : initial.ensureStorage.array.size ≤ file.size)
    (equal : ∀ position < initial.ensureStorage.array.size,
      file.bytes position = initial.ensureStorage.array.bytes position)
    {events : List FlashEvent} (keeps : ∀ event ∈ events, KeepsBackingFile event)
    (reached : run step initial events = some flash) :
    (∃ kept, flash.backing.files config.backingFile = some kept ∧
      ∀ position < flash.array.size, kept.bytes position ≠ flash.array.bytes position →
        flash.backing.dirty = true ∧ flash.backing.dirtyStart ≤ position ∧
          position ≤ flash.backing.dirtyEnd) ∧
    ∃ flushed, flash.flushDeferredBacking.backing.files config.backingFile = some flushed ∧
      ∀ position < flash.array.size, flushed.bytes position = flash.array.bytes position := by
  have initially := lossless_initial (wellFormed_reachable loaded)
    (backing_of_loads onlyLoads loaded) opens filled large equal
  have met : Along step (fun _ event => KeepsBackingFile event) initial events :=
    along_of_forall (fun event member _ => keeps event member) initial
  have lossless : flash.Lossless config.backingFile :=
    run_invariant_along (fun _ _ _ before allowed => lossless_step before set allowed) initially
      met reached
  by_cases empty : flash.array.size = 0
  · obtain ⟨-, -, kept, found, -⟩ := lossless.backs
    refine ⟨⟨kept, found, ?_⟩, kept, ?_, ?_⟩
    · intro position inside
      rw [empty] at inside
      cases inside
    · rw [flush_of_clean (lossless.unallocated empty)]
      exact found
    · intro position inside
      rw [empty] at inside
      cases inside
  · have backs := lossless.backs
    rw [ensureStorage_of_size empty] at backs
    constructor
    · obtain ⟨-, -, kept, found, -, -, -, current⟩ := backs
      refine ⟨kept, found, ?_⟩
      intro position inside differs
      rcases current position inside with same | pending | none
      · exact absurd same differs
      · exact pending
      · cases none
    · obtain ⟨-, -, flushed, found, -, -, -, current⟩ := (backs.flushDeferredBacking set).2
      rw [(WritesBack.flushDeferredBacking flash).array] at current
      refine ⟨flushed, found, ?_⟩
      intro position inside
      exact (current position inside).resolve_right id

theorem backingFile_lossless_deferred :
    ∃ flash, run step (start (smallConfig "flash.bin" ⟨16, fun _ => 0xff⟩))
        [.setDeferBackingWrite true, .access (.write 1 [cmdWordProgram]) false,
          .access (.write 1 [0x0f]) false] = some flash ∧
      ∃ flushed, flash.flushDeferredBacking.backing.files "flash.bin" = some flushed ∧
        ∀ position < flash.array.size, flushed.bytes position = flash.array.bytes position := by
  have lossless := @backingFile_lossless _ (smallConfig "flash.bin" ⟨16, fun _ => 0xff⟩) []
    (start (smallConfig "flash.bin" ⟨16, fun _ => 0xff⟩)) (by simp) rfl (by decide)
    ⟨16, fun _ => 0xff⟩ rfl (by decide) (by decide) (fun _ _ => rfl)
    [.setDeferBackingWrite true, .access (.write 1 [cmdWordProgram]) false,
      .access (.write 1 [0x0f]) false] (by simp [KeepsBackingFile]) rfl
  exact ⟨_, rfl, lossless.2⟩

end Flash

end QboxPlatform.StrataFlash
