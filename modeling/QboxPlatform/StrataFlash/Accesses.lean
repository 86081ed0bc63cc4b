import QboxPlatform.StrataFlash.Write

/-!
# What accesses and the other events do

An access looks at the flash only, or it is an accepted write.
-/

namespace QboxPlatform.StrataFlash

open Foundation

namespace Flash

variable {flash : Flash}

/-- Two flashes that differ in their statistics and their parsed ranges. -/
def Looked (before after : Flash) : Prop :=
  ∃ stats ranges, after = { before with stats := stats, dmiRanges := ranges }

theorem SameButStats.looked {before after : Flash} (counts : SameButStats before after) :
    Looked before after := by
  obtain ⟨stats, rfl⟩ := counts
  exact ⟨stats, _, rfl⟩

/-- The access has data, and it lies inside the array. -/
def accepts (flash : Flash) (access : Access) : Prop :=
  access.len ≠ 0 ∧ access.offset.toNat + access.len ≤ flash.ensureStorage.array.size

theorem accepts_iff {access : Access} :
    ¬(access.len = 0 ∨ !flash.ensureStorage.array.inRange access.offset.toNat access.len) ↔
      flash.accepts access := by
  rw [not_or, Bool.not_eq_true', Bool.not_eq_false, FlashArray.inRange_iff]
  rfl

theorem sameButStats_finishAccess (flash : Flash) : SameButStats flash flash.finishAccess := by
  unfold finishAccess
  dsimp only
  split
  · exact ⟨_, rfl⟩
  · exact ⟨_, rfl⟩

theorem looked_readHint (flash : Flash) (offset len : Nat) :
    Looked flash (flash.readHint offset len).2 := by
  unfold readHint
  split
  · exact ⟨_, _, rfl⟩
  · exact ⟨_, _, rfl⟩

theorem looked_read (flash : Flash) (offset len : Nat) :
    Looked flash
      (if (flash.readHint offset len).1 then (flash.readHint offset len).2.count .dmiReadHints 1
        else (flash.readHint offset len).2).finishAccess := by
  obtain ⟨stats, ranges, hinted⟩ := flash.looked_readHint offset len
  rw [hinted]
  split
  · obtain ⟨others, finished⟩ := sameButStats_finishAccess
      ({ flash with stats := stats, dmiRanges := ranges }.count .dmiReadHints 1)
    exact ⟨others, ranges, finished⟩
  · obtain ⟨others, finished⟩ := sameButStats_finishAccess
      { flash with stats := stats, dmiRanges := ranges }
    exact ⟨others, ranges, finished⟩

/-- The part of an accepted write between the counters of the access. -/
def WritesTo (flash : Flash) (offset : BitVec 64) (data : List Byte) (next : Flash) : Prop :=
  ∃ counted written, SameButStats flash.ensureStorage counted ∧
    counted.write offset.toNat data = some written ∧ SameButStats written next

/-- An access looks at the flash, or it is an accepted write. -/
def Accessed (flash : Flash) (access : Access) (next : Flash) : Prop :=
  (Looked flash.ensureStorage next ∧
      ∀ offset data, access = .write offset data → ¬flash.accepts access) ∨
    ∃ offset data, access = .write offset data ∧ flash.accepts access ∧
      flash.WritesTo offset data next

theorem accessed_fast {access : Access} {reply : Reply} {next : Flash}
    (accessed : flash.fastAccess access = some (reply, next)) : flash.Accessed access next := by
  unfold fastAccess at accessed
  dsimp only at accessed
  split at accessed
  · next refused =>
    obtain ⟨-, rfl⟩ := Prod.mk.inj (Option.some.inj accessed)
    exact Or.inl ⟨⟨_, _, rfl⟩, fun _ _ _ accepted => accepts_iff.mpr accepted refused⟩
  · next accepted =>
    cases access with
    | read offset len =>
        obtain ⟨-, rfl⟩ := Prod.mk.inj (Option.some.inj accessed)
        exact Or.inl ⟨⟨_, _, rfl⟩, nofun⟩
    | write offset data =>
        obtain ⟨written, stored, same⟩ := Option.map_eq_some_iff.mp accessed
        obtain ⟨-, rfl⟩ := Prod.mk.inj same
        exact Or.inr ⟨offset, data, rfl, accepts_iff.mp accepted, flash.ensureStorage, written,
          ⟨_, rfl⟩, stored, ⟨_, rfl⟩⟩
    | ignore offset len =>
        obtain ⟨-, rfl⟩ := Prod.mk.inj (Option.some.inj accessed)
        exact Or.inl ⟨⟨_, _, rfl⟩, nofun⟩

theorem accessed_full {access : Access} {reply : Reply} {next : Flash}
    (accessed : flash.fullAccess access = some (reply, next)) : flash.Accessed access next := by
  unfold fullAccess at accessed
  dsimp only at accessed
  split at accessed
  · next refused =>
    obtain ⟨-, rfl⟩ := Prod.mk.inj (Option.some.inj accessed)
    exact Or.inl ⟨⟨_, _, rfl⟩, fun _ _ _ accepted => accepts_iff.mpr accepted refused⟩
  · next accepted =>
    cases access with
    | read offset len =>
        obtain ⟨-, rfl⟩ := Prod.mk.inj (Option.some.inj accessed)
        refine Or.inl ⟨?_, nofun⟩
        exact looked_read ((flash.ensureStorage.count .readAccesses 1).count .readBytes len) _ _
    | write offset data =>
        obtain ⟨written, stored, same⟩ := Option.map_eq_some_iff.mp accessed
        obtain ⟨-, rfl⟩ := Prod.mk.inj same
        exact Or.inr ⟨offset, data, rfl, accepts_iff.mp accepted, _, written,
          ⟨_, rfl⟩, stored, sameButStats_finishAccess written⟩
    | ignore offset len =>
        obtain ⟨-, rfl⟩ := Prod.mk.inj (Option.some.inj accessed)
        exact Or.inl ⟨⟨_, _, rfl⟩, nofun⟩

theorem accessed_of_access {access : Access} {debug : Bool} {reply : Reply} {next : Flash}
    (accessed : flash.access access debug = some (reply, next)) : flash.Accessed access next := by
  unfold Flash.access at accessed
  split at accessed
  · exact accessed_fast accessed
  · exact accessed_full accessed

/-- The range that a request is granted, if it is. -/
def grantable (flash : Flash) (command : DmiCommand) (offset len : Nat) : Option DmiRange :=
  if flash.params.enableDmi ∧ flash.control.mode = .readArray ∧ flash.control.pending = .none ∧
      command ≠ .write then
    (flash.dmiRanges.find flash.ensureStorage.array.size offset len).1
  else none

theorem sameButStats_rejectDmi (flash : Flash) (counter : Counter) :
    SameButStats flash (flash.rejectDmi counter).2 := by
  unfold rejectDmi
  dsimp only
  split
  · exact ⟨_, rfl⟩
  · exact ⟨_, rfl⟩

/-- A refused request only looks at the flash. -/
theorem getDirectMemPtr_refused {command : DmiCommand} {offset len : Nat}
    (refused : flash.grantable command offset len = none) :
    Looked flash.ensureStorage (flash.getDirectMemPtr command offset len).2 := by
  have looked : ∀ (next : Flash) (counter : Counter), Looked flash.ensureStorage next →
      Looked flash.ensureStorage (next.rejectDmi counter).2 := by
    intro next counter before
    obtain ⟨stats, ranges, rfl⟩ := before
    obtain ⟨others, same⟩ := sameButStats_rejectDmi
      { flash.ensureStorage with stats := stats, dmiRanges := ranges } counter
    exact ⟨others, ranges, same⟩
  unfold getDirectMemPtr
  dsimp only
  split
  · exact looked _ _ ⟨_, _, rfl⟩
  · next enabled =>
    split
    · exact looked _ _ ⟨_, _, rfl⟩
    · next idle =>
      split
      · exact looked _ _ ⟨_, _, rfl⟩
      · next command =>
        split
        · exact looked _ _ ⟨_, _, rfl⟩
        · next range found =>
          obtain ⟨reading, nothing⟩ := not_or.mp idle
          rw [grantable, if_pos] at refused
          · cases refused.symm.trans found
          · have allowed : (flash.ensureStorage.count .dmiRequests 1).params.enableDmi = true := by
              simpa using enabled
            exact ⟨allowed, not_not.mp reading, not_not.mp nothing, command⟩

theorem getDirectMemPtr_granted {command : DmiCommand} {offset len : Nat} {range : DmiRange}
    (granted : flash.grantable command offset len = some range) :
    ∃ looked, Looked flash.ensureStorage looked ∧
      flash.getDirectMemPtr command offset len = looked.grantDmi range := by
  unfold grantable at granted
  split at granted
  · next allowed =>
    obtain ⟨enabled, reading, nothing, command⟩ := allowed
    have looked : Looked flash.ensureStorage
        { flash.ensureStorage.count .dmiRequests 1 with
          dmiRanges := (flash.dmiRanges.find flash.ensureStorage.array.size offset len).2 } :=
      ⟨_, _, rfl⟩
    refine ⟨_, looked, ?_⟩
    have enabledNow : (flash.ensureStorage.count .dmiRequests 1).params.enableDmi = true := enabled
    have idle : ¬((flash.ensureStorage.count .dmiRequests 1).control.mode ≠ .readArray ∨
        (flash.ensureStorage.count .dmiRequests 1).control.pending ≠ .none) :=
      not_or.mpr ⟨not_not.mpr reading, not_not.mpr nothing⟩
    have found : ((flash.ensureStorage.count .dmiRequests 1).dmiRanges.find
        (flash.ensureStorage.count .dmiRequests 1).array.size offset len).1 = some range := granted
    unfold getDirectMemPtr
    dsimp only
    rw [enabledNow, if_neg (by decide), if_neg idle, if_neg command, found]
    rfl
  · cases granted

theorem writesBack_dmiPointer (flash : Flash) (range : DmiRange) :
    WritesBack flash (flash.dmiPointer range).2 := by
  unfold dmiPointer
  split
  · exact WritesBack.refl flash
  · exact WritesBack.ensureBackingFile flash

/-- A grant: the deferred range is written back, then the pointer is made. -/
theorem grantDmi_eq (flash : Flash) (range : DmiRange) :
    ∃ stats, flash.grantDmi range =
      (some ⟨range, (flash.flushDeferredBacking.dmiPointer range).1⟩,
        { (flash.flushDeferredBacking.dmiPointer range).2 with
          stats := stats
          dmiGranted := true
          grants := (flash.flushDeferredBacking.dmiPointer range).2.grants ++
            [⟨range, (flash.flushDeferredBacking.dmiPointer range).1⟩] }) := by
  unfold grantDmi
  dsimp only
  split
  · exact ⟨_, rfl⟩
  · exact ⟨_, rfl⟩

/-- Two flashes with the same array and the same command state. -/
structure SameCore (before after : Flash) : Prop where
  params : after.params = before.params
  array : after.array = before.array
  control : after.control = before.control
  writeBuffer : after.writeBuffer = before.writeBuffer

theorem SameCore.wellFormed {before after : Flash} (same : SameCore before after)
    (wellFormed : before.WellFormed) : after.WellFormed := by
  constructor
  · rw [same.array]
    exact wellFormed.tracked
  · rw [same.array, same.control, same.writeBuffer]
    exact wellFormed.buffered
  · rw [same.writeBuffer]
    exact wellFormed.marked
  · rw [same.control]
    exact wellFormed.collecting

theorem Looked.sameCore {before after : Flash} (looked : Looked before after) :
    SameCore before after := by
  obtain ⟨stats, ranges, rfl⟩ := looked
  exact ⟨rfl, rfl, rfl, rfl⟩

theorem WritesBack.sameCore {before after : Flash} (same : WritesBack before after) :
    SameCore before after := ⟨same.params, same.array, same.control, same.writeBuffer⟩

theorem SameCore.trans {first second third : Flash} (left : SameCore first second)
    (right : SameCore second third) : SameCore first third :=
  ⟨right.params.trans left.params, right.array.trans left.array,
    right.control.trans left.control, right.writeBuffer.trans left.writeBuffer⟩

theorem sameCore_getDirectMemPtr (flash : Flash) (command : DmiCommand) (offset len : Nat) :
    SameCore flash.ensureStorage (flash.getDirectMemPtr command offset len).2 := by
  cases granted : flash.grantable command offset len with
  | none => exact (getDirectMemPtr_refused granted).sameCore
  | some range =>
      obtain ⟨looked, first, request⟩ := getDirectMemPtr_granted granted
      obtain ⟨stats, pointed⟩ := looked.grantDmi_eq range
      have back := (WritesBack.flushDeferredBacking looked).trans
        (writesBack_dmiPointer looked.flushDeferredBacking range)
      rw [request, pointed]
      exact first.sameCore.trans ⟨back.params, back.array, back.control, back.writeBuffer⟩

theorem ensureStorage_of_allocated {array : FlashArray} (allocated : array.size ≠ 0)
    (size : Fin (2 ^ 63)) : array.ensureStorage size = array := if_pos allocated

theorem wellFormed_ensureStorage (wellFormed : flash.WellFormed) :
    flash.ensureStorage.WellFormed := by
  refine ⟨FlashArray.tracked_ensureStorage wellFormed.tracked _, ?_, wellFormed.marked,
    wellFormed.collecting⟩
  intro pending
  have inside := wellFormed.buffered pending
  by_cases empty : flash.array.size = 0
  · have none := Nat.le_zero.mp (empty ▸ inside)
    exact none.le.trans (Nat.zero_le _)
  · rw [ensureStorage, ensureStorage_of_allocated empty]
    exact inside

theorem wellFormed_writesTo (wellFormed : flash.WellFormed) {offset : BitVec 64}
    {data : List Byte} (accepted : flash.accepts (.write offset data)) {next : Flash}
    (written : flash.WritesTo offset data next) : next.WellFormed := by
  obtain ⟨counted, wrote, counts, stored, after⟩ := written
  obtain ⟨others, rfl⟩ := counts
  have before := SameButStats.looked ⟨others, rfl⟩ |>.sameCore.wellFormed
    (wellFormed_ensureStorage wellFormed)
  have outcome := write_wrote before (List.length_pos_iff.mp (Nat.pos_of_ne_zero accepted.1))
    accepted.2 stored
  exact after.looked.sameCore.wellFormed (outcome.wellFormed before)

theorem wellFormed_accessed (wellFormed : flash.WellFormed) {access : Access} {next : Flash}
    (accessed : flash.Accessed access next) : next.WellFormed := by
  rcases accessed with ⟨looked, -⟩ | ⟨offset, data, rfl, accepted, written⟩
  · exact looked.sameCore.wellFormed (wellFormed_ensureStorage wellFormed)
  · exact wellFormed_writesTo wellFormed accepted written

/-- Another array of the same size with a sound map. -/
theorem WellFormed.ofArray (wellFormed : flash.WellFormed) {array : FlashArray}
    (tracked : array.Tracked) (size : array.size = flash.array.size) :
    { flash with array := array }.WellFormed :=
  ⟨tracked, fun pending => size.symm ▸ wellFormed.buffered pending, wellFormed.marked,
    wellFormed.collecting⟩

theorem loadImage_size (array : FlashArray) (offset : Nat) (data : List Byte) :
    (array.loadImage offset data).size = array.size := by
  unfold FlashArray.loadImage
  split
  · exact (FlashArray.SameContents.refreshSectorErasedRange (array.copy offset data) offset
      data.length).size
  · rfl

theorem wellFormed_step {event : FlashEvent} {next : Flash} (wellFormed : flash.WellFormed)
    (stepped : flash.step event = some next) : next.WellFormed := by
  obtain ⟨⟨output, final⟩, responded, rfl⟩ := Option.map_eq_some_iff.mp stepped
  have flushed := (WritesBack.flushDeferredBacking flash).sameCore
  cases event with
  | access access debug =>
      obtain ⟨⟨reply, next⟩, accessed, same⟩ := Option.map_eq_some_iff.mp responded
      obtain ⟨-, rfl⟩ := Prod.mk.inj same
      exact wellFormed_accessed wellFormed (accessed_of_access accessed)
  | directMemory command offset len =>
      obtain ⟨-, rfl⟩ := Prod.mk.inj (Option.some.inj responded)
      exact (sameCore_getDirectMemPtr flash command _ _).wellFormed
        (wellFormed_ensureStorage wellFormed)
  | load offset data =>
      obtain ⟨-, rfl⟩ := Prod.mk.inj (Option.some.inj responded)
      have stored := wellFormed_ensureStorage wellFormed
      exact stored.ofArray (FlashArray.tracked_loadImage stored.tracked _ data)
        (loadImage_size flash.ensureStorage.array offset.toNat data)
  | setDeferBackingWrite enable =>
      obtain ⟨-, rfl⟩ := Prod.mk.inj (Option.some.inj responded)
      have same : SameCore flash (flash.setDeferBackingWrite enable) :=
        flushed.trans ⟨rfl, rfl, rfl, rfl⟩
      exact same.wellFormed wellFormed
  | setDeferBackingFlushInterval interval =>
      obtain ⟨-, rfl⟩ := Prod.mk.inj (Option.some.inj responded)
      have same : SameCore flash (flash.setDeferBackingFlushInterval interval) :=
        flushed.trans ⟨rfl, rfl, rfl, rfl⟩
      exact same.wellFormed wellFormed
  | setBackingFile path =>
      obtain ⟨-, rfl⟩ := Prod.mk.inj (Option.some.inj responded)
      have same : SameCore flash (flash.setBackingFile path) :=
        flushed.trans ⟨rfl, rfl, rfl, rfl⟩
      exact same.wellFormed wellFormed
  | setSectorSize size =>
      obtain ⟨-, rfl⟩ := Prod.mk.inj (Option.some.inj responded)
      exact wellFormed.ofArray (FlashArray.tracked_rebuild _) rfl
  | _ =>
      obtain ⟨-, rfl⟩ := Prod.mk.inj (Option.some.inj responded)
      exact ⟨wellFormed.tracked, wellFormed.buffered, wellFormed.marked, wellFormed.collecting⟩

theorem wellFormed_start (config : FlashConfig) : (start config).WellFormed := by
  refine wellFormed_of_idle ⟨fun allocated => absurd rfl allocated, ?_⟩ rfl rfl
  intro index position flagged member
  cases flagged

/-- Every reachable flash is well formed. -/
theorem wellFormed_reachable {config : FlashConfig} {events : List FlashEvent}
    (reached : run step (start config) events = some flash) : flash.WellFormed :=
  run_invariant (fun _ _ _ => wellFormed_step) (wellFormed_start config) reached

end Flash

end QboxPlatform.StrataFlash
