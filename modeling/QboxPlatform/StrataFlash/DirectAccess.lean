import QboxPlatform.StrataFlash.Accesses

/-!
# Direct access and what it shows

A grant shows what reads show as long as the flash reads its array and the pointer of the grant
is alive.  Two things break this: a command that is accepted while the grants are not
invalidated, and a new mapping of the backing file.
-/

namespace QboxPlatform.StrataFlash

open Foundation

namespace Backing

/-- The backing file has been ensured: an open one keeps its mapping, any other mapping is
replaced by one of the configured file. -/
structure Ensured (before after : Backing) : Prop where
  backingFile : after.backingFile = before.backingFile
  kept : before.isOpen = true → after.mapping = before.mapping
  replaced : before.isOpen = false →
    ∀ mapping, after.mapping = some mapping → mapping.path = before.backingFile

theorem copyRange_mapping (backing : Backing) (array : FlashArray) (offset len : Nat) :
    (backing.copyRange array offset len).2.backingFile = backing.backingFile ∧
      (backing.copyRange array offset len).2.mapping = backing.mapping := by
  unfold copyRange
  split
  · exact ⟨rfl, rfl⟩
  · split
    · exact ⟨rfl, rfl⟩
    · split
      · exact ⟨rfl, rfl⟩
      · exact ⟨rfl, rfl⟩

theorem isOpen_congr {before after : Backing}
    (backingFile : after.backingFile = before.backingFile)
    (mapping : after.mapping = before.mapping) : after.isOpen = before.isOpen := by
  rw [isOpen, isOpen, backingFile, mapping]

theorem isOpen_iff_path {backing : Backing} :
    backing.isOpen = true ↔
      ∃ mapping, backing.mapping = some mapping ∧ mapping.path = backing.backingFile := by
  rw [isOpen, Option.any_eq_true]
  simp only [beq_iff_eq]

namespace Ensured

theorem refl {backing : Backing} (isOpen : backing.isOpen = true) : Ensured backing backing :=
  ⟨rfl, fun _ => rfl, fun closed => nomatch isOpen.symm.trans closed⟩

theorem trans {first second third : Backing} (left : Ensured first second)
    (right : Ensured second third) : Ensured first third := by
  refine ⟨right.backingFile.trans left.backingFile, ?_, ?_⟩
  · intro isOpen
    have still : second.isOpen = true := by
      rwa [isOpen_congr left.backingFile (left.kept isOpen)]
    exact (right.kept still).trans (left.kept isOpen)
  · intro closed mapping mapped
    cases still : second.isOpen with
    | true =>
        rw [right.kept still] at mapped
        exact left.replaced closed mapping mapped
    | false => exact (right.replaced still mapping mapped).trans left.backingFile

theorem then_kept {first second third : Backing} (left : Ensured first second)
    (backingFile : third.backingFile = second.backingFile)
    (mapping : third.mapping = second.mapping) : Ensured first third := by
  refine ⟨backingFile.trans left.backingFile, ?_, ?_⟩
  · intro isOpen
    exact mapping.trans (left.kept isOpen)
  · intro closed other mapped
    exact left.replaced closed other (mapping.symm.trans mapped)

theorem release_open {before backing : Backing} (closed : before.isOpen = false)
    (backingFile : backing.backingFile = before.backingFile) :
    Ensured before backing.release.openBackingFile.2 := by
  have opened : backing.release.openBackingFile.2.backingFile = backing.backingFile ∧
      ∀ mapping, backing.release.openBackingFile.2.mapping = some mapping →
        mapping.path = backing.backingFile := by
    unfold openBackingFile
    split
    · exact ⟨rfl, nofun⟩
    · split
      · exact ⟨rfl, nofun⟩
      · refine ⟨rfl, ?_⟩
        intro mapping mapped
        rw [← Option.some.inj mapped]
        rfl
  rw [backingFile] at opened
  exact ⟨opened.1, (fun isOpen => nomatch closed.symm.trans isOpen), fun _ => opened.2⟩

theorem whileFlushing {backing : Backing} (set : backing.backingFile ≠ "") :
    Ensured backing backing.ensureWhileFlushing.2 := by
  unfold ensureWhileFlushing
  rw [if_neg set]
  split
  · next isOpen => exact refl isOpen
  · next closed => exact release_open (by simpa using closed) rfl

theorem writeWhileFlushing {backing : Backing} (set : backing.backingFile ≠ "")
    (array : FlashArray) (offset : Nat) {len : Nat} (some : len ≠ 0) :
    Ensured backing (backing.writeWhileFlushing array offset len).2 := by
  have ensured := whileFlushing set
  unfold Backing.writeWhileFlushing
  rw [if_neg some]
  dsimp only
  split
  · have copied := copyRange_mapping backing.ensureWhileFlushing.2 array offset len
    exact ensured.then_kept copied.1 copied.2
  · exact ensured

theorem flushDeferred {backing : Backing} (set : backing.backingFile ≠ "")
    (dirty : backing.dirty = true) (array : FlashArray) :
    Ensured backing (backing.flushDeferred array).2 := by
  have written := writeWhileFlushing set array backing.dirtyStart
    (show backing.dirtyLength ≠ 0 from Nat.succ_ne_zero _)
  unfold Backing.flushDeferred
  rw [if_neg (by rw [dirty]; decide), if_neg set]
  dsimp only
  split
  · exact written.then_kept rfl rfl
  · exact written

end Ensured

theorem flushDeferred_of_skipped {backing : Backing}
    (skipped : backing.dirty = false ∨ backing.backingFile = "") (array : FlashArray) :
    (backing.flushDeferred array).2 = backing := by
  unfold Backing.flushDeferred
  rcases skipped with clean | unset
  · rw [clean]
    rfl
  · rw [if_pos unset, ite_self]

end Backing

namespace Flash

variable {flash : Flash}

/-- The pointer goes into the array, or into the mapping that is still open. -/
def Live (flash : Flash) (grant : Grant) : Prop :=
  grant.mapping = none ∨ grant.mapping = flash.backing.mapping

instance (grant : Grant) : Decidable (flash.Live grant) := inferInstanceAs (Decidable (_ ∨ _))

/-- The byte that a direct read finds.  An open mapping is taken to hold the bytes of the array;
a pointer into a mapping that was closed finds nothing. -/
def directRead (flash : Flash) (grant : Grant) (position : Nat) : Option Byte :=
  if flash.Live grant then some (flash.array.bytes position) else none

/-- Every direct read finds what a read by transaction returns: the flash reads its array, and
the byte is the current one. -/
def Current (flash : Flash) : Prop :=
  ∀ grant ∈ flash.grants, flash.control.mode = .readArray ∧
    ∀ position, grant.range.start ≤ position → position ≤ grant.range.last →
      flash.directRead grant position = some (flash.readByte position)

/-- The commands that leave the read-array mode. -/
def otherModeCommands : List Byte :=
  [cmdReadIdCode, cmdReadQuery, cmdReadStatusReg, cmdClearStatusReg, cmdWriteToBuffer]

/-- A write to the flash in this state and with these data leaves the granted access current: it
invalidates the grants, or it is a command that leaves the array readable. -/
def KeepsGrants (flash : Flash) (data : List Byte) : Prop :=
  flash.control.pending ≠ .program ∧
    (flash.params.enableDmi = true ∨
      (¬Acknowledges flash.control.pending (data.getD 0 0) ∧
        data.getD 0 0 ∉ otherModeCommands))

/-- Opening the backing file closes a mapping that a grant points into. -/
def Remaps (flash : Flash) : Prop :=
  flash.backing.backingFile ≠ "" ∧ flash.backing.isOpen = false ∧
    ∃ grant ∈ flash.grants, grant.mapping ≠ none

/-- The event leaves the granted access current. -/
def KeepsCurrent (flash : Flash) : FlashEvent → Prop
  | .access (.write offset data) _ =>
      flash.grants ≠ [] → flash.accepts (.write offset data) → flash.KeepsGrants data
  | .directMemory command offset len =>
      flash.grantable command offset.toNat len.toNat ≠ none → ¬flash.Remaps
  | .setDeferBackingWrite _ => flash.backing.dirty = true → ¬flash.Remaps
  | .setDeferBackingFlushInterval _ => flash.backing.dirty = true → ¬flash.Remaps
  | .setBackingFile _ => flash.backing.dirty = true → ¬flash.Remaps
  | _ => True

/-- The flag tells whether there are grants, and no grant is empty. -/
structure Granting (flash : Flash) : Prop where
  wellFormed : flash.WellFormed
  granted : flash.grants ≠ [] → flash.dmiGranted = true
  ranges : ∀ grant ∈ flash.grants, grant.range.start ≤ grant.range.last

theorem current_iff (ranges : ∀ grant ∈ flash.grants, grant.range.start ≤ grant.range.last) :
    flash.Current ↔
      ∀ grant ∈ flash.grants, flash.control.mode = .readArray ∧ flash.Live grant := by
  refine forall₂_congr fun grant member => and_congr_right fun reading => ?_
  constructor
  · intro found
    by_contra dead
    have first := found grant.range.start (Nat.le_refl _) (ranges grant member)
    rw [directRead, if_neg dead] at first
    cases first
  · intro live position above below
    rw [directRead, if_pos live, readByte, reading]

theorem find_nonempty {dmi : DmiRanges} {size offset len : Nat} {range : DmiRange}
    (found : (dmi.find size offset len).1 = some range) : range.start ≤ range.last := by
  unfold DmiRanges.find at found
  split at found
  · cases found
  · dsimp only at found
    split at found
    · cases found
    · split at found
      · rw [← Option.some.inj found]
        exact Nat.zero_le _
      · have holds := List.find?_some found
        rw [Bool.and_eq_true, decide_eq_true_eq, decide_eq_true_eq] at holds
        refine holds.1.trans (le_trans ?_ holds.2)
        split
        · exact Nat.le_refl _
        · omega

theorem grantable_nonempty {command : DmiCommand} {offset len : Nat} {range : DmiRange}
    (granted : flash.grantable command offset len = some range) : range.start ≤ range.last := by
  unfold grantable at granted
  split at granted
  · exact find_nonempty granted
  · cases granted

theorem flushDeferredBacking_cases (flash : Flash) :
    (flash.backing.dirty = true ∧ flash.backing.backingFile ≠ "" ∧
        flash.backing.Ensured flash.flushDeferredBacking.backing) ∨
      ((flash.backing.dirty = false ∨ flash.backing.backingFile = "") ∧
        flash.flushDeferredBacking.backing = flash.backing) := by
  rw [flushDeferredBacking_backing]
  by_cases skipped : flash.backing.dirty = false ∨ flash.backing.backingFile = ""
  · exact Or.inr ⟨skipped, Backing.flushDeferred_of_skipped skipped flash.array⟩
  · obtain ⟨dirty, set⟩ := not_or.mp skipped
    rw [Bool.not_eq_false] at dirty
    exact Or.inl ⟨dirty, set, Backing.Ensured.flushDeferred set dirty flash.array⟩

theorem ensured_ensureBackingFile (set : flash.backing.backingFile ≠ "") :
    flash.backing.Ensured flash.ensureBackingFile.2.backing := by
  unfold ensureBackingFile
  rw [if_neg set]
  split
  · next isOpen => exact Backing.Ensured.refl isOpen
  · next closed =>
    have notOpen : flash.backing.isOpen = false := by simpa using closed
    apply Backing.Ensured.release_open notOpen
    rcases flash.flushDeferredBacking_cases with ⟨-, -, ensured⟩ | ⟨-, same⟩
    · exact ensured.backingFile
    · rw [same]

theorem ensured_grant (set : flash.backing.backingFile ≠ "") (range : DmiRange) :
    flash.backing.Ensured (flash.flushDeferredBacking.dmiPointer range).2.backing := by
  have pointed : flash.flushDeferredBacking.backing.backingFile = flash.backing.backingFile →
      flash.flushDeferredBacking.backing.Ensured
        (flash.flushDeferredBacking.dmiPointer range).2.backing := by
    intro same
    have still : flash.flushDeferredBacking.backing.backingFile ≠ "" := same ▸ set
    unfold dmiPointer
    rw [if_neg still]
    exact ensured_ensureBackingFile still
  rcases flash.flushDeferredBacking_cases with ⟨-, -, ensured⟩ | ⟨-, same⟩
  · exact ensured.trans (pointed ensured.backingFile)
  · have after := pointed (congrArg Backing.backingFile same)
    rwa [same] at after

theorem dmiPointer_of_unset (unset : flash.backing.backingFile = "") (range : DmiRange) :
    (flash.flushDeferredBacking.dmiPointer range).2.backing = flash.backing ∧
      (flash.flushDeferredBacking.dmiPointer range).1 = none := by
  rcases flash.flushDeferredBacking_cases with ⟨-, set, -⟩ | ⟨-, same⟩
  · exact absurd unset set
  · have still : flash.flushDeferredBacking.backing.backingFile = "" := by rw [same, unset]
    unfold dmiPointer
    rw [if_pos still]
    exact ⟨same, rfl⟩

theorem dmiPointer_live (flash : Flash) (range : DmiRange) :
    (flash.dmiPointer range).1 = none ∨
      (flash.dmiPointer range).1 = (flash.dmiPointer range).2.backing.mapping := by
  unfold dmiPointer
  split
  · exact Or.inl rfl
  · dsimp only
    split
    · cases mapped : flash.ensureBackingFile.2.backing.mapping with
      | none => exact Or.inl rfl
      | some mapping =>
          rw [Option.filter_some]
          split
          · exact Or.inr rfl
          · exact Or.inl rfl
    · exact Or.inl rfl

theorem invalidateDmi_grants (granted : flash.grants ≠ [] → flash.dmiGranted = true)
    (allocated : flash.array.size ≠ 0) :
    flash.invalidateDmi.grants = if flash.params.enableDmi then [] else flash.grants := by
  unfold invalidateDmi
  split
  · next skipped =>
    simp only [Bool.or_eq_true, Bool.not_eq_true', beq_iff_eq] at skipped
    rcases skipped with (none | disabled) | empty
    · have nothing : flash.grants = [] := by
        by_contra some
        cases none.symm.trans (granted some)
      rw [nothing, ite_self]
    · rw [disabled, if_neg Bool.false_ne_true]
    · exact absurd empty allocated
  · next invalidated =>
    simp only [Bool.or_eq_true, Bool.not_eq_true', beq_iff_eq, not_or, Bool.not_eq_false]
      at invalidated
    rw [invalidated.1.2, if_pos rfl]

/-- A command that stores nothing and acknowledges nothing leaves the array readable unless it
is one of the other modes. -/
theorem startedControl_mode {control : Control} (reading : control.mode = .readArray)
    (command : Byte) :
    (startedControl control command).mode = .readArray ↔ command ∉ otherModeCommands := by
  unfold startedControl
  split
  · next readArray =>
    subst readArray
    exact iff_of_true rfl (by decide)
  · split
    · next readId =>
      subst readId
      exact iff_of_false nofun (by decide)
    · next notReadId =>
      split
      · next readQuery =>
        subst readQuery
        exact iff_of_false nofun (by decide)
      · next notReadQuery =>
        split
        · next readStatus =>
          rcases readStatus with rfl | rfl
          · exact iff_of_false nofun (by decide)
          · exact iff_of_false nofun (by decide)
        · next notReadStatus =>
          obtain ⟨notRead, notClear⟩ := not_or.mp notReadStatus
          split
          · next buffer =>
            subst buffer
            exact iff_of_false nofun (by decide)
          · next notBuffer =>
            have other : command ∉ otherModeCommands := by
              simp only [otherModeCommands, List.mem_cons, List.not_mem_nil, or_false, not_or]
              exact ⟨notReadId, notReadQuery, notRead, notClear, notBuffer⟩
            split
            · exact iff_of_true reading other
            · split
              · exact iff_of_true reading other
              · split
                · exact iff_of_true reading other
                · exact iff_of_true rfl other

/-- The mode, the grants and the mapping after an accepted write, seen from a current flash with
grants. -/
theorem current_wrote_iff {offset : Nat} {data : List Byte} {next : Flash}
    (wrote : Wrote flash offset data next) (granting : flash.Granting)
    (allocated : flash.array.size ≠ 0)
    (current : ∀ grant ∈ flash.grants, flash.control.mode = .readArray ∧ flash.Live grant)
    (some : flash.grants ≠ []) :
    (∀ grant ∈ next.grants, next.control.mode = .readArray ∧ next.Live grant) ↔
      flash.KeepsGrants data := by
  obtain ⟨grant, member⟩ := List.exists_mem_of_ne_nil _ some
  have reading := (current grant member).1
  have grants := invalidateDmi_grants granting.granted allocated
  have collecting := granting.wellFormed.collecting
  -- A flash that shows its status is not current as long as something is granted.
  have hidden : ∀ after : Flash, after.control.mode = .readStatus → grant ∈ after.grants →
      ¬∀ grant ∈ after.grants, after.control.mode = .readArray ∧ after.Live grant := by
    intro after status still shown
    cases status.symm.trans (shown grant still).1
  cases wrote with
  | programs pending next programs =>
      obtain ⟨bytes, stored, -⟩ := programs
      obtain ⟨-, control, -, -, kept⟩ := stored.frame
      refine iff_of_false ?_ fun keeps => keeps.1 pending
      exact hidden next (by rw [control]) (kept.symm ▸ member)
  | begins pending => cases reading.symm.trans (collecting (Or.inl pending))
  | collects pending unconfirmed => cases reading.symm.trans (collecting (Or.inr pending))
  | confirms pending confirmed counted next counts programs =>
      cases reading.symm.trans (collecting (Or.inr pending))
  | erases pending acknowledged counted next counts stored =>
      obtain ⟨-, control, -, -, kept⟩ := stored.frame
      rw [counts.sameStorage.grants, grants] at kept
      cases enabled : flash.params.enableDmi with
      | true =>
          rw [enabled, if_pos rfl] at kept
          rw [kept]
          exact iff_of_true nofun ⟨by rw [pending]; decide, Or.inl enabled⟩
      | false =>
          rw [enabled, if_neg Bool.false_ne_true] at kept
          refine iff_of_false (hidden next (by rw [control]) (kept.symm ▸ member)) ?_
          rintro ⟨-, on | ⟨notAcknowledged, -⟩⟩
          · cases enabled.symm.trans on
          · exact notAcknowledged (Or.inl ⟨pending, acknowledged⟩)
  | locks pending acknowledged counted counts =>
      have kept : counted.ready.grants = flash.invalidateDmi.grants := counts.sameStorage.grants
      rw [grants] at kept
      cases enabled : flash.params.enableDmi with
      | true =>
          rw [enabled, if_pos rfl] at kept
          rw [kept]
          exact iff_of_true nofun ⟨by rw [pending]; decide, Or.inl enabled⟩
      | false =>
          rw [enabled, if_neg Bool.false_ne_true] at kept
          refine iff_of_false (hidden _ rfl (kept.symm ▸ member)) ?_
          rintro ⟨-, on | ⟨notAcknowledged, -⟩⟩
          · cases enabled.symm.trans on
          · exact notAcknowledged (Or.inr ⟨pending, acknowledged⟩)
  | starts pending other counted counts =>
      have started := sameStorage_startCommand counted (data.getD 0 0)
      have notProgram : flash.control.pending ≠ .program := by
        rintro program
        rcases pending with none | erase | lock
        · cases none.symm.trans program
        · cases erase.symm.trans program
        · cases lock.symm.trans program
      have kept : (counted.startCommand (data.getD 0 0)).grants = flash.invalidateDmi.grants :=
        started.grants.trans counts.sameStorage.grants
      have backing : (counted.startCommand (data.getD 0 0)).backing = flash.backing :=
        started.backing.trans (counts.sameStorage.backing.trans flash.invalidateDmi_backing)
      have mode : counted.control.mode = .readArray := by
        obtain ⟨stats, rfl⟩ := counts
        exact (congrArg Control.mode flash.invalidateDmi_control).trans reading
      have shows := startedControl_mode mode (data.getD 0 0)
      rw [← startCommand_control] at shows
      rw [grants] at kept
      cases enabled : flash.params.enableDmi with
      | true =>
          rw [enabled, if_pos rfl] at kept
          rw [kept]
          exact iff_of_true nofun ⟨notProgram, Or.inl enabled⟩
      | false =>
          rw [enabled, if_neg Bool.false_ne_true] at kept
          rw [kept]
          constructor
          · intro after
            exact ⟨notProgram, Or.inr ⟨other, shows.mp (after grant member).1⟩⟩
          · rintro ⟨-, on | ⟨-, plain⟩⟩ grant member
            · cases enabled.symm.trans on
            · refine ⟨shows.mpr plain, ?_⟩
              rw [Live, backing]
              exact (current grant member).2

theorem Wrote.grants {offset : Nat} {data : List Byte} {next : Flash}
    (wrote : Wrote flash offset data next) :
    (next.grants = flash.grants ∧ next.dmiGranted = flash.dmiGranted) ∨ next.grants = [] := by
  have invalidated : (flash.invalidateDmi.grants = flash.grants ∧
      flash.invalidateDmi.dmiGranted = flash.dmiGranted) ∨ flash.invalidateDmi.grants = [] := by
    rcases flash.invalidateDmi_cases with same | ⟨stats, same⟩
    · rw [same]
      exact Or.inl ⟨rfl, rfl⟩
    · rw [same]
      exact Or.inr rfl
  cases wrote with
  | programs pending next programs =>
      obtain ⟨bytes, stored, -⟩ := programs
      exact Or.inl ⟨stored.frame.2.2.2.2, stored.frame.2.2.2.1⟩
  | begins pending =>
      have same := sameStorage_beginWriteBuffer flash offset data
      exact Or.inl ⟨same.grants, same.dmiGranted⟩
  | collects pending unconfirmed =>
      have same := sameStorage_collectWriteBufferData flash offset data
      exact Or.inl ⟨same.grants, same.dmiGranted⟩
  | confirms pending confirmed counted next counts programs =>
      obtain ⟨bytes, stored, -⟩ := programs
      have same := counts.sameStorage
      exact Or.inl ⟨stored.frame.2.2.2.2.trans same.grants,
        stored.frame.2.2.2.1.trans same.dmiGranted⟩
  | erases pending acknowledged counted next counts stored =>
      have same := counts.sameStorage
      rw [stored.frame.2.2.2.2, stored.frame.2.2.2.1, same.grants, same.dmiGranted]
      exact invalidated
  | locks pending acknowledged counted counts =>
      have same := counts.sameStorage
      change (counted.grants = _ ∧ counted.dmiGranted = _) ∨ counted.grants = []
      rw [same.grants, same.dmiGranted]
      exact invalidated
  | starts pending other counted counts =>
      have same := counts.sameStorage
      have started := sameStorage_startCommand counted (data.getD 0 0)
      rw [started.grants, started.dmiGranted, same.grants, same.dmiGranted]
      exact invalidated

theorem Wrote.grants_of_nil {offset : Nat} {data : List Byte} {next : Flash}
    (wrote : Wrote flash offset data next) (none : flash.grants = []) : next.grants = [] := by
  rcases wrote.grants with ⟨same, -⟩ | cleared
  · exact same.trans none
  · exact cleared

theorem live_of_ensured_iff {next : Flash} (set : flash.backing.backingFile ≠ "")
    (ensured : flash.backing.Ensured next.backing)
    (live : ∀ grant ∈ flash.grants, flash.Live grant) :
    (∀ grant ∈ flash.grants, next.Live grant) ↔ ¬flash.Remaps := by
  constructor
  · rintro still ⟨-, closed, grant, member, mapped⟩
    have before := (live grant member).resolve_left mapped
    have after := (still grant member).resolve_left mapped
    obtain ⟨mapping, found⟩ := Option.ne_none_iff_exists'.mp mapped
    have path := ensured.replaced closed mapping (after.symm.trans found)
    have isOpen := Backing.isOpen_iff_path.mpr ⟨mapping, before.symm.trans found, path⟩
    cases closed.symm.trans isOpen
  · intro keeps grant member
    rcases live grant member with none | before
    · exact Or.inl none
    · cases isOpen : flash.backing.isOpen with
      | true => exact Or.inr (before.trans (ensured.kept isOpen).symm)
      | false =>
          left
          by_contra mapped
          exact keeps ⟨set, isOpen, grant, member, mapped⟩

theorem live_of_flushed_iff {next : Flash}
    (flushed : next.backing.mapping = flash.flushDeferredBacking.backing.mapping)
    (live : ∀ grant ∈ flash.grants, flash.Live grant) :
    (∀ grant ∈ flash.grants, next.Live grant) ↔
      (flash.backing.dirty = true → ¬flash.Remaps) := by
  have same : (∀ grant ∈ flash.grants, next.Live grant) ↔
      ∀ grant ∈ flash.grants, flash.flushDeferredBacking.Live grant := by
    simp only [Live, flushed]
  rw [same]
  rcases flash.flushDeferredBacking_cases with ⟨dirty, set, ensured⟩ | ⟨skipped, unchanged⟩
  · rw [live_of_ensured_iff set ensured live]
    exact ⟨fun keeps _ => keeps, fun keeps => keeps dirty⟩
  · refine iff_of_true ?_ ?_
    · intro grant member
      rw [Live, unchanged]
      exact live grant member
    · rintro dirty ⟨set, -⟩
      rcases skipped with clean | unset
      · cases clean.symm.trans dirty
      · exact set unset

theorem Looked.grants {before after : Flash} (looked : Looked before after) :
    after.grants = before.grants ∧ after.dmiGranted = before.dmiGranted ∧
      after.backing = before.backing := by
  obtain ⟨stats, ranges, rfl⟩ := looked
  exact ⟨rfl, rfl, rfl⟩

/-- The property that `current_iff` speaks of. -/
def Shows (flash : Flash) : Prop :=
  ∀ grant ∈ flash.grants, flash.control.mode = .readArray ∧ flash.Live grant

theorem Shows.congr (shows : flash.Shows) {next : Flash} (control : next.control = flash.control)
    (grants : next.grants = flash.grants) (backing : next.backing = flash.backing) :
    next.Shows := by
  intro grant member
  rw [grants] at member
  rw [control, Live, backing]
  exact shows grant member

theorem shows_accessed_iff (granting : flash.Granting) (shows : flash.Shows) {access : Access}
    {debug : Bool} {next : Flash} (accessed : flash.Accessed access next) :
    next.Shows ↔ flash.KeepsCurrent (.access access debug) := by
  rcases accessed with ⟨looked, refused⟩ | ⟨offset, data, rfl, accepted, written⟩
  · obtain ⟨grants, -, backing⟩ := looked.grants
    refine iff_of_true (shows.congr looked.sameCore.control grants backing) ?_
    cases access with
    | write offset data => exact fun _ accepted => absurd accepted (refused offset data rfl)
    | read offset len => trivial
    | ignore offset len => trivial
  · obtain ⟨counted, wrote, counts, stored, after⟩ := written
    have ready := counts.looked.sameCore.wellFormed (wellFormed_ensureStorage granting.wellFormed)
    have some := List.length_pos_iff.mp (Nat.pos_of_ne_zero accepted.1)
    have allocated : flash.ensureStorage.array.size ≠ 0 :=
      Nat.pos_iff_ne_zero.mp (Nat.lt_of_lt_of_le (Nat.pos_of_ne_zero accepted.1)
        (Nat.le_of_add_left_le accepted.2))
    obtain ⟨stats, rfl⟩ := counts
    have outcome := write_wrote ready some accepted.2 stored
    have same : next.Shows ↔ wrote.Shows := by
      obtain ⟨others, rfl⟩ := after
      exact Iff.rfl
    rw [same]
    by_cases none : flash.grants = []
    · refine iff_of_true ?_ fun granted => absurd none granted
      have kept : wrote.grants = [] := outcome.grants_of_nil none
      intro grant member
      rw [kept] at member
      cases member
    · have exact := current_wrote_iff outcome ⟨ready, granting.granted, granting.ranges⟩ allocated
        shows none
      refine exact.trans ⟨fun keeps _ _ => keeps, fun keeps => keeps none accepted⟩

theorem shows_directMemory_iff (shows : flash.Shows) (command : DmiCommand)
    (offset len : Nat) :
    (flash.getDirectMemPtr command offset len).2.Shows ↔
      (flash.grantable command offset len ≠ none → ¬flash.Remaps) := by
  cases granted : flash.grantable command offset len with
  | none =>
      have looked := getDirectMemPtr_refused granted
      obtain ⟨grants, -, backing⟩ := looked.grants
      exact iff_of_true (shows.congr looked.sameCore.control grants backing)
        fun some => absurd rfl some
  | some range =>
      have core := sameCore_getDirectMemPtr flash command offset len
      obtain ⟨looked, ⟨others, ranges, rfl⟩, request⟩ := getDirectMemPtr_granted granted
      obtain ⟨stats, pointed⟩ := grantDmi_eq
        { flash.ensureStorage with stats := others, dmiRanges := ranges } range
      have reading : flash.control.mode = .readArray := by
        unfold grantable at granted
        split at granted
        · next allowed => exact allowed.2.1
        · cases granted
      have back := (WritesBack.flushDeferredBacking
        { flash.ensureStorage with stats := others, dmiRanges := ranges }).trans
          (writesBack_dmiPointer _ range)
      have grants := congrArg Flash.grants (congrArg Prod.snd (request.trans pointed))
      have backing := congrArg Flash.backing (congrArg Prod.snd (request.trans pointed))
      dsimp only at grants backing
      rw [back.grants] at grants
      have newest := dmiPointer_live
        (flushDeferredBacking { flash.ensureStorage with stats := others, dmiRanges := ranges })
        range
      rw [← backing] at newest
      have old : (∀ grant ∈ flash.grants,
          (flash.getDirectMemPtr command offset len).2.Live grant) ↔ ¬flash.Remaps := by
        have live : ∀ grant ∈ flash.grants, flash.Live grant :=
          fun grant member => (shows grant member).2
        by_cases set : flash.backing.backingFile = ""
        · have kept := (dmiPointer_of_unset
            (show ({ flash.ensureStorage with
              stats := others, dmiRanges := ranges } : Flash).backing.backingFile = "" from set)
            range).1
          refine iff_of_true ?_ fun remaps => remaps.1 set
          intro grant member
          rw [Live, backing, kept]
          exact live grant member
        · have ensured := ensured_grant
            (show ({ flash.ensureStorage with
              stats := others, dmiRanges := ranges } : Flash).backing.backingFile ≠ "" from set)
            range
          rw [← backing] at ensured
          exact live_of_ensured_iff set ensured live
      constructor
      · intro after _
        apply old.mp
        intro grant member
        have still : grant ∈ (flash.getDirectMemPtr command offset len).2.grants := by
          rw [grants]
          exact List.mem_append_left _ member
        exact (after grant still).2
      · intro keeps grant member
        rw [grants, List.mem_append, List.mem_singleton] at member
        refine ⟨(congrArg Control.mode core.control).trans reading, ?_⟩
        rcases member with before | rfl
        · exact old.mpr (keeps (Option.some_ne_none range)) grant before
        · exact newest

/-- From a flash whose grants show what reads show, an event keeps that exactly if it meets the
condition. -/
theorem shows_step_iff (granting : flash.Granting) (shows : flash.Shows) {event : FlashEvent}
    {next : Flash} (stepped : flash.step event = some next) :
    next.Shows ↔ flash.KeepsCurrent event := by
  obtain ⟨⟨output, final⟩, responded, rfl⟩ := Option.map_eq_some_iff.mp stepped
  have flushed := WritesBack.flushDeferredBacking flash
  have live : ∀ grant ∈ flash.grants, flash.Live grant :=
    fun grant member => (shows grant member).2
  -- The callbacks that flush keep the mode and the grants.
  have flushes : ∀ after : Flash, after.control = flash.control → after.grants = flash.grants →
      after.backing.mapping = flash.flushDeferredBacking.backing.mapping →
        (after.Shows ↔ (flash.backing.dirty = true → ¬flash.Remaps)) := by
    intro after control grants mapping
    rw [← live_of_flushed_iff mapping live]
    constructor
    · intro still grant member
      exact (still grant (grants.symm ▸ member)).2
    · intro still grant member
      rw [grants] at member
      rw [control]
      exact ⟨(shows grant member).1, still grant member⟩
  cases event with
  | access access debug =>
      obtain ⟨⟨reply, next⟩, accessed, same⟩ := Option.map_eq_some_iff.mp responded
      obtain ⟨-, rfl⟩ := Prod.mk.inj same
      exact shows_accessed_iff granting shows (accessed_of_access accessed)
  | directMemory command offset len =>
      obtain ⟨-, rfl⟩ := Prod.mk.inj (Option.some.inj responded)
      exact shows_directMemory_iff shows command offset.toNat len.toNat
  | setDeferBackingWrite enable =>
      obtain ⟨-, rfl⟩ := Prod.mk.inj (Option.some.inj responded)
      exact flushes (flash.setDeferBackingWrite enable) flushed.control flushed.grants rfl
  | setDeferBackingFlushInterval interval =>
      obtain ⟨-, rfl⟩ := Prod.mk.inj (Option.some.inj responded)
      exact flushes (flash.setDeferBackingFlushInterval interval) flushed.control flushed.grants
        rfl
  | setBackingFile path =>
      obtain ⟨-, rfl⟩ := Prod.mk.inj (Option.some.inj responded)
      exact flushes (flash.setBackingFile path) flushed.control flushed.grants rfl
  | _ =>
      obtain ⟨-, rfl⟩ := Prod.mk.inj (Option.some.inj responded)
      exact iff_of_true shows trivial

theorem Granting.accessed (granting : flash.Granting) {access : Access} {next : Flash}
    (accessed : flash.Accessed access next) :
    (next.grants ≠ [] → next.dmiGranted = true) ∧
      ∀ grant ∈ next.grants, grant.range.start ≤ grant.range.last := by
  rcases accessed with ⟨looked, -⟩ | ⟨offset, data, rfl, accepted, written⟩
  · obtain ⟨grants, granted, -⟩ := looked.grants
    rw [grants, granted]
    exact ⟨granting.granted, granting.ranges⟩
  · obtain ⟨counted, wrote, ⟨stats, rfl⟩, stored, ⟨others, rfl⟩⟩ := written
    have ready : WellFormed { flash.ensureStorage with stats := stats } :=
      (SameButStats.looked ⟨stats, rfl⟩).sameCore.wellFormed
        (wellFormed_ensureStorage granting.wellFormed)
    have outcome := write_wrote ready
      (List.length_pos_iff.mp (Nat.pos_of_ne_zero accepted.1)) accepted.2 stored
    rcases outcome.grants with ⟨grants, granted⟩ | cleared
    · dsimp only
      rw [grants, granted]
      exact ⟨granting.granted, granting.ranges⟩
    · dsimp only
      rw [cleared]
      exact ⟨fun some => absurd rfl some, nofun⟩

theorem Granting.directMemory (granting : flash.Granting) (command : DmiCommand)
    (offset len : Nat) :
    ((flash.getDirectMemPtr command offset len).2.grants ≠ [] →
        (flash.getDirectMemPtr command offset len).2.dmiGranted = true) ∧
      ∀ grant ∈ (flash.getDirectMemPtr command offset len).2.grants,
        grant.range.start ≤ grant.range.last := by
  cases granted : flash.grantable command offset len with
  | none =>
      obtain ⟨grants, same, -⟩ := (getDirectMemPtr_refused granted).grants
      rw [grants, same]
      exact ⟨granting.granted, granting.ranges⟩
  | some range =>
      obtain ⟨looked, ⟨others, ranges, rfl⟩, request⟩ := getDirectMemPtr_granted granted
      obtain ⟨stats, pointed⟩ := grantDmi_eq
        { flash.ensureStorage with stats := others, dmiRanges := ranges } range
      have back := (WritesBack.flushDeferredBacking
        { flash.ensureStorage with stats := others, dmiRanges := ranges }).trans
          (writesBack_dmiPointer _ range)
      rw [request, pointed]
      refine ⟨fun _ => rfl, ?_⟩
      intro grant member
      dsimp only at member
      rw [back.grants, List.mem_append, List.mem_singleton] at member
      rcases member with before | rfl
      · exact granting.ranges grant before
      · exact grantable_nonempty granted

theorem granting_step {event : FlashEvent} {next : Flash} (granting : flash.Granting)
    (stepped : flash.step event = some next) : next.Granting := by
  have wellFormed := wellFormed_step granting.wellFormed stepped
  have rest : (next.grants ≠ [] → next.dmiGranted = true) ∧
      ∀ grant ∈ next.grants, grant.range.start ≤ grant.range.last := by
    obtain ⟨⟨output, final⟩, responded, rfl⟩ := Option.map_eq_some_iff.mp stepped
    have flushed := WritesBack.flushDeferredBacking flash
    have kept := And.intro granting.granted granting.ranges
    have flushes : ∀ after : Flash, after.grants = flash.flushDeferredBacking.grants →
        after.dmiGranted = flash.flushDeferredBacking.dmiGranted →
          (after.grants ≠ [] → after.dmiGranted = true) ∧
            ∀ grant ∈ after.grants, grant.range.start ≤ grant.range.last := by
      intro after grants granted
      rw [grants, granted, flushed.grants, flushed.dmiGranted]
      exact kept
    cases event with
    | access access debug =>
        obtain ⟨⟨reply, next⟩, accessed, same⟩ := Option.map_eq_some_iff.mp responded
        obtain ⟨-, rfl⟩ := Prod.mk.inj same
        exact granting.accessed (accessed_of_access accessed)
    | directMemory command offset len =>
        obtain ⟨-, rfl⟩ := Prod.mk.inj (Option.some.inj responded)
        exact granting.directMemory command offset.toNat len.toNat
    | setDeferBackingWrite enable =>
        obtain ⟨-, rfl⟩ := Prod.mk.inj (Option.some.inj responded)
        exact flushes (flash.setDeferBackingWrite enable) rfl rfl
    | setDeferBackingFlushInterval interval =>
        obtain ⟨-, rfl⟩ := Prod.mk.inj (Option.some.inj responded)
        exact flushes (flash.setDeferBackingFlushInterval interval) rfl rfl
    | setBackingFile path =>
        obtain ⟨-, rfl⟩ := Prod.mk.inj (Option.some.inj responded)
        exact flushes (flash.setBackingFile path) rfl rfl
    | _ =>
        obtain ⟨-, rfl⟩ := Prod.mk.inj (Option.some.inj responded)
        exact kept
  exact ⟨wellFormed, rest.1, rest.2⟩

/-- The runs along which direct access never shows a stale view are those all of whose events
keep the granted access current. -/
theorem always_current_iff (config : FlashConfig) (events : List FlashEvent) :
    Always step Current (start config) events ↔ Along step KeepsCurrent (start config) events := by
  have initially : (start config).Granting :=
    ⟨wellFormed_start config, fun some => absurd rfl some, nofun⟩
  rw [always_congr (fun _ _ _ => granting_step)
    (fun flash granting => current_iff granting.ranges) initially]
  exact always_iff_along_of_invariant (fun _ _ _ => granting_step)
    (fun _ _ _ granting shows stepped => shows_step_iff granting shows stepped) initially nofun

/-- Granted access outlives a command that is accepted while direct access is disabled. -/
theorem not_always_current_disabled :
    ¬∀ config events, Always step Current (start config) events := by
  intro always
  have reached : ∃ flash, run step (start (smallConfig "" ⟨0, fun _ => 0⟩))
      [.directMemory .read 0 1, .setEnableDmi false, .access (.write 0 [cmdReadIdCode]) false] =
        some flash ∧ flash.grants = [⟨⟨0, 15⟩, none⟩] ∧ flash.control.mode = .readId :=
    ⟨_, rfl, rfl, rfl⟩
  obtain ⟨flash, arrives, granted, mode⟩ := reached
  have current := always_iff_prefix.mp (always (smallConfig "" ⟨0, fun _ => 0⟩) _) _ [] flash
    (List.append_nil _).symm arrives
  have first := (current ⟨⟨0, 15⟩, none⟩ (granted ▸ List.mem_cons_self)).1
  cases mode.symm.trans first

end Flash

end QboxPlatform.StrataFlash
