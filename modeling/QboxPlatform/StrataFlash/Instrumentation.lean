import QboxPlatform.StrataFlash.Accesses

/-!
# Statistics and trace are transparent

Flashes that differ in their statistics only answer alike and keep differing in their statistics
only.  The statistics select the fast access and the shortcut for one byte, so that both have to
agree with the general path.
-/

namespace QboxPlatform.StrataFlash

open Foundation

namespace Flash

variable {first second flash : Flash}

namespace SameButStats

theorem symm (same : SameButStats first second) : SameButStats second first := by
  obtain ⟨stats, rfl⟩ := same
  exact ⟨first.stats, rfl⟩

/-- Both sides of a branch on the common state. -/
theorem ite {condition : Prop} [Decidable condition] {otherFirst otherSecond : Flash}
    (same : SameButStats first second) (others : SameButStats otherFirst otherSecond) :
    SameButStats (if condition then first else otherFirst)
      (if condition then second else otherSecond) := by
  split
  · exact same
  · exact others

theorem count (same : SameButStats first second) (counter : Counter) (delta : Nat) :
    SameButStats (first.count counter delta) (second.count counter delta) := by
  obtain ⟨stats, rfl⟩ := same
  exact ⟨_, rfl⟩

theorem ready (same : SameButStats first second) : SameButStats first.ready second.ready := by
  obtain ⟨stats, rfl⟩ := same
  exact ⟨_, rfl⟩

theorem setBacking (same : SameButStats first second) (backing : Backing) :
    SameButStats { first with backing := backing } { second with backing := backing } := by
  obtain ⟨stats, rfl⟩ := same
  exact ⟨_, rfl⟩

theorem setDmiRanges (same : SameButStats first second) (dmiRanges : DmiRanges) :
    SameButStats { first with dmiRanges := dmiRanges } { second with dmiRanges := dmiRanges } := by
  obtain ⟨stats, rfl⟩ := same
  exact ⟨_, rfl⟩

theorem flushDeferredBacking (same : SameButStats first second) :
    SameButStats first.flushDeferredBacking second.flushDeferredBacking := by
  obtain ⟨stats, rfl⟩ := same
  unfold Flash.flushDeferredBacking
  dsimp only
  split
  · exact ⟨_, rfl⟩
  · exact ⟨_, rfl⟩

theorem closeBackingFile (same : SameButStats first second) :
    SameButStats first.closeBackingFile second.closeBackingFile := by
  obtain ⟨stats, flushed⟩ := same.flushDeferredBacking
  unfold Flash.closeBackingFile
  rw [flushed]
  exact ⟨_, rfl⟩

theorem ensureBackingFile (same : SameButStats first second) :
    second.ensureBackingFile.1 = first.ensureBackingFile.1 ∧
      SameButStats first.ensureBackingFile.2 second.ensureBackingFile.2 := by
  have closed := same.closeBackingFile
  obtain ⟨stats, rfl⟩ := same
  unfold Flash.ensureBackingFile
  dsimp only
  split
  · exact ⟨rfl, closed⟩
  · split
    · exact ⟨rfl, _, rfl⟩
    · obtain ⟨others, closed⟩ := closed
      rw [closed]
      exact ⟨rfl, _, rfl⟩

theorem writeBackingRangeNow (same : SameButStats first second) (offset len : Nat) :
    SameButStats (first.writeBackingRangeNow offset len).2
      (second.writeBackingRangeNow offset len).2 := by
  obtain ⟨opened, ensured⟩ := same.ensureBackingFile
  unfold Flash.writeBackingRangeNow
  split
  · exact same
  · dsimp only
    rw [opened]
    split
    · obtain ⟨stats, ensured⟩ := ensured
      rw [ensured]
      exact ⟨_, rfl⟩
    · exact ensured

theorem writeBackingRange (same : SameButStats first second) (offset len : Nat) :
    SameButStats (first.writeBackingRange offset len) (second.writeBackingRange offset len) := by
  have counted := (same.count .backingWriteOps 1).count .backingWriteBytes len
  have now := counted.writeBackingRangeNow offset len
  have deferred := (counted.count .backingDeferredRanges 1).count .backingDeferredBytes len
  obtain ⟨stats, rfl⟩ := same
  unfold Flash.writeBackingRange
  refine ite ⟨_, rfl⟩ (ite ⟨_, rfl⟩ (ite (ite ?_ ?_) now))
  · exact (deferred.setBacking _).flushDeferredBacking
  · exact deferred.setBacking _

theorem programRange (same : SameButStats first second) (offset : Nat) (data : List Byte) :
    SameButStats (first.programRange offset data) (second.programRange offset data) := by
  obtain ⟨stats, rfl⟩ := same
  unfold Flash.programRange
  refine ready (ite (writeBackingRange ?_ _ _) ?_)
  · exact ⟨_, rfl⟩
  · exact ⟨_, rfl⟩

end SameButStats

/-- The loop over one byte. -/
theorem partialLoop_singleton (flash : Flash) (offset : Nat) (value : Byte) :
    flash.partialLoop offset 1 [value] =
      if flash.programmedByte (flash.array.bytes offset) value = flash.array.bytes offset then
        ⟨flash.array.bytes, 0, 1, 0⟩
      else ⟨flash.programmedBytes offset [value], 1, 0, 0⟩ := by
  have stepped := flash.partialLoop_append offset 1 [] value
  rw [List.nil_append] at stepped
  rw [stepped, programmedBytes_singleton]
  rfl

/-- The shortcut for one byte does what the general loop does. -/
theorem programByte_eq_programRange (tracked : flash.array.Tracked) (offset : Nat)
    (value : Byte) :
    SameButStats (flash.programByte offset value) (flash.programRange offset [value]) := by
  have loop : ((flash.count .programOps 1).count .programBytes [value].length).programLoop
      offset [value] = flash.partialLoop offset 1 [value] := rfl
  unfold programByte programRange
  dsimp only
  rw [loop, partialLoop_singleton]
  by_cases same : flash.programmedByte (flash.array.bytes offset) value = flash.array.bytes offset
  · have none : ¬(1 : Nat) ≠ [value].length := not_not.mpr rfl
    rw [if_neg (not_not.mpr same), if_pos same, if_neg none]
    exact ⟨_, rfl⟩
  · have one : (0 : Nat) ≠ [value].length := nofun
    rw [if_pos same, if_neg same, if_pos one]
    apply SameButStats.ready
    apply SameButStats.writeBackingRange
    rw [FlashArray.markProgrammedByte_copy tracked, FlashArray.copy, ← programmedBytes_singleton]
    exact ⟨_, rfl⟩

/-- The same outcome up to statistics. -/
def SameOutcome (first second : Option Flash) : Prop := Option.Rel SameButStats first second

namespace SameOutcome

theorem ite {condition : Prop} [Decidable condition]
    {first second otherFirst otherSecond : Option Flash} (same : SameOutcome first second)
    (others : SameOutcome otherFirst otherSecond) :
    SameOutcome (if condition then first else otherFirst)
      (if condition then second else otherSecond) := by
  split
  · exact same
  · exact others

theorem some {first second : Flash} (same : SameButStats first second) :
    SameOutcome (some first) (some second) := Option.Rel.some same

theorem map {first second : Option Flash} (same : SameOutcome first second)
    {change : Flash → Flash}
    (keeps : ∀ before after, SameButStats before after →
      SameButStats (change before) (change after)) :
    SameOutcome (first.map change) (second.map change) := by
  cases same with
  | none => exact Option.Rel.none
  | some same => exact SameOutcome.some (keeps _ _ same)

end SameOutcome

theorem eraseSector_congr (same : SameButStats first second) (offset : Nat) :
    SameOutcome (first.eraseSector offset) (second.eraseSector offset) := by
  obtain ⟨stats, rfl⟩ := same
  unfold eraseSector
  refine SameOutcome.ite Option.Rel.none (SameOutcome.ite ?_ ?_)
  · exact SameOutcome.some ⟨_, rfl⟩
  · apply SameOutcome.some
    apply SameButStats.ready
    apply SameButStats.writeBackingRange
    exact ⟨_, rfl⟩

/-- Programming agrees on the shortcut and the general path. -/
theorem programRange_of_chosen (tracked : flash.array.Tracked) (offset : Nat)
    (data : List Byte) :
    SameButStats
      (if !flash.stats.collecting && data.length == 1 then
        flash.programByte offset (data.getD 0 0)
      else flash.programRange offset data)
      (flash.programRange offset data) := by
  split
  · next single =>
    obtain ⟨value, rfl⟩ :=
      List.length_eq_one_iff.mp (eq_of_beq (Bool.and_eq_true_iff.mp single).2)
    exact programByte_eq_programRange tracked offset value
  · exact SameButStats.refl _

theorem program_congr (same : SameButStats first second) (tracked : first.array.Tracked)
    (offset : Nat) (data : List Byte) :
    SameOutcome (first.program offset data) (second.program offset data) := by
  have general := same.programRange offset data
  have chosen := programRange_of_chosen tracked offset data
  obtain ⟨stats, rfl⟩ := same
  have other := @programRange_of_chosen { first with stats := stats } tracked offset data
  unfold program
  refine SameOutcome.ite ?_ ?_
  · apply eraseSector_congr
    exact ⟨_, rfl⟩
  · rw [← apply_ite some, ← apply_ite some]
    exact SameOutcome.some (chosen.trans (general.trans other.symm))

theorem clearWriteBuffer_congr (same : SameButStats first second) :
    SameButStats first.clearWriteBuffer second.clearWriteBuffer := by
  obtain ⟨stats, rfl⟩ := same
  exact ⟨_, rfl⟩

theorem confirmWriteBuffer_congr (same : SameButStats first second)
    (tracked : first.array.Tracked) :
    SameOutcome first.confirmWriteBuffer second.confirmWriteBuffer := by
  have counted := same.count .writeBufferConfirmCmds 1
  have confirmed := (counted.count .writeBufferOps 1).count .writeBufferBytes
    first.writeBuffer.data.length
  have programmed := program_congr confirmed tracked first.writeBuffer.base
    first.writeBuffer.data
  have cleared := clearWriteBuffer_congr counted.ready
  obtain ⟨stats, rfl⟩ := same
  unfold confirmWriteBuffer
  exact SameOutcome.ite (programmed.map fun _ _ => clearWriteBuffer_congr)
    (SameOutcome.some cleared)

theorem startCommand_congr (same : SameButStats first second) (command : Byte) :
    SameButStats (first.startCommand command) (second.startCommand command) := by
  obtain ⟨stats, rfl⟩ := same
  unfold startCommand
  repeat refine SameButStats.ite ⟨_, rfl⟩ ?_
  exact ⟨_, rfl⟩

theorem handleCommand_congr (same : SameButStats first second) (offset : Nat) (command : Byte) :
    SameOutcome (first.handleCommand offset command) (second.handleCommand offset command) := by
  obtain ⟨stats, rfl⟩ := same
  have left : (first.recordCommand command).control.pending = first.control.pending := rfl
  have right : ({ first with stats := stats }.recordCommand command).control.pending =
      first.control.pending := rfl
  unfold handleCommand
  dsimp only
  rw [left, right]
  cases first.control.pending with
  | none =>
      apply SameOutcome.some
      apply startCommand_congr
      exact ⟨_, rfl⟩
  | program =>
      apply SameOutcome.some
      apply startCommand_congr
      exact ⟨_, rfl⟩
  | writeBufferCount =>
      apply SameOutcome.some
      apply startCommand_congr
      exact ⟨_, rfl⟩
  | writeBufferData =>
      apply SameOutcome.some
      apply startCommand_congr
      exact ⟨_, rfl⟩
  | erase =>
      refine SameOutcome.ite ?_ ?_
      · apply eraseSector_congr
        exact ⟨_, rfl⟩
      · apply SameOutcome.some
        apply startCommand_congr
        exact ⟨_, rfl⟩
  | lock =>
      refine SameOutcome.ite ?_ ?_
      · exact SameOutcome.some ⟨_, rfl⟩
      · apply SameOutcome.some
        apply startCommand_congr
        exact ⟨_, rfl⟩

theorem invalidateDmi_congr (same : SameButStats first second) :
    SameButStats first.invalidateDmi second.invalidateDmi := by
  obtain ⟨stats, rfl⟩ := same
  unfold invalidateDmi
  exact SameButStats.ite ⟨_, rfl⟩ ⟨_, rfl⟩

theorem beginWriteBuffer_congr (same : SameButStats first second) (offset : Nat)
    (data : List Byte) :
    SameButStats (first.beginWriteBuffer offset data) (second.beginWriteBuffer offset data) := by
  obtain ⟨stats, rfl⟩ := same
  unfold beginWriteBuffer
  exact SameButStats.ite ⟨_, rfl⟩ ⟨_, rfl⟩

theorem collectWriteBufferData_congr (same : SameButStats first second) (offset : Nat)
    (data : List Byte) :
    SameButStats (first.collectWriteBufferData offset data)
      (second.collectWriteBufferData offset data) := by
  obtain ⟨stats, rfl⟩ := same
  unfold collectWriteBufferData
  exact SameButStats.ite ⟨_, rfl⟩ (SameButStats.ite ⟨_, rfl⟩ ⟨_, rfl⟩)

theorem write_congr (same : SameButStats first second) (tracked : first.array.Tracked)
    (offset : Nat) (data : List Byte) :
    SameOutcome (first.write offset data) (second.write offset data) := by
  have invalidated := invalidateDmi_congr same
  have program := program_congr same tracked offset data
  have begins := beginWriteBuffer_congr same offset data
  have confirms := confirmWriteBuffer_congr same tracked
  have collects := collectWriteBufferData_congr same offset data
  obtain ⟨stats, rfl⟩ := same
  unfold write
  refine SameOutcome.ite program (SameOutcome.ite (SameOutcome.some begins) ?_)
  refine SameOutcome.ite (SameOutcome.ite confirms (SameOutcome.some collects)) ?_
  exact handleCommand_congr invalidated offset (data.getD 0 0)

/-- The same output, and the same flash up to statistics. -/
def SameObservation {Output : Type} (first second : Option (Output × Flash)) : Prop :=
  Option.Rel (fun left right => left.1 = right.1 ∧ SameButStats left.2 right.2) first second

namespace SameObservation

variable {Output : Type}

theorem symm {first second : Option (Output × Flash)} (same : SameObservation first second) :
    SameObservation second first := by
  cases same with
  | none => exact Option.Rel.none
  | some same => exact Option.Rel.some ⟨same.1.symm, same.2.symm⟩

theorem trans {first second third : Option (Output × Flash)}
    (left : SameObservation first second) (right : SameObservation second third) :
    SameObservation first third := by
  cases left with
  | none => exact right
  | some left =>
      cases right with
      | some right => exact Option.Rel.some ⟨left.1.trans right.1, left.2.trans right.2⟩

theorem some {output : Output} {first second : Flash} (same : SameButStats first second) :
    SameObservation (some (output, first)) (some (output, second)) :=
  Option.Rel.some ⟨rfl, same⟩

theorem map {Result : Type} {first second : Option (Output × Flash)}
    (same : SameObservation first second) (change : Output → Result) :
    SameObservation (first.map fun observed => (change observed.1, observed.2))
      (second.map fun observed => (change observed.1, observed.2)) := by
  cases same with
  | none => exact Option.Rel.none
  | some same => exact Option.Rel.some ⟨congrArg change same.1, same.2⟩

theorem ite {condition : Prop} [Decidable condition]
    {first second otherFirst otherSecond : Option (Output × Flash)}
    (same : SameObservation first second) (others : SameObservation otherFirst otherSecond) :
    SameObservation (if condition then first else otherFirst)
      (if condition then second else otherSecond) := by
  split
  · exact same
  · exact others

/-- The reply of a write, after what each side still counts. -/
theorem ofOutcome {first second : Option Flash} (same : SameOutcome first second)
    (output : Output) {change other : Flash → Flash}
    (changes : ∀ flash, SameButStats flash (change flash))
    (others : ∀ flash, SameButStats flash (other flash)) :
    SameObservation (first.map fun next => (output, change next))
      (second.map fun next => (output, other next)) := by
  cases same with
  | none => exact Option.Rel.none
  | some same =>
      exact SameObservation.some ((changes _).symm.trans (same.trans (others _)))

end SameObservation

theorem ensureStorage_congr (same : SameButStats first second) :
    SameButStats first.ensureStorage second.ensureStorage := by
  obtain ⟨stats, rfl⟩ := same
  exact ⟨_, rfl⟩

theorem readHint_congr (same : SameButStats first second) (offset len : Nat) :
    (second.readHint offset len).1 = (first.readHint offset len).1 ∧
      SameButStats (first.readHint offset len).2 (second.readHint offset len).2 := by
  obtain ⟨stats, rfl⟩ := same
  unfold readHint
  dsimp only
  split
  · exact ⟨rfl, _, rfl⟩
  · exact ⟨rfl, _, rfl⟩

/-- Without direct access a read gets no hint. -/
theorem readHint_of_disabled (disabled : flash.params.enableDmi = false) (offset len : Nat) :
    flash.readHint offset len = (false, flash) := by
  rw [readHint, if_neg]
  rintro ⟨enabled, -⟩
  cases disabled.symm.trans enabled

/-- The fast access does what the full one does when direct access is disabled. -/
theorem fullAccess_of_fastAccess (wellFormed : flash.WellFormed)
    (disabled : flash.params.enableDmi = false) (access : Access) :
    SameObservation (flash.fastAccess access) (flash.fullAccess access) := by
  have tracked := (wellFormed_ensureStorage wellFormed).tracked
  unfold fastAccess fullAccess
  refine SameObservation.ite (SameObservation.some (SameButStats.refl _)) ?_
  cases access with
  | ignore offset len => exact SameObservation.some (SameButStats.refl _)
  | read offset len =>
      have counted := (sameButStats_count flash.ensureStorage .readAccesses 1).trans
        (sameButStats_count _ .readBytes len)
      have still : ((flash.ensureStorage.count .readAccesses 1).count .readBytes
          len).params.enableDmi = false := disabled
      dsimp only [Access.offset]
      rw [readHint_of_disabled still offset.toNat len]
      exact SameObservation.some (counted.trans (sameButStats_finishAccess _))
  | write offset data =>
      have counted := (sameButStats_count flash.ensureStorage .writeAccesses 1).trans
        (sameButStats_count _ .writeBytes data.length)
      exact SameObservation.ofOutcome (write_congr counted tracked offset.toNat data)
        (⟨.ok [], some false⟩ : Reply) SameButStats.refl sameButStats_finishAccess

/-- The full access only counts. -/
theorem fullAccess_congr (same : SameButStats first second) (wellFormed : first.WellFormed)
    (access : Access) : SameObservation (first.fullAccess access) (second.fullAccess access) := by
  have tracked := (wellFormed_ensureStorage wellFormed).tracked
  have stored := ensureStorage_congr same
  obtain ⟨stats, rfl⟩ := same
  unfold fullAccess
  refine SameObservation.ite (SameObservation.some stored) ?_
  cases access with
  | ignore offset len => exact SameObservation.some stored
  | read offset len =>
      have counted := (stored.count .readAccesses 1).count .readBytes len
      obtain ⟨allowed, hinted⟩ := readHint_congr counted offset.toNat len
      dsimp only [Access.offset]
      rw [allowed]
      refine SameObservation.some ((sameButStats_finishAccess _).symm.trans
        (SameButStats.trans ?_ (sameButStats_finishAccess _)))
      exact SameButStats.ite (hinted.count .dmiReadHints 1) hinted
  | write offset data =>
      have counted := (stored.count .writeAccesses 1).count .writeBytes data.length
      exact SameObservation.ofOutcome (write_congr counted tracked offset.toNat data)
        (⟨.ok [], some false⟩ : Reply) sameButStats_finishAccess sameButStats_finishAccess

theorem access_congr (same : SameButStats first second) (wellFormed : first.WellFormed)
    (access : Access) (debug : Bool) :
    SameObservation (first.access access debug) (second.access access debug) := by
  -- Either side is the full access, whichever path it takes.
  have full : ∀ flash : Flash, flash.WellFormed →
      SameObservation (flash.access access debug) (flash.fullAccess access) := by
    intro flash wellFormed
    unfold Flash.access
    split
    · next fast =>
      have disabled : flash.params.enableDmi = false := by
        simpa using (Bool.and_eq_true_iff.mp fast).2
      exact fullAccess_of_fastAccess wellFormed disabled access
    · exact fullAccess_congr (SameButStats.refl flash) wellFormed access
  have other : second.WellFormed := same.looked.sameCore.wellFormed wellFormed
  exact (full first wellFormed).trans
    ((fullAccess_congr same wellFormed access).trans (full second other).symm)

/-- The same grant, and the same flash up to statistics. -/
def SameGrant (first second : Option Grant × Flash) : Prop :=
  first.1 = second.1 ∧ SameButStats first.2 second.2

theorem SameGrant.ite {condition : Prop} [Decidable condition]
    {first second otherFirst otherSecond : Option Grant × Flash} (same : SameGrant first second)
    (others : SameGrant otherFirst otherSecond) :
    SameGrant (if condition then first else otherFirst)
      (if condition then second else otherSecond) := by
  split
  · exact same
  · exact others

theorem rejectDmi_congr (same : SameButStats first second) (counter : Counter) :
    SameGrant (first.rejectDmi counter) (second.rejectDmi counter) :=
  ⟨rfl, (sameButStats_rejectDmi first counter).symm.trans
    (same.trans (sameButStats_rejectDmi second counter))⟩

theorem dmiPointer_congr (same : SameButStats first second) (range : DmiRange) :
    (second.dmiPointer range).1 = (first.dmiPointer range).1 ∧
      SameButStats (first.dmiPointer range).2 (second.dmiPointer range).2 := by
  obtain ⟨opened, ensured⟩ := same.ensureBackingFile
  have backing : second.ensureBackingFile.2.backing = first.ensureBackingFile.2.backing := by
    obtain ⟨stats, same⟩ := ensured
    rw [same]
  obtain ⟨stats, rfl⟩ := same
  unfold dmiPointer
  dsimp only
  split
  · exact ⟨rfl, _, rfl⟩
  · rw [opened, backing]
    exact ⟨rfl, ensured⟩

theorem grantDmi_congr (same : SameButStats first second) (range : DmiRange) :
    SameGrant (first.grantDmi range) (second.grantDmi range) := by
  obtain ⟨pointer, pointed⟩ := dmiPointer_congr same.flushDeferredBacking range
  obtain ⟨firstStats, firstGrant⟩ := first.grantDmi_eq range
  obtain ⟨secondStats, secondGrant⟩ := second.grantDmi_eq range
  obtain ⟨others, pointed⟩ := pointed
  rw [firstGrant, secondGrant, pointer, pointed]
  exact ⟨rfl, _, rfl⟩

theorem getDirectMemPtr_congr (same : SameButStats first second) (command : DmiCommand)
    (offset len : Nat) :
    SameGrant (first.getDirectMemPtr command offset len)
      (second.getDirectMemPtr command offset len) := by
  have requested := (ensureStorage_congr same).count .dmiRequests 1
  obtain ⟨stats, rfl⟩ := same
  unfold getDirectMemPtr
  refine SameGrant.ite (rejectDmi_congr requested _) ?_
  refine SameGrant.ite (rejectDmi_congr requested _) ?_
  refine SameGrant.ite (rejectDmi_congr requested _) ?_
  have left : ((first.ensureStorage.count .dmiRequests 1).dmiRanges.find
      (first.ensureStorage.count .dmiRequests 1).array.size offset len).1 =
        (first.dmiRanges.find first.ensureStorage.array.size offset len).1 := rfl
  have right : (({ first with stats := stats }.ensureStorage.count .dmiRequests 1).dmiRanges.find
      ({ first with stats := stats }.ensureStorage.count .dmiRequests 1).array.size offset len).1 =
        (first.dmiRanges.find first.ensureStorage.array.size offset len).1 := rfl
  have found := requested.setDmiRanges
    (first.dmiRanges.find first.ensureStorage.array.size offset len).2
  dsimp only
  rw [left, right]
  cases (first.dmiRanges.find first.ensureStorage.array.size offset len).1 with
  | none => exact rejectDmi_congr found _
  | some range => exact grantDmi_congr found range

/-- The event changes parameters of the statistics or the trace. -/
def instruments : FlashEvent → Bool
  | .setStatsInterval _ => true
  | .setStatsFile _ => true
  | .setTrace _ => true
  | .setTraceLimit _ => true
  | _ => false

/-- The outputs of a run, without those of the instrumentation, and its final state. -/
def observe (flash : Flash) : List FlashEvent → Option (List FlashOutput × Flash)
  | [] => some ([], flash)
  | event :: rest =>
      (flash.respond event).bind fun (output, next) =>
        (next.observe rest).map fun (outputs, final) =>
          (if instruments event then outputs else output :: outputs, final)

theorem respond_congr (same : SameButStats first second) (wellFormed : first.WellFormed)
    (event : FlashEvent) : SameObservation (first.respond event) (second.respond event) := by
  cases event with
  | access access debug =>
      exact (access_congr same wellFormed access debug).map FlashOutput.reply
  | directMemory command offset len =>
      obtain ⟨grant, after⟩ := getDirectMemPtr_congr same command offset.toNat len.toNat
      exact Option.Rel.some ⟨congrArg FlashOutput.grant grant, after⟩
  | setDeferBackingWrite enable =>
      obtain ⟨stats, flushed⟩ := same.flushDeferredBacking
      refine Option.Rel.some ⟨rfl, stats, ?_⟩
      dsimp only [setDeferBackingWrite]
      rw [flushed]
  | setDeferBackingFlushInterval interval =>
      obtain ⟨stats, flushed⟩ := same.flushDeferredBacking
      refine Option.Rel.some ⟨rfl, stats, ?_⟩
      dsimp only [setDeferBackingFlushInterval]
      rw [flushed]
  | setBackingFile path =>
      obtain ⟨stats, flushed⟩ := same.flushDeferredBacking
      refine Option.Rel.some ⟨rfl, stats, ?_⟩
      dsimp only [setBackingFile]
      rw [flushed]
  | _ =>
      obtain ⟨stats, rfl⟩ := same
      exact Option.Rel.some ⟨rfl, _, rfl⟩

/-- A change of the instrumentation changes nothing else. -/
theorem respond_of_instruments {event : FlashEvent} (instrument : instruments event = true) :
    ∃ output next, flash.respond event = some (output, next) ∧ SameButStats flash next := by
  cases event with
  | setStatsInterval interval => exact ⟨_, _, rfl, _, rfl⟩
  | setStatsFile path => exact ⟨_, _, rfl, _, rfl⟩
  | setTrace enable => exact ⟨_, _, rfl, _, rfl⟩
  | setTraceLimit limit => exact ⟨_, _, rfl, _, rfl⟩
  | _ => cases instrument

/-- A run is observed as the one without its instrumentation. -/
theorem observe_filter (same : SameButStats first second) (wellFormed : first.WellFormed)
    (events : List FlashEvent) :
    SameObservation (first.observe events)
      (second.observe (events.filter fun event => !instruments event)) := by
  induction events generalizing first second with
  | nil => exact Option.Rel.some ⟨rfl, same⟩
  | cons event rest inductionHypothesis =>
      cases instrument : instruments event with
      | true =>
          obtain ⟨output, next, responded, changed⟩ := respond_of_instruments instrument
          have later := inductionHypothesis (changed.symm.trans same)
            (changed.looked.sameCore.wellFormed wellFormed)
          rw [List.filter_cons_of_neg (by rw [instrument]; decide), observe, responded]
          simp only [Option.bind_some, instrument, if_true, Prod.mk.eta, Option.map_id']
          exact later
      | false =>
          have here := respond_congr same wellFormed event
          rw [List.filter_cons_of_pos (by rw [instrument]; decide), observe, observe]
          cases firstResponse : first.respond event with
          | none =>
              cases secondResponse : second.respond event with
              | none => exact Option.Rel.none
              | some observed =>
                  rw [firstResponse, secondResponse] at here
                  cases here
          | some observed =>
              cases secondResponse : second.respond event with
              | none =>
                  rw [firstResponse, secondResponse] at here
                  cases here
              | some other =>
                  rw [firstResponse, secondResponse] at here
                  obtain ⟨sameOutput, sameNext⟩ := Option.rel_some_some.mp here
                  have stepped : first.step event = some observed.2 :=
                    congrArg (Option.map Prod.snd) firstResponse
                  have later := inductionHypothesis sameNext (wellFormed_step wellFormed stepped)
                  simp only [Option.bind_some, instrument, sameOutput]
                  exact later.map (other.1 :: ·)

/-- Statistics and trace are transparent.  Two flashes that are constructed with the same
parameters but for those of the statistics and the trace, and that see the same events but for
changes of these, answer alike and end in the same state but for the counters; the fast access
agrees with the full one, and the shortcut for one byte with the general loop. -/
theorem instrumentation_transparent (config : FlashConfig) (statsInterval : BitVec 32)
    (statsFile : String) (trace : Bool) (traceLimit : BitVec 32)
    {firstEvents secondEvents : List FlashEvent}
    (sameEvents : (firstEvents.filter fun event => !instruments event) =
      secondEvents.filter fun event => !instruments event) :
    SameObservation ((start config).observe firstEvents)
        ((start { config with
          statsInterval := statsInterval, statsFile := statsFile, trace := trace
          traceLimit := traceLimit }).observe secondEvents) ∧
      ∀ flash, run step (start config) firstEvents = some flash →
        (flash.params.enableDmi = false → ∀ access,
          SameObservation (flash.fastAccess access) (flash.fullAccess access)) ∧
        ∀ offset value,
          SameButStats (flash.programByte offset value) (flash.programRange offset [value]) := by
  constructor
  · have left := observe_filter (SameButStats.refl (start config)) (wellFormed_start config)
      firstEvents
    have between : SameButStats (start { config with
        statsInterval := statsInterval, statsFile := statsFile, trace := trace
        traceLimit := traceLimit }) (start config) := ⟨_, rfl⟩
    have right := observe_filter between (wellFormed_start _) secondEvents
    rw [← sameEvents] at right
    exact left.trans right.symm
  · intro flash reached
    have wellFormed := wellFormed_reachable reached
    exact ⟨fun disabled access => fullAccess_of_fastAccess wellFormed disabled access,
      programByte_eq_programRange wellFormed.tracked⟩

theorem instrumentation_transparent_traced :
    SameObservation
      ((start (smallConfig "" ⟨0, fun _ => 0⟩)).observe
        [.access (.write 1 [cmdWordProgram]) false, .access (.write 1 [0x0f]) false])
      ((start { smallConfig "" ⟨0, fun _ => 0⟩ with
        statsInterval := 1, statsFile := "stats.json", trace := true, traceLimit := 8 }).observe
          [.access (.write 1 [cmdWordProgram]) false, .setTrace false,
            .access (.write 1 [0x0f]) false]) := by
  have transparent := @instrumentation_transparent (smallConfig "" ⟨0, fun _ => 0⟩) 1 "stats.json"
    true 8 [.access (.write 1 [cmdWordProgram]) false, .access (.write 1 [0x0f]) false]
    [.access (.write 1 [cmdWordProgram]) false, .setTrace false,
      .access (.write 1 [0x0f]) false] rfl
  exact transparent.1

end Flash

end QboxPlatform.StrataFlash
