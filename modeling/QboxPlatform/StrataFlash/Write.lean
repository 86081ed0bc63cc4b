import QboxPlatform.StrataFlash.Stored

/-!
# What a write does

The cases of an accepted write, said once; every invariant of the flash goes through them.
-/

namespace QboxPlatform.StrataFlash

open Foundation

namespace Flash

variable {flash : Flash}

/-- What holds between any two accesses. -/
structure WellFormed (flash : Flash) : Prop where
  tracked : flash.array.Tracked
  buffered : flash.control.pending = .writeBufferData →
    flash.writeBuffer.base + flash.writeBuffer.data.length ≤ flash.array.size
  marked : flash.writeBuffer.written.length = flash.writeBuffer.data.length
  collecting : flash.control.pending = .writeBufferCount ∨
    flash.control.pending = .writeBufferData → flash.control.mode = .readStatus

/-- The write confirms a complete write buffer. -/
def Confirms (flash : Flash) (data : List Byte) : Prop :=
  flash.writeBufferComplete = true ∧ data = [cmdBlockEraseAck]

/-- The command ends the pending one as its second cycle. -/
def Acknowledges (pending : PendingCommand) (command : Byte) : Prop :=
  (pending = .erase ∧ command = cmdBlockEraseAck) ∨
    (pending = .lock ∧ (command = cmdLockBlock ∨ command = cmdBlockEraseAck))

instance (pending : PendingCommand) (command : Byte) :
    Decidable (Acknowledges pending command) :=
  inferInstanceAs (Decidable (_ ∨ _))

/-- The programmed bytes, unless programming `0xff` erases. -/
def Programs (flash : Flash) (offset : Nat) (data : List Byte) (next : Flash) : Prop :=
  ∃ bytes, Stored flash bytes next ∧
    (flash.isSectorAlignedProgramFfErase offset data = false →
      bytes = flash.programmedBytes offset data)

/-- The outcomes of an accepted write. -/
inductive Wrote (flash : Flash) (offset : Nat) (data : List Byte) : Flash → Prop
  | programs (pending : flash.control.pending = .program) (next : Flash)
      (programs : flash.Programs offset data next) : Wrote flash offset data next
  | begins (pending : flash.control.pending = .writeBufferCount) :
      Wrote flash offset data (flash.beginWriteBuffer offset data)
  | collects (pending : flash.control.pending = .writeBufferData)
      (unconfirmed : ¬flash.Confirms data) :
      Wrote flash offset data (flash.collectWriteBufferData offset data)
  | confirms (pending : flash.control.pending = .writeBufferData)
      (confirmed : flash.Confirms data) (counted next : Flash)
      (counts : SameButStats flash counted)
      (programs : counted.Programs flash.writeBuffer.base flash.writeBuffer.data next) :
      Wrote flash offset data next.clearWriteBuffer
  | erases (pending : flash.control.pending = .erase)
      (acknowledged : data.getD 0 0 = cmdBlockEraseAck) (counted next : Flash)
      (counts : SameButStats flash.invalidateDmi counted)
      (stored : Stored counted (flash.array.fillSector offset).bytes next) :
      Wrote flash offset data next
  | locks (pending : flash.control.pending = .lock)
      (acknowledged : data.getD 0 0 = cmdLockBlock ∨ data.getD 0 0 = cmdBlockEraseAck)
      (counted : Flash) (counts : SameButStats flash.invalidateDmi counted) :
      Wrote flash offset data counted.ready
  | starts (pending : flash.control.pending = .none ∨ flash.control.pending = .erase ∨
        flash.control.pending = .lock)
      (other : ¬Acknowledges flash.control.pending (data.getD 0 0))
      (counted : Flash) (counts : SameButStats (flash.invalidateDmi.setPending .none) counted) :
      Wrote flash offset data (counted.startCommand (data.getD 0 0))

theorem programs_of_program (tracked : flash.array.Tracked) {offset : Nat} {data : List Byte}
    (some : data ≠ []) (inside : offset + data.length ≤ flash.array.size) :
    ∃ next, flash.program offset data = Option.some next ∧ flash.Programs offset data next := by
  obtain ⟨bytes, next, programmed, stored, exact⟩ := program_stored tracked some inside
  exact ⟨next, programmed, bytes, stored, exact⟩

/-- What invalidation changes. -/
theorem invalidateDmi_cases (flash : Flash) :
    flash.invalidateDmi = flash ∨
      ∃ stats, flash.invalidateDmi =
        { flash with stats := stats, dmiGranted := false, grants := [] } := by
  unfold invalidateDmi
  split
  · exact Or.inl rfl
  · exact Or.inr ⟨_, rfl⟩

theorem invalidateDmi_array (flash : Flash) : flash.invalidateDmi.array = flash.array := by
  rcases flash.invalidateDmi_cases with same | ⟨stats, same⟩
  · rw [same]
  · rw [same]

theorem invalidateDmi_backing (flash : Flash) : flash.invalidateDmi.backing = flash.backing := by
  rcases flash.invalidateDmi_cases with same | ⟨stats, same⟩
  · rw [same]
  · rw [same]

theorem invalidateDmi_writeBuffer (flash : Flash) :
    flash.invalidateDmi.writeBuffer = flash.writeBuffer := by
  rcases flash.invalidateDmi_cases with same | ⟨stats, same⟩
  · rw [same]
  · rw [same]

theorem invalidateDmi_control (flash : Flash) : flash.invalidateDmi.control = flash.control := by
  rcases flash.invalidateDmi_cases with same | ⟨stats, same⟩
  · rw [same]
  · rw [same]

theorem sameButStats_recordCommand (flash : Flash) (command : Byte) :
    SameButStats flash (flash.recordCommand command) := ⟨_, rfl⟩

theorem confirms_iff {data : List Byte} :
    (flash.writeBufferComplete && data.length == 1 && data.getD 0 0 == cmdBlockEraseAck) = true ↔
      flash.Confirms data := by
  rw [Bool.and_eq_true, Bool.and_eq_true, beq_iff_eq, beq_iff_eq, Confirms, and_assoc]
  refine and_congr_right fun _ => ?_
  constructor
  · rintro ⟨single, command⟩
    obtain ⟨value, rfl⟩ := List.length_eq_one_iff.mp single
    rw [List.getD_cons_zero] at command
    rw [command]
  · rintro rfl
    exact ⟨rfl, rfl⟩

theorem buffer_ne_nil (marked : flash.writeBuffer.written.length = flash.writeBuffer.data.length)
    (complete : flash.writeBufferComplete = true) : flash.writeBuffer.data ≠ [] := by
  intro none
  rw [none, List.length_nil, List.length_eq_zero_iff] at marked
  rw [writeBufferComplete, marked] at complete
  cases complete

theorem confirmWriteBuffer_wrote (wellFormed : flash.WellFormed)
    (pending : flash.control.pending = .writeBufferData) {offset : Nat} {data : List Byte}
    (confirmed : flash.Confirms data) :
    ∃ next, flash.confirmWriteBuffer = some next ∧ Wrote flash offset data next := by
  obtain ⟨next, programmed, programs⟩ := @programs_of_program
    (((flash.count .writeBufferConfirmCmds 1).count .writeBufferOps 1).count
      .writeBufferBytes flash.writeBuffer.data.length)
    wellFormed.tracked _ _ (buffer_ne_nil wellFormed.marked confirmed.1)
      (wellFormed.buffered pending)
  refine ⟨next.clearWriteBuffer, ?_, Wrote.confirms pending confirmed _ next ⟨_, rfl⟩ programs⟩
  have complete : (flash.count .writeBufferConfirmCmds 1).writeBufferComplete = true :=
    confirmed.1
  unfold confirmWriteBuffer
  dsimp only
  rw [if_pos complete]
  exact congrArg (Option.map clearWriteBuffer) programmed

theorem handleCommand_wrote (tracked : flash.array.Tracked)
    (pending : flash.control.pending = .none ∨ flash.control.pending = .erase ∨
      flash.control.pending = .lock) {offset : Nat} {data : List Byte}
    (inside : offset < flash.array.size) {next : Flash}
    (handled : flash.invalidateDmi.handleCommand offset (data.getD 0 0) = some next) :
    Wrote flash offset data next := by
  have control : (flash.invalidateDmi.recordCommand (data.getD 0 0)).control = flash.control :=
    flash.invalidateDmi_control
  have starting : SameButStats (flash.invalidateDmi.setPending .none)
      ((flash.invalidateDmi.recordCommand (data.getD 0 0)).setPending .none) := ⟨_, rfl⟩
  unfold handleCommand at handled
  dsimp only at handled
  rw [control] at handled
  rcases pending with none | erase | lock
  · rw [none] at handled
    have idle : (flash.invalidateDmi.recordCommand (data.getD 0 0)).setPending .none =
        flash.invalidateDmi.recordCommand (data.getD 0 0) := by
      rw [setPending, ← none, ← control]
    rw [← idle] at handled
    rw [← Option.some.inj handled]
    refine Wrote.starts (Or.inl none) ?_ _ starting
    rintro (⟨erase, -⟩ | ⟨lock, -⟩)
    · cases none.symm.trans erase
    · cases none.symm.trans lock
  · rw [erase] at handled
    dsimp only at handled
    split at handled
    · next acknowledged =>
      have array := flash.invalidateDmi_array
      have nonzero : (flash.invalidateDmi.recordCommand
          (data.getD 0 0)).array.sectorSize ≠ 0 := by
        intro zero
        rw [eraseSector, if_pos zero] at handled
        cases handled
      obtain ⟨erased, defined, stored⟩ := @eraseSector_stored
        (flash.invalidateDmi.recordCommand (data.getD 0 0)) (array.symm ▸ tracked) nonzero
        offset (array.symm ▸ inside)
      rw [← Option.some.inj (defined.symm.trans handled)]
      rw [show (flash.invalidateDmi.recordCommand (data.getD 0 0)).array = flash.array from array]
        at stored
      exact Wrote.erases erase acknowledged _ erased (sameButStats_recordCommand _ _) stored
    · next other =>
      rw [← Option.some.inj handled]
      refine Wrote.starts (Or.inr (Or.inl erase)) ?_ _ starting
      rintro (⟨-, command⟩ | ⟨lock, -⟩)
      · exact other command
      · cases erase.symm.trans lock
  · rw [lock] at handled
    dsimp only at handled
    split at handled
    · next acknowledged =>
      rw [← Option.some.inj handled]
      exact Wrote.locks lock acknowledged _ (sameButStats_recordCommand _ _)
    · next other =>
      rw [← Option.some.inj handled]
      refine Wrote.starts (Or.inr (Or.inr lock)) ?_ _ starting
      rintro (⟨erase, -⟩ | ⟨-, command⟩)
      · cases lock.symm.trans erase
      · exact other command

/-- The outcome of an accepted write is one of those above. -/
theorem write_wrote (wellFormed : flash.WellFormed) {offset : Nat} {data : List Byte}
    (some : data ≠ []) (inside : offset + data.length ≤ flash.array.size) {next : Flash}
    (written : flash.write offset data = Option.some next) : Wrote flash offset data next := by
  have positive := List.length_pos_iff.mpr some
  unfold write at written
  split at written
  · next pending =>
    obtain ⟨programmed, defined, programs⟩ := programs_of_program wellFormed.tracked some inside
    rw [← Option.some.inj (defined.symm.trans written)]
    exact Wrote.programs pending programmed programs
  · next notProgram =>
    split at written
    · next pending =>
      rw [← Option.some.inj written]
      exact Wrote.begins pending
    · next notCount =>
      split at written
      · next pending =>
        split at written
        · next confirmed =>
          obtain ⟨programmed, defined, wrote⟩ :=
            confirmWriteBuffer_wrote wellFormed pending (confirms_iff.mp confirmed)
          rw [← Option.some.inj (defined.symm.trans written)]
          exact wrote
        · next unconfirmed =>
          rw [← Option.some.inj written]
          exact Wrote.collects pending fun confirmed => unconfirmed (confirms_iff.mpr confirmed)
      · next notData =>
        apply handleCommand_wrote wellFormed.tracked _ _ written
        · cases pending : flash.control.pending with
          | none => exact Or.inl rfl
          | program => exact absurd pending notProgram
          | writeBufferCount => exact absurd pending notCount
          | writeBufferData => exact absurd pending notData
          | erase => exact Or.inr (Or.inl rfl)
          | lock => exact Or.inr (Or.inr rfl)
        · omega

/-- Every accepted write has an outcome, unless it erases without sectors. -/
theorem write_defined (wellFormed : flash.WellFormed) {offset : Nat} {data : List Byte}
    (sectors : flash.control.pending = .erase → data.getD 0 0 = cmdBlockEraseAck →
      flash.array.sectorSize ≠ 0)
    (some : data ≠ []) (inside : offset + data.length ≤ flash.array.size) :
    ∃ next, flash.write offset data = Option.some next := by
  have positive := List.length_pos_iff.mpr some
  have array := flash.invalidateDmi_array
  unfold write
  split
  · obtain ⟨programmed, defined, -⟩ := programs_of_program wellFormed.tracked some inside
    exact ⟨programmed, defined⟩
  · split
    · exact ⟨_, rfl⟩
    · split
      · next pending =>
        split
        · next confirmed =>
          obtain ⟨programmed, defined, -⟩ := @confirmWriteBuffer_wrote flash
            wellFormed pending offset data (confirms_iff.mp confirmed)
          exact ⟨programmed, defined⟩
        · exact ⟨_, rfl⟩
      · unfold handleCommand
        dsimp only
        split
        · exact ⟨_, rfl⟩
        · exact ⟨_, rfl⟩
        · exact ⟨_, rfl⟩
        · exact ⟨_, rfl⟩
        · next pending =>
          split
          · next acknowledged =>
            have nonzero := sectors (flash.invalidateDmi_control ▸ pending) acknowledged
            obtain ⟨erased, defined, -⟩ := @eraseSector_stored
              (flash.invalidateDmi.recordCommand (data.getD 0 0))
              (array.symm ▸ wellFormed.tracked)
              (show flash.invalidateDmi.array.sectorSize ≠ 0 from array.symm ▸ nonzero) offset
              (show offset < flash.invalidateDmi.array.size from array.symm ▸ by omega)
            exact ⟨erased, defined⟩
          · exact ⟨_, rfl⟩
        · split
          · exact ⟨_, rfl⟩
          · exact ⟨_, rfl⟩

/-- Two flashes that differ in their command state, their write buffer and their statistics. -/
structure SameStorage (before after : Flash) : Prop where
  params : after.params = before.params
  array : after.array = before.array
  dmiGranted : after.dmiGranted = before.dmiGranted
  grants : after.grants = before.grants
  backing : after.backing = before.backing

theorem SameButStats.sameStorage {before after : Flash} (counts : SameButStats before after) :
    SameStorage before after := by
  obtain ⟨stats, rfl⟩ := counts
  exact ⟨rfl, rfl, rfl, rfl, rfl⟩

theorem sameStorage_startCommand (flash : Flash) (command : Byte) :
    SameStorage flash (flash.startCommand command) := by
  constructor
  · simp only [startCommand, apply_ite Flash.params, setMode, setPending, clearWriteBuffer,
      ite_self]
  · simp only [startCommand, apply_ite Flash.array, setMode, setPending, clearWriteBuffer,
      ite_self]
  · simp only [startCommand, apply_ite Flash.dmiGranted, setMode, setPending, clearWriteBuffer,
      ite_self]
  · simp only [startCommand, apply_ite Flash.grants, setMode, setPending, clearWriteBuffer,
      ite_self]
  · simp only [startCommand, apply_ite Flash.backing, setMode, setPending, clearWriteBuffer,
      ite_self]

/-- The write buffer is left alone, or cleared by the command that asks for one. -/
theorem startCommand_writeBuffer (flash : Flash) (command : Byte) :
    (flash.startCommand command).writeBuffer = flash.writeBuffer ∨
      (flash.startCommand command).writeBuffer = ⟨0, [], []⟩ := by
  by_cases buffer : command = cmdWriteToBuffer
  · right
    rw [buffer]
    rfl
  · left
    simp only [startCommand, apply_ite Flash.writeBuffer, setMode, setPending, if_neg buffer,
      ite_self]

/-- The control after a command of its own. -/
def startedControl (control : Control) (command : Byte) : Control :=
  if command = cmdReadArray then { control with mode := .readArray }
  else if command = cmdReadIdCode then { control with mode := .readId }
  else if command = cmdReadQuery then { control with mode := .readQuery }
  else if command = cmdReadStatusReg ∨ command = cmdClearStatusReg then
    { control with mode := .readStatus, status := statusReady }
  else if command = cmdWriteToBuffer then ⟨.readStatus, .writeBufferCount, statusReady⟩
  else if command = cmdWordProgram then { control with pending := .program }
  else if command = cmdBlockErase then { control with pending := .erase }
  else if command = cmdLockUnlock then { control with pending := .lock }
  else { control with mode := .readArray, pending := .none }

theorem startCommand_control (flash : Flash) (command : Byte) :
    (flash.startCommand command).control = startedControl flash.control command := by
  simp only [startCommand, startedControl, apply_ite Flash.control, setMode, setPending]

/-- The command that starts with a pending one. -/
def pendingCommand : PendingCommand → Byte
  | .program => cmdWordProgram
  | .writeBufferCount => cmdWriteToBuffer
  | .erase => cmdBlockErase
  | .lock => cmdLockUnlock
  | _ => 0

/-- From an idle flash a command leaves nothing pending but itself. -/
theorem startedControl_pending {control : Control} (idle : control.pending = .none)
    (command : Byte) :
    (startedControl control command).pending = .none ∨
      ((startedControl control command).pending ≠ .writeBufferData ∧
        command = pendingCommand (startedControl control command).pending) := by
  unfold startedControl
  split
  · exact Or.inl idle
  · split
    · exact Or.inl idle
    · split
      · exact Or.inl idle
      · split
        · exact Or.inl idle
        · split
          · next buffer => exact Or.inr ⟨nofun, buffer⟩
          · split
            · next program => exact Or.inr ⟨nofun, program⟩
            · split
              · next erase => exact Or.inr ⟨nofun, erase⟩
              · split
                · next lock => exact Or.inr ⟨nofun, lock⟩
                · exact Or.inl rfl

theorem sameStorage_beginWriteBuffer (flash : Flash) (offset : Nat) (data : List Byte) :
    SameStorage flash (flash.beginWriteBuffer offset data) := by
  unfold beginWriteBuffer
  dsimp only
  split
  · exact ⟨rfl, rfl, rfl, rfl, rfl⟩
  · exact ⟨rfl, rfl, rfl, rfl, rfl⟩

theorem sameStorage_collectWriteBufferData (flash : Flash) (offset : Nat) (data : List Byte) :
    SameStorage flash (flash.collectWriteBufferData offset data) := by
  unfold collectWriteBufferData
  dsimp only
  split
  · exact ⟨rfl, rfl, rfl, rfl, rfl⟩
  · split
    · exact ⟨rfl, rfl, rfl, rfl, rfl⟩
    · exact ⟨rfl, rfl, rfl, rfl, rfl⟩

theorem length_overwrite {Item : Type} (items : List Item) (position : Nat) (data : List Item) :
    (overwrite items position data).length = items.length := List.length_mapIdx

/-- What the end of a write says about the array: the same bytes, or those of a stored command. -/
theorem Wrote.array {offset : Nat} {data : List Byte} {next : Flash}
    (wrote : Wrote flash offset data next) :
    next.array = flash.array ∨
      ∃ changed bytes stored, changed.array = flash.array ∧ Stored changed bytes stored ∧
        next.array = stored.array := by
  cases wrote with
  | programs pending next programs =>
      obtain ⟨bytes, stored, -⟩ := programs
      exact Or.inr ⟨flash, bytes, next, rfl, stored, rfl⟩
  | begins pending => exact Or.inl (sameStorage_beginWriteBuffer flash offset data).array
  | collects pending unconfirmed =>
      exact Or.inl (sameStorage_collectWriteBufferData flash offset data).array
  | confirms pending confirmed counted next counts programs =>
      obtain ⟨bytes, stored, -⟩ := programs
      exact Or.inr ⟨counted, bytes, next, counts.sameStorage.array, stored, rfl⟩
  | erases pending acknowledged counted next counts stored =>
      exact Or.inr ⟨counted, _, next, counts.sameStorage.array.trans flash.invalidateDmi_array,
        stored, rfl⟩
  | locks pending acknowledged counted counts =>
      exact Or.inl (counts.sameStorage.array.trans flash.invalidateDmi_array)
  | starts pending other counted counts =>
      exact Or.inl ((sameStorage_startCommand counted _).array.trans
        (counts.sameStorage.array.trans flash.invalidateDmi_array))

theorem Wrote.size {offset : Nat} {data : List Byte} {next : Flash}
    (wrote : Wrote flash offset data next) : next.array.size = flash.array.size := by
  rcases wrote.array with same | ⟨changed, bytes, stored, same, ends, after⟩
  · rw [same]
  · rw [after, ends.contents.size, ← same]

theorem Wrote.tracked {offset : Nat} {data : List Byte} {next : Flash}
    (wrote : Wrote flash offset data next) (before : flash.array.Tracked) :
    next.array.Tracked := by
  rcases wrote.array with same | ⟨changed, bytes, stored, same, ends, after⟩
  · rwa [same]
  · rw [after]
    exact ends.tracked (same.symm ▸ before)

/-- A flash with nothing pending and with a consistent buffer. -/
theorem wellFormed_of_idle (tracked : flash.array.Tracked)
    (idle : flash.control.pending = .none)
    (marked : flash.writeBuffer.written.length = flash.writeBuffer.data.length) :
    flash.WellFormed := by
  refine ⟨tracked, ?_, marked, ?_⟩
  · intro pending
    cases idle.symm.trans pending
  · rintro (pending | pending)
    · cases idle.symm.trans pending
    · cases idle.symm.trans pending

theorem wellFormed_startCommand (idle : flash.control.pending = .none) {command : Byte}
    (tracked : (flash.startCommand command).array.Tracked)
    (marked : flash.writeBuffer.written.length = flash.writeBuffer.data.length) :
    (flash.startCommand command).WellFormed := by
  have control := flash.startCommand_control command
  have cases := startedControl_pending idle command
  rw [← control] at cases
  refine ⟨tracked, ?_, ?_, ?_⟩
  · intro pending
    rcases cases with none | ⟨other, -⟩
    · cases none.symm.trans pending
    · exact absurd pending other
  · rcases flash.startCommand_writeBuffer command with same | cleared
    · rw [same]
      exact marked
    · rw [cleared]
      rfl
  · intro pending
    rcases cases with none | ⟨other, started⟩
    · rw [none] at pending
      rcases pending with pending | pending
      · cases pending
      · cases pending
    · have count := pending.resolve_right other
      rw [count] at started
      rw [started]
      rfl

theorem wellFormed_beginWriteBuffer (tracked : flash.array.Tracked) (offset : Nat)
    (data : List Byte) : (flash.beginWriteBuffer offset data).WellFormed := by
  unfold beginWriteBuffer
  dsimp only
  split
  · exact wellFormed_of_idle tracked rfl rfl
  · next accepted =>
    obtain ⟨-, -, inside⟩ := by simpa only [not_or] using accepted
    refine ⟨tracked, fun _ => ?_, ?_, fun _ => rfl⟩
    · dsimp only
      rw [List.length_replicate]
      exact FlashArray.inRange_iff.mp (by simpa using inside)
    · dsimp only
      rw [List.length_replicate, List.length_replicate]

theorem wellFormed_collectWriteBufferData (wellFormed : flash.WellFormed)
    (pending : flash.control.pending = .writeBufferData) (offset : Nat) (data : List Byte) :
    (flash.collectWriteBufferData offset data).WellFormed := by
  unfold collectWriteBufferData
  dsimp only
  split
  · exact wellFormed_of_idle wellFormed.tracked rfl rfl
  · split
    · exact wellFormed_of_idle wellFormed.tracked rfl rfl
    · refine ⟨wellFormed.tracked, fun _ => ?_, ?_, fun _ => rfl⟩
      · dsimp only [count]
        rw [length_overwrite]
        exact wellFormed.buffered pending
      · dsimp only [count]
        rw [length_overwrite, length_overwrite]
        exact wellFormed.marked

theorem Wrote.wellFormed {offset : Nat} {data : List Byte} {next : Flash}
    (wrote : Wrote flash offset data next) (before : flash.WellFormed) : next.WellFormed := by
  have tracked := wrote.tracked before.tracked
  cases wrote with
  | programs pending next programs =>
      obtain ⟨bytes, stored, -⟩ := programs
      obtain ⟨-, control, buffer, -, -⟩ := stored.frame
      exact wellFormed_of_idle tracked (by rw [control]) (by rw [buffer]; exact before.marked)
  | begins pending => exact wellFormed_beginWriteBuffer before.tracked offset data
  | collects pending unconfirmed =>
      exact wellFormed_collectWriteBufferData before pending offset data
  | confirms pending confirmed counted next counts programs =>
      obtain ⟨bytes, stored, -⟩ := programs
      obtain ⟨-, control, -, -, -⟩ := stored.frame
      exact wellFormed_of_idle tracked (congrArg Control.pending control) rfl
  | erases pending acknowledged counted next counts stored =>
      obtain ⟨-, control, buffer, -, -⟩ := stored.frame
      obtain ⟨stats, rfl⟩ := counts
      refine wellFormed_of_idle tracked (by rw [control]) ?_
      rw [buffer, flash.invalidateDmi_writeBuffer]
      exact before.marked
  | locks pending acknowledged counted counts =>
      obtain ⟨stats, rfl⟩ := counts
      refine wellFormed_of_idle tracked rfl ?_
      rw [ready, flash.invalidateDmi_writeBuffer]
      exact before.marked
  | starts pending other counted counts =>
      obtain ⟨stats, rfl⟩ := counts
      exact wellFormed_startCommand rfl tracked
        (by rw [setPending, flash.invalidateDmi_writeBuffer]; exact before.marked)

end Flash

end QboxPlatform.StrataFlash
