import QboxPlatform.StrataFlash.Accesses

/-!
# The contents of the array over whole runs

A byte changes only by programming and by erasing.  The accepted writes are recorded along the
run, so that the commands in force can be told from the writes before.
-/

namespace QboxPlatform.StrataFlash

open Foundation

namespace FlashArray

instance (array : FlashArray) (index position : Nat) :
    Decidable (array.InSector index position) := inferInstanceAs (Decidable (_ ∧ _))

end FlashArray

namespace Flash

variable {flash : Flash}

/-- In every reachable flash the flagged sectors are erased, and erasing a sector leaves the
bytes that filling it does. -/
theorem sectorErased_sound {config : FlashConfig} {events : List FlashEvent}
    (reached : run step (start config) events = some flash) :
    flash.array.ensureSectorErasedMap.Sound ∧
      ∀ offset, offset < flash.array.size → flash.array.sectorSize ≠ 0 →
        ∃ next, flash.eraseSector offset = some next ∧ next.array.size = flash.array.size ∧
          next.array.bytes = (flash.array.fillSector offset).bytes := by
  have tracked := (wellFormed_reachable reached).tracked
  refine ⟨(FlashArray.tracked_ensure tracked).sound, ?_⟩
  intro offset inside nonzero
  obtain ⟨next, erased, stored⟩ := eraseSector_stored tracked nonzero inside
  exact ⟨next, erased, stored.contents.size, stored.contents.bytes⟩

theorem sectorErased_sound_loaded :
    ∃ flash, run step (start (smallConfig "" ⟨0, fun _ => 0⟩)) [.load 5 [0x00, 0xff]] =
        some flash ∧ flash.array.ensureSectorErasedMap.Sound ∧
      ∃ next, flash.eraseSector 6 = some next ∧ next.array.size = flash.array.size ∧
        next.array.bytes = (flash.array.fillSector 6).bytes := by
  have sound := @sectorErased_sound _ (smallConfig "" ⟨0, fun _ => 0⟩) [.load 5 [0x00, 0xff]] rfl
  exact ⟨_, rfl, sound.1, sound.2 6 (by decide) (by decide)⟩

/-- Bytes that are programmed keep their zeros. -/
def andBytes (bytes : Image) (offset : Nat) (data : List Byte) : Image := fun position =>
  if offset ≤ position ∧ position < offset + data.length then
    bytes position &&& data.getD (position - offset) 0
  else bytes position

instance (access : Access) : Decidable (flash.accepts access) :=
  inferInstanceAs (Decidable (_ ∧ _))

instance (data : List Byte) : Decidable (flash.Confirms data) :=
  inferInstanceAs (Decidable (_ ∧ _))

/-- The bytes that an accepted write leaves: a word program and the confirmation of a complete
write buffer program, the confirmation of a block erase fills the sector. -/
def writtenBytes (flash : Flash) (offset : Nat) (data : List Byte) : Image :=
  match flash.control.pending with
  | .program => andBytes flash.array.bytes offset data
  | .writeBufferData =>
      if flash.Confirms data then
        andBytes flash.array.bytes flash.writeBuffer.base flash.writeBuffer.data
      else flash.array.bytes
  | .erase =>
      if data.getD 0 0 = cmdBlockEraseAck then fun position =>
        if flash.array.InSector (flash.array.sectorIndex offset) position then 0xff
        else flash.array.bytes position
      else flash.array.bytes
  | _ => flash.array.bytes

/-- The bytes that an access leaves. -/
def accessedBytes (flash : Flash) (access : Access) : Image :=
  match access with
  | .write offset data =>
      if flash.accepts access then flash.ensureStorage.writtenBytes offset.toNat data
      else flash.ensureStorage.array.bytes
  | _ => flash.ensureStorage.array.bytes

theorem programmedBytes_eq_andBytes (noSet : flash.params.programFfSetsBits = false)
    (offset : Nat) (data : List Byte) :
    flash.programmedBytes offset data = andBytes flash.array.bytes offset data := by
  funext position
  unfold programmedBytes andBytes programmedByte
  rw [noSet]
  simp only [Bool.false_eq_true, false_and, if_false]

theorem Programs.bytes {offset : Nat} {data : List Byte} {next : Flash}
    (programs : flash.Programs offset data next)
    (noSet : flash.params.programFfSetsBits = false)
    (noErase : flash.params.programFfErasesSector = false) :
    next.array.bytes = andBytes flash.array.bytes offset data := by
  obtain ⟨bytes, stored, exact⟩ := programs
  have general : flash.isSectorAlignedProgramFfErase offset data = false := by
    rw [isSectorAlignedProgramFfErase, noErase]
    rfl
  rw [stored.contents.bytes, exact general, programmedBytes_eq_andBytes noSet]

theorem fillSector_bytes (array : FlashArray) (nonzero : array.sectorSize ≠ 0) {offset : Nat}
    (inside : offset < array.size) :
    (array.fillSector offset).bytes = fun position =>
      if array.InSector (array.sectorIndex offset) position then 0xff
      else array.bytes position := by
  funext position
  unfold FlashArray.fillSector FlashArray.fill
  simp only [FlashArray.mem_fillSector nonzero inside position]

theorem Wrote.bytes {offset : Nat} {data : List Byte} {next : Flash}
    (wrote : Wrote flash offset data next) (noSet : flash.params.programFfSetsBits = false)
    (noErase : flash.params.programFfErasesSector = false)
    (sectors : flash.control.pending = .erase → data.getD 0 0 = cmdBlockEraseAck →
      flash.array.sectorSize ≠ 0) (inside : offset < flash.array.size) :
    next.array.bytes = flash.writtenBytes offset data := by
  unfold writtenBytes
  cases wrote with
  | programs pending next programs =>
      rw [pending]
      exact programs.bytes noSet noErase
  | begins pending =>
      rw [pending, (sameStorage_beginWriteBuffer flash offset data).array]
  | collects pending unconfirmed =>
      rw [pending, (sameStorage_collectWriteBufferData flash offset data).array]
      exact (if_neg unconfirmed).symm
  | confirms pending confirmed counted next counts programs =>
      rw [pending]
      obtain ⟨stats, rfl⟩ := counts
      exact (programs.bytes noSet noErase).trans (if_pos confirmed).symm
  | erases pending acknowledged counted next counts stored =>
      rw [pending, stored.contents.bytes]
      have nonzero := sectors pending acknowledged
      exact (fillSector_bytes flash.array nonzero inside).trans (if_pos acknowledged).symm
  | locks pending acknowledged counted counts =>
      rw [pending]
      exact congrArg FlashArray.bytes (counts.sameStorage.array.trans flash.invalidateDmi_array)
  | starts pending other counted counts =>
      have same : (counted.startCommand (data.getD 0 0)).array.bytes = flash.array.bytes :=
        congrArg FlashArray.bytes ((sameStorage_startCommand counted _).array.trans
          (counts.sameStorage.array.trans flash.invalidateDmi_array))
      rw [same]
      rcases pending with none | erase | lock
      · rw [none]
      · rw [erase]
        refine (if_neg fun command => other ?_).symm
        exact Or.inl ⟨erase, command⟩
      · rw [lock]

/-- An accepted write. -/
structure FlashWrite where
  offset : Nat
  data : List Byte

/-- The byte that a write has for an address. -/
def FlashWrite.byteAt (write : FlashWrite) (position : Nat) : Option Byte :=
  if write.offset ≤ position then write.data[position - write.offset]? else none

/-- The byte that the last of some writes has for an address. -/
def lastWritten (writes : List FlashWrite) (position : Nat) : Option Byte :=
  writes.foldl (fun latest write => (write.byteAt position).or latest) none

def acceptedWrite (flash : Flash) : FlashEvent → List FlashWrite
  | .access (.write offset data) _ =>
      if flash.accepts (.write offset data) then [⟨offset.toNat, data⟩] else []
  | _ => []

/-- The step of a flash that comes with the accepted writes so far. -/
def recordedStep (state : Flash × List FlashWrite) (event : FlashEvent) :
    Option (Flash × List FlashWrite) :=
  (state.1.step event).map fun next => (next, state.2 ++ state.1.acceptedWrite event)

/-- The last write is a command. -/
def EndsWith (writes : List FlashWrite) (command : Byte) : Prop :=
  ∃ earlier write, writes = earlier ++ [write] ∧ write.data.head? = some command

/-- The writes end with a write-to-buffer command, its count and the data of the buffer. -/
def EndsWithBuffer (writes : List FlashWrite) (buffer : WriteBuffer) : Prop :=
  ∃ earlier command count collected number,
    writes = earlier ++ [command, count] ++ collected ∧
      command.data.head? = some cmdWriteToBuffer ∧ count.offset = buffer.base ∧
      count.data.head? = some number ∧ buffer.data.length = number.toNat + 1 ∧
      ∀ index < buffer.data.length, buffer.written.getD index false = true →
        lastWritten collected (buffer.base + index) = some (buffer.data.getD index 0)

/-- What is pending follows from the writes before. -/
structure Follows (flash : Flash) (writes : List FlashWrite) : Prop where
  program : flash.control.pending = .program → EndsWith writes cmdWordProgram
  erase : flash.control.pending = .erase → EndsWith writes cmdBlockErase
  writeBufferCount : flash.control.pending = .writeBufferCount → EndsWith writes cmdWriteToBuffer
  writeBufferData : flash.control.pending = .writeBufferData →
    EndsWithBuffer writes flash.writeBuffer

theorem follows_of_idle (idle : flash.control.pending = .none) (writes : List FlashWrite) :
    flash.Follows writes := by
  constructor
  · intro pending
    cases idle.symm.trans pending
  · intro pending
    cases idle.symm.trans pending
  · intro pending
    cases idle.symm.trans pending
  · intro pending
    cases idle.symm.trans pending

theorem Follows.congr {writes : List FlashWrite} (follows : flash.Follows writes) {next : Flash}
    (control : next.control = flash.control) (buffer : next.writeBuffer = flash.writeBuffer) :
    next.Follows writes := by
  constructor
  · rw [control]
    exact follows.program
  · rw [control]
    exact follows.erase
  · rw [control]
    exact follows.writeBufferCount
  · rw [control, buffer]
    exact follows.writeBufferData

theorem lastWritten_append (writes : List FlashWrite) (write : FlashWrite) (position : Nat) :
    lastWritten (writes ++ [write]) position =
      (write.byteAt position).or (lastWritten writes position) := by
  rw [lastWritten, List.foldl_append]
  rfl

theorem getD_overwrite {Item : Type} (items data : List Item) (position index : Nat)
    (default : Item) (inside : index < items.length) :
    (overwrite items position data).getD index default =
      if position ≤ index then data.getD (index - position) (items.getD index default)
      else items.getD index default := by
  rw [List.getD_eq_getElem _ _ (by rwa [length_overwrite]), List.getD_eq_getElem _ _ inside]
  exact List.getElem_mapIdx

theorem head?_eq_some {data : List Byte} (some : data ≠ []) :
    data.head? = Option.some (data.getD 0 0) := by
  cases data with
  | nil => exact absurd rfl some
  | cons value rest => rfl

theorem follows_beginWriteBuffer {writes : List FlashWrite}
    (count : EndsWith writes cmdWriteToBuffer) (offset : Nat) {data : List Byte}
    (some : data ≠ []) :
    (flash.beginWriteBuffer offset data).Follows (writes ++ [⟨offset, data⟩]) := by
  unfold beginWriteBuffer
  dsimp only
  split
  · exact follows_of_idle rfl _
  · refine ⟨nofun, nofun, nofun, fun _ => ?_⟩
    obtain ⟨earlier, command, rfl, started⟩ := count
    refine ⟨earlier, command, ⟨offset, data⟩, [], data.getD 0 0, ?_, started, rfl,
      head?_eq_some some, ?_, ?_⟩
    · rw [List.append_assoc, List.append_nil]
      rfl
    · rw [List.length_replicate, countValue, if_neg some]
    · intro index inside written
      rw [List.length_replicate] at inside
      rw [List.getD_replicate _ inside] at written
      cases written

/-- What the buffer has for an address after some data were copied into it. -/
theorem getD_collected {Item : Type} (items : List Item) (value : Byte → Item) (default : Item)
    {base offset relative index : Nat} (data : List Byte) (start : offset = base + relative)
    (inside : index < items.length) :
    (overwrite items relative ((data.take (items.length - relative)).map value)).getD index
        default =
      ((⟨offset, data⟩ : FlashWrite).byteAt (base + index)).elim (items.getD index default)
        value := by
  rw [getD_overwrite _ _ _ _ _ inside, FlashWrite.byteAt, start, Nat.add_sub_add_left]
  simp only [Nat.add_le_add_iff_left]
  split
  · next reached =>
    have short : index - relative < items.length - relative :=
      Nat.sub_lt_sub_right reached inside
    rw [List.getD_eq_getElem?_getD, List.getElem?_map, List.getElem?_take_of_lt short]
    cases data[index - relative]? with
    | none => rfl
    | some byte => rfl
  · rfl

theorem collected_byte {collected : List FlashWrite} {buffer : WriteBuffer}
    {offset relative index : Nat} {data : List Byte} (base : offset = buffer.base + relative)
    (inside : index < buffer.data.length)
    (marked : buffer.written.length = buffer.data.length)
    (before : buffer.written.getD index false = true →
      lastWritten collected (buffer.base + index) = some (buffer.data.getD index 0))
    (written : (overwrite buffer.written relative
      ((data.take (buffer.data.length - relative)).map fun _ => true)).getD index false = true) :
    lastWritten (collected ++ [⟨offset, data⟩]) (buffer.base + index) =
      some ((overwrite buffer.data relative
        (data.take (buffer.data.length - relative))).getD index 0) := by
  have copied := getD_collected buffer.data id 0 data base inside
  have flagged := getD_collected buffer.written (fun _ => true) false data base
    (marked.symm ▸ inside)
  rw [List.map_id] at copied
  rw [marked, written] at flagged
  rw [lastWritten_append, copied]
  cases byte : (⟨offset, data⟩ : FlashWrite).byteAt (buffer.base + index) with
  | none =>
      rw [byte] at flagged
      exact before flagged.symm
  | some value => rfl

theorem follows_collectWriteBufferData {writes : List FlashWrite}
    (wellFormed : flash.WellFormed)
    (pending : flash.control.pending = .writeBufferData)
    (collecting : EndsWithBuffer writes flash.writeBuffer) (offset : Nat) (data : List Byte) :
    (flash.collectWriteBufferData offset data).Follows (writes ++ [⟨offset, data⟩]) := by
  unfold collectWriteBufferData
  dsimp only
  split
  · exact follows_of_idle rfl _
  · next started =>
    obtain ⟨-, above, -⟩ := by simpa only [not_or] using started
    split
    · exact follows_of_idle rfl _
    · obtain ⟨earlier, command, count, collected, number, rfl, isCommand, base, isCount, length,
        bytes⟩ := collecting
      refine ⟨?_, ?_, ?_, fun _ => ?_⟩
      · intro other
        cases pending.symm.trans other
      · intro other
        cases pending.symm.trans other
      · intro other
        cases pending.symm.trans other
      · refine ⟨earlier, command, count, collected ++ [⟨offset, data⟩], number, ?_, isCommand,
          base, isCount, (length_overwrite _ _ _).trans length, ?_⟩
        · rw [List.append_assoc _ collected]
        · intro index inside written
          rw [Flash.count, length_overwrite] at inside
          exact collected_byte (Nat.add_sub_of_le (Nat.le_of_not_lt above)).symm inside
            wellFormed.marked (bytes index inside) written

theorem follows_startCommand (idle : flash.control.pending = .none) {offset : Nat}
    {data : List Byte} (some : data ≠ []) (writes : List FlashWrite) :
    (flash.startCommand (data.getD 0 0)).Follows (writes ++ [⟨offset, data⟩]) := by
  have cases := startedControl_pending idle (data.getD 0 0)
  rw [← startCommand_control] at cases
  rcases cases with none | ⟨notData, command⟩
  · exact follows_of_idle none _
  · have ends : EndsWith (writes ++ [⟨offset, data⟩])
        (pendingCommand (flash.startCommand (data.getD 0 0)).control.pending) :=
      ⟨writes, ⟨offset, data⟩, rfl, (head?_eq_some some).trans (congrArg _ command)⟩
    refine ⟨?_, ?_, ?_, fun pending => absurd pending notData⟩
    · intro pending
      rwa [pending] at ends
    · intro pending
      rwa [pending] at ends
    · intro pending
      rwa [pending] at ends

theorem Wrote.follows {offset : Nat} {data : List Byte} {next : Flash}
    (wrote : Wrote flash offset data next) (some : data ≠ []) (wellFormed : flash.WellFormed)
    {writes : List FlashWrite} (before : flash.Follows writes) :
    next.Follows (writes ++ [⟨offset, data⟩]) := by
  cases wrote with
  | programs pending next programs =>
      obtain ⟨bytes, stored, -⟩ := programs
      exact follows_of_idle (congrArg Control.pending stored.frame.2.1) _
  | begins pending => exact follows_beginWriteBuffer (before.writeBufferCount pending) offset some
  | collects pending unconfirmed =>
      exact follows_collectWriteBufferData wellFormed pending (before.writeBufferData pending)
        offset data
  | confirms pending confirmed counted next counts programs =>
      obtain ⟨bytes, stored, -⟩ := programs
      have idle := congrArg Control.pending stored.frame.2.1
      exact @follows_of_idle next.clearWriteBuffer idle _
  | erases pending acknowledged counted next counts stored =>
      exact follows_of_idle (congrArg Control.pending stored.frame.2.1) _
  | locks pending acknowledged counted counts => exact follows_of_idle rfl _
  | starts pending other counted counts =>
      obtain ⟨stats, rfl⟩ := counts
      exact follows_startCommand rfl some writes

theorem acceptedWrite_of_accepts {offset : BitVec 64} {data : List Byte} {debug : Bool}
    (accepted : flash.accepts (.write offset data)) :
    flash.acceptedWrite (.access (.write offset data) debug) = [⟨offset.toNat, data⟩] :=
  if_pos accepted

theorem follows_accessed (wellFormed : flash.WellFormed) {access : Access} {debug : Bool}
    {next : Flash} (accessed : flash.Accessed access next) {writes : List FlashWrite}
    (before : flash.Follows writes) :
    next.Follows (writes ++ flash.acceptedWrite (.access access debug)) := by
  rcases accessed with ⟨looked, refused⟩ | ⟨offset, data, rfl, accepted, written⟩
  · have none : flash.acceptedWrite (.access access debug) = [] := by
      cases access with
      | write offset data => exact if_neg (refused offset data rfl)
      | read offset len => rfl
      | ignore offset len => rfl
    rw [none, List.append_nil]
    exact before.congr looked.sameCore.control looked.sameCore.writeBuffer
  · rw [acceptedWrite_of_accepts accepted]
    obtain ⟨counted, wrote, counts, stored, after⟩ := written
    have ready := counts.looked.sameCore.wellFormed (wellFormed_ensureStorage wellFormed)
    have some := List.length_pos_iff.mp (Nat.pos_of_ne_zero accepted.1)
    obtain ⟨stats, rfl⟩ := counts
    have outcome := write_wrote ready some accepted.2 stored
    have recorded : Follows { flash.ensureStorage with stats := stats } writes :=
      before.congr rfl rfl
    have follows := outcome.follows some ready recorded
    exact follows.congr after.looked.sameCore.control after.looked.sameCore.writeBuffer

/-- Only accesses change what is pending. -/
theorem step_commands {event : FlashEvent} {next : Flash}
    (stepped : flash.step event = some next) :
    (∃ access debug reply, event = .access access debug ∧
        flash.access access debug = some (reply, next)) ∨
      (flash.acceptedWrite event = [] ∧ next.control = flash.control ∧
        next.writeBuffer = flash.writeBuffer) := by
  obtain ⟨⟨output, final⟩, responded, rfl⟩ := Option.map_eq_some_iff.mp stepped
  have flushed := WritesBack.flushDeferredBacking flash
  cases event with
  | access access debug =>
      obtain ⟨⟨reply, next⟩, accessed, same⟩ := Option.map_eq_some_iff.mp responded
      obtain ⟨-, rfl⟩ := Prod.mk.inj same
      exact Or.inl ⟨access, debug, reply, rfl, accessed⟩
  | directMemory command offset len =>
      obtain ⟨-, rfl⟩ := Prod.mk.inj (Option.some.inj responded)
      have same := sameCore_getDirectMemPtr flash command offset.toNat len.toNat
      exact Or.inr ⟨rfl, same.control, same.writeBuffer⟩
  | setDeferBackingWrite enable =>
      obtain ⟨-, rfl⟩ := Prod.mk.inj (Option.some.inj responded)
      exact Or.inr ⟨rfl, flushed.control, flushed.writeBuffer⟩
  | setDeferBackingFlushInterval interval =>
      obtain ⟨-, rfl⟩ := Prod.mk.inj (Option.some.inj responded)
      exact Or.inr ⟨rfl, flushed.control, flushed.writeBuffer⟩
  | setBackingFile path =>
      obtain ⟨-, rfl⟩ := Prod.mk.inj (Option.some.inj responded)
      exact Or.inr ⟨rfl, flushed.control, flushed.writeBuffer⟩
  | _ =>
      obtain ⟨-, rfl⟩ := Prod.mk.inj (Option.some.inj responded)
      exact Or.inr ⟨rfl, rfl, rfl⟩

/-- A flash with the writes it comes from. -/
def Recorded (state : Flash × List FlashWrite) : Prop :=
  state.1.WellFormed ∧ state.1.Follows state.2

theorem recorded_step {state after : Flash × List FlashWrite} {event : FlashEvent}
    (before : Recorded state) (stepped : recordedStep state event = some after) :
    Recorded after := by
  obtain ⟨wellFormed, follows⟩ := before
  obtain ⟨next, moved, rfl⟩ := Option.map_eq_some_iff.mp stepped
  refine ⟨wellFormed_step wellFormed moved, ?_⟩
  rcases step_commands moved with ⟨access, debug, reply, rfl, accessed⟩ |
      ⟨none, control, buffer⟩
  · exact follows_accessed wellFormed (accessed_of_access accessed) follows
  · dsimp only
    rw [none, List.append_nil]
    exact follows.congr control buffer

theorem recorded_reachable {config : FlashConfig} {events : List FlashEvent}
    {writes : List FlashWrite}
    (reached : run recordedStep (start config, []) events = some (flash, writes)) :
    Recorded (flash, writes) :=
  run_invariant (fun _ _ _ => recorded_step)
    ⟨wellFormed_start config, follows_of_idle rfl []⟩ reached

theorem ensureStorage_sectorSize (flash : Flash) :
    flash.ensureStorage.array.sectorSize = flash.array.sectorSize := by
  unfold ensureStorage FlashArray.ensureStorage
  dsimp only
  split
  · rfl
  · rfl

/-- The access confirms a block erase in a flash without sectors. -/
def ErasesWithoutSectors (flash : Flash) (access : Access) : Prop :=
  ∃ offset data, access = .write offset data ∧ flash.accepts access ∧
    flash.control.pending = .erase ∧ data.getD 0 0 = cmdBlockEraseAck ∧
    flash.array.sectorSize = 0

theorem write_defined_counted (wellFormed : flash.WellFormed) {offset : BitVec 64}
    {data : List Byte} (sectors : ¬flash.ErasesWithoutSectors (.write offset data))
    (accepted : flash.accepts (.write offset data)) {counted : Flash}
    (counts : SameButStats flash.ensureStorage counted) :
    ∃ next, counted.write offset.toNat data = some next := by
  have ready := counts.looked.sameCore.wellFormed (wellFormed_ensureStorage wellFormed)
  obtain ⟨stats, rfl⟩ := counts
  apply write_defined ready
  · intro pending acknowledged zero
    rw [ensureStorage_sectorSize] at zero
    exact sectors ⟨offset, data, rfl, accepted, pending, acknowledged, zero⟩
  · exact List.length_pos_iff.mp (Nat.pos_of_ne_zero accepted.1)
  · exact accepted.2

/-- Every access has an outcome, unless it erases without sectors. -/
theorem access_defined (wellFormed : flash.WellFormed) {access : Access}
    (sectors : ¬flash.ErasesWithoutSectors access) (debug : Bool) :
    ∃ reply next, flash.access access debug = some (reply, next) := by
  unfold Flash.access
  split
  · unfold fastAccess
    dsimp only
    split
    · exact ⟨_, _, rfl⟩
    · next accepted =>
      cases access with
      | read offset len => exact ⟨_, _, rfl⟩
      | ignore offset len => exact ⟨_, _, rfl⟩
      | write offset data =>
          obtain ⟨next, written⟩ := write_defined_counted wellFormed sectors
            (accepts_iff.mp accepted) (SameButStats.refl flash.ensureStorage)
          exact ⟨_, _, Option.map_eq_some_iff.mpr ⟨next, written, rfl⟩⟩
  · unfold fullAccess
    dsimp only
    split
    · exact ⟨_, _, rfl⟩
    · next accepted =>
      cases access with
      | read offset len => exact ⟨_, _, rfl⟩
      | ignore offset len => exact ⟨_, _, rfl⟩
      | write offset data =>
          have counts : SameButStats flash.ensureStorage
              ((flash.ensureStorage.count .writeAccesses 1).count .writeBytes data.length) :=
            ⟨_, rfl⟩
          obtain ⟨next, written⟩ := write_defined_counted wellFormed sectors
            (accepts_iff.mp accepted) counts
          exact ⟨_, _, Option.map_eq_some_iff.mpr ⟨next, written, rfl⟩⟩

theorem accessed_bytes (wellFormed : flash.WellFormed)
    (noSet : flash.params.programFfSetsBits = false)
    (noErase : flash.params.programFfErasesSector = false) {access : Access}
    (sectors : ¬flash.ErasesWithoutSectors access) {next : Flash}
    (accessed : flash.Accessed access next) :
    next.array.bytes = flash.accessedBytes access := by
  rcases accessed with ⟨looked, refused⟩ | ⟨offset, data, rfl, accepted, written⟩
  · have kept : flash.accessedBytes access = flash.ensureStorage.array.bytes := by
      cases access with
      | write offset data => exact if_neg (refused offset data rfl)
      | read offset len => rfl
      | ignore offset len => rfl
    rw [kept, looked.sameCore.array]
  · have changed : flash.accessedBytes (.write offset data) =
        flash.ensureStorage.writtenBytes offset.toNat data := if_pos accepted
    obtain ⟨counted, wrote, counts, stored, after⟩ := written
    have ready := counts.looked.sameCore.wellFormed (wellFormed_ensureStorage wellFormed)
    have some := List.length_pos_iff.mp (Nat.pos_of_ne_zero accepted.1)
    have inside : offset.toNat < flash.ensureStorage.array.size :=
      Nat.lt_of_lt_of_le (Nat.lt_add_of_pos_right (Nat.pos_of_ne_zero accepted.1)) accepted.2
    have nonzero : flash.control.pending = .erase → data.getD 0 0 = cmdBlockEraseAck →
        flash.ensureStorage.array.sectorSize ≠ 0 := by
      intro pending acknowledged zero
      rw [ensureStorage_sectorSize] at zero
      exact sectors ⟨offset, data, rfl, accepted, pending, acknowledged, zero⟩
    obtain ⟨stats, rfl⟩ := counts
    have outcome := write_wrote ready some accepted.2 stored
    rw [changed, after.looked.sameCore.array]
    exact outcome.bytes noSet noErase nonzero inside

/-- The law of a NOR flash.  After any run, the next access leaves the bytes of the array alone
unless it programs or confirms an erase, and what is pending follows from the writes before. -/
theorem nor_law {config : FlashConfig} {events : List FlashEvent} {writes : List FlashWrite}
    (reached : run recordedStep (start config, []) events = some (flash, writes))
    (noSet : flash.params.programFfSetsBits = false)
    (noErase : flash.params.programFfErasesSector = false)
    (nonzero : flash.array.sectorSize ≠ 0) (access : Access) (debug : Bool) :
    (∃ reply next, flash.access access debug = some (reply, next) ∧
      next.array.bytes = flash.accessedBytes access) ∧ flash.Follows writes := by
  obtain ⟨wellFormed, follows⟩ := recorded_reachable reached
  have sectors : ¬flash.ErasesWithoutSectors access := by
    rintro ⟨offset, data, write, accepted, pending, acknowledged, zero⟩
    exact nonzero zero
  obtain ⟨reply, next, accessed⟩ := access_defined wellFormed sectors debug
  exact ⟨⟨reply, next, accessed, accessed_bytes wellFormed noSet noErase sectors
    (accessed_of_access accessed)⟩, follows⟩

theorem nor_law_wordProgram :
    ∃ flash writes,
      run recordedStep (start (smallConfig "" ⟨0, fun _ => 0⟩), [])
          [.access (.write 1 [cmdWordProgram]) false] = some (flash, writes) ∧
        (∃ reply next, flash.access (.write 1 [0x0f]) false = some (reply, next) ∧
          next.array.bytes = flash.accessedBytes (.write 1 [0x0f])) ∧ flash.Follows writes :=
  ⟨_, _, rfl, @nor_law _ (smallConfig "" ⟨0, fun _ => 0⟩)
    [.access (.write 1 [cmdWordProgram]) false] _ rfl rfl rfl (by decide) (.write 1 [0x0f]) false⟩

end Flash

end QboxPlatform.StrataFlash
