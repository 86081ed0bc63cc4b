import QboxPlatform.StrataFlash.Contents

/-!
# Programming through the write buffer

After the count the data arrive in any order and in pieces of any length.  The confirmation is
told from the data only by the buffer being complete.
-/

namespace QboxPlatform.StrataFlash

open Foundation

namespace Flash

variable {flash : Flash}

structure BufferAccess where
  access : Access
  debug : Bool

def BufferAccess.event (bufferAccess : BufferAccess) : FlashEvent :=
  .access bufferAccess.access bufferAccess.debug

/-- The data that some accesses bring; a refused write brings nothing. -/
def dataWrites (flash : Flash) (accesses : List BufferAccess) : List FlashWrite :=
  accesses.flatMap fun bufferAccess => flash.acceptedWrite bufferAccess.event

/-- The writes have a byte for every address of the buffer. -/
def Covers (writes : List FlashWrite) (base number : Nat) : Prop :=
  ∀ index < number, (lastWritten writes (base + index)).isSome = true

instance (writes : List FlashWrite) (base number : Nat) : Decidable (Covers writes base number) :=
  inferInstanceAs (Decidable (∀ index < number, _))

/-- The data start inside the buffer, and once it is complete none of them looks like the
confirmation. -/
structure FillsBuffer (flash : Flash) (base number : Nat) (accesses : List BufferAccess) :
    Prop where
  starts : ∀ write ∈ flash.dataWrites accesses,
    base ≤ write.offset ∧ write.offset < base + number
  unconfirmed : ∀ front write back, flash.dataWrites accesses = front ++ write :: back →
    Covers front base number → write.data ≠ [cmdBlockEraseAck]

/-- The bytes after the buffer is programmed with the last byte written to each address. -/
def bufferBytes (bytes : Image) (writes : List FlashWrite) (base number : Nat) : Image :=
  fun position =>
    if base ≤ position ∧ position < base + number then
      bytes position &&& (lastWritten writes position).getD 0xff
    else bytes position

/-- A flash that collects the data of a buffer, with the data so far. -/
structure Collecting (origin : Flash) (base number : Nat) (writes : List FlashWrite)
    (flash : Flash) : Prop where
  wellFormed : flash.WellFormed
  params : flash.params = origin.params
  array : flash.array = origin.ensureStorage.array
  allocated : flash.array.size ≠ 0
  pending : flash.control.pending = .writeBufferData
  start : flash.writeBuffer.base = base
  length : flash.writeBuffer.data.length = number
  data : ∀ index < number,
    flash.writeBuffer.data.getD index 0 = (lastWritten writes (base + index)).getD 0xff
  written : ∀ index < number,
    flash.writeBuffer.written.getD index false = (lastWritten writes (base + index)).isSome

theorem all_id_iff {flags : List Bool} :
    flags.all id = true ↔ ∀ index < flags.length, flags.getD index false = true := by
  rw [List.all_eq_true]
  constructor
  · intro all index inside
    rw [List.getD_eq_getElem _ _ inside]
    exact all _ (List.getElem_mem inside)
  · intro all flag member
    obtain ⟨index, inside, rfl⟩ := List.mem_iff_getElem.mp member
    have set := all index inside
    rwa [List.getD_eq_getElem _ _ inside] at set

namespace Collecting

variable {origin : Flash} {base number : Nat} {writes : List FlashWrite}

theorem storage (collecting : Collecting origin base number writes flash) :
    flash.ensureStorage.array = origin.ensureStorage.array :=
  (ensureStorage_of_allocated collecting.allocated _).trans collecting.array

theorem accepts (collecting : Collecting origin base number writes flash) (access : Access) :
    flash.accepts access ↔ origin.accepts access := by
  rw [Flash.accepts, Flash.accepts, collecting.storage]

theorem acceptedWrite (collecting : Collecting origin base number writes flash)
    (event : FlashEvent) : flash.acceptedWrite event = origin.acceptedWrite event := by
  cases event with
  | access access debug =>
      cases access with
      | write offset data => simp only [Flash.acceptedWrite, collecting.accepts]
      | read offset len => rfl
      | ignore offset len => rfl
  | _ => rfl

theorem complete_iff (collecting : Collecting origin base number writes flash)
    (some : 0 < number) :
    flash.writeBufferComplete = true ↔ Covers writes base number := by
  have length : flash.writeBuffer.written.length = number :=
    collecting.wellFormed.marked.trans collecting.length
  have nonempty : flash.writeBuffer.written ≠ [] := by
    intro none
    rw [none] at length
    exact some.ne length
  rw [writeBufferComplete, Bool.and_eq_true, decide_eq_true_eq, all_id_iff, length]
  constructor
  · rintro ⟨-, all⟩ index inside
    rw [← collecting.written index inside]
    exact all index inside
  · intro covered
    refine ⟨nonempty, fun index inside => ?_⟩
    rw [collecting.written index inside]
    exact covered index inside

theorem confirms_iff (collecting : Collecting origin base number writes flash)
    (some : 0 < number) {data : List Byte} :
    flash.Confirms data ↔ Covers writes base number ∧ data = [cmdBlockEraseAck] := by
  rw [Confirms, collecting.complete_iff some]

theorem erasesSectors (collecting : Collecting origin base number writes flash)
    (access : Access) : ¬flash.ErasesWithoutSectors access := by
  rintro ⟨offset, data, write, accepted, pending, -⟩
  cases collecting.pending.symm.trans pending

/-- Another flash with the same command state. -/
theorem congr (collecting : Collecting origin base number writes flash) {next : Flash}
    (same : SameCore flash.ensureStorage next) : Collecting origin base number writes next := by
  have array : next.array = flash.array :=
    same.array.trans (ensureStorage_of_allocated collecting.allocated _)
  have buffer : next.writeBuffer = flash.writeBuffer := same.writeBuffer
  constructor
  · exact same.wellFormed (wellFormed_ensureStorage collecting.wellFormed)
  · exact same.params.trans collecting.params
  · exact array.trans collecting.array
  · exact array.symm ▸ collecting.allocated
  · exact (congrArg Control.pending same.control).trans collecting.pending
  · exact (congrArg WriteBuffer.base buffer).trans collecting.start
  · rw [buffer]
    exact collecting.length
  · rw [buffer]
    exact collecting.data
  · rw [buffer]
    exact collecting.written

/-- A write that starts inside the buffer is collected. -/
theorem collects (collecting : Collecting origin base number writes flash) {offset : Nat}
    (above : base ≤ offset) (below : offset < base + number) (data : List Byte) :
    Collecting origin base number (writes ++ [⟨offset, data⟩])
      (flash.collectWriteBufferData offset data) := by
  have wellFormed :=
    wellFormed_collectWriteBufferData collecting.wellFormed collecting.pending offset data
  have start : offset = base + (offset - base) := (Nat.add_sub_of_le above).symm
  have marked : flash.writeBuffer.written.length = number :=
    collecting.wellFormed.marked.trans collecting.length
  have started : ¬(flash.writeBuffer.data = [] ∨ offset < base ∨ base + number < offset) := by
    rw [← List.length_eq_zero_iff, collecting.length]
    omega
  have relative : ¬number ≤ offset - base := by omega
  unfold collectWriteBufferData at wellFormed ⊢
  dsimp only at wellFormed ⊢
  rw [collecting.start, collecting.length, if_neg started, if_neg relative] at wellFormed ⊢
  constructor
  · exact wellFormed
  · exact collecting.params
  · exact collecting.array
  · exact collecting.allocated
  · exact collecting.pending
  · rfl
  · exact (length_overwrite _ _ _).trans collecting.length
  · intro index inside
    have copied := getD_collected flash.writeBuffer.data id 0 data start
      (collecting.length.symm ▸ inside)
    rw [List.map_id, collecting.length, collecting.data index inside] at copied
    rw [lastWritten_append]
    refine copied.trans ?_
    cases (⟨offset, data⟩ : FlashWrite).byteAt (base + index) with
    | none => rfl
    | some value => rfl
  · intro index inside
    have flagged := getD_collected flash.writeBuffer.written (fun _ => true) false data start
      (marked.symm ▸ inside)
    rw [marked, collecting.written index inside] at flagged
    rw [lastWritten_append]
    refine flagged.trans ?_
    cases (⟨offset, data⟩ : FlashWrite).byteAt (base + index) with
    | none => rfl
    | some value => rfl

end Collecting

theorem acceptedWrite_of_mem {event : FlashEvent} {write : FlashWrite}
    (member : write ∈ flash.acceptedWrite event) : flash.acceptedWrite event = [write] := by
  cases event with
  | access access debug =>
      cases access with
      | write offset data =>
          rw [acceptedWrite] at member ⊢
          split at member
          · next accepted => rw [if_pos accepted, List.mem_singleton.mp member]
          · cases member
      | read offset len => cases member
      | ignore offset len => cases member
  | _ => cases member

theorem write_collects (pending : flash.control.pending = .writeBufferData) {offset : Nat}
    {data : List Byte} (unconfirmed : ¬flash.Confirms data) :
    flash.write offset data = some (flash.collectWriteBufferData offset data) := by
  rw [write, pending, if_neg (by decide), if_neg (by decide), if_pos rfl,
    if_neg (mt confirms_iff.mp unconfirmed)]

namespace Collecting

variable {origin : Flash} {base number : Nat} {writes : List FlashWrite}

/-- What an access does to a flash that collects. -/
theorem access (collecting : Collecting origin base number writes flash) (some : 0 < number)
    (access : Access) (debug : Bool)
    (starts : ∀ write ∈ origin.acceptedWrite (.access access debug),
      base ≤ write.offset ∧ write.offset < base + number)
    (unconfirmed : ∀ write ∈ origin.acceptedWrite (.access access debug),
      Covers writes base number → write.data ≠ [cmdBlockEraseAck]) :
    ∃ reply next, flash.access access debug = Option.some (reply, next) ∧
      Collecting origin base number (writes ++ origin.acceptedWrite (.access access debug))
        next := by
  obtain ⟨reply, next, accessed⟩ :=
    access_defined collecting.wellFormed (collecting.erasesSectors access) debug
  refine ⟨reply, next, accessed, ?_⟩
  rw [← collecting.acceptedWrite] at starts unconfirmed ⊢
  rcases accessed_of_access accessed with ⟨looked, refused⟩ |
      ⟨offset, data, rfl, accepted, written⟩
  · have none : flash.acceptedWrite (.access access debug) = [] := by
      cases access with
      | write offset data => exact if_neg (refused offset data rfl)
      | read offset len => rfl
      | ignore offset len => rfl
    rw [none, List.append_nil]
    exact collecting.congr looked.sameCore
  · rw [acceptedWrite_of_accepts accepted] at starts unconfirmed ⊢
    obtain ⟨above, below⟩ := starts _ List.mem_cons_self
    obtain ⟨counted, wrote, counts, stored, after⟩ := written
    have before := collecting.congr counts.looked.sameCore
    have data_collected : ¬counted.Confirms data := by
      rw [before.confirms_iff some]
      rintro ⟨covered, command⟩
      exact unconfirmed _ List.mem_cons_self covered command
    rw [write_collects before.pending data_collected] at stored
    rw [← Option.some.inj stored] at after
    have collected := before.collects above below data
    have idle : SameCore (counted.collectWriteBufferData offset.toNat data).ensureStorage next := by
      rw [ensureStorage, ensureStorage_of_allocated collected.allocated]
      exact after.looked.sameCore
    exact collected.congr idle

theorem run (collecting : Collecting origin base number [] flash) (some : 0 < number)
    {accesses : List BufferAccess} (fills : origin.FillsBuffer base number accesses) :
    ∃ filled, Foundation.run step flash (accesses.map BufferAccess.event) = Option.some filled ∧
      Collecting origin base number (origin.dataWrites accesses) filled := by
  induction accesses using List.reverseRecOn with
  | nil => exact ⟨flash, rfl, collecting⟩
  | append_singleton accesses last inductionHypothesis =>
      have split : origin.dataWrites (accesses ++ [last]) =
          origin.dataWrites accesses ++ origin.acceptedWrite last.event := by
        rw [dataWrites, dataWrites, List.flatMap_append, List.flatMap_singleton]
      obtain ⟨starts, unconfirmed⟩ := fills
      rw [split] at starts unconfirmed ⊢
      have earlier : origin.FillsBuffer base number accesses := by
        refine ⟨fun write member => starts write (List.mem_append_left _ member), ?_⟩
        intro front write back parts
        apply unconfirmed front write (back ++ origin.acceptedWrite last.event)
        rw [parts, List.append_assoc, List.cons_append]
      obtain ⟨filled, reached, collected⟩ := inductionHypothesis earlier
      have lastData : ∀ write ∈ origin.acceptedWrite last.event,
          Covers (origin.dataWrites accesses) base number → write.data ≠ [cmdBlockEraseAck] := by
        intro write member
        apply unconfirmed (origin.dataWrites accesses) write []
        rw [acceptedWrite_of_mem member]
      obtain ⟨reply, next, accessed, after⟩ := collected.access some last.access last.debug
        (fun write member => starts write (List.mem_append_right _ member)) lastData
      refine ⟨next, ?_, after⟩
      have stepped : filled.step last.event = Option.some next := by
        rw [step, BufferAccess.event, respond, accessed]
        rfl
      rw [List.map_append, run_append, reached, Option.bind_some, List.map_singleton, run_cons,
        stepped]
      rfl

theorem programmed (collecting : Collecting origin base number writes flash)
    (covered : Covers writes base number) :
    andBytes flash.array.bytes flash.writeBuffer.base flash.writeBuffer.data =
      bufferBytes origin.ensureStorage.array.bytes writes base number := by
  funext position
  rw [andBytes, bufferBytes, collecting.start, collecting.length, collecting.array]
  split
  · next inside =>
    obtain ⟨above, below⟩ := inside
    have index : position - base < number := by omega
    have byte := collecting.data _ index
    have written := covered _ index
    rw [Nat.add_sub_of_le above] at byte written
    rw [byte]
  · rfl

/-- The confirmation programs a complete buffer and leaves the bytes alone otherwise. -/
theorem confirm (collecting : Collecting origin base number writes flash) (some : 0 < number)
    (noSet : origin.params.programFfSetsBits = false)
    (noErase : origin.params.programFfErasesSector = false) (offset : BitVec 64)
    (debug : Bool) :
    ∃ reply next, flash.access (.write offset [cmdBlockEraseAck]) debug =
        Option.some (reply, next) ∧
      next.array.bytes =
        if origin.accepts (.write offset [cmdBlockEraseAck]) ∧ Covers writes base number then
          bufferBytes origin.ensureStorage.array.bytes writes base number
        else origin.ensureStorage.array.bytes := by
  have sectors := collecting.erasesSectors (.write offset [cmdBlockEraseAck])
  obtain ⟨reply, next, accessed⟩ := access_defined collecting.wellFormed sectors debug
  refine ⟨reply, next, accessed, ?_⟩
  rw [← collecting.params] at noSet noErase
  rw [accessed_bytes collecting.wellFormed noSet noErase sectors (accessed_of_access accessed),
    accessedBytes]
  have storage : flash.ensureStorage = flash := by
    rw [ensureStorage, ensureStorage_of_allocated collecting.allocated]
  rw [storage, writtenBytes, collecting.pending]
  simp only [collecting.accepts, collecting.confirms_iff some, and_true]
  by_cases accepted : origin.accepts (.write offset [cmdBlockEraseAck])
  · by_cases covered : Covers writes base number
    · simp only [accepted, covered, if_true, and_self, collecting.programmed covered]
    · simp only [accepted, covered, if_false, if_true, and_false, collecting.array]
  · simp only [accepted, if_false, false_and, collecting.array]

end Collecting

theorem write_begins (pending : flash.control.pending = .writeBufferCount) (offset : Nat)
    (data : List Byte) : flash.write offset data = some (flash.beginWriteBuffer offset data) := by
  rw [write, pending, if_neg (by decide), if_pos rfl]

theorem countValue_bounds {count : List Byte} (some : count ≠ []) :
    0 < countValue count ∧ countValue count ≤ writeBufferMax := by
  rw [countValue, if_neg some, writeBufferMax]
  have byte := (count.getD 0 0).isLt
  omega

theorem collecting_beginWriteBuffer (wellFormed : flash.WellFormed) {base : Nat}
    {count : List Byte} (some : count ≠ [])
    (inside : base + countValue count ≤ flash.array.size) {origin : Flash}
    (params : flash.params = origin.params) (array : flash.array = origin.ensureStorage.array) :
    Collecting origin base (countValue count) [] (flash.beginWriteBuffer base count) := by
  have started := @wellFormed_beginWriteBuffer flash wellFormed.tracked base count
  obtain ⟨positive, bounded⟩ := countValue_bounds some
  have accepted : ¬(countValue count = 0 ∨ writeBufferMax < countValue count ∨
      (!(flash.count .writeBufferCountWrites 1).array.inRange base (countValue count)) = true) := by
    rw [not_or, not_or, Bool.not_eq_true', Bool.not_eq_false, FlashArray.inRange_iff]
    exact ⟨positive.ne', Nat.not_lt.mpr bounded, inside⟩
  unfold beginWriteBuffer at started ⊢
  dsimp only at started ⊢
  rw [if_neg accepted] at started ⊢
  constructor
  · exact started
  · exact params
  · exact array
  · exact (positive.trans_le ((Nat.le_add_left _ _).trans inside)).ne'
  · rfl
  · rfl
  · exact List.length_replicate
  · intro index below
    exact List.getD_replicate _ below
  · intro index below
    exact List.getD_replicate _ below

/-- The count that follows a write-to-buffer command starts the buffer. -/
theorem access_begins (wellFormed : flash.WellFormed)
    (requested : flash.control.pending = .writeBufferCount) {base : BitVec 64}
    {count : List Byte} (accepted : flash.accepts (.write base count))
    (inside : base.toNat + countValue count ≤ flash.ensureStorage.array.size) (debug : Bool) :
    ∃ reply next, flash.access (.write base count) debug = some (reply, next) ∧
      Collecting flash base.toNat (countValue count) [] next := by
  have sectors : ¬flash.ErasesWithoutSectors (.write base count) := by
    rintro ⟨offset, data, write, accepted, pending, -⟩
    cases requested.symm.trans pending
  obtain ⟨reply, next, accessed⟩ := access_defined wellFormed sectors debug
  refine ⟨reply, next, accessed, ?_⟩
  rcases accessed_of_access accessed with ⟨-, refused⟩ | ⟨offset, data, same, -, written⟩
  · exact absurd accepted (refused base count rfl)
  · obtain ⟨rfl, rfl⟩ := Access.write.inj same
    obtain ⟨counted, wrote, counts, stored, after⟩ := written
    have core := counts.looked.sameCore
    rw [write_begins ((congrArg Control.pending core.control).trans requested)] at stored
    rw [← Option.some.inj stored] at after
    have begun : Collecting flash base.toNat (countValue count) []
        (counted.beginWriteBuffer base.toNat count) := collecting_beginWriteBuffer
      (core.wellFormed (wellFormed_ensureStorage wellFormed))
      (List.length_pos_iff.mp (Nat.pos_of_ne_zero accepted.1)) (core.array.symm ▸ inside)
      core.params core.array
    have idle : SameCore (counted.beginWriteBuffer base.toNat count).ensureStorage next := by
      rw [ensureStorage, ensureStorage_of_allocated begun.allocated]
      exact after.looked.sameCore
    exact begun.congr idle

/-- Programming through the write buffer.  In any reachable flash that waits for the count, the
count and the data are taken in, and the confirmation that follows programs the addresses of the
buffer with the last byte written to each; an incomplete buffer programs nothing. -/
theorem writeBuffer_programs {config : FlashConfig} {events : List FlashEvent}
    (reached : run step (start config) events = some flash)
    (noSet : flash.params.programFfSetsBits = false)
    (noErase : flash.params.programFfErasesSector = false)
    (requested : flash.control.pending = .writeBufferCount) {base : BitVec 64}
    {count : List Byte} (accepted : flash.accepts (.write base count))
    (inside : base.toNat + countValue count ≤ flash.ensureStorage.array.size)
    {accesses : List BufferAccess}
    (fills : flash.FillsBuffer base.toNat (countValue count) accesses) (debug : Bool) :
    ∃ filled, run step flash
        (.access (.write base count) debug :: accesses.map BufferAccess.event) = some filled ∧
      ∀ (offset : BitVec 64) (confirmDebug : Bool), ∃ reply next,
        filled.access (.write offset [cmdBlockEraseAck]) confirmDebug = some (reply, next) ∧
        next.array.bytes =
          if flash.accepts (.write offset [cmdBlockEraseAck]) ∧
              Covers (flash.dataWrites accesses) base.toNat (countValue count) then
            bufferBytes flash.ensureStorage.array.bytes (flash.dataWrites accesses) base.toNat
              (countValue count)
          else flash.ensureStorage.array.bytes := by
  obtain ⟨positive, -⟩ :=
    countValue_bounds (List.length_pos_iff.mp (Nat.pos_of_ne_zero accepted.1))
  obtain ⟨reply, begun, accessed, collecting⟩ :=
    access_begins (wellFormed_reachable reached) requested accepted inside debug
  obtain ⟨filled, collected, after⟩ := collecting.run positive fills
  have stepped : flash.step (.access (.write base count) debug) = some begun := by
    rw [step, respond, accessed]
    rfl
  refine ⟨filled, ?_, after.confirm positive noSet noErase⟩
  rw [run_cons, stepped]
  exact collected

/-- The data of the example: a byte that looks like the confirmation comes before the rest. -/
def smallData : List BufferAccess :=
  [⟨.write 3 [cmdBlockEraseAck, 0x11], false⟩, ⟨.write 3 [cmdBlockEraseAck], true⟩,
    ⟨.write 2 [0x0f], false⟩]

theorem writeBuffer_programs_small :
    ∃ flash, run step (start (smallConfig "" ⟨0, fun _ => 0⟩))
        [.access (.write 0 [cmdWriteToBuffer]) false] = some flash ∧
      ∃ filled, run step flash
          (.access (.write 2 [1]) false :: smallData.map BufferAccess.event) = some filled ∧
        ∀ (offset : BitVec 64) (confirmDebug : Bool), ∃ reply next,
          filled.access (.write offset [cmdBlockEraseAck]) confirmDebug = some (reply, next) ∧
          next.array.bytes =
            if flash.accepts (.write offset [cmdBlockEraseAck]) ∧
                Covers (flash.dataWrites smallData) 2 2 then
              bufferBytes flash.ensureStorage.array.bytes (flash.dataWrites smallData) 2 2
            else flash.ensureStorage.array.bytes := by
  have reached : run step (start (smallConfig "" ⟨0, fun _ => 0⟩))
      [.access (.write 0 [cmdWriteToBuffer]) false] = some _ := rfl
  refine ⟨_, reached, writeBuffer_programs reached rfl rfl rfl (by decide) (by decide) ?_ false⟩
  constructor
  · decide
  · intro front write back parts covered
    have writes : [⟨3, [cmdBlockEraseAck, 0x11]⟩, ⟨3, [cmdBlockEraseAck]⟩, ⟨2, [0x0f]⟩] =
        front ++ write :: back := parts
    rcases front with - | ⟨first, - | ⟨second, rest⟩⟩
    · obtain ⟨rfl, -⟩ := List.cons.inj writes
      decide
    · obtain ⟨rfl, -⟩ := List.cons.inj writes
      exact absurd covered (by decide)
    · obtain ⟨-, later⟩ := List.cons.inj writes
      obtain ⟨-, last⟩ := List.cons.inj later
      have member : write ∈ [(⟨2, [0x0f]⟩ : FlashWrite)] :=
        last ▸ List.mem_append_right _ List.mem_cons_self
      rw [List.mem_singleton.mp member]
      decide

end Flash

end QboxPlatform.StrataFlash
