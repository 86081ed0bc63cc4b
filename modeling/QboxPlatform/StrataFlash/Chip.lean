import QboxPlatform.StrataFlash.Contents

/-!
# The flash as a chip

What the bus sees of the flash, without what the program keeps beside the array: the map of erased
sectors, the backing file, the direct access, the statistics, and the fast paths.
-/

namespace QboxPlatform.StrataFlash

open Foundation

/-- An array of NOR cells: erasing sets the bits of a sector and programming clears bits, but for
the two ways of the compatibility parameters. -/
structure Cells where
  size : Nat
  sectorSize : Nat
  setsBits : Bool
  erasesSector : Bool
  bytes : Image

namespace Cells

variable (cells : Cells)

def SameSector (offset position : Nat) : Prop :=
  position < cells.size ∧ position / cells.sectorSize = offset / cells.sectorSize

instance (offset position : Nat) : Decidable (cells.SameSector offset position) :=
  inferInstanceAs (Decidable (_ ∧ _))

def erase (offset : Nat) : Cells :=
  { cells with
    bytes := fun position =>
      if cells.SameSector offset position then 0xff else cells.bytes position }

def programmed (old value : Byte) : Byte :=
  if cells.setsBits ∧ value = 0xff then 0xff else old &&& value

def program (offset : Nat) (data : List Byte) : Cells :=
  if cells.erasesSector ∧ data = [0xff] ∧ cells.sectorSize ≠ 0 ∧
      offset % cells.sectorSize = 0 then
    cells.erase offset
  else
    { cells with
      bytes := fun position =>
        if offset ≤ position ∧ position < offset + data.length then
          cells.programmed (cells.bytes position) (data.getD (position - offset) 0)
        else cells.bytes position }

end Cells

/-- The cells behind their command interface. -/
structure Chip extends Cells where
  control : Control
  buffer : WriteBuffer

namespace Chip

variable (chip : Chip)

def erase (offset : Nat) : Chip := { chip with toCells := chip.toCells.erase offset }

def program (offset : Nat) (data : List Byte) : Chip :=
  { chip with toCells := chip.toCells.program offset data }

def ready : Chip := { chip with control := ⟨.readStatus, .none, statusReady⟩ }

def clear : Chip := { chip with buffer := ⟨0, [], []⟩ }

def start (command : Byte) : Chip :=
  { chip with
    control := Flash.startedControl { chip.control with pending := .none } command
    buffer := if command = cmdWriteToBuffer then ⟨0, [], []⟩ else chip.buffer }

def begin (base : Nat) (data : List Byte) : Chip :=
  let number := Flash.countValue data
  if number = 0 ∨ writeBufferMax < number ∨ chip.size < base + number then chip.clear.ready
  else
    { chip with
      buffer := ⟨base, List.replicate number 0xff, List.replicate number false⟩
      control := ⟨.readStatus, .writeBufferData, statusReady⟩ }

/-- Data for an offset inside the buffer are taken as far as the buffer goes. -/
def collect (offset : Nat) (data : List Byte) : Chip :=
  let buffer := chip.buffer
  if offset < buffer.base ∨ buffer.base + buffer.data.length ≤ offset then
    { chip.clear with control := { chip.control with pending := .none } }
  else
    let copied := data.take (buffer.data.length - (offset - buffer.base))
    { chip with
      buffer :=
        { buffer with
          data := Flash.overwrite buffer.data (offset - buffer.base) copied
          written :=
            Flash.overwrite buffer.written (offset - buffer.base) (copied.map fun _ => true) }
      control := { chip.control with mode := .readStatus, status := statusReady } }

def complete : Bool := chip.buffer.written ≠ [] && chip.buffer.written.all id

/-- The write confirms a complete buffer. -/
def Confirms (data : List Byte) : Prop := chip.complete = true ∧ data = [cmdBlockEraseAck]

instance (data : List Byte) : Decidable (chip.Confirms data) :=
  inferInstanceAs (Decidable (_ ∧ _))

def write (offset : Nat) (data : List Byte) : Chip :=
  match chip.control.pending with
  | .program => (chip.program offset data).ready
  | .writeBufferCount => chip.begin offset data
  | .writeBufferData =>
      if chip.Confirms data then
        (chip.program chip.buffer.base chip.buffer.data).ready.clear
      else chip.collect offset data
  | .erase =>
      if data.getD 0 0 = cmdBlockEraseAck then (chip.erase offset).ready
      else chip.start (data.getD 0 0)
  | .lock =>
      if data.getD 0 0 = cmdLockBlock ∨ data.getD 0 0 = cmdBlockEraseAck then chip.ready
      else chip.start (data.getD 0 0)
  | .none => chip.start (data.getD 0 0)

def idByte (offset : Nat) : Byte :=
  if offset = 0 then manufacturerId else if offset = 4 then deviceCode else 0

def queryByte (offset : Nat) : Byte :=
  if offset = 0x10 then 0x51 else if offset = 0x11 then 0x52 else if offset = 0x12 then 0x59
  else 0

def readByte (offset : Nat) : Byte :=
  match chip.control.mode with
  | .readArray => chip.bytes offset
  | .readId => idByte offset
  | .readQuery => queryByte offset
  | .readStatus => chip.control.status

def Accepts (access : Access) : Prop :=
  access.len ≠ 0 ∧ access.offset.toNat + access.len ≤ chip.size

instance (access : Access) : Decidable (chip.Accepts access) :=
  inferInstanceAs (Decidable (_ ∧ _))

def access (access : Access) : Response × Chip :=
  if chip.Accepts access then
    match access with
    | .read offset len =>
        (.ok ((List.range len).map fun index => chip.readByte (offset.toNat + index)), chip)
    | .write offset data => (.ok [], chip.write offset.toNat data)
    | .ignore _ _ => (.commandError, chip)
  else (.addressError, chip)

/-- `load_image`. -/
def loadImage (offset : Nat) (data : List Byte) : Chip :=
  if offset + data.length ≤ chip.size then
    { chip with bytes := chip.bytes.write offset data }
  else chip

/-- What an event does to the chip, and its answer to an access. -/
def respond : FlashEvent → Option Response × Chip
  | .access access _ => (some (chip.access access).1, (chip.access access).2)
  | .load offset data => (none, chip.loadImage offset.toNat data)
  | .setProgramFfSetsBits enable => (none, { chip with setsBits := enable })
  | .setProgramFfErasesSector enable => (none, { chip with erasesSector := enable })
  | .setSectorSize size => (none, { chip with sectorSize := size.toNat })
  | _ => (none, chip)

end Chip

/-- The event leaves the flash its size, and sectors. -/
def FlashEvent.KeepsGeometry : FlashEvent → Prop
  | .setSize _ => False
  | .setSectorSize size => size ≠ 0
  | _ => True

/-- The answer to an access. -/
def FlashOutput.response : FlashOutput → Option Response
  | .reply answer => Option.some answer.response
  | _ => Option.none

namespace Chip

variable {chip : Chip}

/-- No access changes the geometry. -/
structure SameGeometry (before after : Cells) : Prop where
  size : after.size = before.size
  sectorSize : after.sectorSize = before.sectorSize
  setsBits : after.setsBits = before.setsBits
  erasesSector : after.erasesSector = before.erasesSector

theorem sameGeometry_program (cells : Cells) (offset : Nat) (data : List Byte) :
    SameGeometry cells (cells.program offset data) := by
  unfold Cells.program
  split
  · exact ⟨rfl, rfl, rfl, rfl⟩
  · exact ⟨rfl, rfl, rfl, rfl⟩

theorem sameGeometry_write (chip : Chip) (offset : Nat) (data : List Byte) :
    SameGeometry chip.toCells (chip.write offset data).toCells := by
  unfold write
  split
  · exact sameGeometry_program chip.toCells offset data
  · unfold begin
    dsimp only
    split
    · exact ⟨rfl, rfl, rfl, rfl⟩
    · exact ⟨rfl, rfl, rfl, rfl⟩
  · split
    · exact sameGeometry_program chip.toCells chip.buffer.base chip.buffer.data
    · unfold collect
      dsimp only
      split
      · exact ⟨rfl, rfl, rfl, rfl⟩
      · exact ⟨rfl, rfl, rfl, rfl⟩
  · split
    · exact ⟨rfl, rfl, rfl, rfl⟩
    · exact ⟨rfl, rfl, rfl, rfl⟩
  · split
    · exact ⟨rfl, rfl, rfl, rfl⟩
    · exact ⟨rfl, rfl, rfl, rfl⟩
  · exact ⟨rfl, rfl, rfl, rfl⟩

theorem sameGeometry_access (chip : Chip) (access : Access) :
    SameGeometry chip.toCells (chip.access access).2.toCells := by
  unfold Chip.access
  split
  · cases access with
    | read offset len => exact ⟨rfl, rfl, rfl, rfl⟩
    | write offset data => exact sameGeometry_write chip offset.toNat data
    | ignore offset len => exact ⟨rfl, rfl, rfl, rfl⟩
  · exact ⟨rfl, rfl, rfl, rfl⟩

theorem sectorSize_respond {event : FlashEvent} (keeps : event.KeepsGeometry)
    (sectors : chip.sectorSize ≠ 0) : (chip.respond event).2.sectorSize ≠ 0 := by
  cases event with
  | access access debug =>
      rw [respond, (sameGeometry_access chip access).sectorSize]
      exact sectors
  | load offset data =>
      rw [respond, loadImage]
      split
      · exact sectors
      · exact sectors
  | setSectorSize size => exact fun zero => keeps (BitVec.eq_of_toNat_eq zero)
  | _ => exact sectors

end Chip

namespace Flash

variable {flash next : Flash}

/-- What the bus sees of a flash. -/
def chip (flash : Flash) : Chip where
  size := flash.ensureStorage.array.size
  sectorSize := flash.array.sectorSize.toNat
  setsBits := flash.params.programFfSetsBits
  erasesSector := flash.params.programFfErasesSector
  bytes := flash.ensureStorage.array.bytes
  control := flash.control
  buffer := flash.writeBuffer

/-- A second allocation changes nothing, not even for a flash without bytes. -/
theorem sameContents_ensureStorage (array : FlashArray) (size : Fin (2 ^ 63)) :
    FlashArray.SameContents (array.ensureStorage size)
      ((array.ensureStorage size).ensureStorage size) := by
  by_cases before : array.size = 0
  · have fresh : array.ensureStorage size =
        { array with size := size.val, fits := FlashArray.size_lt size, bytes := fun _ => 0xff
          : FlashArray }.initializeSectorErasedMap := if_neg (not_not.mpr before)
    rw [fresh]
    unfold FlashArray.ensureStorage
    split
    · exact FlashArray.SameContents.refl _
    · exact ⟨rfl, rfl, rfl⟩
  · rw [ensureStorage_of_allocated before, ensureStorage_of_allocated before]
    exact FlashArray.SameContents.refl _

theorem chip_of_sameCore (same : SameCore flash.ensureStorage next) : next.chip = flash.chip := by
  have again := sameContents_ensureStorage flash.array flash.params.size
  have stored : next.ensureStorage.array =
      (flash.array.ensureStorage flash.params.size).ensureStorage flash.params.size := by
    rw [ensureStorage, same.array, same.params]
    rfl
  have sectors : next.array.sectorSize = flash.array.sectorSize := by
    rw [same.array]
    exact ensureStorage_sectorSize flash
  have params : next.params = flash.params := same.params
  have control : next.control = flash.control := same.control
  have buffer : next.writeBuffer = flash.writeBuffer := same.writeBuffer
  rw [chip, chip, stored, again.size, again.bytes, sectors, params, control, buffer]
  rfl

theorem chip_ensureStorage (flash : Flash) : flash.ensureStorage.chip = flash.chip :=
  chip_of_sameCore ⟨rfl, rfl, rfl, rfl⟩

theorem Looked.chip (looked : Looked flash.ensureStorage next) : next.chip = flash.chip :=
  chip_of_sameCore looked.sameCore

/-- The view of a flash whose array is allocated. -/
theorem chip_of_allocated (allocated : flash.array.size ≠ 0) :
    flash.chip =
      { size := flash.array.size, sectorSize := flash.array.sectorSize.toNat
        setsBits := flash.params.programFfSetsBits
        erasesSector := flash.params.programFfErasesSector, bytes := flash.array.bytes
        control := flash.control, buffer := flash.writeBuffer } := by
  rw [chip, ensureStorage, ensureStorage_of_allocated allocated]

theorem SameButStats.chip (counts : SameButStats flash next) : next.chip = flash.chip := by
  obtain ⟨stats, rfl⟩ := counts
  rfl

theorem Stored.chip (allocated : flash.array.size ≠ 0) {bytes : Image}
    (stored : Stored flash bytes next) :
    next.chip = Chip.ready { flash.chip with bytes := bytes } := by
  obtain ⟨params, control, buffer, -, -⟩ := stored.frame
  have contents := stored.contents
  have after : next.array.size ≠ 0 := by
    rw [contents.size]
    exact allocated
  rw [chip_of_allocated after, chip_of_allocated allocated, params, control, buffer, contents.size,
    contents.bytes, contents.sectorSize]
  rfl

theorem chip_fillSector (allocated : flash.array.size ≠ 0) (nonzero : flash.array.sectorSize ≠ 0)
    {offset : Nat} (inside : offset < flash.array.size) :
    { flash.chip with bytes := (flash.array.fillSector offset).bytes } =
      flash.chip.erase offset := by
  rw [fillSector_bytes flash.array nonzero inside, Chip.erase, chip_of_allocated allocated]
  rfl

theorem chip_eraseSector (tracked : flash.array.Tracked) {offset : Nat}
    (inside : offset < flash.array.size) (erased : flash.eraseSector offset = some next) :
    next.chip = (flash.chip.erase offset).ready := by
  have allocated : flash.array.size ≠ 0 := (Nat.zero_lt_of_lt inside).ne'
  have nonzero : flash.array.sectorSize ≠ 0 := by
    intro zero
    rw [eraseSector, if_pos zero] at erased
    cases erased
  obtain ⟨other, defined, stored⟩ := eraseSector_stored tracked nonzero inside
  rw [← Option.some.inj (defined.symm.trans erased), stored.chip allocated,
    chip_fillSector allocated nonzero inside]

theorem erases_iff {offset : Nat} {data : List Byte} :
    flash.isSectorAlignedProgramFfErase offset data = true ↔
      flash.chip.erasesSector ∧ data = [0xff] ∧ flash.chip.sectorSize ≠ 0 ∧
        offset % flash.chip.sectorSize = 0 := by
  have nonzero : flash.array.sectorSize ≠ 0 ↔ flash.chip.sectorSize ≠ 0 := by
    rw [chip, ne_eq, ← BitVec.toNat_inj]
    rfl
  have single : data.length = 1 ∧ data.getD 0 0 = 0xff ↔ data = [0xff] := by
    constructor
    · rintro ⟨length, value⟩
      obtain ⟨byte, rfl⟩ := List.length_eq_one_iff.mp length
      exact congrArg (fun byte => [byte]) value
    · rintro rfl
      exact ⟨rfl, rfl⟩
  rw [isSectorAlignedProgramFfErase, ← single, ← nonzero]
  simp only [Bool.and_eq_true, beq_iff_eq, bne_iff_ne, chip]
  tauto

theorem chip_program (tracked : flash.array.Tracked) {offset : Nat} {data : List Byte}
    (some : data ≠ []) (inside : offset + data.length ≤ flash.array.size)
    (programmed : flash.program offset data = Option.some next) :
    next.chip = (flash.chip.program offset data).ready := by
  have positive := List.length_pos_iff.mpr some
  have allocated : flash.array.size ≠ 0 := by omega
  by_cases erases : flash.isSectorAlignedProgramFfErase offset data = true
  · rw [program, if_pos erases] at programmed
    rw [Chip.program, Cells.program, if_pos (erases_iff.mp erases)]
    have within : offset < flash.array.size := by omega
    exact @chip_eraseSector (((flash.count .programOps 1).count .programBytes data.length).count
      .compatFfSectorEraseOps 1) next tracked offset within programmed
  · obtain ⟨bytes, other, defined, stored, exact⟩ := program_stored tracked some inside
    rw [← Option.some.inj (defined.symm.trans programmed), stored.chip allocated,
      exact (Bool.eq_false_iff.mpr erases), Chip.program, Cells.program,
      if_neg (mt erases_iff.mpr erases), chip_of_allocated allocated]
    rfl

/-- Two flashes with the same array and parameters, seen as chips. -/
theorem chip_of_sameStorage {before after : Flash} (same : SameStorage before after) :
    after.chip = { before.chip with control := after.control, buffer := after.writeBuffer } := by
  rw [chip, chip, ensureStorage, ensureStorage, same.params, same.array]

theorem chip_startCommand (idle : flash.control.pending = .none) (command : Byte) :
    (flash.startCommand command).chip = flash.chip.start command := by
  have cleared : { flash.control with pending := .none } = flash.control := by
    rw [← idle]
  have buffer : (flash.startCommand command).writeBuffer =
      if command = cmdWriteToBuffer then ⟨0, [], []⟩ else flash.writeBuffer := by
    split_ifs with requested
    · rw [requested]
      rfl
    · simp only [startCommand, apply_ite Flash.writeBuffer, setMode, setPending, if_neg requested,
        ite_self]
  rw [chip_of_sameStorage (sameStorage_startCommand flash command), startCommand_control, buffer,
    Chip.start]
  exact congrArg (fun control => ({ flash.chip with control := startedControl control command
                                                    buffer := _ } : Chip)) cleared.symm

theorem chip_beginWriteBuffer (allocated : flash.array.size ≠ 0) (offset : Nat)
    (data : List Byte) :
    (flash.beginWriteBuffer offset data).chip = flash.chip.begin offset data := by
  have outside : (countValue data = 0 ∨ writeBufferMax < countValue data ∨
      (!(flash.count .writeBufferCountWrites 1).array.inRange offset (countValue data)) = true) ↔
      countValue data = 0 ∨ writeBufferMax < countValue data ∨
        flash.chip.size < offset + countValue data := by
    rw [Bool.not_eq_true', ← Bool.not_eq_true, FlashArray.inRange_iff, Nat.not_le,
      chip_of_allocated allocated]
    rfl
  rw [chip_of_sameStorage (sameStorage_beginWriteBuffer flash offset data), Chip.begin]
  unfold beginWriteBuffer
  dsimp only
  by_cases refused : countValue data = 0 ∨ writeBufferMax < countValue data ∨
      flash.chip.size < offset + countValue data
  · rw [if_pos refused, if_pos (outside.mpr refused)]
    rfl
  · rw [if_neg refused, if_neg (mt outside.mp refused)]

theorem chip_collectWriteBufferData (flash : Flash) (offset : Nat) (data : List Byte) :
    (flash.collectWriteBufferData offset data).chip = flash.chip.collect offset data := by
  have bufferOf : flash.chip.buffer = flash.writeBuffer := rfl
  rw [Chip.collect]
  dsimp only
  rw [bufferOf]
  by_cases outside : offset < flash.writeBuffer.base ∨
      flash.writeBuffer.base + flash.writeBuffer.data.length ≤ offset
  · rw [if_pos outside]
    unfold collectWriteBufferData
    dsimp only
    split
    · rfl
    · next early =>
      split
      · rfl
      · have length := List.length_pos_iff.mpr (not_or.mp early).1
        omega
  · rw [if_neg outside]
    unfold collectWriteBufferData
    dsimp only
    split
    · next early =>
      rcases early with empty | early
      · rw [empty, List.length_nil] at outside
        omega
      · omega
    · split
      · omega
      · rfl

theorem chip_invalidateDmi (flash : Flash) : flash.invalidateDmi.chip = flash.chip := by
  rcases flash.invalidateDmi_cases with same | ⟨stats, same⟩
  · rw [same]
  · rw [same]
    rfl

theorem chip_confirmWriteBuffer (wellFormed : flash.WellFormed)
    (pending : flash.control.pending = .writeBufferData) {data : List Byte}
    (confirmed : flash.Confirms data) (written : flash.confirmWriteBuffer = some next) :
    next.chip =
      (flash.chip.program flash.writeBuffer.base flash.writeBuffer.data).ready.clear := by
  unfold confirmWriteBuffer at written
  dsimp only at written
  split at written
  · obtain ⟨programmed, program, rfl⟩ := Option.map_eq_some_iff.mp written
    have inside := wellFormed.buffered pending
    have some := buffer_ne_nil wellFormed.marked confirmed.1
    have stored := @chip_program (((flash.count .writeBufferConfirmCmds 1).count
      .writeBufferOps 1).count .writeBufferBytes flash.writeBuffer.data.length) programmed
      wellFormed.tracked _ _ some inside program
    have cleared : programmed.clearWriteBuffer.chip = programmed.chip.clear := rfl
    rw [cleared, stored]
    rfl
  · next incomplete => exact absurd confirmed.1 incomplete

/-- A write of the flash is a write of the chip. -/
theorem chip_write (wellFormed : flash.WellFormed) {offset : Nat} {data : List Byte}
    (some : data ≠ []) (inside : offset + data.length ≤ flash.array.size)
    (written : flash.write offset data = Option.some next) :
    next.chip = flash.chip.write offset data := by
  have positive := List.length_pos_iff.mpr some
  have allocated : flash.array.size ≠ 0 := by omega
  have pendingOf : flash.chip.control.pending = flash.control.pending := rfl
  have invalidated : flash.invalidateDmi.chip = flash.chip := chip_invalidateDmi flash
  cases write_wrote wellFormed some inside written with
  | programs pending next programs =>
      rw [write, if_pos pending] at written
      rw [Chip.write, pendingOf, pending]
      exact chip_program wellFormed.tracked some inside written
  | begins pending =>
      rw [Chip.write, pendingOf, pending]
      exact chip_beginWriteBuffer allocated offset data
  | collects pending unconfirmed =>
      rw [Chip.write, pendingOf, pending]
      dsimp only
      rw [if_neg (show ¬flash.chip.Confirms data from unconfirmed)]
      exact chip_collectWriteBufferData flash offset data
  | confirms pending confirmed counted next counts programs =>
      rw [Chip.write, pendingOf, pending]
      dsimp only
      rw [write, if_neg (by rw [pending]; decide), if_neg (by rw [pending]; decide),
        if_pos pending, if_pos (confirms_iff.mpr confirmed)] at written
      rw [if_pos (show flash.chip.Confirms data from confirmed)]
      exact chip_confirmWriteBuffer wellFormed pending confirmed written
  | erases pending acknowledged counted next counts stored =>
      have recorded : (flash.invalidateDmi.recordCommand (data.getD 0 0)).control.pending =
          .erase := (congrArg Control.pending flash.invalidateDmi_control).trans pending
      have array : (flash.invalidateDmi.recordCommand (data.getD 0 0)).array = flash.array :=
        flash.invalidateDmi_array
      rw [write, if_neg (by rw [pending]; decide), if_neg (by rw [pending]; decide),
        if_neg (by rw [pending]; decide), handleCommand] at written
      rw [recorded, if_pos acknowledged] at written
      have erased := chip_eraseSector (array.symm ▸ wellFormed.tracked) (by rw [array]; omega)
        written
      rw [(sameButStats_recordCommand _ _).chip, invalidated] at erased
      rw [Chip.write, pendingOf, pending]
      dsimp only
      rw [if_pos acknowledged, erased]
  | locks pending acknowledged counted counts =>
      have same : counted.ready.chip = counted.chip.ready := rfl
      rw [Chip.write, pendingOf, pending]
      dsimp only
      rw [if_pos acknowledged, same, counts.chip, invalidated]
  | starts pending other counted counts =>
      have idle : counted.control.pending = .none := by
        obtain ⟨stats, rfl⟩ := counts
        rfl
      have started : (counted.startCommand (data.getD 0 0)).chip =
          flash.chip.start (data.getD 0 0) := by
        have view : (flash.invalidateDmi.setPending .none).chip =
            { flash.invalidateDmi.chip with
              control := { flash.invalidateDmi.chip.control with pending := .none } } := rfl
        rw [chip_startCommand idle, counts.chip, view, invalidated]
        rfl
      rw [started, Chip.write, pendingOf]
      rcases pending with none | erase | lock
      · rw [none]
      · rw [erase]
        exact (if_neg fun command => other (Or.inl ⟨erase, command⟩)).symm
      · rw [lock]
        exact (if_neg fun command => other (Or.inr ⟨lock, command⟩)).symm

theorem readData_chip (flash : Flash) (offset len : Nat) :
    flash.ensureStorage.readData offset len =
      (List.range len).map fun index => flash.chip.readByte (offset + index) := by
  have control : flash.ensureStorage.control = flash.control := rfl
  have shown : flash.chip.control = flash.control := rfl
  rw [readData, control]
  cases mode : flash.control.mode with
  | readArray =>
      apply List.map_congr_left
      intro index _
      rw [Chip.readByte, shown, mode]
      rfl
  | readStatus =>
      dsimp only
      rw [List.eq_replicate_iff.mpr ⟨List.length_map .. |>.trans List.length_range, ?_⟩]
      intro byte member
      obtain ⟨index, -, rfl⟩ := List.mem_map.mp member
      rw [Chip.readByte, shown, mode]
  | readId =>
      apply List.map_congr_left
      intro index _
      rw [readByte, Chip.readByte, control, shown, mode]
      rfl
  | readQuery =>
      apply List.map_congr_left
      intro index _
      rw [readByte, Chip.readByte, control, shown, mode]
      rfl

theorem accepts_chip {access : Access} :
    ¬(access.len = 0 ∨ !flash.ensureStorage.array.inRange access.offset.toNat access.len) ↔
      flash.chip.Accepts access := accepts_iff

/-- Both paths of an access answer as the chip does. -/
theorem access_response {access : Access} {debug : Bool} {reply : Reply}
    (accessed : flash.access access debug = some (reply, next)) :
    reply.response = (flash.chip.access access).1 := by
  unfold Chip.access
  unfold Flash.access at accessed
  split at accessed
  · unfold fastAccess at accessed
    dsimp only at accessed
    split at accessed
    · next refused =>
      obtain ⟨rfl, -⟩ := Prod.mk.inj (Option.some.inj accessed)
      rw [if_neg fun accepted => accepts_chip.mpr accepted refused]
    · next accepted =>
      rw [if_pos (accepts_chip.mp accepted)]
      cases access with
      | read offset len =>
          obtain ⟨rfl, -⟩ := Prod.mk.inj (Option.some.inj accessed)
          exact congrArg Response.ok (readData_chip flash _ _)
      | write offset data =>
          obtain ⟨written, -, same⟩ := Option.map_eq_some_iff.mp accessed
          obtain ⟨rfl, -⟩ := Prod.mk.inj same
          rfl
      | ignore offset len =>
          obtain ⟨rfl, -⟩ := Prod.mk.inj (Option.some.inj accessed)
          rfl
  · unfold fullAccess at accessed
    dsimp only at accessed
    split at accessed
    · next refused =>
      obtain ⟨rfl, -⟩ := Prod.mk.inj (Option.some.inj accessed)
      rw [if_neg fun accepted => accepts_chip.mpr accepted refused]
    · next accepted =>
      rw [if_pos (accepts_chip.mp accepted)]
      cases access with
      | read offset len =>
          obtain ⟨rfl, -⟩ := Prod.mk.inj (Option.some.inj accessed)
          exact congrArg Response.ok (readData_chip flash _ _)
      | write offset data =>
          obtain ⟨written, -, same⟩ := Option.map_eq_some_iff.mp accessed
          obtain ⟨rfl, -⟩ := Prod.mk.inj same
          rfl
      | ignore offset len =>
          obtain ⟨rfl, -⟩ := Prod.mk.inj (Option.some.inj accessed)
          rfl

theorem access_chip (wellFormed : flash.WellFormed) {access : Access} {debug : Bool}
    {reply : Reply} (accessed : flash.access access debug = some (reply, next)) :
    next.chip = (flash.chip.access access).2 := by
  rcases accessed_of_access accessed with ⟨looked, refused⟩ | ⟨offset, data, rfl, accepted, written⟩
  · rw [looked.chip]
    unfold Chip.access
    split
    · next accepted =>
      cases access with
      | write offset data => exact absurd accepted (refused offset data rfl)
      | read offset len => rfl
      | ignore offset len => rfl
    · rfl
  · obtain ⟨counted, wrote, counts, stored, after⟩ := written
    have before : counted.WellFormed :=
      counts.looked.sameCore.wellFormed (wellFormed_ensureStorage wellFormed)
    have inside : offset.toNat + data.length ≤ counted.array.size := by
      rw [counts.looked.sameCore.array]
      exact accepted.2
    have some := List.length_pos_iff.mp (Nat.pos_of_ne_zero accepted.1)
    unfold Chip.access
    rw [after.chip, chip_write before some inside stored, counts.chip, chip_ensureStorage,
      if_pos (show flash.chip.Accepts _ from accepted)]

theorem loadImage_contents (array : FlashArray) (offset : Nat) (data : List Byte) :
    FlashArray.SameContents
      { array with
        bytes := if offset + data.length ≤ array.size then array.bytes.write offset data
          else array.bytes }
      (array.loadImage offset data) := by
  unfold FlashArray.loadImage
  by_cases inside : offset + data.length ≤ array.size
  · rw [if_pos (FlashArray.inRange_iff.mpr inside), if_pos inside]
    exact FlashArray.SameContents.refreshSectorErasedRange (array.copy offset data) offset _
  · rw [if_neg (mt FlashArray.inRange_iff.mp inside), if_neg inside]
    exact FlashArray.SameContents.refl array

theorem ensureStorage_of_unallocated {array : FlashArray} (empty : array.size = 0)
    (size : Fin (2 ^ 63)) :
    array.ensureStorage size =
      { array with size := size.val, fits := FlashArray.size_lt size, bytes := fun _ => 0xff
        : FlashArray }.initializeSectorErasedMap := if_neg (not_not.mpr empty)

/-- The view of a flash with another array, which is as large. -/
theorem chip_of_contents {array : FlashArray} {bytes : Image}
    (same : FlashArray.SameContents { flash.ensureStorage.array with bytes := bytes } array)
    (blank : flash.ensureStorage.array.size = 0 → bytes = flash.ensureStorage.array.bytes) :
    { flash.ensureStorage with array := array }.chip = { flash.chip with bytes := bytes } := by
  have sectors : array.sectorSize = flash.array.sectorSize :=
    same.sectorSize.trans (ensureStorage_sectorSize flash)
  by_cases allocated : array.size = 0
  · have empty : flash.ensureStorage.array.size = 0 := same.size.symm.trans allocated
    have before : flash.array.size = 0 := by
      by_contra some
      rw [ensureStorage, ensureStorage_of_allocated some] at empty
      exact some empty
    have fresh : flash.ensureStorage.array.bytes = fun _ => 0xff := by
      rw [ensureStorage, ensureStorage_of_unallocated before]
      rfl
    have none : flash.params.size.val = 0 := by
      rw [ensureStorage, ensureStorage_of_unallocated before] at empty
      exact empty
    rw [chip, chip, blank empty, fresh, empty]
    dsimp only [ensureStorage]
    rw [ensureStorage_of_unallocated allocated, sectors]
    dsimp only [FlashArray.initializeSectorErasedMap]
    rw [none]
  · rw [@chip_of_allocated { flash.ensureStorage with array := array } allocated, same.size,
      same.bytes, sectors]
    rfl

theorem chip_loadImage (flash : Flash) (offset : Nat) (data : List Byte) :
    (flash.loadImage offset data).chip = flash.chip.loadImage offset data := by
  have same := loadImage_contents flash.ensureStorage.array offset data
  have loaded := chip_of_contents same fun empty => by
    by_cases inside : offset + data.length ≤ flash.ensureStorage.array.size
    · have none : data = [] := List.eq_nil_of_length_eq_zero (by omega)
      rw [if_pos inside, none]
      funext index
      exact Image.write_outside _ _ [] (by rw [List.length_nil]; omega)
    · exact if_neg inside
  show { flash.ensureStorage with
    array := flash.ensureStorage.array.loadImage offset data }.chip = _
  rw [loaded, Chip.loadImage]
  by_cases inside : offset + data.length ≤ flash.ensureStorage.array.size
  · rw [if_pos inside, if_pos (show offset + data.length ≤ flash.chip.size from inside)]
    rfl
  · rw [if_neg inside, if_neg (show ¬offset + data.length ≤ flash.chip.size from inside)]
    rfl

theorem chip_setSectorSize (flash : Flash) (size : BitVec 64) :
    (flash.setSectorSize size).chip = { flash.chip with sectorSize := size.toNat } := by
  by_cases allocated : flash.array.size = 0
  · have unallocated : (flash.setSectorSize size).array.size = 0 := allocated
    rw [chip, chip, ensureStorage, ensureStorage, ensureStorage_of_unallocated allocated,
      ensureStorage_of_unallocated unallocated]
    rfl
  · have still : (flash.setSectorSize size).array.size ≠ 0 := allocated
    rw [chip_of_allocated allocated, chip_of_allocated still]
    rfl

/-- Every event that leaves the size alone is one of the chip. -/
theorem respond_chip (wellFormed : flash.WellFormed) {event : FlashEvent}
    (keeps : event.KeepsGeometry) {output : FlashOutput}
    (responded : flash.respond event = some (output, next)) :
    (output.response, next.chip) = flash.chip.respond event := by
  have flushed := (WritesBack.flushDeferredBacking flash).sameCore
  have kept {other : Flash} (same : SameCore flash other) : other.chip = flash.chip := by
    rw [chip, chip, ensureStorage, ensureStorage, same.array, same.params, same.control,
      same.writeBuffer]
  cases event with
  | access access debug =>
      obtain ⟨⟨reply, next⟩, accessed, same⟩ := Option.map_eq_some_iff.mp responded
      obtain ⟨rfl, rfl⟩ := Prod.mk.inj same
      show (some reply.response, next.chip) = _
      rw [access_response accessed, access_chip wellFormed accessed]
      rfl
  | directMemory command offset len =>
      obtain ⟨rfl, rfl⟩ := Prod.mk.inj (Option.some.inj responded)
      exact congrArg (none, ·)
        (chip_of_sameCore (sameCore_getDirectMemPtr flash command offset.toNat len.toNat))
  | load offset data =>
      obtain ⟨rfl, rfl⟩ := Prod.mk.inj (Option.some.inj responded)
      exact congrArg (none, ·) (chip_loadImage flash offset.toNat data)
  | setSize size => exact keeps.elim
  | setSectorSize size =>
      obtain ⟨rfl, rfl⟩ := Prod.mk.inj (Option.some.inj responded)
      exact congrArg (none, ·) (chip_setSectorSize flash size)
  | setDeferBackingWrite enable =>
      obtain ⟨rfl, rfl⟩ := Prod.mk.inj (Option.some.inj responded)
      have same : SameCore flash (flash.setDeferBackingWrite enable) :=
        flushed.trans ⟨rfl, rfl, rfl, rfl⟩
      exact congrArg (none, ·) (kept same)
  | setDeferBackingFlushInterval interval =>
      obtain ⟨rfl, rfl⟩ := Prod.mk.inj (Option.some.inj responded)
      have same : SameCore flash (flash.setDeferBackingFlushInterval interval) :=
        flushed.trans ⟨rfl, rfl, rfl, rfl⟩
      exact congrArg (none, ·) (kept same)
  | setBackingFile path =>
      obtain ⟨rfl, rfl⟩ := Prod.mk.inj (Option.some.inj responded)
      have same : SameCore flash (flash.setBackingFile path) :=
        flushed.trans ⟨rfl, rfl, rfl, rfl⟩
      exact congrArg (none, ·) (kept same)
  | _ =>
      obtain ⟨rfl, rfl⟩ := Prod.mk.inj (Option.some.inj responded)
      rfl

/-- The answers to the accesses of a run. -/
def answers (flash : Flash) : List FlashEvent → Option (List (Option Response) × Flash)
  | [] => some ([], flash)
  | event :: rest =>
      (flash.respond event).bind fun (output, next) =>
        (next.answers rest).map fun (later, final) => (output.response :: later, final)

/-- A flash with sectors has an answer to every event that leaves them. -/
theorem respond_defined (wellFormed : flash.WellFormed) (sectors : flash.chip.sectorSize ≠ 0)
    (event : FlashEvent) : ∃ output next, flash.respond event = some (output, next) := by
  cases event with
  | access access debug =>
      have erases : ¬flash.ErasesWithoutSectors access := by
        rintro ⟨offset, data, -, -, -, -, zero⟩
        exact sectors (congrArg BitVec.toNat zero)
      obtain ⟨reply, next, accessed⟩ := access_defined wellFormed erases debug
      exact ⟨.reply reply, next, Option.map_eq_some_iff.mpr ⟨(reply, next), accessed, rfl⟩⟩
  | _ => exact ⟨_, _, rfl⟩

theorem answers_chip (wellFormed : flash.WellFormed) (sectors : flash.chip.sectorSize ≠ 0)
    {events : List FlashEvent} (keeps : ∀ event ∈ events, event.KeepsGeometry) :
    ∃ final, flash.answers events = some ((serve Chip.respond flash.chip events).1, final) ∧
      final.chip = (serve Chip.respond flash.chip events).2 := by
  induction events generalizing flash with
  | nil => exact ⟨flash, rfl, rfl⟩
  | cons event rest inductionHypothesis =>
      obtain ⟨output, next, responded⟩ := respond_defined wellFormed sectors event
      have here := respond_chip wellFormed (keeps event List.mem_cons_self) responded
      have still := Chip.sectorSize_respond (keeps event List.mem_cons_self) sectors
      rw [← here] at still
      have after := wellFormed_step wellFormed (congrArg (Option.map Prod.snd) responded)
      obtain ⟨final, answered, view⟩ := @inductionHypothesis next after still fun later member =>
        keeps later (List.mem_cons_of_mem _ member)
      refine ⟨final, ?_, ?_⟩
      · rw [answers, responded, Option.bind_some]
        dsimp only
        rw [answered, Option.map_some, serve_cons, ← here]
      · rw [view, serve_cons, ← here]

/-- The flash is a chip: the map of erased sectors, the shortcuts of erasing and programming, the
write-back, the direct access and the statistics change no answer to any access. -/
theorem refines_chip (config : FlashConfig) (sectors : config.sectorSize ≠ 0)
    {events : List FlashEvent} (keeps : ∀ event ∈ events, event.KeepsGeometry) :
    ∃ final, (start config).answers events =
        some ((serve Chip.respond (start config).chip events).1, final) ∧
      final.chip = (serve Chip.respond (start config).chip events).2 := by
  have nonzero : (start config).chip.sectorSize ≠ 0 := fun zero =>
    sectors (BitVec.eq_of_toNat_eq zero)
  exact answers_chip (wellFormed_start config) nonzero keeps

/-- A block erase between two reads. -/
def eraseRun : List FlashEvent :=
  [.load 4 [0x12, 0x34], .access (.read 4 2) false, .setTrace true,
    .access (.write 5 [cmdBlockErase]) false, .access (.write 5 [cmdBlockEraseAck]) true,
    .access (.write 0 [cmdReadArray]) false, .access (.read 4 2) false]

theorem refines_chip_erase :
    ∃ final, (start (smallConfig "" ⟨0, fun _ => 0⟩)).answers eraseRun =
        some ((serve Chip.respond (start (smallConfig "" ⟨0, fun _ => 0⟩)).chip eraseRun).1,
          final) ∧
      final.chip =
        (serve Chip.respond (start (smallConfig "" ⟨0, fun _ => 0⟩)).chip eraseRun).2 :=
  refines_chip _ (by decide) (by simp [eraseRun, FlashEvent.KeepsGeometry])

end Flash

end QboxPlatform.StrataFlash
