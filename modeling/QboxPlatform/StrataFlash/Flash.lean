import QboxPlatform.StrataFlash.Backing
import QboxPlatform.StrataFlash.DmiRanges
import QboxPlatform.Tlm

/-!
# The flash

`strata_flash_j3`: the command state machine over the array, its backing file, the direct access
it grants, and the statistics that count what it does.
-/

namespace QboxPlatform.StrataFlash

open Foundation

def cmdReadArray : Byte := 0xff
def cmdReadIdCode : Byte := 0x90
def cmdReadQuery : Byte := 0x98
def cmdReadStatusReg : Byte := 0x70
def cmdClearStatusReg : Byte := 0x50
def cmdWriteToBuffer : Byte := 0xe8
def cmdWordProgram : Byte := 0x40
def cmdBlockErase : Byte := 0x20
def cmdLockUnlock : Byte := 0x60
def cmdBlockEraseAck : Byte := 0xd0
def cmdLockBlock : Byte := 0x01
def statusReady : Byte := 0x80
def manufacturerId : Byte := 0x89
def deviceCode : Byte := 0x18
def writeBufferMax : Nat := 256

inductive Mode
  | readArray
  | readId
  | readQuery
  | readStatus
  deriving DecidableEq

inductive PendingCommand
  | none
  | program
  | writeBufferCount
  | writeBufferData
  | erase
  | lock
  deriving DecidableEq

/-- The counters that `count_stat` adds to. -/
inductive Counter
  | readAccesses | writeAccesses | readBytes | writeBytes
  | dmiReadHints | dmiRequests | dmiGrants
  | dmiRejectDisabled | dmiRejectState | dmiRejectCommand | dmiRejectRange | dmiInvalidations
  | commandWrites | readArrayCmds | readIdCmds | readQueryCmds | readStatusCmds
  | clearStatusCmds | writeBufferCmds | writeBufferCountWrites | writeBufferDataWrites
  | writeBufferConfirmCmds | writeBufferOps | writeBufferBytes | wordProgramCmds
  | blockEraseCmds | blockEraseAckCmds | lockUnlockCmds | lockBlockCmds | unknownCmds
  | programOps | programBytes | programChangedBytes | programNoopBytes
  | compatFfSectorEraseOps | sectorEraseOps | sectorEraseBytes
  | backingWriteOps | backingWriteBytes | backingDeferredRanges | backingDeferredBytes
  | backingFlushOps | backingFlushBytes
  deriving DecidableEq

/-- The counters, the reports written so far, and the parameters of statistics and trace.  The
file that the reports go to is another one than the backing file. -/
structure Stats where
  statsInterval : BitVec 32
  statsFile : String
  /-- `m_stats_collecting` -/
  collecting : Bool
  counters : Counter → BitVec 64
  lastStatsAccess : BitVec 64
  lastStatsDmiRequest : BitVec 64
  reports : List (Counter → BitVec 64)
  traceEnabled : Bool
  traceLimit : BitVec 32
  traceCount : BitVec 32

namespace Stats

variable (stats : Stats)

def refreshCollecting : Stats :=
  { stats with collecting := stats.statsInterval != 0 || stats.statsFile != "" }

def count (counter : Counter) (delta : BitVec 64) : Stats :=
  if stats.collecting then
    { stats with
      counters := Function.update stats.counters counter (stats.counters counter + delta) }
  else stats

def writeStatsFile : Stats :=
  if stats.statsFile = "" then stats
  else { stats with reports := stats.reports ++ [stats.counters] }

def maybeWriteStats : Stats :=
  let total := stats.counters .readAccesses + stats.counters .writeAccesses
  if stats.statsInterval = 0 ∨ stats.statsFile = "" ∨ total = 0 ∨ total = stats.lastStatsAccess ∨
      total % stats.statsInterval.setWidth 64 ≠ 0 then stats
  else { stats with lastStatsAccess := total }.writeStatsFile

def maybeWriteDmiStats (force : Bool) : Stats :=
  let requests := stats.counters .dmiRequests
  if stats.statsInterval = 0 ∨ stats.statsFile = "" ∨ requests = 0 ∨
      (force = false ∧ (requests = stats.lastStatsDmiRequest ∨
        requests % stats.statsInterval.setWidth 64 ≠ 0)) then stats
  else { stats with lastStatsDmiRequest := requests }.writeStatsFile

/-- `trace_access`. -/
def trace : Stats :=
  if !stats.traceEnabled || stats.traceLimit ≤ stats.traceCount then stats
  else { stats with traceCount := stats.traceCount + 1 }

end Stats

/-- A pointer into the array, or into the mapping of the backing file. -/
structure Grant where
  range : DmiRange
  mapping : Option Mapping
  deriving DecidableEq

/-- `m_mode`, `m_pending` and `m_status`. -/
structure Control where
  mode : Mode
  pending : PendingCommand
  status : Byte
  deriving DecidableEq

structure WriteBuffer where
  base : Nat
  data : List Byte
  written : List Bool
  deriving DecidableEq

/-- The parameters that no other part of the state holds. -/
structure Params where
  size : Fin (2 ^ 63)
  enableDmi : Bool
  programFfSetsBits : Bool
  programFfErasesSector : Bool

structure Flash where
  params : Params
  array : FlashArray
  control : Control
  writeBuffer : WriteBuffer
  dmiRanges : DmiRanges
  /-- `m_dmi_granted` -/
  dmiGranted : Bool
  /-- The direct access that was granted and not invalidated since. -/
  grants : List Grant
  backing : Backing
  stats : Stats

namespace Flash

variable (flash : Flash)

def count (counter : Counter) (delta : Nat) : Flash :=
  { flash with stats := flash.stats.count counter (BitVec.ofNat 64 delta) }

/-- The end of most commands: the flash is ready and shows its status. -/
def ready : Flash :=
  { flash with control := ⟨.readStatus, .none, statusReady⟩ }

def flushDeferredBacking : Flash :=
  let (flushed, backing) := flash.backing.flushDeferred flash.array
  let next := { flash with backing := backing }
  if flushed then
    (next.count .backingFlushOps 1).count .backingFlushBytes flash.backing.dirtyLength
  else next

def closeBackingFile : Flash :=
  let flushed := flash.flushDeferredBacking
  { flushed with backing := flushed.backing.release }

def ensureBackingFile : Bool × Flash :=
  if flash.backing.backingFile = "" then (false, flash.closeBackingFile)
  else if flash.backing.isOpen then (true, flash)
  else
    let closed := flash.closeBackingFile
    let (opened, backing) := closed.backing.openBackingFile
    (opened, { closed with backing := backing })

def writeBackingRangeNow (offset len : Nat) : Bool × Flash :=
  if len = 0 then (false, flash)
  else
    let (opened, ensured) := flash.ensureBackingFile
    if opened then
      let (copied, backing) := ensured.backing.copyRange ensured.array offset len
      (copied, { ensured with backing := backing })
    else (false, ensured)

def writeBackingRange (offset len : Nat) : Flash :=
  if len = 0 ∨ flash.backing.backingFile = "" then flash
  else if !flash.array.inRange offset len then flash
  else
    let counted := (flash.count .backingWriteOps 1).count .backingWriteBytes len
    if counted.backing.deferBackingWrite then
      let deferred := (counted.count .backingDeferredRanges 1).count .backingDeferredBytes len
      let marked := deferred.backing.markBackingDirty offset len
      let backing := { marked with deferredSinceFlush := marked.deferredSinceFlush + 1 }
      let next := { deferred with backing := backing }
      if backing.deferBackingFlushInterval ≠ 0 ∧
          backing.deferBackingFlushInterval.setWidth 64 ≤ backing.deferredSinceFlush then
        next.flushDeferredBacking
      else next
    else (counted.writeBackingRangeNow offset len).2

/-- `erase_sector`; with a sector size of zero it divides by zero. -/
def eraseSector (offset : Nat) : Option Flash :=
  if flash.array.sectorSize = 0 then none
  else
    let start := flash.array.sectorStart offset
    let last := flash.array.sectorEnd start
    let counted := (flash.count .sectorEraseOps 1).count .sectorEraseBytes (last - start)
    let (erased, array) := counted.array.sectorIsErased start
    if erased then some { counted with array := array }.ready
    else
      let filled := (array.fillSector offset).markSectorErased start
      some ({ counted with array := filled }.writeBackingRange start (last - start)).ready

def isSectorAlignedProgramFfErase (offset : Nat) (data : List Byte) : Bool :=
  flash.params.programFfErasesSector && data.length == 1 && data.getD 0 0 == 0xff &&
    flash.array.sectorSize != 0 && offset % flash.array.sectorSize.toNat == 0

/-- What programming makes of a byte. -/
def programmedByte (old value : Byte) : Byte :=
  if flash.params.programFfSetsBits ∧ value = 0xff then 0xff else old &&& value

/-- The shortcut of `program` for one byte. -/
def programByte (offset : Nat) (value : Byte) : Flash :=
  let old := flash.array.bytes offset
  let new := flash.programmedByte old value
  let next :=
    if new ≠ old then
      { flash with array := (flash.array.copy offset [new]).markProgrammedByte offset
        }.writeBackingRange offset 1
    else flash
  next.ready

/-- The loop of `program`: the bytes, how many changed, and the first and the last of them. -/
structure ProgramLoop where
  bytes : Image
  changed : Nat
  firstChanged : Nat
  lastChanged : Nat

def programStep (offset : Nat) (loop : ProgramLoop) (position : Nat) (value : Byte) :
    ProgramLoop :=
  let old := loop.bytes (offset + position)
  let new := flash.programmedByte old value
  if new = old then loop
  else
    { bytes := loop.bytes.write (offset + position) [new]
      changed := loop.changed + 1
      firstChanged := min loop.firstChanged position
      lastChanged := position }

def programLoop (offset : Nat) (data : List Byte) : ProgramLoop :=
  data.zipIdx.foldl (fun loop (value, position) => flash.programStep offset loop position value)
    ⟨flash.array.bytes, 0, data.length, 0⟩

/-- The general path of `program`. -/
def programRange (offset : Nat) (data : List Byte) : Flash :=
  let counted := (flash.count .programOps 1).count .programBytes data.length
  let loop := counted.programLoop offset data
  let programmed := (({ counted with array := { counted.array with bytes := loop.bytes }
    }.count .programChangedBytes loop.changed).count .programNoopBytes (data.length - loop.changed))
  let next :=
    if loop.firstChanged ≠ data.length then
      let first := offset + loop.firstChanged
      let length := loop.lastChanged - loop.firstChanged + 1
      { programmed with array := programmed.array.markProgrammedRange first length
        }.writeBackingRange first length
    else programmed
  next.ready

def program (offset : Nat) (data : List Byte) : Option Flash :=
  if flash.isSectorAlignedProgramFfErase offset data then
    (((flash.count .programOps 1).count .programBytes data.length).count
      .compatFfSectorEraseOps 1).eraseSector offset
  else if !flash.stats.collecting && data.length == 1 then
    some (flash.programByte offset (data.getD 0 0))
  else some (flash.programRange offset data)

def clearWriteBuffer : Flash := { flash with writeBuffer := ⟨0, [], []⟩ }

def writeBufferComplete : Bool :=
  flash.writeBuffer.written ≠ [] && flash.writeBuffer.written.all id

def countValue (data : List Byte) : Nat := if data = [] then 0 else (data.getD 0 0).toNat + 1

def beginWriteBuffer (offset : Nat) (data : List Byte) : Flash :=
  let number := countValue data
  let counted := flash.count .writeBufferCountWrites 1
  if number = 0 ∨ writeBufferMax < number ∨ !counted.array.inRange offset number then
    counted.clearWriteBuffer.ready
  else
    { counted with
      writeBuffer := ⟨offset, List.replicate number 0xff, List.replicate number false⟩
      control := ⟨.readStatus, .writeBufferData, statusReady⟩ }

/-- The list with a part replaced, as far as it goes. -/
def overwrite {Item : Type} (items : List Item) (position : Nat) (data : List Item) : List Item :=
  items.mapIdx fun index item =>
    if position ≤ index then data.getD (index - position) item else item

def collectWriteBufferData (offset : Nat) (data : List Byte) : Flash :=
  let buffer := flash.writeBuffer
  let abandoned := { flash.clearWriteBuffer with
    control := { flash.control with pending := .none } }
  if buffer.data = [] ∨ offset < buffer.base ∨ buffer.base + buffer.data.length < offset then
    abandoned
  else
    let relative := offset - buffer.base
    if buffer.data.length ≤ relative then abandoned
    else
      let copied := data.take (buffer.data.length - relative)
      let collected := { flash with
        writeBuffer :=
          { buffer with
            data := overwrite buffer.data relative copied
            written := overwrite buffer.written relative (copied.map fun _ => true) } }
      let counted := collected.count .writeBufferDataWrites 1
      { counted with
        control := { counted.control with mode := .readStatus, status := statusReady } }

def confirmWriteBuffer : Option Flash :=
  let counted := flash.count .writeBufferConfirmCmds 1
  if counted.writeBufferComplete then
    let buffer := counted.writeBuffer
    let confirmed := (counted.count .writeBufferOps 1).count .writeBufferBytes buffer.data.length
    (confirmed.program buffer.base buffer.data).map clearWriteBuffer
  else some counted.ready.clearWriteBuffer

/-- The counter of a command. -/
def commandCounter (command : Byte) : Counter :=
  if command = cmdReadArray then .readArrayCmds
  else if command = cmdReadIdCode then .readIdCmds
  else if command = cmdReadQuery then .readQueryCmds
  else if command = cmdReadStatusReg then .readStatusCmds
  else if command = cmdClearStatusReg then .clearStatusCmds
  else if command = cmdWriteToBuffer then .writeBufferCmds
  else if command = cmdWordProgram then .wordProgramCmds
  else if command = cmdBlockErase then .blockEraseCmds
  else if command = cmdBlockEraseAck then .blockEraseAckCmds
  else if command = cmdLockUnlock then .lockUnlockCmds
  else if command = cmdLockBlock then .lockBlockCmds
  else .unknownCmds

def recordCommand (command : Byte) : Flash :=
  (flash.count .commandWrites 1).count (commandCounter command) 1

def setMode (mode : Mode) : Flash := { flash with control := { flash.control with mode := mode } }

def setPending (pending : PendingCommand) : Flash :=
  { flash with control := { flash.control with pending := pending } }

/-- The second `switch` of `handle_command`: a command of its own. -/
def startCommand (command : Byte) : Flash :=
  if command = cmdReadArray then flash.setMode .readArray
  else if command = cmdReadIdCode then flash.setMode .readId
  else if command = cmdReadQuery then flash.setMode .readQuery
  else if command = cmdReadStatusReg ∨ command = cmdClearStatusReg then
    { flash with control := { flash.control with mode := .readStatus, status := statusReady } }
  else if command = cmdWriteToBuffer then
    { flash.clearWriteBuffer with control := ⟨.readStatus, .writeBufferCount, statusReady⟩ }
  else if command = cmdWordProgram then flash.setPending .program
  else if command = cmdBlockErase then flash.setPending .erase
  else if command = cmdLockUnlock then flash.setPending .lock
  else (flash.setMode .readArray).setPending .none

def handleCommand (offset : Nat) (command : Byte) : Option Flash :=
  let recorded := flash.recordCommand command
  match recorded.control.pending with
  | .none | .program => some (recorded.startCommand command)
  | .writeBufferCount | .writeBufferData =>
      some ((recorded.clearWriteBuffer.setPending .none).startCommand command)
  | .erase =>
      if command = cmdBlockEraseAck then recorded.eraseSector offset
      else some ((recorded.setPending .none).startCommand command)
  | .lock =>
      if command = cmdLockBlock ∨ command = cmdBlockEraseAck then some recorded.ready
      else some ((recorded.setPending .none).startCommand command)

/-- `invalidate_dmi`; the initiators drop what they were granted. -/
def invalidateDmi : Flash :=
  if !flash.dmiGranted || !flash.params.enableDmi || flash.array.size == 0 then flash
  else { flash.count .dmiInvalidations 1 with dmiGranted := false, grants := [] }

def write (offset : Nat) (data : List Byte) : Option Flash :=
  if flash.control.pending = .program then flash.program offset data
  else if flash.control.pending = .writeBufferCount then some (flash.beginWriteBuffer offset data)
  else if flash.control.pending = .writeBufferData then
    if flash.writeBufferComplete && data.length == 1 && data.getD 0 0 == cmdBlockEraseAck then
      flash.confirmWriteBuffer
    else some (flash.collectWriteBufferData offset data)
  else flash.invalidateDmi.handleCommand offset (data.getD 0 0)

/-- What a transaction brings back; the hint is left alone by an address error. -/
structure Reply where
  response : Response
  dmiAllowed : Option Bool
  deriving DecidableEq

def ensureStorage : Flash := { flash with array := flash.array.ensureStorage flash.params.size }

def readByte (offset : Nat) : Byte :=
  match flash.control.mode with
  | .readArray => flash.array.bytes offset
  | .readId => if offset = 0 then manufacturerId else if offset = 4 then deviceCode else 0
  | .readQuery =>
      if offset = 0x10 then 0x51 else if offset = 0x11 then 0x52
      else if offset = 0x12 then 0x59 else 0
  | .readStatus => flash.control.status

/-- The data of a read. -/
def readData (offset len : Nat) : List Byte :=
  match flash.control.mode with
  | .readArray => flash.array.bytes.read offset len
  | .readStatus => List.replicate len flash.control.status
  | _ => (List.range len).map fun index => flash.readByte (offset + index)

/-- The hint of a read, and the flash with the ranges that it may have parsed. -/
def readHint (offset len : Nat) : Bool × Flash :=
  if flash.params.enableDmi ∧ flash.control.mode = .readArray ∧ flash.control.pending = .none then
    let (range, dmiRanges) := flash.dmiRanges.find flash.array.size offset len
    (range.isSome, { flash with dmiRanges := dmiRanges })
  else (false, flash)

def fastAccess (access : Access) : Option (Reply × Flash) :=
  let flash := flash.ensureStorage
  let offset := access.offset.toNat
  if access.len = 0 ∨ !flash.array.inRange offset access.len then
    some (⟨.addressError, none⟩, flash)
  else
    match access with
    | .read _ len => some (⟨.ok (flash.readData offset len), some false⟩, flash)
    | .write _ data => (flash.write offset data).map fun next => (⟨.ok [], some false⟩, next)
    | .ignore _ _ => some (⟨.commandError, some false⟩, flash)

/-- The end of an access: the trace and the statistics. -/
def finishAccess : Flash :=
  let traced := { flash with stats := flash.stats.trace }
  if traced.stats.collecting then { traced with stats := traced.stats.maybeWriteStats } else traced

/-- The rest of `access`, when it does not take the fast path. -/
def fullAccess (access : Access) : Option (Reply × Flash) :=
  let flash := flash.ensureStorage
  let offset := access.offset.toNat
  if access.len = 0 ∨ !flash.array.inRange offset access.len then
    some (⟨.addressError, none⟩, flash)
  else
    match access with
    | .read _ len =>
        let counted := (flash.count .readAccesses 1).count .readBytes len
        let (allowed, hinted) := counted.readHint offset len
        let next := if allowed then hinted.count .dmiReadHints 1 else hinted
        some (⟨.ok (counted.readData offset len), some allowed⟩, next.finishAccess)
    | .write _ data =>
        let counted := (flash.count .writeAccesses 1).count .writeBytes data.length
        (counted.write offset data).map fun next => (⟨.ok [], some false⟩, next.finishAccess)
    | .ignore _ _ => some (⟨.commandError, some false⟩, flash)

def access (access : Access) (debug : Bool) : Option (Reply × Flash) :=
  if !debug && !flash.stats.collecting && !flash.stats.traceEnabled && !flash.params.enableDmi then
    flash.fastAccess access
  else flash.fullAccess access

inductive DmiCommand
  | read
  | write
  | ignore
  deriving DecidableEq

/-- A refused request. -/
def rejectDmi (counter : Counter) : Option Grant × Flash :=
  let counted := flash.count counter 1
  (none, if counted.stats.collecting then
    { counted with stats := counted.stats.maybeWriteDmiStats false } else counted)

/-- The pointer of a grant: into the mapping when it covers the range, else into the array. -/
def dmiPointer (range : DmiRange) : Option Mapping × Flash :=
  if flash.backing.backingFile = "" then (none, flash)
  else
    let (opened, ensured) := flash.ensureBackingFile
    (if opened then ensured.backing.mapping.filter fun mapping => range.last < mapping.size
      else none, ensured)

def grantDmi (range : DmiRange) : Option Grant × Flash :=
  let (mapping, pointed) := flash.flushDeferredBacking.dmiPointer range
  let counted := pointed.count .dmiGrants 1
  let reported :=
    if counted.stats.collecting then
      { counted with
        stats := counted.stats.maybeWriteDmiStats (counted.stats.counters .dmiGrants == 1) }
    else counted
  let grant := ⟨range, mapping⟩
  (some grant, { reported with dmiGranted := true, grants := reported.grants ++ [grant] })

def getDirectMemPtr (command : DmiCommand) (offset len : Nat) : Option Grant × Flash :=
  let requested := flash.ensureStorage.count .dmiRequests 1
  if !requested.params.enableDmi then requested.rejectDmi .dmiRejectDisabled
  else if requested.control.mode ≠ .readArray ∨ requested.control.pending ≠ .none then
    requested.rejectDmi .dmiRejectState
  else if command = .write then requested.rejectDmi .dmiRejectCommand
  else
    let (range, dmiRanges) := requested.dmiRanges.find requested.array.size offset len
    let found := { requested with dmiRanges := dmiRanges }
    match range with
    | none => found.rejectDmi .dmiRejectRange
    | some range => found.grantDmi range

end Flash

end QboxPlatform.StrataFlash
