import QboxPlatform.Foundation.Checked
import QboxPlatform.StrataFlash.Step

/-!
# The flash with its checks written out

The same program with every division and every index on `m_data`, on the write buffer and on the
map of the erased sectors checked.  A run has an outcome only if none of the checks fails.
-/

namespace QboxPlatform.StrataFlash

open Foundation

namespace FlashArray

variable (array : FlashArray)

/-- `m_data[offset]` -/
def checkedByte (offset : Nat) : Option Byte :=
  if offset < array.size then some (array.bytes offset) else none

def checkedSectorCount : Option Nat :=
  if array.sectorSize = 0 ∨ array.size = 0 then some 0
  else
    checkedDiv ((array.size + array.sectorSize.toNat - 1) % 2 ^ 64) array.sectorSize.toNat

def checkedScanSector (index : Nat) : Option Bool := do
  let start := index * array.sectorSize.toNat % 2 ^ 64
  let last := array.sectorEnd start
  checkedRange start last array.size
  return array.allErased start last

def checkedInitializeSectorErasedMap : Option FlashArray := do
  let sectors ← array.checkedSectorCount
  return { array with
    sectorErasedMapSize := array.sectorSize
    sectorErased := List.replicate sectors true }

def checkedRebuildSectorErasedMap : Option FlashArray := do
  let sectors ← array.checkedSectorCount
  let assigned := { array with
    sectorErasedMapSize := array.sectorSize
    sectorErased := List.replicate sectors true }
  if array.sectorSize = 0 ∨ array.size = 0 then return assigned
  else
    let flags ← (List.range sectors).foldlM
      (fun flags index => (array.checkedScanSector index).bind (checkedSet flags index))
      assigned.sectorErased
    return { assigned with sectorErased := flags }

def checkedEnsureSectorErasedMap : Option FlashArray :=
  if array.sectorErasedMapSize ≠ array.sectorSize then array.checkedRebuildSectorErasedMap
  else do
    let sectors ← array.checkedSectorCount
    if array.sectorErased.length ≠ sectors then array.checkedRebuildSectorErasedMap
    else return array

def checkedRefreshSectorErasedRange (offset len : Nat) : Option FlashArray :=
  if len = 0 ∨ array.sectorSize = 0 ∨ array.size = 0 then some array
  else do
    let ensured ← array.checkedEnsureSectorErasedMap
    let first ← checkedDiv offset array.sectorSize.toNat
    let last ← checkedDiv ((offset + len - 1) % 2 ^ 64) array.sectorSize.toNat
    let behind := min (last + 1) ensured.sectorErased.length
    let flags ← (List.range' first (behind - first)).foldlM
      (fun flags index => (ensured.checkedScanSector index).bind (checkedSet flags index))
      ensured.sectorErased
    return { ensured with sectorErased := flags }

/-- The end of the functions that look for one sector: `index < m_sector_erased.size()` guards
the flag. -/
def checkedSetSector (offset : Nat) (erased : Bool) : Option FlashArray := do
  let index ← checkedDiv offset array.sectorSize.toNat
  if index < array.sectorErased.length then
    let flags ← checkedSet array.sectorErased index erased
    return { array with sectorErased := flags }
  else return array

def checkedMarkProgrammedByte (offset : Nat) : Option FlashArray :=
  if array.sectorSize = 0 ∨ array.size = 0 then some array
  else do
    let byte ← array.checkedByte offset
    if byte = 0xff then return array
    else
      let ensured ← array.checkedEnsureSectorErasedMap
      ensured.checkedSetSector offset false

def checkedMarkProgrammedRange (offset len : Nat) : Option FlashArray :=
  if len = 0 ∨ array.sectorSize = 0 ∨ array.size = 0 then some array
  else do
    let ensured ← array.checkedEnsureSectorErasedMap
    (List.range len).foldlM
      (fun marked index => do
        let byte ← marked.checkedByte (offset + index)
        if byte = 0xff then return marked
        else marked.checkedSetSector (offset + index) false)
      ensured

def checkedSectorIsErased (start : Nat) : Option (Bool × FlashArray) :=
  if array.sectorSize = 0 ∨ array.size = 0 then some (false, array)
  else do
    let ensured ← array.checkedEnsureSectorErasedMap
    let index ← checkedDiv start array.sectorSize.toNat
    if index < ensured.sectorErased.length then
      let erased ← ensured.sectorErased[index]?
      return (erased, ensured)
    else return (false, ensured)

def checkedMarkSectorErased (start : Nat) : Option FlashArray :=
  if array.sectorSize = 0 ∨ array.size = 0 then some array
  else do
    let ensured ← array.checkedEnsureSectorErasedMap
    ensured.checkedSetSector start true

/-- The `std::fill` of `erase_sector`. -/
def checkedFill (start last : Nat) : Option FlashArray := do
  checkedRange start last array.size
  return array.fill start last

def checkedEnsureStorage (size : Fin (2 ^ 63)) : Option FlashArray :=
  if array.size ≠ 0 then some array
  else
    { array with size := size.val, fits := size_lt size, bytes := fun _ => 0xff
      : FlashArray }.checkedInitializeSectorErasedMap

def checkedLoadImage (offset : Nat) (data : List Byte) : Option FlashArray :=
  if array.inRange offset data.length then do
    checkedRange offset (offset + data.length) array.size
    (array.copy offset data).checkedRefreshSectorErasedRange offset data.length
  else some array

end FlashArray

namespace Backing

variable (backing : Backing)

/-- The copy into the mapping; every write-back ends here. -/
def checkedCopyRange (array : FlashArray) (offset len : Nat) : Option (Bool × Backing) :=
  if !array.inRange offset len then some (false, backing)
  else
    match backing.mapping with
    | none => some (false, backing)
    | some mapping =>
        if mapping.size < offset ∨ mapping.size - offset < len then some (false, backing)
        else do
          checkedRange offset (offset + len) array.size
          return (true, { backing with
            files := Function.update backing.files mapping.path
              ((backing.files mapping.path).map fun file => file.copy array offset len) })

def checkedWriteWhileFlushing (array : FlashArray) (offset len : Nat) :
    Option (Bool × Backing) :=
  if len = 0 then some (false, backing)
  else
    let (opened, ensured) := backing.ensureWhileFlushing
    if opened then ensured.checkedCopyRange array offset len else some (false, ensured)

def checkedFlushDeferred (array : FlashArray) : Option (Bool × Backing) :=
  if !backing.dirty then some (false, backing)
  else if backing.backingFile = "" then some (false, backing)
  else do
    let (flushed, written) ←
      backing.checkedWriteWhileFlushing array backing.dirtyStart backing.dirtyLength
    if flushed then return (true, { written with dirty := false, deferredSinceFlush := 0 })
    else return (false, written)

end Backing

def Stats.checkedMaybeWriteStats (stats : Stats) : Option Stats :=
  let total := stats.counters .readAccesses + stats.counters .writeAccesses
  if stats.statsInterval = 0 ∨ stats.statsFile = "" ∨ total = 0 ∨
      total = stats.lastStatsAccess then some stats
  else do
    let rest ← checkedMod total.toNat stats.statsInterval.toNat
    if rest ≠ 0 then return stats
    else return { stats with lastStatsAccess := total }.writeStatsFile

namespace Flash

variable (flash : Flash)

def checkedFlushDeferredBacking : Option Flash := do
  let (flushed, backing) ← flash.backing.checkedFlushDeferred flash.array
  let next := { flash with backing := backing }
  if flushed then
    return (next.count .backingFlushOps 1).count .backingFlushBytes flash.backing.dirtyLength
  else return next

def checkedCloseBackingFile : Option Flash := do
  let flushed ← flash.checkedFlushDeferredBacking
  return { flushed with backing := flushed.backing.release }

def checkedEnsureBackingFile : Option (Bool × Flash) :=
  if flash.backing.backingFile = "" then do
    let closed ← flash.checkedCloseBackingFile
    return (false, closed)
  else if flash.backing.isOpen then some (true, flash)
  else do
    let closed ← flash.checkedCloseBackingFile
    let (opened, backing) := closed.backing.openBackingFile
    return (opened, { closed with backing := backing })

def checkedWriteBackingRangeNow (offset len : Nat) : Option (Bool × Flash) :=
  if len = 0 then some (false, flash)
  else do
    let (opened, ensured) ← flash.checkedEnsureBackingFile
    if opened then
      let (copied, backing) ← ensured.backing.checkedCopyRange ensured.array offset len
      return (copied, { ensured with backing := backing })
    else return (false, ensured)

def checkedWriteBackingRange (offset len : Nat) : Option Flash :=
  if len = 0 ∨ flash.backing.backingFile = "" then some flash
  else if !flash.array.inRange offset len then some flash
  else
    let counted := (flash.count .backingWriteOps 1).count .backingWriteBytes len
    if counted.backing.deferBackingWrite then
      let deferred := (counted.count .backingDeferredRanges 1).count .backingDeferredBytes len
      let marked := deferred.backing.markBackingDirty offset len
      let backing := { marked with deferredSinceFlush := marked.deferredSinceFlush + 1 }
      let next := { deferred with backing := backing }
      if backing.deferBackingFlushInterval ≠ 0 ∧
          backing.deferBackingFlushInterval.setWidth 64 ≤ backing.deferredSinceFlush then
        next.checkedFlushDeferredBacking
      else some next
    else do
      let (_, written) ← counted.checkedWriteBackingRangeNow offset len
      return written

def checkedEraseSector (offset : Nat) : Option Flash := do
  let quotient ← checkedDiv offset flash.array.sectorSize.toNat
  let start := quotient * flash.array.sectorSize.toNat
  let last := flash.array.sectorEnd start
  let counted := (flash.count .sectorEraseOps 1).count .sectorEraseBytes (last - start)
  let (erased, array) ← counted.array.checkedSectorIsErased start
  if erased then return { counted with array := array }.ready
  else
    let filled ← array.checkedFill start last
    let marked ← filled.checkedMarkSectorErased start
    let written ← { counted with array := marked }.checkedWriteBackingRange start (last - start)
    return written.ready

def checkedIsSectorAlignedProgramFfErase (offset : Nat) (data : List Byte) : Option Bool :=
  if flash.params.programFfErasesSector && data.length == 1 && data.getD 0 0 == 0xff &&
      flash.array.sectorSize != 0 then do
    let rest ← checkedMod offset flash.array.sectorSize.toNat
    return rest == 0
  else some false

def checkedProgramByte (offset : Nat) (value : Byte) : Option Flash := do
  let old ← flash.array.checkedByte offset
  let new := flash.programmedByte old value
  if new ≠ old then
    let marked ← (flash.array.copy offset [new]).checkedMarkProgrammedByte offset
    let written ← { flash with array := marked }.checkedWriteBackingRange offset 1
    return written.ready
  else return flash.ready

/-- The loop of `program`: each byte is read and written at the same index. -/
def checkedProgramLoop (offset : Nat) (data : List Byte) : Option ProgramLoop :=
  data.zipIdx.foldlM
    (fun loop item => do
      let _ ← flash.array.checkedByte (offset + item.2)
      return flash.programStep offset loop item.2 item.1)
    ⟨flash.array.bytes, 0, data.length, 0⟩

def checkedProgramRange (offset : Nat) (data : List Byte) : Option Flash := do
  let counted := (flash.count .programOps 1).count .programBytes data.length
  let loop ← counted.checkedProgramLoop offset data
  let programmed := (({ counted with array := { counted.array with bytes := loop.bytes }
    }.count .programChangedBytes loop.changed).count .programNoopBytes (data.length - loop.changed))
  if loop.firstChanged ≠ data.length then
    let first := offset + loop.firstChanged
    let length := loop.lastChanged - loop.firstChanged + 1
    let marked ← programmed.array.checkedMarkProgrammedRange first length
    let written ← { programmed with array := marked }.checkedWriteBackingRange first length
    return written.ready
  else return programmed.ready

def checkedProgram (offset : Nat) (data : List Byte) : Option Flash := do
  let erases ← flash.checkedIsSectorAlignedProgramFfErase offset data
  if erases then
    (((flash.count .programOps 1).count .programBytes data.length).count
      .compatFfSectorEraseOps 1).checkedEraseSector offset
  else if !flash.stats.collecting && data.length == 1 then
    flash.checkedProgramByte offset (data.getD 0 0)
  else flash.checkedProgramRange offset data

/-- The loop of `collect_write_buffer_data`. -/
def checkedCopyData (buffer : WriteBuffer) (relative : Nat) (data : List Byte) (count : Nat) :
    Option WriteBuffer :=
  (List.range count).foldlM
    (fun buffer index => do
      let value ← data[index]?
      let bytes ← checkedSet buffer.data (relative + index) value
      let written ← checkedSet buffer.written (relative + index) true
      return { buffer with data := bytes, written := written })
    buffer

def checkedCollectWriteBufferData (offset : Nat) (data : List Byte) : Option Flash :=
  let buffer := flash.writeBuffer
  let abandoned := { flash.clearWriteBuffer with
    control := { flash.control with pending := .none } }
  if buffer.data = [] ∨ offset < buffer.base ∨ buffer.base + buffer.data.length < offset then
    some abandoned
  else
    let relative := offset - buffer.base
    if buffer.data.length ≤ relative then some abandoned
    else do
      let copied ← checkedCopyData buffer relative data
        (min data.length (buffer.data.length - relative))
      let counted := { flash with writeBuffer := copied }.count .writeBufferDataWrites 1
      return { counted with
        control := { counted.control with mode := .readStatus, status := statusReady } }

def checkedConfirmWriteBuffer : Option Flash :=
  let counted := flash.count .writeBufferConfirmCmds 1
  if counted.writeBufferComplete then do
    let buffer := counted.writeBuffer
    let confirmed := (counted.count .writeBufferOps 1).count .writeBufferBytes buffer.data.length
    let programmed ← confirmed.checkedProgram buffer.base buffer.data
    return programmed.clearWriteBuffer
  else some counted.ready.clearWriteBuffer

def checkedHandleCommand (offset : Nat) (command : Byte) : Option Flash :=
  let recorded := flash.recordCommand command
  if recorded.control.pending = .erase ∧ command = cmdBlockEraseAck then
    recorded.checkedEraseSector offset
  else flash.handleCommand offset command

def checkedWrite (offset : Nat) (data : List Byte) : Option Flash :=
  if flash.control.pending = .program then flash.checkedProgram offset data
  else if flash.control.pending = .writeBufferCount then some (flash.beginWriteBuffer offset data)
  else if flash.control.pending = .writeBufferData then
    if flash.writeBufferComplete && data.length == 1 && data.getD 0 0 == cmdBlockEraseAck then
      flash.checkedConfirmWriteBuffer
    else flash.checkedCollectWriteBufferData offset data
  else flash.invalidateDmi.checkedHandleCommand offset (data.getD 0 0)

def checkedEnsureStorage : Option Flash := do
  let array ← flash.array.checkedEnsureStorage flash.params.size
  return { flash with array := array }

def checkedReadByte (offset : Nat) : Option Byte :=
  match flash.control.mode with
  | .readArray => flash.array.checkedByte offset
  | _ => some (flash.readByte offset)

def checkedReadData (offset len : Nat) : Option (List Byte) :=
  match flash.control.mode with
  | .readArray => do
      checkedRange offset (offset + len) flash.array.size
      return flash.array.bytes.read offset len
  | .readStatus => some (List.replicate len flash.control.status)
  | _ => (List.range len).mapM fun index => flash.checkedReadByte (offset + index)

def checkedFastAccess (access : Access) : Option (Reply × Flash) := do
  let flash ← flash.checkedEnsureStorage
  let offset := access.offset.toNat
  if access.len = 0 ∨ !flash.array.inRange offset access.len then
    return (⟨.addressError, none⟩, flash)
  else
    match access with
    | .read _ len =>
        let data ← flash.checkedReadData offset len
        return (⟨.ok data, some false⟩, flash)
    | .write _ data =>
        let next ← flash.checkedWrite offset data
        return (⟨.ok [], some false⟩, next)
    | .ignore _ _ => return (⟨.commandError, some false⟩, flash)

def checkedFinishAccess : Option Flash :=
  let traced := { flash with stats := flash.stats.trace }
  if traced.stats.collecting then do
    let stats ← traced.stats.checkedMaybeWriteStats
    return { traced with stats := stats }
  else some traced

def checkedFullAccess (access : Access) : Option (Reply × Flash) := do
  let flash ← flash.checkedEnsureStorage
  let offset := access.offset.toNat
  if access.len = 0 ∨ !flash.array.inRange offset access.len then
    return (⟨.addressError, none⟩, flash)
  else
    match access with
    | .read _ len =>
        let counted := (flash.count .readAccesses 1).count .readBytes len
        let data ← counted.checkedReadData offset len
        let (allowed, hinted) := counted.readHint offset len
        let next := if allowed then hinted.count .dmiReadHints 1 else hinted
        let finished ← next.checkedFinishAccess
        return (⟨.ok data, some allowed⟩, finished)
    | .write _ data =>
        let counted := (flash.count .writeAccesses 1).count .writeBytes data.length
        let next ← counted.checkedWrite offset data
        let finished ← next.checkedFinishAccess
        return (⟨.ok [], some false⟩, finished)
    | .ignore _ _ => return (⟨.commandError, some false⟩, flash)

def checkedAccess (access : Access) (debug : Bool) : Option (Reply × Flash) :=
  if !debug && !flash.stats.collecting && !flash.stats.traceEnabled && !flash.params.enableDmi then
    flash.checkedFastAccess access
  else flash.checkedFullAccess access

def checkedLoadImage (offset : Nat) (data : List Byte) : Option Flash := do
  let stored ← flash.checkedEnsureStorage
  let array ← stored.array.checkedLoadImage offset data
  return { stored with array := array }

def checkedSetSectorSize (size : BitVec 64) : Option Flash := do
  let array ← { flash.array with sectorSize := size }.checkedRebuildSectorErasedMap
  return { flash with array := array }

/-- The accesses, the loads and the changes of the parameters with their checks; a request for
direct access allocates the array. -/
def checkedStep : FlashEvent → Option Flash
  | .access access debug => (flash.checkedAccess access debug).map Prod.snd
  | .load offset data => flash.checkedLoadImage offset.toNat data
  | .setSectorSize size => flash.checkedSetSectorSize size
  | .setDeferBackingWrite enable => do
      let flushed ← flash.checkedFlushDeferredBacking
      return { flushed with backing := { flushed.backing with deferBackingWrite := enable } }
  | .setDeferBackingFlushInterval interval => do
      let flushed ← flash.checkedFlushDeferredBacking
      return { flushed with
        backing := { flushed.backing with deferBackingFlushInterval := interval } }
  | .setBackingFile path => do
      let flushed ← flash.checkedFlushDeferredBacking
      return { flushed with backing := { flushed.backing with backingFile := path } }
  | .directMemory command offset len => do
      let stored ← flash.checkedEnsureStorage
      return (stored.getDirectMemPtr command offset.toNat len.toNat).2
  | event => flash.step event

end Flash

end QboxPlatform.StrataFlash
