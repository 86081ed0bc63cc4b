import QboxPlatform.Foundation.Run
import QboxPlatform.StrataFlash.Flash

/-!
# Runs of the flash

The events a flash can see, in any order: accesses, requests for direct access, image loads and
changes of the parameters.
-/

namespace QboxPlatform.StrataFlash

open Foundation

/-- The parameters at construction, and the host files. -/
structure FlashConfig where
  params : Params
  sectorSize : BitVec 64
  dmiRanges : List Char
  backingFile : String
  deferBackingWrite : Bool
  deferBackingFlushInterval : BitVec 32
  files : String → Option File
  statsInterval : BitVec 32
  statsFile : String
  trace : Bool
  traceLimit : BitVec 32

inductive FlashEvent
  | access (access : Access) (debug : Bool)
  | directMemory (command : Flash.DmiCommand) (offset : BitVec 64) (len : BitVec 32)
  | load (offset : BitVec 64) (data : List Byte)
  | setSize (size : Fin (2 ^ 63))
  | setEnableDmi (enable : Bool)
  | setProgramFfSetsBits (enable : Bool)
  | setProgramFfErasesSector (enable : Bool)
  | setDeferBackingWrite (enable : Bool)
  | setDeferBackingFlushInterval (interval : BitVec 32)
  | setSectorSize (size : BitVec 64)
  | setDmiRanges (spec : List Char)
  | setBackingFile (path : String)
  | setStatsInterval (interval : BitVec 32)
  | setStatsFile (path : String)
  | setTrace (enable : Bool)
  | setTraceLimit (limit : BitVec 32)

/-- What an event brings back to its initiator. -/
inductive FlashOutput
  | none
  | reply (reply : Flash.Reply)
  | grant (grant : Option Grant)
  deriving DecidableEq

namespace Flash

/-- The flash after its construction; the array is allocated at its first use. -/
def start (config : FlashConfig) : Flash where
  params := config.params
  array :=
    { size := 0, fits := by decide, bytes := fun _ => 0, sectorSize := config.sectorSize
      sectorErased := [], sectorErasedMapSize := 0 }
  control := ⟨.readArray, .none, statusReady⟩
  writeBuffer := ⟨0, [], []⟩
  dmiRanges := ⟨config.dmiRanges, [], [], true⟩
  dmiGranted := false
  grants := []
  backing :=
    { backingFile := config.backingFile
      deferBackingWrite := config.deferBackingWrite
      deferBackingFlushInterval := config.deferBackingFlushInterval
      mapping := none, dirty := false, dirtyStart := 0, dirtyEnd := 0, deferredSinceFlush := 0
      files := config.files, mappings := 0 }
  stats :=
    Stats.refreshCollecting
      { statsInterval := config.statsInterval, statsFile := config.statsFile, collecting := false
        counters := fun _ => 0, lastStatsAccess := 0, lastStatsDmiRequest := 0, reports := []
        traceEnabled := config.trace, traceLimit := config.traceLimit, traceCount := 0 }

/-- Four sectors of four bytes. -/
def smallConfig (backingFile : String) (file : File) : FlashConfig where
  params := ⟨16, true, false, false⟩
  sectorSize := 4
  dmiRanges := []
  backingFile := backingFile
  deferBackingWrite := false
  deferBackingFlushInterval := 1024
  files := fun path => if path = backingFile then some file else none
  statsInterval := 0
  statsFile := ""
  trace := false
  traceLimit := 64

variable (flash : Flash)

/-- `load_image`. -/
def loadImage (offset : Nat) (data : List Byte) : Flash :=
  let stored := flash.ensureStorage
  { stored with array := stored.array.loadImage offset data }

def setDeferBackingWrite (enable : Bool) : Flash :=
  let flushed := flash.flushDeferredBacking
  { flushed with backing := { flushed.backing with deferBackingWrite := enable } }

def setDeferBackingFlushInterval (interval : BitVec 32) : Flash :=
  let flushed := flash.flushDeferredBacking
  { flushed with backing := { flushed.backing with deferBackingFlushInterval := interval } }

def setSectorSize (size : BitVec 64) : Flash :=
  { flash with array := { flash.array with sectorSize := size }.rebuildSectorErasedMap }

def setBackingFile (path : String) : Flash :=
  let flushed := flash.flushDeferredBacking
  { flushed with backing := { flushed.backing with backingFile := path } }

/-- The outcome of an event; `none` says that the program leaves it undefined. -/
def respond : FlashEvent → Option (FlashOutput × Flash)
  | .access access debug =>
      (flash.access access debug).map fun (reply, next) => (.reply reply, next)
  | .directMemory command offset len =>
      let (grant, next) := flash.getDirectMemPtr command offset.toNat len.toNat
      some (.grant grant, next)
  | .load offset data => some (.none, flash.loadImage offset.toNat data)
  | .setSize size => some (.none, { flash with params := { flash.params with size := size } })
  | .setEnableDmi enable =>
      some (.none, { flash with params := { flash.params with enableDmi := enable } })
  | .setProgramFfSetsBits enable =>
      some (.none, { flash with params := { flash.params with programFfSetsBits := enable } })
  | .setProgramFfErasesSector enable =>
      some (.none, { flash with params := { flash.params with programFfErasesSector := enable } })
  | .setDeferBackingWrite enable => some (.none, flash.setDeferBackingWrite enable)
  | .setDeferBackingFlushInterval interval =>
      some (.none, flash.setDeferBackingFlushInterval interval)
  | .setSectorSize size => some (.none, flash.setSectorSize size)
  | .setDmiRanges spec =>
      some (.none, { flash with dmiRanges := { flash.dmiRanges with spec := spec } })
  | .setBackingFile path => some (.none, flash.setBackingFile path)
  | .setStatsInterval interval =>
      some (.none, { flash with
        stats := { flash.stats with statsInterval := interval }.refreshCollecting })
  | .setStatsFile path =>
      some (.none, { flash with
        stats := { flash.stats with statsFile := path }.refreshCollecting })
  | .setTrace enable =>
      some (.none, { flash with stats := { flash.stats with traceEnabled := enable } })
  | .setTraceLimit limit =>
      some (.none, { flash with stats := { flash.stats with traceLimit := limit } })

def step (event : FlashEvent) : Option Flash := (flash.respond event).map Prod.snd

theorem flushDeferredBacking_backing (flash : Flash) :
    flash.flushDeferredBacking.backing = (flash.backing.flushDeferred flash.array).2 := by
  unfold flushDeferredBacking
  dsimp only
  split
  · rfl
  · rfl

/-- Two flashes that differ in their backing files and their statistics only. -/
structure WritesBack (before after : Flash) : Prop where
  params : after.params = before.params
  array : after.array = before.array
  control : after.control = before.control
  writeBuffer : after.writeBuffer = before.writeBuffer
  dmiRanges : after.dmiRanges = before.dmiRanges
  dmiGranted : after.dmiGranted = before.dmiGranted
  grants : after.grants = before.grants

namespace WritesBack

variable {flash}

theorem refl (flash : Flash) : WritesBack flash flash := ⟨rfl, rfl, rfl, rfl, rfl, rfl, rfl⟩

theorem trans {first second third : Flash} (left : WritesBack first second)
    (right : WritesBack second third) : WritesBack first third :=
  ⟨right.params.trans left.params, right.array.trans left.array,
    right.control.trans left.control, right.writeBuffer.trans left.writeBuffer,
    right.dmiRanges.trans left.dmiRanges, right.dmiGranted.trans left.dmiGranted,
    right.grants.trans left.grants⟩

theorem count (flash : Flash) (counter : Counter) (delta : Nat) :
    WritesBack flash (flash.count counter delta) := ⟨rfl, rfl, rfl, rfl, rfl, rfl, rfl⟩

theorem backing (flash : Flash) (backing : Backing) :
    WritesBack flash { flash with backing := backing } := ⟨rfl, rfl, rfl, rfl, rfl, rfl, rfl⟩

theorem flushDeferredBacking (flash : Flash) : WritesBack flash flash.flushDeferredBacking := by
  unfold Flash.flushDeferredBacking
  dsimp only
  split
  · exact ((backing flash _).trans (count _ _ _)).trans (count _ _ _)
  · exact backing flash _

theorem closeBackingFile (flash : Flash) : WritesBack flash flash.closeBackingFile :=
  (flushDeferredBacking flash).trans (backing _ _)

theorem ensureBackingFile (flash : Flash) : WritesBack flash flash.ensureBackingFile.2 := by
  unfold Flash.ensureBackingFile
  split
  · exact closeBackingFile flash
  · split
    · exact refl flash
    · exact (closeBackingFile flash).trans (backing _ _)

theorem writeBackingRangeNow (flash : Flash) (offset len : Nat) :
    WritesBack flash (flash.writeBackingRangeNow offset len).2 := by
  unfold Flash.writeBackingRangeNow
  split
  · exact refl flash
  · dsimp only
    split
    · exact (ensureBackingFile flash).trans (backing _ _)
    · exact ensureBackingFile flash

theorem writeBackingRange (flash : Flash) (offset len : Nat) :
    WritesBack flash (flash.writeBackingRange offset len) := by
  have counted := (count flash .backingWriteOps 1).trans (count _ .backingWriteBytes len)
  unfold Flash.writeBackingRange
  split
  · exact refl flash
  · split
    · exact refl flash
    · dsimp only
      split
      · have deferred := (counted.trans (count _ .backingDeferredRanges 1)).trans
          (count _ .backingDeferredBytes len)
        split
        · exact (deferred.trans (backing _ _)).trans (flushDeferredBacking _)
        · exact deferred.trans (backing _ _)
      · exact counted.trans (writeBackingRangeNow _ offset len)

end WritesBack

end Flash

end QboxPlatform.StrataFlash
