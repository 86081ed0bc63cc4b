import QboxPlatform.StrataFlash.FlashArray

/-!
# The backing file

The file behind the array is opened at its first use and mapped into memory, so that a copy into
the mapping is a write to the file.  Deferred writes are merged into one dirty range.
-/

namespace QboxPlatform.StrataFlash

open Foundation

/-- A host file. -/
structure File where
  size : Nat
  bytes : Image

/-- The file with some of its bytes replaced by those of the array. -/
def File.copy (file : File) (array : FlashArray) (offset len : Nat) : File :=
  { file with bytes := file.bytes.write offset (array.bytes.read offset len) }

/-- An open and mapped file; the number tells the mappings apart. -/
structure Mapping where
  path : String
  size : Nat
  number : Nat
  deriving DecidableEq

structure Backing where
  /-- `m_backing_file_value` -/
  backingFile : String
  deferBackingWrite : Bool
  deferBackingFlushInterval : BitVec 32
  mapping : Option Mapping
  dirty : Bool
  dirtyStart : Nat
  dirtyEnd : Nat
  deferredSinceFlush : BitVec 64
  /-- The host files that can be opened and mapped. -/
  files : String → Option File
  /-- The mappings made so far. -/
  mappings : Nat

namespace Backing

variable (backing : Backing)

/-- The end of `close_backing_file`, after the flush. -/
def release : Backing := { backing with mapping := none }

/-- The handle is open for the configured file. -/
def isOpen : Bool := backing.mapping.any fun mapping => mapping.path == backing.backingFile

/-- The end of `ensure_backing_file`: open and map the configured file.  Closing an empty file
flushes once more when no flush is under way, which fails in the same way. -/
def openBackingFile : Bool × Backing :=
  match backing.files backing.backingFile with
  | none => (false, backing)
  | some file =>
      if file.size = 0 then (false, backing)
      else
        (true, { backing with
          mapping := some ⟨backing.backingFile, file.size, backing.mappings⟩
          mappings := backing.mappings + 1 })

/-- `ensure_backing_file` while a flush is under way, when closing the file does not flush. -/
def ensureWhileFlushing : Bool × Backing :=
  if backing.backingFile = "" then (false, backing.release)
  else if backing.isOpen then (true, backing)
  else backing.release.openBackingFile

/-- The end of `write_backing_range_now`: copy a range of the array into the mapping. -/
def copyRange (array : FlashArray) (offset len : Nat) : Bool × Backing :=
  if !array.inRange offset len then (false, backing)
  else
    match backing.mapping with
    | none => (false, backing)
    | some mapping =>
        if mapping.size < offset ∨ mapping.size - offset < len then (false, backing)
        else
          (true, { backing with
            files := Function.update backing.files mapping.path
              ((backing.files mapping.path).map fun file => file.copy array offset len) })

/-- `write_backing_range_now`, called from the flush. -/
def writeWhileFlushing (array : FlashArray) (offset len : Nat) : Bool × Backing :=
  if len = 0 then (false, backing)
  else
    let (opened, ensured) := backing.ensureWhileFlushing
    if opened then ensured.copyRange array offset len else (false, ensured)

def dirtyLength : Nat := backing.dirtyEnd - backing.dirtyStart + 1

/-- `flush_deferred_backing`, and whether the dirty range was written. -/
def flushDeferred (array : FlashArray) : Bool × Backing :=
  if !backing.dirty then (false, backing)
  else if backing.backingFile = "" then (false, backing)
  else
    let (flushed, written) :=
      backing.writeWhileFlushing array backing.dirtyStart backing.dirtyLength
    if flushed then (true, { written with dirty := false, deferredSinceFlush := 0 })
    else (false, written)

def markBackingDirty (offset len : Nat) : Backing :=
  if len = 0 then backing
  else
    let last := offset + len - 1
    if !backing.dirty then { backing with dirty := true, dirtyStart := offset, dirtyEnd := last }
    else
      { backing with
        dirtyStart := min backing.dirtyStart offset
        dirtyEnd := max backing.dirtyEnd last }

end Backing

end QboxPlatform.StrataFlash
