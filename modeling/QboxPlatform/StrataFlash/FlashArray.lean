import QboxPlatform.Foundation.Bytes

/-!
# The array of the flash and its erased sectors

`m_data` with the map of the sectors that are known to be erased.  The map is kept for the sector
size it was built with, and rebuilt when that or the number of sectors is another one.
-/

namespace QboxPlatform.StrataFlash

open Foundation

/-- `m_data` is a vector of `size` bytes; a vector is shorter than `2 ^ 63` bytes. -/
structure FlashArray where
  size : Nat
  fits : size < 2 ^ 63
  bytes : Image
  sectorSize : BitVec 64
  sectorErased : List Bool
  sectorErasedMapSize : BitVec 64

namespace FlashArray

section Geometry

variable (array : FlashArray)

def sectorCount : Nat :=
  if array.sectorSize = 0 ∨ array.size = 0 then 0
  else (array.size + array.sectorSize.toNat - 1) % 2 ^ 64 / array.sectorSize.toNat

/-- The end of the sector that begins at an offset. -/
def sectorEnd (start : Nat) : Nat := min ((start + array.sectorSize.toNat) % 2 ^ 64) array.size

/-- Every byte from an offset up to another one is `0xff`. -/
def allErased (start last : Nat) : Bool :=
  (List.range (last - start)).all fun index => array.bytes (start + index) == 0xff

/-- The test of one sector. -/
def scanSector (index : Nat) : Bool :=
  let start := index * array.sectorSize.toNat % 2 ^ 64
  array.allErased start (array.sectorEnd start)

/-- The index of the sector that an offset lies in. -/
def sectorIndex (offset : Nat) : Nat := offset / array.sectorSize.toNat

/-- The first offset of the sector that an offset lies in. -/
def sectorStart (offset : Nat) : Nat := array.sectorIndex offset * array.sectorSize.toNat

end Geometry

section Map

variable (array : FlashArray)

def initializeSectorErasedMap : FlashArray :=
  { array with
    sectorErasedMapSize := array.sectorSize
    sectorErased := List.replicate array.sectorCount true }

def rebuildSectorErasedMap : FlashArray :=
  { array with
    sectorErasedMapSize := array.sectorSize
    sectorErased := (List.range array.sectorCount).map array.scanSector }

def ensureSectorErasedMap : FlashArray :=
  if array.sectorErasedMapSize ≠ array.sectorSize ∨
      array.sectorErased.length ≠ array.sectorCount then array.rebuildSectorErasedMap
  else array

def refreshSectorErasedRange (offset len : Nat) : FlashArray :=
  if len = 0 ∨ array.sectorSize = 0 ∨ array.size = 0 then array
  else
    let ensured := array.ensureSectorErasedMap
    { ensured with
      sectorErased := ensured.sectorErased.mapIdx fun index erased =>
        if ensured.sectorIndex offset ≤ index ∧ index ≤ ensured.sectorIndex (offset + len - 1) then
          ensured.scanSector index
        else erased }

/-- Take the flag of the sector of an offset away. -/
def clearSector (offset : Nat) : FlashArray :=
  { array with sectorErased := array.sectorErased.set (array.sectorIndex offset) false }

def markProgrammedByte (offset : Nat) : FlashArray :=
  if array.sectorSize = 0 ∨ array.size = 0 ∨ array.bytes offset = 0xff then array
  else array.ensureSectorErasedMap.clearSector offset

def markProgrammedRange (offset len : Nat) : FlashArray :=
  if len = 0 ∨ array.sectorSize = 0 ∨ array.size = 0 then array
  else
    (List.range len).foldl
      (fun marked index =>
        if marked.bytes (offset + index) = 0xff then marked
        else marked.clearSector (offset + index))
      array.ensureSectorErasedMap

/-- The test, and the array with the map that it may have rebuilt. -/
def sectorIsErased (start : Nat) : Bool × FlashArray :=
  if array.sectorSize = 0 ∨ array.size = 0 then (false, array)
  else
    let ensured := array.ensureSectorErasedMap
    (ensured.sectorErased.getD (ensured.sectorIndex start) false, ensured)

def markSectorErased (start : Nat) : FlashArray :=
  if array.sectorSize = 0 ∨ array.size = 0 then array
  else
    let ensured := array.ensureSectorErasedMap
    { ensured with sectorErased := ensured.sectorErased.set (ensured.sectorIndex start) true }

end Map

/-- `std::fill` with `0xff`. -/
def fill (array : FlashArray) (start last : Nat) : FlashArray :=
  { array with
    bytes := fun index => if start ≤ index ∧ index < last then 0xff else array.bytes index }

/-- The `std::fill` of `erase_sector`. -/
def fillSector (array : FlashArray) (offset : Nat) : FlashArray :=
  array.fill (array.sectorStart offset) (array.sectorEnd (array.sectorStart offset))

/-- `std::memcpy` into the array. -/
def copy (array : FlashArray) (offset : Nat) (data : List Byte) : FlashArray :=
  { array with bytes := array.bytes.write offset data }

theorem size_lt (size : Fin (2 ^ 63)) : size.val < 2 ^ 63 := size.isLt

/-- The first use allocates the array. -/
def ensureStorage (array : FlashArray) (size : Fin (2 ^ 63)) : FlashArray :=
  if array.size ≠ 0 then array
  else
    { array with size := size.val, fits := size_lt size, bytes := fun _ => 0xff
      : FlashArray }.initializeSectorErasedMap

def inRange (array : FlashArray) (offset len : Nat) : Bool :=
  offset ≤ array.size && len ≤ array.size - offset

/-- `load_image`, after the allocation. -/
def loadImage (array : FlashArray) (offset : Nat) (data : List Byte) : FlashArray :=
  if array.inRange offset data.length then
    (array.copy offset data).refreshSectorErasedRange offset data.length
  else array

end FlashArray

end QboxPlatform.StrataFlash
