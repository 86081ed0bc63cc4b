import QboxPlatform.RseLmsAccel.Sha256

/-!
# Image headers

The helpers of `rse_mcuboot_image.h` that the accelerator calls.
-/

namespace QboxPlatform.RseCpuAccel

open Foundation

def imageMagic : BitVec 32 := 0x96f3b83d
def imageFEncryptedAes128 : BitVec 32 := 0x4
def imageFRamLoad : BitVec 32 := 0x20
def imageHeaderSize : Nat := 32

structure ImageHeader where
  magic : BitVec 32 := 0
  loadAddr : BitVec 32 := 0
  hdrSize : BitVec 16 := 0
  protectTlvSize : BitVec 16 := 0
  imgSize : BitVec 32 := 0
  flags : BitVec 32 := 0
  deriving DecidableEq

/-- The fields are filled in as soon as there are enough bytes, whether they are good or not. -/
def parseHeader (data : List Byte) : Bool × ImageHeader :=
  if data.length < imageHeaderSize then (false, {})
  else
    let header : ImageHeader :=
      { magic := wordAt data 0
        loadAddr := wordAt data 1
        hdrSize := ofBytes 16 ((data.drop 8).take 2)
        protectTlvSize := ofBytes 16 ((data.drop 10).take 2)
        imgSize := wordAt data 3
        flags := wordAt data 4 }
    (header.magic = imageMagic ∧ BitVec.ofNat 16 imageHeaderSize ≤ header.hdrSize, header)

/-- The sum of three fields of 32 bits at most does not overflow a `size_t`. -/
def hashRegionSize (header : ImageHeader) : Nat :=
  header.hdrSize.toNat + header.imgSize.toNat + header.protectTlvSize.toNat

def sha256 (seed image : List Byte) : List Byte :=
  let seeded := if seed = [] then RseLmsAccel.Sha256.reset
    else RseLmsAccel.Sha256.reset.update seed
  (seeded.update image).finish

end QboxPlatform.RseCpuAccel
