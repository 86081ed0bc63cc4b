import QboxPlatform.Cc3xx.CtrTransfer
import QboxPlatform.RseCpuAccel.Accel

/-!
# The handlers of the boot loader's routines

The `try_bl2_*_at_pc` functions, the LMS handler and `try_rse_pc_entry`, which tries them in turn.
-/

namespace QboxPlatform.RseCpuAccel

open Foundation
open Foundation.Attempt (handle)

section Handlers

variable {Machine : Type} (context : Context Machine) (config : Config)

/-- The words on the stack that a profile sample records; the sample ends at the first that cannot
be read. -/
def captureBl2ProfileSample : Attempt (World Machine) Unit := do
  let sp ← getV7mState context .sp
  let _ ← hotpathReadU32 context (sp.setWidth 64)
  let _ ← hotpathReadU32 context (sp.setWidth 64 + 4)
  let _ ← hotpathReadU32 context (sp.setWidth 64 + 8)
  let _ ← hotpathReadU32 context (sp.setWidth 64 + 12)

def recordBl2ProfileSite (pc : BitVec 32) (addr : BitVec 64) : Attempt (World Machine) Bool :=
  if AtEntry addr pc then do
    (captureBl2ProfileSample context).ignore
    return true
  else return false

def recordBl2RamLoadSnapshot (currImg : Nat) (header : ImageHeader)
    (unsupportedMask : BitVec 32) (accel : Accel) : Accel :=
  if currImg < bl2RamLoadSnapshotImageSlots then
    { accel with
      snapshots := Function.update accel.snapshots currImg
        { accel.snapshots currImg with
          lastLoadAddr := header.loadAddr
          lastHdrSize := header.hdrSize.setWidth 32
          lastImgSize := header.imgSize
          lastFlags := header.flags
          lastUnsupportedMask := unsupportedMask } }
  else accel

def accountBl2RamLoadSnapshot (currImg : Nat) (unsupportedMask : BitVec 32) (accel : Accel) :
    Accel :=
  if unsupportedMask = 0 ∧ currImg < bl2RamLoadSnapshotImageSlots then
    { accel with
      snapshots := Function.update accel.snapshots currImg
        { accel.snapshots currImg with hits := (accel.snapshots currImg).hits + 1 }
      imageDecrypted := Function.update accel.imageDecrypted currImg false }
  else accel

/-- A bit of the mask of a request that is not supported. -/
def flagIf (condition : Prop) [Decidable condition] (bit : BitVec 32) : BitVec 32 :=
  if condition then bit else 0

/-- Record a snapshot and say whether it is supported. -/
def finishBl2RamLoadSnapshot (currImg : Nat) (header : ImageHeader) (unsupportedMask : BitVec 32) :
    Attempt (World Machine) Bool := do
  modifyAccel (recordBl2RamLoadSnapshot currImg header unsupportedMask)
  modifyAccel (accountBl2RamLoadSnapshot currImg unsupportedMask)
  return unsupportedMask = 0

def Config.slotUsageAddr (state : BitVec 32) (currImg : BitVec 8) : BitVec 64 :=
  state.setWidth 64 + config.bl2BootStateSlotUsageOffset +
    currImg.setWidth 64 * config.bl2BootStateSlotUsageStride

def Config.hdrAddr (state : BitVec 32) (currImg : BitVec 8) (activeSlot : BitVec 32) :
    BitVec 64 :=
  state.setWidth 64 + config.bl2BootStateImgsOffset +
    currImg.setWidth 64 * config.bl2BootStateImageStride +
    activeSlot.setWidth 64 * config.bl2BootStateSlotStride

/-- Once a bit of the mask is set, nothing more is read, and what was not read is zero. -/
def captureBl2RamLoadSnapshot : Attempt (World Machine) Bool := do
  let state ← getV7mState context .r0
  let imageCount := config.bl2BootImageCount
  let mask := flagIf (state = 0) 1 ||| flagIf (imageCount = 0 ∨ 64 < imageCount) 2
  if mask ≠ 0 then finishBl2RamLoadSnapshot 0 {} mask
  else
    let currImg ← hotpathReadU8 context (state.setWidth 64 + config.bl2BootStateCurrImgOffset)
    if imageCount ≤ currImg.setWidth 64 then finishBl2RamLoadSnapshot currImg.toNat {} 4
    else
      let slotUsageAddr := config.slotUsageAddr state currImg
      let activeSlot ← hotpathReadU32 context slotUsageAddr
      if 1 < activeSlot then finishBl2RamLoadSnapshot currImg.toNat {} 8
      else
        let hdrBytes ← hotpathReadBytes context (config.hdrAddr state currImg activeSlot)
          imageHeaderSize
        let parsed := parseHeader hdrBytes
        if parsed.1 = false then finishBl2RamLoadSnapshot currImg.toNat parsed.2 16
        else if 2 ^ 32 ≤ hashRegionSize parsed.2 then
          finishBl2RamLoadSnapshot currImg.toNat parsed.2 64
        else
          let _ ← hotpathReadU32 context (slotUsageAddr + config.bl2BootSlotUsageImgDstOffset)
          let _ ← hotpathReadU32 context (slotUsageAddr + config.bl2BootSlotUsageImgSzOffset)
          finishBl2RamLoadSnapshot currImg.toNat parsed.2 0

def tryBl2LoadProfileAtPc (pc : BitVec 32) : Attempt (World Machine) Unit := do
  guard (config.bl2LoadProfile ∨ config.bl2LoadAccel)
  if config.bl2LoadProfile then
    let _ ← recordBl2ProfileSite context pc config.bl2BootGoForImageIdAddr
    let _ ← recordBl2ProfileSite context pc config.bl2BootLoadImageToSramAddr
    let _ ← recordBl2ProfileSite context pc config.bl2BootEncLoadAddr
    let _ ← recordBl2ProfileSite context pc config.bl2BootEncDecryptAddr
    let _ ← recordBl2ProfileSite context pc config.bl2BootutilImgValidateAddr
    let _ ← recordBl2ProfileSite context pc config.bl2BootutilImgHashAddr
    let _ ← recordBl2ProfileSite context pc config.bl2BootutilVerifySigAddr
  if AtEntry config.bl2BootLoadImageToSramAddr pc then
    (captureBl2RamLoadSnapshot context config).ignore

def bl2BootEncValidKeySize (keySize : Nat) : Prop := keySize = 16 ∨ keySize = 24 ∨ keySize = 32
  deriving Decidable

def bl2BootEncCacheKey (encState slot : BitVec 32) : BitVec 64 :=
  encState.setWidth 64 <<< 8 ||| (slot &&& 0xff).setWidth 64

/-- The slot is one of those that have keys. -/
def Config.acceptsSlot (slot : BitVec 32) : Prop :=
  config.bl2BootEncSlots.setWidth 32 ≠ 0#32 ∧ slot < config.bl2BootEncSlots.setWidth 32
  deriving Decidable

def Config.encKeySize : BitVec 32 := config.bl2BootEncKeyBytes.setWidth 32
def Config.encKeyStride : BitVec 32 := config.bl2BootEncKeyStride.setWidth 32

/-- The keys of the slots have a size that AES knows and do not overlap. -/
def Config.acceptsKey (slot : BitVec 32) : Prop :=
  config.acceptsSlot slot ∧ bl2BootEncValidKeySize config.encKeySize.toNat ∧
    config.encKeySize ≤ config.encKeyStride
  deriving Decidable

/-- Where the boot status holds the key of a slot. -/
def Config.encKeyAddr (bootStatus slot : BitVec 32) : BitVec 64 :=
  bootStatus.setWidth 64 +
    (config.bl2BootStatusEnckeyOffset.setWidth 32 : BitVec 32).setWidth 64 +
    slot.setWidth 64 * config.encKeyStride.setWidth 64

def storeKey (encState slot : BitVec 32) (key : List Byte) (accel : Accel) : Accel :=
  { accel with
    bootEncKeys := Function.update accel.bootEncKeys (bl2BootEncCacheKey encState slot) (some key) }

def tryBl2BootEncCaptureKeyAtPc (pc : BitVec 32) : Attempt (World Machine) Unit := do
  guard (config.bl2BootEncAccel ∨ config.bl2LoadAccel)
  guard (AtEntry config.bl2BootEncSetKeyAddr pc)
  let encState ← getV7mState context .r0
  let slot ← getV7mState context .r1
  let bootStatus ← getV7mState context .r2
  guard (config.acceptsKey slot)
  let key ← hotpathReadBytes context (config.encKeyAddr bootStatus slot) config.encKeySize.toNat
  modifyAccel (storeKey encState slot key)

/-- The key of a slot, if one was captured. -/
def bl2BootEncKey (encState slot : BitVec 32) : Attempt (World Machine) (List Byte) := do
  let accel ← getAccel
  let key ← Attempt.ofOption (accel.bootEncKeys (bl2BootEncCacheKey encState slot))
  guard (bl2BootEncValidKeySize key.length)
  return key

/-- An image that was found for a buffer. -/
structure FoundImage where
  currImg : Nat := 0
  loadAddr : BitVec 32 := 0
  hdrSize : BitVec 32 := 0
  imgSize : BitVec 32 := 0
  flags : BitVec 32 := 0
  deriving DecidableEq

/-- The snapshot describes an image with a byte at the offset, and that byte lies in the buffer. -/
def Bl2RamLoadSnapshot.Matches (snapshot : Bl2RamLoadSnapshot) (off buf : BitVec 32) : Prop :=
  snapshot.hits ≠ 0 ∧ snapshot.lastUnsupportedMask = 0 ∧ snapshot.lastHdrSize ≠ 0 ∧
    snapshot.lastImgSize ≠ 0 ∧ off < snapshot.lastImgSize ∧
    snapshot.lastLoadAddr.setWidth 64 + snapshot.lastHdrSize.setWidth 64 + off.setWidth 64 =
      buf.setWidth 64
  deriving Decidable

def findBl2LoadSnapshotForDecrypt (accel : Accel) (off buf : BitVec 32) : Option FoundImage :=
  let imageCount := min config.bl2BootImageCount.toNat bl2RamLoadSnapshotImageSlots
  (List.range imageCount).find? (fun image => (accel.snapshots image).Matches off buf) |>.map
    fun image =>
      { currImg := image
        loadAddr := (accel.snapshots image).lastLoadAddr
        hdrSize := (accel.snapshots image).lastHdrSize
        imgSize := (accel.snapshots image).lastImgSize
        flags := (accel.snapshots image).lastFlags }

/-- A call of `boot_enc_decrypt`, as its registers and its stack describe it. -/
structure DecryptCall where
  encState : BitVec 32
  slot : BitVec 32
  off : BitVec 32
  size : BitVec 32
  blkOff : BitVec 32
  buf : BitVec 32
  deriving DecidableEq

def readDecryptCall : Attempt (World Machine) DecryptCall := do
  let encState ← getV7mState context .r0
  let slot ← getV7mState context .r1
  let off ← getV7mState context .r2
  let size ← getV7mState context .r3
  let sp ← getV7mState context .sp
  let blkOff ← hotpathReadU32 context (sp.setWidth 64)
  let buf ← hotpathReadU32 context (sp.setWidth 64 + 4)
  return { encState, slot, off, size, blkOff, buf }

/-- The checks that both handlers make of a call. -/
def DecryptCall.Supported (call : DecryptCall) : Prop :=
  config.acceptsSlot call.slot ∧ call.size.setWidth 64 ≤ config.bl2BootEncMaxBytes ∧
    call.blkOff < 16 ∧ ¬ (call.buf = 0 ∧ call.size ≠ 0)
  deriving Decidable

/-- The output of a decryption and where it goes. -/
structure Decryption where
  key : List Byte
  address : BitVec 64
  output : List Byte
  deriving DecidableEq

/-- What the load handler makes of a call. -/
inductive LoadDecrypt
  /-- The image has been decrypted before. -/
  | skip (image : FoundImage)
  | decrypt (image : FoundImage) (decryption : Decryption)
  deriving DecidableEq

/-- Read, decrypt and leave the output to be written back. -/
def decryptBytes (key : List Byte) (address : BitVec 64) (size : Nat) (counter : Cc3xx.Block)
    (blkOff : Nat) : Attempt (World Machine) Decryption := do
  let input ← hotpathReadBytes context address size
  let output ← Attempt.ofOption (Cc3xx.aesCtrXcryptBuffer key counter input blkOff)
  return { key, address, output }

/-- The image that the load handler finds for a call, if it takes the call. -/
def loadDecryptImage (accel : Accel) (call : DecryptCall) : Option FoundImage :=
  (findBl2LoadSnapshotForDecrypt config accel call.off call.buf).filter fun image =>
    call.Supported config ∧ image.imgSize.setWidth 64 ≤ config.bl2LoadAccelMaxBytes ∧
      image.flags = imageFRamLoad ||| imageFEncryptedAes128

def decideBl2LoadDecrypt (call : DecryptCall) : Attempt (World Machine) LoadDecrypt := do
  let accel ← getAccel
  let image ← Attempt.ofOption (loadDecryptImage config accel call)
  if accel.imageDecrypted image.currImg then return .skip image
  else
    guard (call.off = 0 ∧ call.blkOff = 0)
    let key ← bl2BootEncKey call.encState call.slot
    let decryption ← decryptBytes context key
      (image.loadAddr.setWidth 64 + image.hdrSize.setWidth 64) image.imgSize.toNat .zero 0
    return .decrypt image decryption

def markDecrypted (image : Nat) (accel : Accel) : Accel :=
  { accel with imageDecrypted := Function.update accel.imageDecrypted image true }

def LoadDecrypt.actions (returnPc : BitVec 32) : LoadDecrypt → List Action
  | .skip _ => [.setV7mState .pc returnPc]
  | .decrypt image decryption =>
      [.writeBytes decryption.address decryption.output, .update (markDecrypted image.currImg),
        .setV7mState .pc returnPc]

/-- A call that the load handler takes, and what it makes of it. -/
def takeBl2LoadDecrypt (pc : BitVec 32) : Attempt (World Machine) (DecryptCall × LoadDecrypt) := do
  guard config.bl2LoadAccel
  guard (AtEntry config.bl2BootEncDecryptAddr pc)
  let call ← readDecryptCall context
  let decision ← decideBl2LoadDecrypt context config call
  return (call, decision)

def prepareBl2LoadDecrypt (pc : BitVec 32) : Attempt (World Machine) (List Action) := do
  let taken ← takeBl2LoadDecrypt context config pc
  let returnPc ← getV7mState context .lr
  return taken.2.actions returnPc

def tryBl2LoadDecryptAccelAtPc (pc : BitVec 32) : Attempt (World Machine) Unit :=
  handle (act context) (prepareBl2LoadDecrypt context config pc)

/-- The counter of the block that an offset lies in. -/
def chunkCounter (off : BitVec 32) : Cc3xx.Block :=
  let block := off >>> 4
  .ofBytes (List.replicate 12 0 ++ [byteOf block 3, byteOf block 2, byteOf block 1, byteOf block 0])

/-- What the chunk handler makes of a call. -/
inductive EncDecrypt
  /-- There is nothing to decrypt. -/
  | finish
  | decrypt (decryption : Decryption)
  deriving DecidableEq

def decideBl2BootEncDecrypt (call : DecryptCall) : Attempt (World Machine) EncDecrypt := do
  guard (call.Supported config)
  if call.size = 0 then return .finish
  else
    let key ← bl2BootEncKey call.encState call.slot
    let decryption ← decryptBytes context key (call.buf.setWidth 64) call.size.toNat
      (chunkCounter call.off) call.blkOff.toNat
    return .decrypt decryption

def EncDecrypt.actions (returnPc : BitVec 32) : EncDecrypt → List Action
  | .finish => [.setV7mState .pc returnPc]
  | .decrypt decryption =>
      [.writeBytes decryption.address decryption.output, .setV7mState .pc returnPc]

/-- A call that the chunk handler takes, and what it makes of it. -/
def takeBl2BootEncDecrypt (pc : BitVec 32) :
    Attempt (World Machine) (DecryptCall × EncDecrypt) := do
  guard config.bl2BootEncAccel
  guard (AtEntry config.bl2BootEncDecryptAddr pc)
  let call ← readDecryptCall context
  let decision ← decideBl2BootEncDecrypt context config call
  return (call, decision)

def prepareBl2BootEncDecrypt (pc : BitVec 32) : Attempt (World Machine) (List Action) := do
  let taken ← takeBl2BootEncDecrypt context config pc
  let returnPc ← getV7mState context .lr
  return taken.2.actions returnPc

def tryBl2BootEncDecryptAccelAtPc (pc : BitVec 32) : Attempt (World Machine) Unit :=
  handle (act context) (prepareBl2BootEncDecrypt context config pc)

end Handlers

end QboxPlatform.RseCpuAccel
