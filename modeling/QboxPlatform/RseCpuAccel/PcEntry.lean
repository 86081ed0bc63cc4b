import QboxPlatform.RseCpuAccel.Bl2

/-!
# Entries into watched routines

The delay loop, the image hash and the signature checks, and `try_rse_pc_entry`, which tries all
handlers in turn.
-/

namespace QboxPlatform.RseCpuAccel

open Foundation
open Foundation.Attempt (handle firstOf)

section Handlers

variable {Machine : Type} (context : Context Machine) (config : Config) (verifiers : Verifiers)

/-- One more hit; the watch ends with the last one that is expected. -/
def countDelay (accel : Accel) : Accel :=
  let hits := accel.delayHits + 1
  if config.bl2DelayExpectedHits ≠ 0 ∧ config.bl2DelayExpectedHits ≤ hits ∧
      accel.delayWatchActive then
    { accel with delayHits := hits, delayWatchActive := false, pcEntryRegistered := false }
  else { accel with delayHits := hits }

def prepareBl2Delay (pc : BitVec 32) : Attempt (World Machine) (List Action) := do
  guard config.bl2DelayAccel
  guard (AtEntry config.bl2DelayCyclesAddr (pc &&& ~~~1))
  let cycles ← getV7mState context .r0
  let returnPc ← getV7mState context .lr
  guard (cycles.setWidth 64 ≤ config.bl2DelayMaxCycles ∧ returnPc ≠ 0)
  return [.setV7mState .r0 0, .setV7mState .pc returnPc, .update (countDelay config)]

def tryBl2DelayAccelAtPc (pc : BitVec 32) : Attempt (World Machine) Unit :=
  handle (act context) (prepareBl2Delay context config pc)

def prepareBl2ImgHash (pc : BitVec 32) : Attempt (World Machine) (List Action) := do
  guard config.bl2ImgHashAccel
  guard (AtEntry config.bl2BootutilImgHashAddr pc)
  let hdr ← getV7mState context .r1
  let sp ← getV7mState context .sp
  let hashResult ← hotpathReadU32 context (sp.setWidth 64 + 4)
  let seed ← hotpathReadU32 context (sp.setWidth 64 + 8)
  let seedLen ← hotpathReadU32 context (sp.setWidth 64 + 12)
  guard (hdr ≠ 0 ∧ hashResult ≠ 0 ∧ seedLen.setWidth 64 ≤ config.bl2ImgHashMaxSeedBytes ∧
    ¬ (seed = 0 ∧ seedLen ≠ 0))
  let hdrBytes ← hotpathReadBytes context (hdr.setWidth 64) imageHeaderSize
  let parsed := parseHeader hdrBytes
  let header := parsed.2
  guard (parsed.1 ∧ hashRegionSize header ≤ config.bl2ImgHashMaxBytes.toNat)
  let image ← hotpathReadBytes context (header.loadAddr.setWidth 64) (hashRegionSize header)
  let seedBytes ← (if seedLen = 0 then pure []
    else hotpathReadBytes context (seed.setWidth 64) seedLen.toNat)
  let returnPc ← getV7mState context .lr
  return [.writeBytes (hashResult.setWidth 64) (sha256 seedBytes image), .setV7mState .r0 0,
    .setV7mState .pc returnPc]

def tryBl2ImgHashAccelAtPc (pc : BitVec 32) : Attempt (World Machine) Unit :=
  handle (act context) (prepareBl2ImgHash context config pc)

def maxVerifySigCacheEntries : Nat := 16

/-- The verdict on a signature, from the cache where it is known. -/
def verifySigCached (publicKey hash signature : List Byte) (accel : Accel) : Bool × Accel :=
  match accel.verifySigCache.find? fun entry =>
      entry.publicKey = publicKey ∧ entry.hash = hash ∧ entry.signature = signature with
  | some entry => (entry.verified, accel)
  | none =>
      let verified := verifiers.p256Verify publicKey hash signature
      let cache := if maxVerifySigCacheEntries ≤ accel.verifySigCache.length
        then accel.verifySigCache.tail else accel.verifySigCache
      (verified, { accel with
        verifySigCache := cache ++ [{ publicKey, hash, signature, verified }] })

/-- What a signature check reads from the guest. -/
structure Bl2VerifySigInput where
  publicKey : List Byte
  hash : List Byte
  signature : List Byte
  deriving DecidableEq

/-- A key of the table of `bootutil_key` entries. -/
def readBl2VerifySigKey (keyId : BitVec 32) : Attempt (World Machine) (List Byte) := do
  let keyEntryAddr : BitVec 32 := config.bl2BootutilKeysAddr.setWidth 32 + keyId * 8
  let keyPtr ← hotpathReadU32 context (keyEntryAddr.setWidth 64)
  let keyLenPtr ← hotpathReadU32 context (keyEntryAddr.setWidth 64 + 4)
  let keyLen ← hotpathReadU32 context (keyLenPtr.setWidth 64)
  guard (keyPtr ≠ 0 ∧ keyLen ≠ 0 ∧ keyLen.setWidth 64 ≤ config.bl2VerifySigMaxKeyBytes)
  hotpathReadBytes context (keyPtr.setWidth 64) keyLen.toNat

/-- The table has an entry of this number, as far as its length is known. -/
def checkBl2VerifySigKeyId (keyId : BitVec 32) : Attempt (World Machine) Unit := do
  let keyCntAddr : BitVec 32 := config.bl2BootutilKeyCntAddr.setWidth 32
  if keyCntAddr = 0 then return ()
  else
    let keyCnt ← hotpathReadU32 context (keyCntAddr.setWidth 64)
    guard (keyId < keyCnt)

def readBl2VerifySigInput : Attempt (World Machine) Bl2VerifySigInput := do
  let hash ← getV7mState context .r0
  let hlen ← getV7mState context .r1
  let sig ← getV7mState context .r2
  let slen ← getV7mState context .r3
  let sp ← getV7mState context .sp
  let keyId ← hotpathReadU32 context (sp.setWidth 64)
  checkBl2VerifySigKeyId context config keyId
  guard (hlen = 32 ∧ slen ≠ 0 ∧ slen.setWidth 64 ≤ config.bl2VerifySigMaxSigBytes ∧ hash ≠ 0 ∧
    sig ≠ 0 ∧ keyId ≤ 0xff ∧ config.bl2BootutilKeysAddr.setWidth 32 ≠ 0#32)
  let publicKey ← readBl2VerifySigKey context config keyId
  let hash ← hotpathReadBytes context (hash.setWidth 64) hlen.toNat
  let signature ← hotpathReadBytes context (sig.setWidth 64) slen.toNat
  return { publicKey, hash, signature }

def prepareBl2VerifySig (pc : BitVec 32) : Attempt (World Machine) (List Action) := do
  guard config.bl2VerifySigAccel
  guard (AtEntry config.bl2BootutilVerifySigAddr pc)
  let input ← readBl2VerifySigInput context config
  let accel ← getAccel
  let verdict := verifySigCached verifiers input.publicKey input.hash input.signature accel
  modifyAccel fun _ => verdict.2
  guard (verdict.1 ∧ config.bl2VerifySigSkip)
  let fihSuccessAddr : BitVec 32 := config.bl2FihSuccessAddr.setWidth 32
  guard (fihSuccessAddr ≠ 0)
  let fihSuccess ← hotpathReadU32 context (fihSuccessAddr.setWidth 64)
  let returnPc ← getV7mState context .lr
  return [.setV7mState .r0 fihSuccess, .setV7mState .pc returnPc]

def tryBl2VerifySigAccelAtPc (pc : BitVec 32) : Attempt (World Machine) Unit :=
  handle (act context) (prepareBl2VerifySig context config verifiers pc)

def lmsPublicKeyLen : Nat := 56
def lmsSigLen : Nat := 1452
def fihSuccessValue : BitVec 32 := 0x1aaa555a

/-- The check is done once; the callback stays registered only if another handler needs it. -/
def finishLms (accel : Accel) : Accel :=
  { accel with
    lmsAccelDone := true
    pcEntryRegistered := accel.pcEntryRegistered &&
      (config.bl2LoadProfile || config.bl2LoadAccel || config.bl2BootEncAccel ||
        config.bl2ImgHashAccel || config.bl2VerifySigAccel || config.bl2DelayAccel) }

/-- What an LMS check reads from the guest. -/
structure LmsInput where
  key : List Byte
  data : List Byte
  sig : List Byte
  deriving DecidableEq

def readLmsInput : Attempt (World Machine) LmsInput := do
  let keyAddr ← getV7mState context .r0
  let keySize ← getV7mState context .r1
  let dataAddr ← getV7mState context .r2
  let dataSize ← getV7mState context .r3
  let sp ← getV7mState context .sp
  let sigAddr ← hotpathReadU32 context (sp.setWidth 64)
  let sigSize ← hotpathReadU32 context (sp.setWidth 64 + 4)
  guard (keySize.toNat = lmsPublicKeyLen ∧ sigSize.toNat = lmsSigLen ∧
    dataSize.setWidth 64 ≤ config.lmsMaxDataBytes)
  let key ← hotpathReadBytes context (keyAddr.setWidth 64) keySize.toNat
  let data ← hotpathReadBytes context (dataAddr.setWidth 64) dataSize.toNat
  let sig ← hotpathReadBytes context (sigAddr.setWidth 64) sigSize.toNat
  return { key, data, sig }

def prepareLms (pc : BitVec 32) : Attempt (World Machine) (List Action) := do
  let accel ← getAccel
  guard (config.lmsAccel ∧ accel.lmsAccelDone = false)
  guard (AtEntry config.lmsVerifyAddr pc)
  let input ← readLmsInput context config
  guard (verifiers.lmsVerify input.key input.data input.sig)
  let returnPc ← getV7mState context .lr
  return [.setV7mState .r0 fihSuccessValue, .setV7mState .pc returnPc, .update (finishLms config)]

def tryLmsAccelAtPc (pc : BitVec 32) : Attempt (World Machine) Unit :=
  handle (act context) (prepareLms context config verifiers pc)

/-- The handlers in the order in which they are tried. -/
def rseHandlers (pc : BitVec 32) : List (Attempt (World Machine) (List Action)) :=
  [prepareBl2Delay context config pc, prepareBl2LoadDecrypt context config pc,
    prepareBl2BootEncDecrypt context config pc, prepareBl2ImgHash context config pc,
    prepareBl2VerifySig context config verifiers pc, prepareLms context config verifiers pc]

/-- The world in which the handlers are tried: the profile and the key have been captured. -/
def captured (pc : BitVec 32) (world : World Machine) : World Machine :=
  ((tryBl2BootEncCaptureKeyAtPc context config pc).outcome
    ((tryBl2LoadProfileAtPc context config pc).outcome world).2).2

def tryRsePcEntry (pc : BitVec 32) (world : World Machine) : Bool × World Machine :=
  firstOf (act context) (rseHandlers context config verifiers pc) (captured context config pc world)

end Handlers

end QboxPlatform.RseCpuAccel
