import QboxPlatform.RseCpuAccel.Bl2

/-!
# Copy routines

`try_hotpath_accel`: `memcpy` and `memset` of the guest, from their entries or from a loop inside
them.
-/

namespace QboxPlatform.RseCpuAccel

open Foundation
open Foundation.Attempt (firstOf)

section Hotpath

variable {Machine : Type} (context : Context Machine) (config : Config)

abbrev HotpathMemcpySafePc (pc base : BitVec 32) : Prop :=
  pc = base ∨ pc = base + 0x14 ∨ pc = base + 0x36 ∨ pc = base + 0x4a

abbrev HotpathMemsetSafePc (pc base : BitVec 32) : Prop :=
  pc = base ∨ pc = base + 0x24 ∨ pc = base + 0x36

/-- `hotpath_finish_stacked_lr`: return to the address on the stack.  The copy leaves the
registers as they are, so that the stack pointer is the one from before it. -/
def hotpathFinishStackedLr (sp : BitVec 32) : List Action :=
  [.readU32 (sp.setWidth 64), .setV7mState .sp (sp + 4), .setLoaded .pc]

/-- `hotpath_finish_memset`: restore `R4` from the stack and return. -/
def hotpathFinishMemset (sp returnPc : BitVec 32) : List Action :=
  [.readU32 (sp.setWidth 64), .setLoaded .r4, .setV7mState .sp (sp + 4),
    .setV7mState .pc returnPc]

def hotpathMemcpy (pc base : BitVec 32) : Attempt (World Machine) (List Action) := do
  guard (HotpathMemcpySafePc pc base)
  let dest ← getV7mState context .r0
  let src ← getV7mState context .r1
  let remaining ← getV7mState context .r2
  let currentDest ← (if pc = base then pure dest else getV7mState context .r3)
  let returnPc ← getV7mState context .lr
  let sp ← getV7mState context .sp
  let finish := if pc = base then [.setV7mState .pc returnPc] else hotpathFinishStackedLr sp
  if remaining = 0 then return finish
  else
    guard (remaining.setWidth 64 ≤ config.hotpathMaxBytes)
    let data ← hotpathDmiBytes context (src.setWidth 64) remaining.toNat
    let _ ← hotpathDmiBytes context (currentDest.setWidth 64) remaining.toNat
    return .storeBytes (currentDest.setWidth 64) data :: finish

def hotpathMemset (pc base : BitVec 32) : Attempt (World Machine) (List Action) := do
  guard (HotpathMemsetSafePc pc base)
  let dest ← getV7mState context .r0
  let currentDest ← (if pc = base then pure dest else getV7mState context .r3)
  let remaining ← getV7mState context .r2
  let value ← getV7mState context .r1
  guard (remaining.setWidth 64 ≤ config.hotpathMaxBytes)
  let returnPc ← getV7mState context .lr
  let sp ← getV7mState context .sp
  let finish := if pc = base then [.setV7mState .pc returnPc] else hotpathFinishMemset sp returnPc
  if remaining = 0 then return finish
  else
    let _ ← hotpathDmiBytes context (currentDest.setWidth 64) remaining.toNat
    return .storeBytes (currentDest.setWidth 64)
      (List.replicate remaining.toNat (value.setWidth 8)) :: finish

/-- The handler of the routine that the program counter is in. -/
def hotpathHandlers (pc : BitVec 32) : List (Attempt (World Machine) (List Action)) :=
  let memcpyBase := entryOf config.hotpathMemcpyAddr
  let memsetBase := entryOf config.hotpathMemsetAddr
  if config.hotpathAccel = false ∨ config.hotpathMaxBytes = 0 then []
  else if memcpyBase ≠ 0 ∧ HotpathMemcpySafePc pc memcpyBase then
    [hotpathMemcpy context config pc memcpyBase]
  else if memsetBase ≠ 0 ∧ HotpathMemsetSafePc pc memsetBase then
    [hotpathMemset context config pc memsetBase]
  else []

def tryHotpathAccel (world : World Machine) : Bool × World Machine :=
  firstOf (act context) (hotpathHandlers context config ((context.getPc world.machine).setWidth 32))
    world

end Hotpath

end QboxPlatform.RseCpuAccel
