import QboxPlatform.Foundation.Bus
import QboxPlatform.Tlm

/-!
# The DMA-350

`dma350`: a register image with one block of registers a channel.  A channel that is enabled runs
to its end within the write of its command register, and fills or copies memory behind the
initiator socket.
-/

namespace QboxPlatform.Dma350

open Foundation

def regBytes : Nat := 0x2000
def dmasecinfo : Nat := 0xfb0
def dmainfoIidr : Nat := 0xfc8
def dmainfoAidr : Nat := 0xfcc
def chBase : Nat := 0x1000
def chStride : Nat := 0x100
def chCmd : Nat := 0x000
def chStatus : Nat := 0x004
def chIntren : Nat := 0x008
def chCtrl : Nat := 0x00c
def chSrcaddr : Nat := 0x010
def chDesaddr : Nat := 0x018
def chDesaddrhi : Nat := 0x01c
def chXsize : Nat := 0x020
def chXsizehi : Nat := 0x024
def chDestranscfg : Nat := 0x02c
def chXaddrinc : Nat := 0x030
def chFillval : Nat := 0x038
def chCmdEnable : BitVec 32 := 0x00000001
def chStatusIntrDone : BitVec 32 := 1 <<< 0
def chStatusIntrErr : BitVec 32 := 1 <<< 1
def chStatusStatDone : BitVec 32 := 1 <<< 16
def chStatusStatErr : BitVec 32 := 1 <<< 17
def chCtrlXtypeShift : Nat := 9
def chCtrlXtypeMask : BitVec 32 := 0x7 <<< chCtrlXtypeShift
def chCtrlXtypeFill : BitVec 32 := 0x3
def fillChunkBytes : Nat := 256
def copyChunkBytes : Nat := 1024

def resetRegisters : Image :=
  let zero : Image := fun _ => 0
  let secinfo := zero.store32 dmasecinfo 0x00000030
  let iidr := secinfo.store32 dmainfoIidr 0x3a00043b
  let aidr := iidr.store32 dmainfoAidr 0x00000000
  let ctrl := aidr.store32 (chBase + chCtrl) 0x00200200
  ctrl.store32 (chBase + chDestranscfg) 0x000f0400

def signExtend16 (value : BitVec 32) : BitVec 16 := (value &&& 0xffff#32).setWidth 16

def transferBytesFromCtrl (ctrl : BitVec 32) : Nat := 1 <<< (ctrl &&& 0x7).toNat

def channelAddress (regs : Image) (channelBase lowOffset : Nat) : BitVec 64 :=
  (regs.load32 (channelBase + lowOffset)).setWidth 64 |||
    ((regs.load32 (channelBase + lowOffset + 4)).setWidth 64 <<< 32)

def sourceXsize (regs : Image) (channelBase : Nat) : BitVec 32 :=
  (regs.load32 (channelBase + chXsize) &&& 0xffff#32) |||
    ((regs.load32 (channelBase + chXsizehi) &&& 0xffff#32) <<< 16)

def destXsize (regs : Image) (channelBase : Nat) : BitVec 32 :=
  ((regs.load32 (channelBase + chXsize) >>> 16) &&& 0xffff#32) |||
    (((regs.load32 (channelBase + chXsizehi) >>> 16) &&& 0xffff#32) <<< 16)

def fillChunk (count : Nat) (fillValue : BitVec 32) : List Byte :=
  (List.range count).map fun index => byteOf fillValue (index &&& 0x3)

section Executors

variable {Memory : Type*} (bus : Bus Memory)

/-! ### Filling -/

/-- The loop of `execute_strided_fill`; the addresses are signed, and taken to wrap. -/
def stridedFillLoop (data : List Byte) (destInc : BitVec 16) :
    Nat → BitVec 64 → Memory → Bool × Memory
  | 0, _, memory => (true, memory)
  | count + 1, address, memory =>
      let (ok, next) := bus.write memory address data
      if ok then
        stridedFillLoop data destInc count
          (address + BitVec.ofInt 64 (destInc.toInt * (data.length : Int))) next
      else (false, next)

def executeStridedFill (dest : BitVec 64) (transferCount : Nat) (destInc : BitVec 16)
    (fillValue : BitVec 32) (memory : Memory) : Bool × Memory :=
  stridedFillLoop bus (fillChunk 8 fillValue) destInc transferCount dest memory

/-- The loop of `execute_fill` for an increment of one. -/
def fillBurst (chunk : List Byte) (address : BitVec 64) (bytesRemaining : Nat)
    (memory : Memory) : Bool × Memory :=
  if bytesRemaining = 0 ∨ chunk = [] then (true, memory)
  else
    let len := min bytesRemaining chunk.length
    let (ok, next) := bus.write memory address (chunk.take len)
    if ok then
      fillBurst chunk (address + BitVec.ofNat 64 len) (bytesRemaining - len) next
    else (false, next)
termination_by bytesRemaining
decreasing_by
  have nonempty : chunk.length ≠ 0 := by
    intro empty
    simp_all
  omega

def executeFill (regs : Image) (channelBase : Nat) (memory : Memory) : Bool × Memory :=
  let dest := (regs.load32 (channelBase + chDesaddr)).setWidth 64
  let xsize := regs.load32 (channelBase + chXsize)
  let xaddrinc := regs.load32 (channelBase + chXaddrinc)
  let fillValue := regs.load32 (channelBase + chFillval)
  let transferCount := ((xsize >>> 16) &&& 0xffff#32).toNat
  let destInc := ((xaddrinc >>> 16) &&& 0xffff#32).setWidth 16
  let transferBytes := 8
  if transferCount = 0 then (true, memory)
  else if destInc ≠ 1 then executeStridedFill bus dest transferCount destInc fillValue memory
  else
    fillBurst bus (fillChunk fillChunkBytes fillValue) dest (transferCount * transferBytes) memory

/-! ### Copying -/

/-- The loop of `execute_copy` for increments of one.  The chunk is a buffer that a read fills
from its start. -/
def copyBurst (source dest : BitVec 64) (bytesRemaining : Nat) (chunk : List Byte)
    (memory : Memory) : Bool × Memory :=
  if bytesRemaining = 0 ∨ chunk = [] then (true, memory)
  else
    let len := min bytesRemaining chunk.length
    match bus.read memory source (chunk.take len) with
    | (false, _, afterRead) => (false, afterRead)
    | (true, data, afterRead) =>
        let (ok, next) := bus.write afterRead dest data
        if ok then
          copyBurst (source + BitVec.ofNat 64 len) (dest + BitVec.ofNat 64 len)
            (bytesRemaining - len) (data ++ chunk.drop len) next
        else (false, next)
termination_by bytesRemaining
decreasing_by
  have nonempty : chunk.length ≠ 0 := by
    intro empty
    simp_all
  omega

/-- The loop of `execute_copy` over single elements; the addresses are signed, and taken to
wrap. -/
def copyElements (sourceInc destInc : BitVec 16) (transferBytes : Nat) :
    Nat → BitVec 64 → BitVec 64 → List Byte → Memory → Bool × Memory
  | 0, _, _, _, memory => (true, memory)
  | count + 1, source, dest, transfer, memory =>
      match bus.read memory source (transfer.take transferBytes) with
      | (false, _, afterRead) => (false, afterRead)
      | (true, data, afterRead) =>
          let (ok, next) := bus.write afterRead dest data
          if ok then
            copyElements sourceInc destInc transferBytes count
              (source + BitVec.ofInt 64 (sourceInc.toInt * (transferBytes : Int)))
              (dest + BitVec.ofInt 64 (destInc.toInt * (transferBytes : Int)))
              (data ++ transfer.drop transferBytes) next
          else (false, next)

def executeCopy (regs : Image) (channelBase : Nat) (memory : Memory) : Bool × Memory :=
  let sourceStart := channelAddress regs channelBase chSrcaddr
  let destStart := channelAddress regs channelBase chDesaddr
  let transferCount := min (sourceXsize regs channelBase).toNat (destXsize regs channelBase).toNat
  let xaddrinc := regs.load32 (channelBase + chXaddrinc)
  let sourceInc := signExtend16 xaddrinc
  let destInc := signExtend16 (xaddrinc >>> 16)
  let transferBytes := transferBytesFromCtrl (regs.load32 (channelBase + chCtrl))
  if transferCount = 0 then (true, memory)
  else if sourceInc = 1 ∧ destInc = 1 then
    copyBurst bus sourceStart destStart (transferCount * transferBytes)
      (List.replicate copyChunkBytes 0) memory
  else
    copyElements bus sourceInc destInc transferBytes transferCount sourceStart destStart
      (List.replicate 128 0) memory

/-! ### Channels -/

def executeChannel (regs : Image) (channelBase : Nat) (memory : Memory) : Bool × Memory :=
  let xtype := (regs.load32 (channelBase + chCtrl) &&& chCtrlXtypeMask) >>> chCtrlXtypeShift
  if xtype = chCtrlXtypeFill then executeFill bus regs channelBase memory
  else executeCopy bus regs channelBase memory

def completeChannel (regs : Image) (channelBase : Nat) (ok : Bool) : Image :=
  let intren := regs.load32 (channelBase + chIntren)
  let status :=
    if ok then
      chStatusStatDone ||| if intren &&& chStatusIntrDone ≠ 0 then chStatusIntrDone else 0
    else
      chStatusStatErr ||| if intren &&& chStatusIntrErr ≠ 0 then chStatusIntrErr else 0
  regs.store32 (channelBase + chStatus) status

def clearChannelStatus (regs : Image) (channelBase : Nat) (value : BitVec 32) : Image :=
  regs.store32 (channelBase + chStatus)
    (regs.load32 (channelBase + chStatus) &&& ~~~value)

structure Dma (Memory : Type*) where
  regs : Image
  memory : Memory

def write32 (dma : Dma Memory) (offset : Nat) (value : BitVec 32) (executeSideEffects : Bool) :
    Dma Memory :=
  let chOffset := (offset - chBase) % chStride
  let channelBase := offset - chOffset
  if chBase ≤ offset ∧ offset < regBytes ∧ chOffset = chStatus then
    { dma with regs := clearChannelStatus dma.regs channelBase value }
  else if chBase ≤ offset ∧ offset < regBytes ∧ chOffset = chCmd then
    if executeSideEffects ∧ value &&& chCmdEnable ≠ 0 then
      let regs := dma.regs.store32 (channelBase + chStatus) 0x00000000
      let (ok, memory) := executeChannel bus regs channelBase dma.memory
      { regs := (completeChannel regs channelBase ok).store32 offset 0x00000000, memory := memory }
    else { dma with regs := dma.regs.store32 offset 0x00000000 }
  else { dma with regs := dma.regs.store32 offset value }

/-- `b_transport` with the side effects, `transport_dbg` without.  `none` if the access leaves the
register array, which one that wraps around the address space does. -/
def access (dma : Dma Memory) (executeSideEffects : Bool) (access : Access) :
    Option (Response × Dma Memory) :=
  if access.exceeds regBytes then some (.addressError, dma)
  else
    match access with
    | .read offset len =>
        if regBytes < offset.toNat + len then none
        else some (.ok (dma.regs.read offset.toNat len), dma)
    | .write offset data =>
        if regBytes < offset.toNat + data.length then none
        else if data.length = 4 ∧ offset.toNat % 4 = 0 then
          some (.ok [], write32 bus dma offset.toNat (ofBytes 32 data) executeSideEffects)
        else some (.ok [], { dma with regs := dma.regs.write offset.toNat data })
    | .ignore _ _ => some (.commandError, dma)

end Executors

end QboxPlatform.Dma350
