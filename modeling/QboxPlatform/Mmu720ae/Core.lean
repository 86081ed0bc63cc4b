import QboxPlatform.Tlm

/-!
# The registers of the SMMU

`mmu720ae_core`: a register image whose first page is mirrored into the second one, the event
queue that software sets up in it, and the level of the combined interrupt, which is kept beside
the registers.
-/

namespace QboxPlatform.Mmu720ae

open Foundation

def idr0 : Nat := 0x000
def idr1 : Nat := 0x004
def idr3 : Nat := 0x00c
def idr5 : Nat := 0x014
def iidr : Nat := 0x018
def aidr : Nat := 0x01c
def cr0 : Nat := 0x020
def cr0ack : Nat := 0x024
def gbpa : Nat := 0x044
def irqCtrl : Nat := 0x050
def irqCtrlack : Nat := 0x054
def gerror : Nat := 0x060
def gerrorn : Nat := 0x064
def cmdqProd : Nat := 0x098
def cmdqCons : Nat := 0x09c
def evtqBase : Nat := 0x0a0
def evtqProd : Nat := 0x0a8
def evtqCons : Nat := 0x0ac
def priqCons : Nat := 0x0cc

def page1Offset : Nat := 0x10000
def regSz : Nat := 0xe00
def regBytes : Nat := page1Offset + regSz

def qBaseAddrMask : BitVec 64 := 0xfffffffffffffe0
def qBaseLog2sizeMask : BitVec 64 := 0x1f
def evtqEntDwords : Nat := 4
def evtqEntBytes : Nat := evtqEntDwords * 8

def cr0Cmdqen : BitVec 32 := 1 <<< 3
def cr0Evtqen : BitVec 32 := 1 <<< 2
def cr0Smmuen : BitVec 32 := 1 <<< 0
def cr0ImplementedMask : BitVec 32 := cr0Cmdqen ||| cr0Evtqen ||| cr0Smmuen

def irqCtrlEvtqIrqen : BitVec 32 := 1 <<< 2
def irqCtrlGerrorIrqen : BitVec 32 := 1 <<< 0

def gbpaUpdate : BitVec 32 := 1 <<< 31

def gerrorEvtqAbtErr : BitVec 32 := 1 <<< 2
def gerrorErrMask : BitVec 32 := 0x1fd

def evtIdTranslationFault : BitVec 64 := 0x10
def evtq0IdMask : BitVec 64 := 0xff
def evtq0SidShift : Nat := 32
def evtq1RnwShift : Nat := 35

/-- `IDR0_STALL_MODEL_NONE`, `IDR0_TTENDIAN_LE`, `IDR0_COHACC`, `IDR0_TTF_AARCH64` and
`IDR0_S1P`. -/
def idr0Value : BitVec 32 := 1 <<< 24 ||| 2 <<< 21 ||| 1 <<< 4 ||| 2 <<< 2 ||| 1 <<< 1

/-- Command and event queues of up to 2^8 entries, and eight bits of stream identifier. -/
def idr1Value : BitVec 32 := 8 <<< 21 ||| 8 <<< 16 ||| 0 <<< 11 ||| 0 <<< 6 ||| 8

/-- `IDR5_GRAN4K` and `IDR5_OAS_48_BIT`. -/
def idr5Value : BitVec 32 := 1 <<< 4 ||| 5

/-- The registers whose word writes are ignored. -/
def ignoredRegisters : List Nat :=
  [idr0, idr1, idr3, idr5, iidr, aidr, cr0ack, irqCtrlack]

structure EventRecord where
  dwords : Vector (BitVec 64) evtqEntDwords
  deriving DecidableEq

/-- The record as it lies in memory. -/
def EventRecord.bytes (record : EventRecord) : List Byte :=
  record.dwords.toList.flatMap (toBytes 8)

structure Core where
  regs : Image
  combinedIrq : Bool
  cmdqSyncCount : BitVec 64
  dmiGeneration : BitVec 64
  tbuRequestCount : BitVec 64
  tbuFallbackSidCount : BitVec 64
  eventRecordCount : BitVec 64
  eventQueueAbortCount : BitVec 64
  lastTbuSid : BitVec 32

namespace Core

def load32 (core : Core) (offset : Nat) : BitVec 32 := core.regs.load32 offset

def load64 (core : Core) (offset : Nat) : BitVec 64 := core.regs.load64 offset

/-- Write a value into the first page and, where it fits there, into its mirror. -/
def store (core : Core) (offset : Nat) (data : List Byte) : Core :=
  let stored := core.regs.write offset data
  { core with
    regs :=
      if offset < regSz ∧ offset + data.length ≤ regSz then
        stored.write (page1Offset + offset) data
      else stored }

def store32 (core : Core) (offset : Nat) (value : BitVec 32) : Core :=
  core.store offset (toBytes 4 value)

def store64 (core : Core) (offset : Nat) (value : BitVec 64) : Core :=
  core.store offset (toBytes 8 value)

def reset (core : Core) : Core :=
  let cleared : Core :=
    { regs := fun _ => 0, combinedIrq := false, cmdqSyncCount := 0
      dmiGeneration := core.dmiGeneration + 1, tbuRequestCount := 0, tbuFallbackSidCount := 0
      eventRecordCount := 0, eventQueueAbortCount := 0, lastTbuSid := 0 }
  let identified :=
    ((cleared.store32 idr0 idr0Value).store32 idr1 idr1Value).store32 idr3 0
  let described :=
    ((identified.store32 idr5 idr5Value).store32 iidr 0x720ae000).store32 aidr 0x00000003
  described.store32 gerrorn gerrorErrMask

/-! ### The event queue -/

section EventQueue

variable (core : Core)

def smmuEnabled : Bool := core.load32 cr0ack &&& cr0Smmuen != 0

def eventQueueEnabled : Bool := core.load32 cr0ack &&& cr0Evtqen != 0

def eventQueueLog2Entries : Nat := (core.load64 evtqBase &&& qBaseLog2sizeMask).toNat

def eventQueueBase : BitVec 64 := core.load64 evtqBase &&& qBaseAddrMask

def eventQueueConfigured : Bool :=
  core.eventQueueEnabled && decide (0 < core.eventQueueLog2Entries) &&
    decide (core.eventQueueLog2Entries < 31) && core.eventQueueBase != 0

def eventQueueIndex (pointer : BitVec 32) : BitVec 32 :=
  pointer &&& (1#32 <<< core.eventQueueLog2Entries - 1#32)

def eventQueueWrap (pointer : BitVec 32) : BitVec 32 :=
  pointer &&& 1#32 <<< core.eventQueueLog2Entries

def eventQueuePending : Bool :=
  core.eventQueueConfigured && core.load32 evtqProd != core.load32 evtqCons

def eventQueueFull : Bool :=
  !core.eventQueueConfigured ||
    (core.eventQueueIndex (core.load32 evtqProd) == core.eventQueueIndex (core.load32 evtqCons) &&
      core.eventQueueWrap (core.load32 evtqProd) != core.eventQueueWrap (core.load32 evtqCons))

def eventQueueNextProd : BitVec 32 :=
  let prod := core.load32 evtqProd
  let wrapBit := 1#32 <<< core.eventQueueLog2Entries
  let index := (prod &&& (wrapBit - 1#32)) + 1#32
  let wrap := prod &&& wrapBit
  if index = wrapBit then (wrap ^^^ wrapBit) ||| 0#32 else wrap ||| index

def eventQueueProdEntryAddress : BitVec 64 :=
  core.eventQueueBase +
    (core.eventQueueIndex (core.load32 evtqProd)).setWidth 64 * BitVec.ofNat 64 evtqEntBytes

/-- The record of a translation fault and where it goes; `none` when the queue cannot take it. -/
def buildTranslationFaultEvent (iova : BitVec 64) (read : Bool) (sid : BitVec 32) :
    Option (EventRecord × BitVec 64) :=
  if !core.eventQueueConfigured || core.eventQueueFull then none
  else
    let identification :=
      (evtIdTranslationFault &&& evtq0IdMask) ||| sid.setWidth 64 <<< evtq0SidShift
    let direction := if read then 1#64 <<< evtq1RnwShift else 0#64
    some (⟨#v[identification, direction, iova, 0]⟩, core.eventQueueProdEntryAddress)

end EventQueue

/-! ### Interrupt, counters and records -/

def updateIrq (core : Core) : Core :=
  { core with
    combinedIrq :=
      (core.load32 irqCtrl &&& irqCtrlGerrorIrqen != 0 &&
        core.load32 gerror &&& gerrorErrMask != 0) ||
      (core.load32 irqCtrl &&& irqCtrlEvtqIrqen != 0 && core.eventQueuePending) }

def invalidateCachedTranslations (core : Core) : Core :=
  { core with dmiGeneration := core.dmiGeneration + 1 }

def recordTbuRequestSid (core : Core) (sid : BitVec 32) (fallback : Bool) : Core :=
  { core with
    tbuRequestCount := core.tbuRequestCount + 1
    tbuFallbackSidCount :=
      if fallback then core.tbuFallbackSidCount + 1 else core.tbuFallbackSidCount
    lastTbuSid := sid }

/-- Set `GERROR`, and `GERRORN` to the errors that are not set. -/
def storeGerror (core : Core) (value : BitVec 32) : Core :=
  let stored := core.store32 gerror value
  stored.store32 gerrorn (gerrorErrMask &&& ~~~stored.load32 gerror)

def recordEventQueueAbort (core : Core) : Core :=
  let counted := { core with eventQueueAbortCount := core.eventQueueAbortCount + 1 }
  (counted.storeGerror (counted.load32 gerror ||| gerrorEvtqAbtErr)).updateIrq

def completeEventQueueWrite (core : Core) (ok : Bool) : Core :=
  if !ok then core.recordEventQueueAbort
  else
    let counted := { core with eventRecordCount := core.eventRecordCount + 1 }
    (counted.store32 evtqProd counted.eventQueueNextProd).updateIrq

/-! ### The register port -/

def write32 (core : Core) (offset : Nat) (value : BitVec 32) : Core :=
  if offset ∈ ignoredRegisters then core
  else if offset = cr0 then
    let implemented := value &&& cr0ImplementedMask
    let stored := (core.store32 cr0 implemented).store32 cr0ack implemented
    if implemented &&& cr0Smmuen = 0 then stored.invalidateCachedTranslations else stored
  else if offset = irqCtrl then
    let stored := core.store32 irqCtrl (value &&& (irqCtrlEvtqIrqen ||| irqCtrlGerrorIrqen))
    (stored.store32 irqCtrlack (stored.load32 irqCtrl)).updateIrq
  else if offset = gbpa then core.store32 gbpa (value &&& ~~~gbpaUpdate)
  else if offset = gerrorn then
    (core.storeGerror (core.load32 gerror &&& ~~~value)).updateIrq
  else if offset = cmdqProd then
    let stored := (core.store32 cmdqProd value).store32 cmdqCons value
    { stored with cmdqSyncCount := stored.cmdqSyncCount + 1 }.invalidateCachedTranslations
  else if offset = evtqCons ∨ offset = priqCons then (core.store32 offset value).updateIrq
  else core.store32 offset value

/-- `write64`: every branch of the source stores the value. -/
def write64 (core : Core) (offset : Nat) (value : BitVec 64) : Core := core.store64 offset value

/-- Where an access lands in the register image; the second page is folded onto the first one.
The sum is taken in 64 bits, and the position is cut to 32. -/
def normalizeOffset (offset : BitVec 64) (len : Nat) : Option Nat :=
  if !isSupportedLength len then none
  else
    let folded :=
      if page1Offset ≤ offset.toNat ∧ offset.toNat < page1Offset + regSz then
        offset.toNat - page1Offset
      else offset.toNat
    if regSz < (folded + len) % 2 ^ 64 then none else some (folded % 2 ^ 32)

/-- The access at a position of the image. -/
def writeAt (core : Core) (normalized : Nat) (data : List Byte) : Core :=
  if data.length = 4 ∧ normalized % 4 = 0 then core.write32 normalized (ofBytes 32 data)
  else if data.length = 8 ∧ normalized % 8 = 0 then core.write64 normalized (ofBytes 64 data)
  else { core with regs := core.regs.write normalized data }

/-- `read` and `write`.  An access whose end wraps around 2^64 passes the check and then leaves
the register array, which the language does not define. -/
def access (core : Core) (access : Access) : Option (Response × Core) :=
  match access with
  | .ignore _ _ => some (.commandError, core)
  | .read offset len =>
      match normalizeOffset offset len with
      | none => some (.addressError, core)
      | some normalized =>
          if regBytes < normalized + len then none
          else some (.ok (core.regs.read normalized len), core)
  | .write offset data =>
      match normalizeOffset offset data.length with
      | none => some (.addressError, core)
      | some normalized =>
          if regBytes < normalized + data.length then none
          else some (.ok [], core.writeAt normalized data)

end Core

end QboxPlatform.Mmu720ae
