import QboxPlatform.Zena.Ports

/-!
# The fault management unit

`zena_fmu`: banks of error records, the lines that are derived from them and the key register in
front of every write.
-/

namespace QboxPlatform.Zena

open Foundation

namespace Fmu

def maxBanks : Nat := 8
def maxRecords : Nat := 384
def bankBytes : Nat := 0x10000
def recordStride : Nat := 0x40
def recordSpaceBytes : Nat := 0x6000
def errFrOffset : Nat := 0x0000
def errCtlrOffset : Nat := 0x0008
def errStatusOffset : Nat := 0x0010
def errImpdefBase : Nat := 0x8000
def errImpdefStride : Nat := 0x8
def sysKey : Nat := 0x8bfc
def errgsrLowBase : Nat := 0xe000
def errgsrHighBase : Nat := 0xe004
def errgsrStride : Nat := 0x8
def identificationPage : Nat := 0xf000

def ctlrEd : BitVec 32 := 1#32 <<< 0
def ctlrFi : BitVec 32 := 1#32 <<< 3
def ctlrUe : BitVec 32 := 1#32 <<< 4
def ctlrCfi : BitVec 32 := 1#32 <<< 8
def ctlrCi : BitVec 32 := 1#32 <<< 13
def ctlrRwMask : BitVec 32 := ctlrEd ||| ctlrFi ||| ctlrUe ||| ctlrCfi ||| ctlrCi

def statusSerrMask : BitVec 32 := 0x000000ff
def statusIerrMask : BitVec 32 := 0x00001f00
def statusCi : BitVec 32 := 1#32 <<< 19
def statusCeMask : BitVec 32 := 0x03000000
def statusOf : BitVec 32 := 1#32 <<< 27
def statusUe : BitVec 32 := 1#32 <<< 29
def statusV : BitVec 32 := 1#32 <<< 30
def statusRwWhenValidMask : BitVec 32 := statusSerrMask ||| statusIerrMask
def statusW1cMask : BitVec 32 := statusV ||| statusUe ||| statusOf ||| statusCeMask ||| statusCi
def statusIerrIncSeq : BitVec 32 := 1#32 <<< 9
def statusIerrErrIn : BitVec 32 := 1#32 <<< 12
def statusSerrSw : BitVec 32 := 1#32 <<< 0

def impdefIeMask : BitVec 32 := 0x00003e00
def impdefIcMask : BitVec 32 := 0x0000000c
def impdefStoredMask : BitVec 32 := 0xffff01f1

structure Params where
  enforceSysKey : Bool := true
  pBankCount : Nat := 5
  pRecordCount : Nat := 384
  criticalMask : BitVec 64 := 1
  nonCriticalMask : BitVec 64 := ~~~1
  defaultCtlr : BitVec 32 := 0x2119
  identification : Identification :=
    { pidr4 := 0x04, pidr0 := 0xd0, pidr1 := 0xb3, pidr2 := 0x0b, pidr3 := 0x00,
      cidr0 := 0x0d, cidr1 := 0xf0, cidr2 := 0x05, cidr3 := 0xb1 }

namespace Params

variable (params : Params)

def bankCount : Nat := min params.pBankCount maxBanks

def recordCount : Nat := min params.pRecordCount maxRecords

def isCriticalRecord (index : Nat) : Bool :=
  if index < 64 then params.criticalMask &&& (1#64 <<< index) != 0 else false

def isNonCriticalRecord (index : Nat) : Bool :=
  if params.isCriticalRecord index then false
  else if index < 64 then params.nonCriticalMask &&& (1#64 <<< index) != 0
  else true

/-- The record that takes the errors of the key sequence. -/
def sequenceRecord : Nat := if params.recordCount = 0 then 0 else params.recordCount - 1

/-- The bank and the register of an offset. -/
def decode (offset : BitVec 64) : Option (Nat × Nat) :=
  let bank := offset.toNat / bankBytes % 2 ^ 32
  if bank < params.bankCount then some (bank, offset.toNat % bankBytes) else none

def decodeRecord (reg : Nat) : Option (Nat × Nat) :=
  if recordSpaceBytes ≤ reg then none
  else if reg / recordStride < params.recordCount then
    some (reg / recordStride, reg % recordStride)
  else none

def decodeImpdef (reg : Nat) : Option Nat :=
  if reg < errImpdefBase then none
  else if (reg - errImpdefBase) % errImpdefStride ≠ 0 then none
  else if (reg - errImpdefBase) / errImpdefStride < params.recordCount then
    some ((reg - errImpdefBase) / errImpdefStride)
  else none

end Params

structure Bank where
  ctlr : Nat → BitVec 32
  status : Nat → BitVec 32
  impdef : Nat → BitVec 32
  unlocked : Bool

/-- What the sockets carry. -/
structure Lines where
  criticalIrq : Bool
  criticalSsu : Bool
  nonCriticalIrq : Bool
  nonCriticalSsu : Bool
  deriving DecidableEq

end Fmu

structure Fmu where
  banks : Nat → Fmu.Bank
  criticalIrq : Bool
  nonCriticalIrq : Bool
  lines : Fmu.Lines

namespace Fmu

def Bank.setStatus (bank : Bank) (index : Nat) (value : BitVec 32) : Bank :=
  { bank with status := Function.update bank.status index value }

variable (params : Params) (fmu : Fmu)

def setBank (index : Nat) (bank : Bank) : Fmu :=
  { fmu with banks := Function.update fmu.banks index bank }

def emitIrqs : Fmu :=
  { fmu with lines := { criticalIrq := fmu.criticalIrq, criticalSsu := fmu.criticalIrq,
                        nonCriticalIrq := fmu.nonCriticalIrq,
                        nonCriticalSsu := fmu.nonCriticalIrq } }

/-- One record as the loop of `update_irqs` looks at it. -/
def raisesCritical (bank : Bank) (index : Nat) : Bool :=
  bank.status index &&& statusV != 0 && params.isCriticalRecord index &&
    bank.ctlr index &&& ctlrCi != 0

def raisesNonCritical (bank : Bank) (index : Nat) : Bool :=
  bank.status index &&& statusV != 0 && params.isNonCriticalRecord index &&
    bank.ctlr index &&& (ctlrFi ||| ctlrUe ||| ctlrCfi) != 0

/-- Some record of some bank. -/
def anyRecord (raises : Bank → Nat → Bool) : Bool :=
  (List.range params.bankCount).any fun bank =>
    (List.range params.recordCount).any fun index => raises (fmu.banks bank) index

def updateIrqs : Fmu :=
  let critical := fmu.anyRecord params (raisesCritical params)
  let nonCritical := fmu.anyRecord params (raisesNonCritical params)
  if critical != fmu.criticalIrq || nonCritical != fmu.nonCriticalIrq then
    ({ fmu with criticalIrq := critical, nonCriticalIrq := nonCritical } : Fmu).emitIrqs
  else fmu

def setSequenceError (bank : Nat) : Fmu :=
  let current := fmu.banks bank
  let record := params.sequenceRecord
  (fmu.setBank bank (current.setStatus record
    (current.status record ||| (statusV ||| statusIerrIncSeq ||| statusSerrSw)))).updateIrqs params

def setSoftwareError (bank index : Nat) (critical : Bool) : Fmu :=
  let current := fmu.banks bank
  let status := statusV ||| statusIerrErrIn ||| statusSerrSw |||
    if critical then statusCi else statusUe
  (fmu.setBank bank (current.setStatus index (current.status index ||| status))).updateIrqs params

def requireUnlock (bank : Nat) : Bool × Fmu :=
  if !params.enforceSysKey then (true, fmu)
  else if (fmu.banks bank).unlocked then
    (true, fmu.setBank bank { fmu.banks bank with unlocked := false })
  else (false, fmu.setSequenceError params bank)

def clearRecordStatus (bank index : Nat) (value : BitVec 32) : Fmu :=
  let current := fmu.banks bank
  let cleared := current.status index &&& ~~~(value &&& statusW1cMask)
  let status :=
    if cleared &&& statusV ≠ 0 then
      (cleared &&& ~~~statusRwWhenValidMask) ||| (value &&& statusRwWhenValidMask)
    else cleared
  (fmu.setBank bank (current.setStatus index status)).updateIrqs params

def writeCtlr (bank index : Nat) (value : BitVec 32) : Fmu :=
  let current := fmu.banks bank
  let ctlr := (current.ctlr index &&& ~~~ctlrRwMask) ||| (value &&& ctlrRwMask)
  (fmu.setBank bank
    { current with ctlr := Function.update current.ctlr index ctlr }).updateIrqs params

/-- Both kinds of injected error are recorded in the same way. -/
def writeImpdef (bank index : Nat) (value : BitVec 32) : Fmu :=
  let current := fmu.banks bank
  let impdef := (current.impdef index &&& ~~~impdefStoredMask) ||| (value &&& impdefStoredMask)
  let stored : Bank := { current with impdef := Function.update current.impdef index impdef }
  let cleared :=
    if value &&& impdefIcMask ≠ 0 then
      stored.setStatus index (stored.status index &&& ~~~(statusV ||| statusUe ||| statusOf |||
        statusCeMask ||| statusCi ||| statusIerrMask ||| statusSerrMask))
    else stored
  let written := fmu.setBank bank cleared
  if value &&& impdefIeMask ≠ 0 ∧ cleared.ctlr index &&& ctlrEd ≠ 0 then
    written.setSoftwareError params bank index (params.isCriticalRecord index)
  else written.updateIrqs params

def groupStatusWord (bank : Bank) (group : Nat) (high : Bool) : BitVec 32 :=
  let base := group * 64 + if high then 32 else 0
  (List.range 32).foldl (fun value index =>
    if base + index < params.recordCount ∧ bank.status (base + index) &&& statusV ≠ 0 then
      value ||| (1#32 <<< index)
    else value) 0

/-- A word of the group status registers; `none` if the register is none of them. -/
def readGroup (bank : Bank) (base reg : Nat) (high : Bool) : Option (BitVec 32) :=
  if base ≤ reg ∧ reg < base + 6 * errgsrStride ∧ (reg - base) % errgsrStride = 0 then
    some (groupStatusWord params bank ((reg - base) / errgsrStride) high)
  else none

def read32 (offset : BitVec 64) : BitVec 32 :=
  match params.decode offset with
  | none => 0
  | some (bankIndex, reg) =>
      let bank := fmu.banks bankIndex
      match params.decodeRecord reg with
      | some (index, field) =>
          if field = errFrOffset then 0
          else if field = errCtlrOffset then bank.ctlr index
          else if field = errStatusOffset then bank.status index
          else 0
      | none =>
          match params.decodeImpdef reg with
          | some index => bank.impdef index
          | none =>
              if reg = sysKey then if bank.unlocked then sysKeyValue else 0
              else
                ((readGroup params bank errgsrLowBase reg false).orElse fun _ =>
                  readGroup params bank errgsrHighBase reg true).getD
                    (params.identification.pidcidValue identificationPage reg)

/-- A write that has passed the key. -/
def writeRecord (bank index field : Nat) (value : BitVec 32) : Fmu :=
  if field = errCtlrOffset then fmu.writeCtlr params bank index value
  else if field = errStatusOffset then fmu.clearRecordStatus params bank index value
  else fmu

def writeSysKey (bank : Nat) (value : BitVec 32) : Fmu :=
  let written := fmu.setBank bank { fmu.banks bank with unlocked := value == sysKeyValue }
  if value == sysKeyValue then written else written.setSequenceError params bank

def write32 (offset : BitVec 64) (value : BitVec 32) : Fmu :=
  match params.decode offset with
  | none => fmu
  | some (bank, reg) =>
      if reg = sysKey then fmu.writeSysKey params bank value
      else
        let (passed, taken) := fmu.requireUnlock params bank
        if !passed then taken
        else
          match params.decodeRecord reg with
          | some (index, field) => taken.writeRecord params bank index field value
          | none =>
              match params.decodeImpdef reg with
              | some index => taken.writeImpdef params bank index value
              | none => taken

def access (access : Access) : Response × Fmu :=
  if access.exceeds (params.bankCount * bankBytes) then (.addressError, fmu)
  else
    match access with
    | .read offset len => (.ok (readBytes (fmu.read32 params) offset len), fmu)
    | .write offset data =>
        if data.length = 4 ∧ offset.toNat % 4 = 0 then
          (.ok [], fmu.write32 params offset (ofBytes 32 data))
        else (.ok [], fmu)
    | .ignore _ _ => (.commandError, fmu)

def step (access : Access) : Option Fmu := some (fmu.access params access).2

def defaultImpdef (index : Nat) : BitVec 32 :=
  if index = maxRecords - 1 then 0x00000070 else 0x00000180

/-- The unit after its construction: no line has been driven. -/
def resetRegisters : Fmu where
  banks _ := { ctlr := fun _ => params.defaultCtlr, status := fun _ => 0,
               impdef := defaultImpdef, unlocked := false }
  criticalIrq := false
  nonCriticalIrq := false
  lines := { criticalIrq := false, criticalSsu := false, nonCriticalIrq := false,
             nonCriticalSsu := false }

end Fmu

end QboxPlatform.Zena
