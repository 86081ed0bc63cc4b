import QboxPlatform.Zena.Ports

/-!
# The safety status unit

`zena_ssu`: one error record and the safety state of the system, behind the same key register as
the fault management unit.  Faults come in over two lines, which need no key.
-/

namespace QboxPlatform.Zena

open Foundation

namespace Ssu

def regBytes : Nat := 0x1000

namespace Offset

def errFr : Nat := 0x000
def errCtrl : Nat := 0x008
def errStatus : Nat := 0x010
def errImpdef : Nat := 0x800
def sysKey : Nat := 0x804
def sysStatus : Nat := 0x808
def sysCtrl : Nat := 0x810
def statusDetail : Nat := 0x814

end Offset

def errFrReset : BitVec 32 := 0x2
def errCtrlEd : BitVec 32 := 1#32 <<< 0
def errStatusSerrMask : BitVec 32 := 0x000000ff
def errStatusIerrMask : BitVec 32 := 0x00001f00
def errStatusOf : BitVec 32 := 1#32 <<< 27
def errStatusV : BitVec 32 := 1#32 <<< 30
def errStatusW1cMask : BitVec 32 := errStatusV ||| errStatusOf
def errStatusRwWhenValidMask : BitVec 32 := errStatusSerrMask ||| errStatusIerrMask
def errStatusIerrIncSeq : BitVec 32 := 1#32 <<< 9
def errStatusIerrErrIn : BitVec 32 := 1#32 <<< 12
def errStatusSerrSw : BitVec 32 := 1#32 <<< 0

def impdefCrEn : BitVec 32 := 1#32 <<< 0
def impdefNcrEn : BitVec 32 := 1#32 <<< 1
def impdefApbSw : BitVec 32 := 1#32 <<< 4
def impdefIncSeq : BitVec 32 := 1#32 <<< 5
def impdefApbProt : BitVec 32 := 1#32 <<< 6
def impdefRwMask : BitVec 32 :=
  impdefCrEn ||| impdefNcrEn ||| impdefApbSw ||| impdefIncSeq ||| impdefApbProt

def sysStatusTest : BitVec 32 := 1#32 <<< 0
def sysStatusSafe : BitVec 32 := 1#32 <<< 1
def sysStatusErrn : BitVec 32 := 1#32 <<< 2
def sysStatusErrc : BitVec 32 := 1#32 <<< 3

structure Params where
  enforceSysKey : Bool := true
  identification : Identification :=
    { pidr4 := 0x04, pidr0 := 0xd1, pidr1 := 0xb3, pidr2 := 0x0b, pidr3 := 0x00,
      cidr0 := 0x0d, cidr1 := 0xf0, cidr2 := 0x05, cidr3 := 0xb1 }

/-- An access, or a change of one of the fault lines. -/
inductive Event
  | access (access : Access)
  | criticalIn (value : Bool)
  | nonCriticalIn (value : Bool)

/-- What a write of the system control register asks for. -/
def requestedStatus (value : BitVec 32) : BitVec 32 :=
  if value &&& 0x3 = 0 then sysStatusTest
  else if value &&& 0x3 = 1 then sysStatusSafe
  else if value &&& 0x3 = 2 then sysStatusErrn
  else sysStatusErrc

end Ssu

structure Ssu where
  errCtrl : BitVec 32
  errStatus : BitVec 32
  errImpdef : BitVec 32
  sysStatus : BitVec 32
  statusDetail : BitVec 32
  unlocked : Bool
  safetyStatus : Bool
  /-- What the `safety_status` socket carries. -/
  line : Bool

namespace Ssu

variable (params : Params) (ssu : Ssu)

def updateOutput : Ssu :=
  let value := ssu.sysStatus == sysStatusErrc || ssu.sysStatus == sysStatusErrn
  if value = ssu.safetyStatus then ssu else { ssu with safetyStatus := value, line := value }

def setSequenceError : Ssu :=
  let recorded :=
    if ssu.errImpdef &&& impdefIncSeq ≠ 0 then
      { ssu with errStatus := ssu.errStatus |||
                  (errStatusV ||| errStatusIerrIncSeq ||| errStatusSerrSw) }
    else ssu
  recorded.updateOutput

def requireUnlock : Bool × Ssu :=
  if !params.enforceSysKey then (true, ssu)
  else if ssu.unlocked then (true, { ssu with unlocked := false })
  else (false, ssu.setSequenceError)

def setFault (critical : Bool) : Ssu :=
  if ssu.errCtrl &&& errCtrlEd = 0 then ssu
  else if critical ∧ ssu.errImpdef &&& impdefCrEn = 0 then ssu
  else if !critical ∧ ssu.errImpdef &&& impdefNcrEn = 0 then ssu
  else
    ({ ssu with errStatus := ssu.errStatus |||
                  (errStatusV ||| errStatusIerrErrIn ||| errStatusSerrSw),
                sysStatus := if critical then sysStatusErrc else sysStatusErrn } : Ssu).updateOutput

def writeStatus (value : BitVec 32) : Ssu :=
  let cleared := ssu.errStatus &&& ~~~(value &&& errStatusW1cMask)
  let status :=
    if cleared &&& errStatusV ≠ 0 then
      (cleared &&& ~~~errStatusRwWhenValidMask) ||| (value &&& errStatusRwWhenValidMask)
    else cleared
  let system :=
    if status &&& errStatusV = 0 ∧
        (ssu.sysStatus = sysStatusErrc ∨ ssu.sysStatus = sysStatusErrn) then sysStatusSafe
    else ssu.sysStatus
  ({ ssu with errStatus := status, sysStatus := system } : Ssu).updateOutput

def writeSysCtrl (value : BitVec 32) : Ssu :=
  ({ ssu with sysStatus := requestedStatus value } : Ssu).updateOutput

def read32 (offset : Nat) : BitVec 32 :=
  if offset = Offset.errFr then errFrReset
  else if offset = Offset.errCtrl then ssu.errCtrl
  else if offset = Offset.errStatus then ssu.errStatus
  else if offset = Offset.errImpdef then ssu.errImpdef
  else if offset = Offset.sysKey then if ssu.unlocked then sysKeyValue else 0
  else if offset = Offset.sysStatus then ssu.sysStatus
  else if offset = Offset.sysCtrl then 0
  else if offset = Offset.statusDetail then ssu.statusDetail
  else params.identification.pidcidValue 0 offset

/-- A write that has passed the key. -/
def writeRegister (offset : Nat) (value : BitVec 32) : Ssu :=
  if offset = Offset.errCtrl then ({ ssu with errCtrl := value &&& errCtrlEd } : Ssu).updateOutput
  else if offset = Offset.errStatus then ssu.writeStatus value
  else if offset = Offset.errImpdef then
    ({ ssu with errImpdef := (ssu.errImpdef &&& ~~~impdefRwMask) |||
                  (value &&& impdefRwMask) } : Ssu).updateOutput
  else if offset = Offset.sysCtrl then ssu.writeSysCtrl value
  else if offset = Offset.statusDetail then { ssu with statusDetail := value &&& 0x0000ffff }
  else ssu

def writeSysKey (value : BitVec 32) : Ssu :=
  let written := { ssu with unlocked := value == sysKeyValue }
  if value == sysKeyValue then written else written.setSequenceError

def write32 (offset : Nat) (value : BitVec 32) : Ssu :=
  if offset = Offset.sysKey then ssu.writeSysKey value
  else
    let (passed, taken) := ssu.requireUnlock params
    if !passed then taken else taken.writeRegister offset value

def access (access : Access) : Response × Ssu :=
  if access.exceeds regBytes then (.addressError, ssu)
  else
    match access with
    | .read offset len =>
        (.ok (readBytes (fun base => ssu.read32 params (base.toNat % 2 ^ 32)) offset len), ssu)
    | .write offset data =>
        if data.length = 4 ∧ offset.toNat % 4 = 0 then
          (.ok [], ssu.write32 params (offset.toNat % 2 ^ 32) (ofBytes 32 data))
        else (.ok [], ssu)
    | .ignore _ _ => (.commandError, ssu)

def step : Event → Option Ssu
  | .access access => some (ssu.access params access).2
  | .criticalIn value => some (if value then ssu.setFault true else ssu)
  | .nonCriticalIn value => some (if value then ssu.setFault false else ssu)

/-- The unit after its construction. -/
def resetRegisters : Ssu where
  errCtrl := errCtrlEd
  errStatus := 0
  errImpdef := impdefCrEn ||| impdefApbSw ||| impdefIncSeq ||| impdefApbProt
  sysStatus := sysStatusTest
  statusDetail := 0
  unlocked := false
  safetyStatus := false
  line := false

end Ssu

end QboxPlatform.Zena
