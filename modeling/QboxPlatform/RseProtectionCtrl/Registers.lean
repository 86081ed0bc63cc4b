import QboxPlatform.Foundation.Run
import QboxPlatform.Tlm

/-!
# The protection controller of the RSE

`rse_protection_ctrl`: one register image behind a secure and a non-secure port, with a lock
register and a latch for refused writes.
-/

namespace QboxPlatform.RseProtectionCtrl

open Foundation

def regBytes : Nat := 0x1000
def status : Nat := 0x000
def clear : Nat := 0x004
def lock : Nat := 0x010
def blkMax : Nat := 0x014
def blkCfg : Nat := 0x018
def pidr4 : Nat := 0xfd0
def pidr0 : Nat := 0xfe0
def pidr1 : Nat := 0xfe4
def pidr2 : Nat := 0xfe8
def pidr3 : Nat := 0xfec
def cidr0 : Nat := 0xff0
def cidr1 : Nat := 0xff4
def cidr2 : Nat := 0xff8
def cidr3 : Nat := 0xffc
def statusNonsecureDeny : BitVec 32 := 0x1
def profileRegbank : BitVec 32 := 0
def profileSie300Mpc : BitVec 32 := 1

structure Params where
  profile : BitVec 32 := profileRegbank
  blkMax : BitVec 32 := 1
  blkCfg : BitVec 32 := 0x00000007
  lockMask : BitVec 32 := 0
  errorLatch : Bool := false
  nonSecureWrites : Bool := false
  pidr4 : BitVec 32 := 0x00000004
  pidr0 : BitVec 32 := 0x00000065
  pidr1 : BitVec 32 := 0x000000b8
  pidr2 : BitVec 32 := 0x0000000b
  pidr3 : BitVec 32 := 0x00000000
  cidr0 : BitVec 32 := 0x0000000d
  cidr1 : BitVec 32 := 0x000000f0
  cidr2 : BitVec 32 := 0x00000005
  cidr3 : BitVec 32 := 0x000000b1

structure ProtectionCtrl where
  regs : Image

/-- An access through one of the two ports. -/
structure Request where
  nonSecure : Bool
  access : Access

/-- The registers that describe the controller, with their values. -/
def description (params : Params) : List (Nat × BitVec 32) :=
  [(blkMax, params.blkMax), (blkCfg, params.blkCfg), (pidr4, params.pidr4), (pidr0, params.pidr0),
    (pidr1, params.pidr1), (pidr2, params.pidr2), (pidr3, params.pidr3), (cidr0, params.cidr0),
    (cidr1, params.cidr1), (cidr2, params.cidr2), (cidr3, params.cidr3)]

namespace ProtectionCtrl

variable (params : Params) (ctrl : ProtectionCtrl)

def load32 (offset : Nat) : BitVec 32 := ctrl.regs.load32 offset

def store32 (offset : Nat) (value : BitVec 32) : ProtectionCtrl :=
  { regs := ctrl.regs.store32 offset value }

def locked : Bool :=
  params.lockMask != 0 && ctrl.load32 lock &&& params.lockMask != 0

def isReadOnly (offset : Nat) : Bool :=
  params.profile == profileSie300Mpc && (description params).any fun register =>
    offset == register.1

def resetRegisters : ProtectionCtrl :=
  let cleared : ProtectionCtrl := { regs := fun _ => 0 }
  if params.profile = profileSie300Mpc then
    (description params).foldl (fun current register => current.store32 register.1 register.2)
      cleared
  else cleared

/-- A store behind the register array is not defined by the language. -/
def write32 (offset : Nat) (value : BitVec 32) : Option ProtectionCtrl :=
  if params.errorLatch ∧ offset = clear then
    some (ctrl.store32 status (ctrl.load32 status &&& ~~~value))
  else if params.lockMask ≠ 0 ∧ offset = lock then
    some (ctrl.store32 lock (ctrl.load32 lock ||| (value &&& params.lockMask)))
  else if ctrl.locked params || isReadOnly params offset then some ctrl
  else if regBytes < offset + 4 then none
  else some (ctrl.store32 offset value)

/-- A write through the non-secure port that the controller does not take. -/
def denied (request : Request) : Bool :=
  match request.access with
  | .write _ _ => request.nonSecure && !params.nonSecureWrites
  | _ => false

/-- `none` if the access leaves the register array, which one that wraps around the address
space does. -/
def access (request : Request) : Option (Response × ProtectionCtrl) :=
  if request.access.exceeds regBytes then some (.addressError, ctrl)
  else if denied params request then
    some (.addressError,
      if params.errorLatch then
        ctrl.store32 status (ctrl.load32 status ||| statusNonsecureDeny)
      else ctrl)
  else
    match request.access with
    | .read offset len =>
        if regBytes < offset.toNat + len then none
        else some (.ok (ctrl.regs.read offset.toNat len), ctrl)
    | .write offset data =>
        if data.length = 4 ∧ offset.toNat % 4 = 0 then
          (ctrl.write32 params (offset.toNat % 2 ^ 32) (ofBytes 32 data)).map fun written =>
            (.ok [], written)
        else if ctrl.locked params then some (.ok [], ctrl)
        else if regBytes < offset.toNat + data.length then none
        else some (.ok [], { regs := ctrl.regs.write offset.toNat data })
    | .ignore _ _ => some (.commandError, ctrl)

def step (request : Request) : Option ProtectionCtrl :=
  (ctrl.access params request).map Prod.snd

end ProtectionCtrl

end QboxPlatform.RseProtectionCtrl
