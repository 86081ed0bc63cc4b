import QboxPlatform.Tlm

/-!
# The registers of the RSE address translation unit

`rse_atu`: a register image with one word per region and field, the fields that the
translation reads from it, and the register port.
-/

namespace QboxPlatform.Atu

open Foundation

def regBytes : Nat := 0x1000
def atubc : Nat := 0x000
def atuc : Nat := 0x004
def atuis : Nat := 0x008
def atuie : Nat := 0x00c
def atuic : Nat := 0x010
def atuma : Nat := 0x014
def aturslaBase : Nat := 0x020
def aturelaBase : Nat := 0x0a0
def aturavLBase : Nat := 0x120
def aturavMBase : Nat := 0x1a0
def aturobaBase : Nat := 0x220
def aturgpvBase : Nat := 0x2a0
def regionCount : Nat := 32
def regionStride : Nat := 4
def atubcRcMask : BitVec 32 := 0x7
def atubcPsOff : Nat := 4
def atubcPsMask : BitVec 32 := 0xf <<< atubcPsOff
def atuisMismatchError : BitVec 32 := 0x1
def atuRegionRobaMask : BitVec 32 := 0xffff
def aturobaAxprot1Off : Nat := 2
def aturobaAxnseOff : Nat := 14

/-- The parameters of the unit. -/
structure AtuConfig where
  buildConfig : BitVec 32 := 0x000000c5
  permittedSecurityDomains : BitVec 32 := 0xf
  enableDmi : Bool := false
  /-- Something is bound to the initiator socket. -/
  initiatorBound : Bool := true

/-- `m_regs`. -/
structure RseAtu where
  regs : Image

namespace RseAtu

def load32 (atu : RseAtu) (offset : Nat) : BitVec 32 := atu.regs.load32 offset

def store32 (atu : RseAtu) (offset : Nat) (value : BitVec 32) : RseAtu :=
  ⟨atu.regs.store32 offset value⟩

/-! ### Fields -/

section Fields

variable (atu : RseAtu)

def pageShift : Nat := ((atu.load32 atubc &&& atubcPsMask) >>> atubcPsOff).toNat

def supportedRegionCount : Nat :=
  min (2 ^ (atu.load32 atubc &&& atubcRcMask).toNat) regionCount

def regionOffsetPages (region : Nat) : BitVec 64 :=
  (atu.load32 (aturavMBase + region * regionStride)).setWidth 64 <<< 32 |||
    (atu.load32 (aturavLBase + region * regionStride)).setWidth 64

def regionStartPage (region : Nat) : BitVec 32 :=
  atu.load32 (aturslaBase + region * regionStride)

def regionEndPage (region : Nat) : BitVec 32 :=
  atu.load32 (aturelaBase + region * regionStride)

def regionRoba (region : Nat) : BitVec 32 :=
  atu.load32 (aturobaBase + region * regionStride) &&& atuRegionRobaMask

def regionConfigured (region : Nat) : Bool :=
  atu.regionStartPage region != 0 || atu.regionEndPage region != 0 ||
    atu.regionOffsetPages region != 0 || atu.regionRoba region != 0 ||
    atu.load32 (aturgpvBase + region * regionStride) != 0

/-- Whether `ATUC` enables the region. -/
def regionEnabled (region : Nat) : Bool :=
  atu.load32 atuc &&& 1#32 <<< region != 0

end Fields

/-- The attribute bit a two-bit field selects; `none` for the reserved encoding. -/
def robaFieldToBit (field : BitVec 32) : Option Bool :=
  match (field &&& 0x3).toNat with
  | 0 => some false
  | 2 => some false
  | 3 => some true
  | _ => none

/-- Whether the security domain that a region outputs is permitted. -/
def regionSecurityAllowed (config : AtuConfig) (atu : RseAtu) (region : Nat) : Bool :=
  match robaFieldToBit (atu.regionRoba region >>> aturobaAxnseOff),
    robaFieldToBit (atu.regionRoba region >>> aturobaAxprot1Off) with
  | some nse, some prot1 =>
      config.permittedSecurityDomains &&& 1#32 <<< (2 * nse.toNat + prot1.toNat) != 0
  | _, _ => false

/-! ### The register port -/

/-- `in_range`: the offset of one word of a region array. -/
def inRange (offset base : Nat) : Bool :=
  base ≤ offset && offset < base + regionCount * regionStride && (offset - base) % regionStride == 0

def isRegionArrayOffset (offset : Nat) : Bool :=
  inRange offset aturslaBase || inRange offset aturelaBase || inRange offset aturavLBase ||
    inRange offset aturavMBase || inRange offset aturobaBase || inRange offset aturgpvBase

def resetRegisters (config : AtuConfig) : RseAtu :=
  RseAtu.store32 ⟨fun _ => 0⟩ atubc config.buildConfig

/-- `write32`, and whether it ends with `invalidate_translation_dmi`. -/
def write32 (atu : RseAtu) (offset : Nat) (value : BitVec 32) : RseAtu × Bool :=
  if offset = atubc ∨ offset = atuis ∨ offset = atuma then (atu, false)
  else if offset = atuic then
    ((atu.store32 atuis (atu.load32 atuis &&& ~~~value)).store32 atuic value, false)
  else if offset = atuc ∨ offset = atuie then (atu.store32 offset value, offset == atuc)
  else if isRegionArrayOffset offset then
    let value := if inRange offset aturobaBase then value &&& atuRegionRobaMask else value
    (atu.store32 offset value, true)
  else (atu.store32 offset value, false)

/-- The check at the head of `access`; the sum is taken in 64 bits. -/
def rejected (access : Access) : Bool :=
  !isSupportedLength access.len || regBytes < (access.offset.toNat + access.len) % 2 ^ 64

/-- `access`, the registers after it, and whether granted direct access is invalidated.  An
access whose end wraps around 2^64 passes the check and then leaves the register array,
which the language does not define. -/
def access (atu : RseAtu) (access : Access) : Option (Response × RseAtu × Bool) :=
  if rejected access then some (.addressError, atu, false)
  else if regBytes < access.offset.toNat + access.len then none
  else
    match access with
    | .read offset len => some (.ok (atu.regs.read offset.toNat len), atu, false)
    | .write offset data =>
        if data.length = 4 ∧ offset.toNat % 4 = 0 then
          let (next, invalidates) := atu.write32 offset.toNat (ofBytes 32 data)
          some (.ok [], next, invalidates)
        else some (.ok [], ⟨atu.regs.write offset.toNat data⟩, false)
    | .ignore _ _ => some (.commandError, atu, false)

end RseAtu

end QboxPlatform.Atu
