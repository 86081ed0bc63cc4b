import QboxPlatform.Cc3xx.Engines
import QboxPlatform.Cc3xx.Pka
import QboxPlatform.Tlm

/-!
# Register accesses of the CC3XX core

An aligned word write goes through the `switch` of `write32`; every other write is a plain copy
into the register file.
-/

namespace QboxPlatform.Cc3xx

open Foundation

/-- A call of `read` or of `write`. -/
inductive RegisterAccess
  | read (offset : BitVec 64) (len : Nat) (debug : Bool)
  | write (offset : BitVec 64) (data : List Byte)
  deriving DecidableEq

namespace RegisterAccess

def offset : RegisterAccess → BitVec 64
  | .read offset _ _ => offset
  | .write offset _ => offset

def len : RegisterAccess → Nat
  | .read _ len _ => len
  | .write _ data => data.length

/-- The test that both calls start with; the sum is one of 64 bits and may wrap. -/
def rejected (access : RegisterAccess) : Bool :=
  !isSupportedLength access.len ||
    regBytes < (access.offset + BitVec.ofNat 64 access.len).toNat

/-- The access stays in the register file. -/
def inside (access : RegisterAccess) : Bool := access.offset.toNat + access.len ≤ regBytes

/-- The write of a word that `write32` takes. -/
def isWordWrite (offset : BitVec 64) (data : List Byte) : Bool :=
  data.length == 4 && offset.toNat % 4 == 0

/-- The write of a word at an offset. -/
def writeWord (offset : Nat) (value : BitVec 32) : RegisterAccess :=
  .write (BitVec.ofNat 64 offset) (toBytes 4 value)

end RegisterAccess

namespace Core

variable {Memory : Type}

def updateRngAfterWrite (core : Core Memory) (offset : Nat) (value : BitVec 32) :
    Core Memory :=
  if offset = rngSwReset then (core.store32 rngSwReset value).store32 rngIsr 0
  else if offset = rngIcr then core.store32 rngIsr (core.load32 rngIsr &&& ~~~value)
  else if offset = rndSourceEnable then
    let enabled := core.store32 rndSourceEnable value
    if value &&& 0x1 ≠ 0 then enabled.store32 rngIsr (enabled.load32 rngIsr ||| 0x1) else enabled
  else if offset = rstBitsCounter then core.store32 rstBitsCounter value
  else if offset = rngClkEnable then core.store32 rngClkEnable value
  else core

def inHashH (offset : Nat) : Bool := hashH ≤ offset && offset < hashH + 8 * 4

def updateHashAfterWrite (core : Core Memory) (offset : Nat) (value : BitVec 32) :
    Core Memory :=
  if inHashH offset then
    let stored := core.store32 offset value
    if stored.sha256.active && !stored.sha256.finalized then
      let words := stored.sha256.h.set ((offset - hashH) / 4) value
      { stored with sha256 := { stored.sha256 with h := words } }
    else stored
  else if offset = hashCurLen0 ∨ offset = hashCurLen1 then
    let stored := core.store32 offset value
    if stored.sha256.active && !stored.sha256.finalized then
      { stored with
        sha256 := { stored.sha256 with bytes := stored.hashCurrentLen, block := [] } }
    else stored
  else if offset = hashControl then
    let stored := core.store32 hashControl value
    if value &&& 0xf = hashAlgSha256 then stored.sha256Reset
    else { stored with sha256 := { stored.sha256 with active := false, finalized := false } }
  else if offset = hashPadCfg then
    let stored := core.store32 hashPadCfg value
    if value &&& 0x4 ≠ 0 ∧ stored.sha256.active = true then stored.sha256Finish else stored
  else if offset = autoHwPadding then core.store32 autoHwPadding value
  else core

def pkaSwResetWrite (core : Core Memory) (value : BitVec 32) : Core Memory :=
  { core.store32 pkaSwReset value with
    pkaSram := fun _ => 0, pkaWriteAddr := 0, pkaReadAddr := 0 }.pkaInvalidateModulusCache.storeAll
    [(pkaStatus, 1), (pkaPipeRdy, 1), (pkaDone, 1)]

def pkaSramDataWrite (core : Core Memory) (value : BitVec 32) : Core Memory :=
  let stored := core.store32 pkaSramWdata value
  { stored with pkaWriteAddr := stored.pkaWriteAddr + 1 }.pkaSramWrite stored.pkaWriteAddr value
    true

def cryptoCtlWrite (core : Core Memory) (value : BitVec 32) : Core Memory :=
  { core.store32 cryptoCtl value with engine := value &&& 0x1f }.storeAll
    [(cryptoBusy, 0), (hashBusy, 0), (hostCcIsIdle, 1)]

def write32 (bus : Bus Memory) (core : Core Memory) (offset : Nat) (value : BitVec 32) :
    Core Memory :=
  if offset = pkaSwReset then core.pkaSwResetWrite value
  else if offset = pkaSramAddr then { core.store32 pkaSramAddr value with pkaWriteAddr := value }
  else if offset = pkaSramWdata then core.pkaSramDataWrite value
  else if offset = pkaSramRaddr then { core.store32 pkaSramRaddr value with pkaReadAddr := value }
  else if offset = pkaOpcode then (core.store32 pkaOpcode value).executePkaOpcode value
  else if offset ∈ [rngIcr, rngSwReset, rndSourceEnable, rstBitsCounter, rngClkEnable] then
    core.updateRngAfterWrite offset value
  else if offset = hostRgfIcr then
    core.store32 hostRgfIrr (core.load32 hostRgfIrr &&& ~~~value)
  else if offset ∈ [hashControl, hashPadCfg, autoHwPadding, hashCurLen0, hashCurLen1] then
    core.updateHashAfterWrite offset value
  else if offset = aesCmacInit then
    let stored := core.store32 aesCmacInit value
    if value &&& 0x1 ≠ 0 then stored.cmacReset else stored
  else if offset = aesRemainingBytes then
    let stored := core.store32 aesRemainingBytes value
    if value = 0 then stored.cmacFinish else stored
  else if offset = cryptoCtl then core.cryptoCtlWrite value
  else if offset ∈ [dinSrcLliWord1, dinSramBytesLen, doutDstLliWord1, doutSramBytesLen] then
    (core.store32 offset value).completeDmaTransfer bus offset
  else if inHashH offset then core.updateHashAfterWrite offset value
  else if offset = 0 then core.pkaInvalidateModulusCache.store32 offset value
  else core.store32 offset value

theorem write32_dinSrcLliWord0 (bus : Bus Memory) (core : Core Memory) (value : BitVec 32) :
    core.write32 bus dinSrcLliWord0 value = core.store32 dinSrcLliWord0 value := rfl

theorem write32_dinSrcLliWord1 (bus : Bus Memory) (core : Core Memory) (value : BitVec 32) :
    core.write32 bus dinSrcLliWord1 value =
      (core.store32 dinSrcLliWord1 value).completeDmaTransfer bus dinSrcLliWord1 := rfl

theorem write32_doutDstLliWord0 (bus : Bus Memory) (core : Core Memory) (value : BitVec 32) :
    core.write32 bus doutDstLliWord0 value = core.store32 doutDstLliWord0 value := rfl

/-- The word that `PKA_SRAM_RDATA` delivers, and the core moved on to the next one. -/
def pkaSramDataRead (core : Core Memory) : List Byte × Core Memory :=
  let value := core.pkaSramRead core.pkaReadAddr
  (toBytes 4 value, { core with pkaReadAddr := core.pkaReadAddr + 1 }.store32 pkaSramRdata value)

/-- `read`, with the data it returns. -/
def read (core : Core Memory) (offset : Nat) (len : Nat) (debug : Bool) :
    List Byte × Core Memory :=
  let (data, loaded) :=
    if debug = false ∧ len = 4 ∧ offset = pkaSramRdata then core.pkaSramDataRead
    else (core.regs.read offset len, core)
  if debug = false ∧ ehrData ≤ offset ∧ offset < ehrData + 24 then
    (data, loaded.store32 rngIsr (loaded.load32 rngIsr ||| 0x1))
  else (data, loaded)

def write (bus : Bus Memory) (core : Core Memory) (offset : BitVec 64) (data : List Byte) :
    Core Memory :=
  if RegisterAccess.isWordWrite offset data then
    core.write32 bus offset.toNat (ofBytes 32 data)
  else { core with regs := core.regs.write offset.toNat data }

/-- A register access: its response and the core afterwards.  An access that passes the test
because its end wraps reaches past the register file, which the program leaves undefined. -/
def respond (bus : Bus Memory) (core : Core Memory) (access : RegisterAccess) :
    Option (Response × Core Memory) :=
  if access.rejected then some (.addressError, core)
  else if access.inside then
    match access with
    | .read offset len debug =>
        let (data, next) := core.read offset.toNat len debug
        some (.ok data, next)
    | .write offset data => some (.ok [], core.write bus offset data)
  else none

def step (bus : Bus Memory) (core : Core Memory) (access : RegisterAccess) :
    Option (Core Memory) :=
  (core.respond bus access).map Prod.snd

end Core

end QboxPlatform.Cc3xx
