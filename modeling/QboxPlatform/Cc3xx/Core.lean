import QboxPlatform.Cc3xx.PkaArithmetic
import QboxPlatform.Cc3xx.Sha256
import QboxPlatform.Foundation.Memo

/-!
# The state of the CC3XX core

The register file, the PKA SRAM with the cache of the modulus, and the engines.  Registers of
the core live in the byte image of the register file; the constants below are their offsets.
-/

namespace QboxPlatform.Cc3xx

open Foundation

def regBytes : Nat := 0x10000
def pkaSramWords : Nat := 0x1800 / 4
def dmaChunkBytes : Nat := 1024

def rngIsr : Nat := 0x104
def rngIcr : Nat := 0x108
def ehrData : Nat := 0x114
def rndSourceEnable : Nat := 0x12c
def sampleCnt1 : Nat := 0x130
def rngSwReset : Nat := 0x140
def rstBitsCounter : Nat := 0x1bc
def rngClkEnable : Nat := 0x1c4
def pkaOpcode : Nat := 0x080
def pkaStatus : Nat := 0x088
def pkaSwReset : Nat := 0x08c
def pkaLBase : Nat := 0x090
def pkaPipeRdy : Nat := 0x0b0
def pkaDone : Nat := 0x0b4
def pkaSramAddr : Nat := 0x0d4
def pkaSramWdata : Nat := 0x0d8
def pkaSramRdata : Nat := 0x0dc
def pkaSramRaddr : Nat := 0x0e4
def aesKey0 : Nat := 0x400
def aesIv0 : Nat := 0x440
def aesCtr0 : Nat := 0x460
def aesBusy : Nat := 0x470
def aesCmacInit : Nat := 0x47c
def aesRemainingBytes : Nat := 0x4bc
def aesControl : Nat := 0x4c0
def aesHwFlags : Nat := 0x4c8
def aesRbgSeedingRdy : Nat := 0x4fc
def hashH : Nat := 0x640
def autoHwPadding : Nat := 0x684
def hashControl : Nat := 0x7c0
def hashPadCfg : Nat := 0x7c8
def hashCurLen0 : Nat := 0x7cc
def hashCurLen1 : Nat := 0x7d0
def clkStatus : Nat := 0x824
def cryptoCtl : Nat := 0x900
def cryptoBusy : Nat := 0x910
def hashBusy : Nat := 0x91c
def hostRgfIrr : Nat := 0xa00
def hostRgfImr : Nat := 0xa04
def hostRgfIcr : Nat := 0xa08
def hostBoot : Nat := 0xa28
def hostCcIsIdle : Nat := 0xa7c
def hostSfReady : Nat := 0xa90
def dinMemDmaBusy : Nat := 0xc20
def dinSrcLliWord0 : Nat := 0xc28
def dinSrcLliWord1 : Nat := 0xc2c
def dinSramBytesLen : Nat := 0xc34
def dinSramDmaBusy : Nat := 0xc38
def fifoInEmpty : Nat := 0xc50
def doutMemDmaBusy : Nat := 0xd20
def doutDstLliWord0 : Nat := 0xd28
def doutDstLliWord1 : Nat := 0xd2c
def doutSramBytesLen : Nat := 0xd34
def doutSramDmaBusy : Nat := 0xd38
def doutFifoEmpty : Nat := 0xd50
def pidr0 : Nat := 0xfe0
def pidr1 : Nat := 0xfe4
def pidr2 : Nat := 0xfe8
def pidr3 : Nat := 0xfec
def cidr0 : Nat := 0xff0
def cidr1 : Nat := 0xff4
def aibFuseProgCompleted : Nat := 0x1f04
def lcsIsValid : Nat := 0x1f0c
def nvmIsIdle : Nat := 0x1f10
def lcsReg : Nat := 0x1f14

def sramToDinInt : BitVec 32 := 1 <<< 4
def doutToSramInt : BitVec 32 := 1 <<< 5
def memToDinInt : BitVec 32 := 1 <<< 6
def doutToMemInt : BitVec 32 := 1 <<< 7
def symDmaCompleted : BitVec 32 := 1 <<< 11

def engineNone : BitVec 32 := 0x00
def engineAes : BitVec 32 := 0x01
def engineAesAndHash : BitVec 32 := 0x03
def engineHash : BitVec 32 := 0x07
def engineAesToHashAndDout : BitVec 32 := 0x0a
def hashAlgSha256 : BitVec 32 := 0x02
def aesModeEcb : BitVec 32 := 0x00
def aesModeCtr : BitVec 32 := 0x02
def aesModeCmac : BitVec 32 := 0x07

def pkaStatusAluSignOut : BitVec 32 := 1 <<< 8
def pkaStatusAluCarry : BitVec 32 := 1 <<< 9
def pkaStatusAluOutZero : BitVec 32 := 1 <<< 12
def pkaStatusDivByZero : BitVec 32 := 1 <<< 14

/-- The core, in front of the memory that its DMA reaches.  The modulus cache is remembered with
its word count. -/
structure Core (Memory : Type) where
  regs : Image
  pkaSram : Nat → BitVec 32
  pkaWriteAddr : BitVec 32
  pkaReadAddr : BitVec 32
  pkaModulusCache : Memo Nat Int
  sha256 : Sha256State
  engine : BitVec 32
  cmacData : List Byte
  cmacActive : Bool
  memory : Memory

namespace Core

variable {Memory : Type}

def load32 (core : Core Memory) (offset : Nat) : BitVec 32 := core.regs.load32 offset

def store32 (core : Core Memory) (offset : Nat) (value : BitVec 32) : Core Memory :=
  { core with regs := core.regs.store32 offset value }

/-- Store words at their offsets, in order. -/
def storeAll (core : Core Memory) (stores : List (Nat × BitVec 32)) : Core Memory :=
  stores.foldl (fun current store => current.store32 store.1 store.2) core

/-- `SUPPORT_256_192_KEY_LOCAL`, `CTR_EXISTS_LOCAL` and `AES_DFA_IS_SUPPORTED`. -/
def supportedAes : BitVec 32 := 1 <<< 0 ||| 1 <<< 3 ||| 1 <<< 12

/-- The engines and key sizes that `HOST_BOOT` announces. -/
def presentEngines : BitVec 32 :=
  1 <<< 30 ||| 1 <<< 28 ||| 1 <<< 25 ||| 1 <<< 22 ||| 1 <<< 21 ||| 1 <<< 17 ||| 1 <<< 15 |||
    1 <<< 11

/-- What `reset_registers` stores into the cleared register file. -/
def resetStores : List (Nat × BitVec 32) :=
  [(pkaStatus, 1), (pkaPipeRdy, 1), (pkaDone, 1),
    (rngIsr, 1), (0x110, 1), (sampleCnt1, 0xffff), (0x1b8, 0), (0x1c0, 0x03120000),
    (ehrData, 0x243f6a88), (ehrData + 4, 0x85a308d3), (ehrData + 8, 0x13198a2e),
    (ehrData + 12, 0x03707344), (ehrData + 16, 0xa4093822), (ehrData + 20, 0x299f31d0),
    (0x3b0, 0), (0x3b4, 1), (aesBusy, 0),
    (aesHwFlags, supportedAes), (aesRbgSeedingRdy, 1),
    (clkStatus, 0xffffffff), (cryptoBusy, 0), (hashBusy, 0),
    (hostBoot, presentEngines),
    (hostCcIsIdle, 1), (0xa84, 0), (0xa88, 0), (hostSfReady, 1), (hostRgfIrr, 0),
    (hostRgfImr, 0), (dinMemDmaBusy, 0), (dinSramDmaBusy, 0), (fifoInEmpty, 1),
    (doutMemDmaBusy, 0), (doutSramDmaBusy, 0), (doutFifoEmpty, 1),
    (pidr0, 0xc1), (pidr1, 0xb0), (pidr2, 0x0b), (pidr3, 0), (cidr0, 0x0d), (cidr1, 0xf0),
    (0x1e30, 0), (0x1e3c, 0), (aibFuseProgCompleted, 1), (lcsIsValid, 1), (nvmIsIdle, 1),
    (lcsReg, 5)]

/-- `reset_registers`. -/
def reset (memory : Memory) : Core Memory :=
  storeAll
    { regs := fun _ => 0
      pkaSram := fun _ => 0
      pkaWriteAddr := 0
      pkaReadAddr := 0
      pkaModulusCache := ⟨false, 0, 0⟩
      sha256 := {}
      engine := engineNone
      cmacData := []
      cmacActive := false
      memory := memory }
    resetStores

/-! ### What a store leaves alone -/

theorem load32_store32_of_disjoint (core : Core Memory) {offset other : Nat}
    (value : BitVec 32) (disjoint : other + 4 ≤ offset ∨ offset + 4 ≤ other) :
    (core.store32 offset value).load32 other = core.load32 other :=
  core.regs.load32_store32_of_disjoint value disjoint

theorem storeAll_cons (core : Core Memory) (offset : Nat) (value : BitVec 32)
    (rest : List (Nat × BitVec 32)) :
    core.storeAll ((offset, value) :: rest) = (core.store32 offset value).storeAll rest := rfl

/-- Stores change the register file and nothing else. -/
theorem storeAll_eq (core : Core Memory) (stores : List (Nat × BitVec 32)) :
    core.storeAll stores = { core with regs := (core.storeAll stores).regs } := by
  induction stores generalizing core with
  | nil => rfl
  | cons store rest inductionHypothesis => exact inductionHypothesis (core.store32 store.1 store.2)

@[simp]
theorem storeAll_memory (core : Core Memory) (stores : List (Nat × BitVec 32)) :
    (core.storeAll stores).memory = core.memory := by
  rw [storeAll_eq]

@[simp]
theorem storeAll_engine (core : Core Memory) (stores : List (Nat × BitVec 32)) :
    (core.storeAll stores).engine = core.engine := by
  rw [storeAll_eq]

theorem load32_storeAll_of_disjoint (core : Core Memory) {stores : List (Nat × BitVec 32)}
    {other : Nat} (disjoint : ∀ store ∈ stores, other + 4 ≤ store.1 ∨ store.1 + 4 ≤ other) :
    (core.storeAll stores).load32 other = core.load32 other := by
  induction stores generalizing core with
  | nil => rfl
  | cons store rest inductionHypothesis =>
      rw [storeAll_cons, inductionHypothesis _ fun later member =>
        disjoint later (List.mem_cons_of_mem _ member)]
      exact core.load32_store32_of_disjoint store.2 (disjoint store List.mem_cons_self)

end Core

end QboxPlatform.Cc3xx
