import QboxPlatform.Cc3xx.Core

/-!
# The operations of the public-key accelerator

The operands of the PKA are windows of its SRAM.  A mapping register holds the word address at
which a window starts, and mapping register 0 holds the start of the modulus N.
-/

namespace QboxPlatform.Cc3xx

open Foundation

/-- The operations that `execute_pka_opcode` tells apart. -/
inductive PkaOperation
  | addInc
  | subDecNeg
  | modAddModInc
  | modSubModDecModNeg
  | andTst0Clr0
  | orCopySet0
  | xorFlip0InvertCompare
  | shr0
  | shr1
  | shl0
  | shl1
  | mulLow
  | modMul
  | modExp
  | div
  | modInv
  | mulHigh
  | reduction
  deriving DecidableEq

namespace PkaOperation

/-- The bits 27 and up of an opcode. -/
def decode (op : Nat) : Option PkaOperation :=
  match op with
  | 0x04 => some addInc
  | 0x05 => some subDecNeg
  | 0x06 => some modAddModInc
  | 0x07 => some modSubModDecModNeg
  | 0x08 => some andTst0Clr0
  | 0x09 => some orCopySet0
  | 0x0a => some xorFlip0InvertCompare
  | 0x0c => some shr0
  | 0x0d => some shr1
  | 0x0e => some shl0
  | 0x0f => some shl1
  | 0x10 => some mulLow
  | 0x11 => some modMul
  | 0x13 => some modExp
  | 0x14 => some div
  | 0x15 => some modInv
  | 0x17 => some mulHigh
  | 0x1b => some reduction
  | _ => none

def isShift : PkaOperation → Bool
  | shr0 | shr1 | shl0 | shl1 => true
  | _ => false

def signedImmediate : PkaOperation → Bool
  | addInc | subDecNeg | modAddModInc | modSubModDecModNeg => true
  | _ => false

/-- The operations that ask for the modulus. -/
def isModular : PkaOperation → Bool
  | modAddModInc | modSubModDecModNeg | modMul | modExp | modInv | reduction => true
  | _ => false

end PkaOperation

/-- The fields of an opcode. -/
structure PkaOpcode where
  op : Nat
  sizeId : Nat
  lhsImmediate : Bool
  lhsId : BitVec 32
  rhsImmediate : Bool
  rhsId : BitVec 32
  discardResult : Bool
  resultId : BitVec 32
  deriving DecidableEq

def PkaOpcode.decode (opcode : BitVec 32) : PkaOpcode where
  op := (opcode >>> 27 &&& 0x1f).toNat
  sizeId := (opcode >>> 24 &&& 0x7).toNat
  lhsImmediate := opcode >>> 23 &&& 0x1 != 0
  lhsId := opcode >>> 18 &&& 0x1f
  rhsImmediate := opcode >>> 17 &&& 0x1 != 0
  rhsId := opcode >>> 12 &&& 0x1f
  discardResult := opcode >>> 11 &&& 0x1 != 0
  resultId := opcode >>> 6 &&& 0x1f

/-- What an operation computes: the result, the words that a division stores back to its left
operand, and the status flags. -/
structure PkaOutcome where
  result : Operand
  storedBack : Option Operand := none
  carry : Bool := false
  sign : Bool := false
  divByZero : Bool := false

/-- The arms of the `switch` in `execute_pka_opcode`; a shift takes its amount from the field of
the right operand. -/
def PkaOperation.compute (operation : PkaOperation) (rhsId : BitVec 32) (words : Nat)
    (modulus : Int) (lhs rhs : Operand) : PkaOutcome :=
  let lhsValue := pkaWordsToInt lhs
  let rhsValue := pkaWordsToInt rhs
  match operation with
  | .addInc =>
      let (result, carry) := pkaAddWords lhs rhs
      { result, carry }
  | .modAddModInc =>
      if 0 < modulus then
        { result := pkaIntToWords (pkaPositiveMod (lhsValue + rhsValue) modulus) words
          carry := modulus ≤ lhsValue + rhsValue }
      else
        let (result, carry) := pkaAddWords lhs rhs
        { result, carry }
  | .subDecNeg =>
      let (result, carry) := pkaSubWords lhs rhs
      { result, carry, sign := carry }
  | .modSubModDecModNeg =>
      if 0 < modulus then
        { result := pkaIntToWords (pkaPositiveMod (lhsValue - rhsValue) modulus) words
          carry := lhsValue < rhsValue
          sign := lhsValue < rhsValue }
      else
        let (result, carry) := pkaSubWords lhs rhs
        { result, carry, sign := carry }
  | .andTst0Clr0 => { result := List.zipWith (· &&& ·) lhs rhs }
  | .orCopySet0 => { result := List.zipWith (· ||| ·) lhs rhs }
  | .xorFlip0InvertCompare => { result := List.zipWith (· ^^^ ·) lhs rhs }
  | .shr0 => { result := pkaShiftWords lhs (rhsId.toNat + 1) false false }
  | .shr1 => { result := pkaShiftWords lhs (rhsId.toNat + 1) false true }
  | .shl0 => { result := pkaShiftWords lhs (rhsId.toNat + 1) true false }
  | .shl1 => { result := pkaShiftWords lhs (rhsId.toNat + 1) true true }
  | .mulLow =>
      { result := pkaIntToWords (lhsValue * rhsValue) words
        carry := lhsValue * rhsValue / pkaWordModulus words ≠ 0 }
  | .mulHigh => { result := pkaIntToWords (lhsValue * rhsValue / pkaWordModulus words) words }
  | .div =>
      if rhsValue = 0 then
        { result := List.replicate words 0, storedBack := some lhs, divByZero := true }
      else
        { result := pkaIntToWords (lhsValue.tdiv rhsValue) words
          storedBack := some (pkaIntToWords (lhsValue.tmod rhsValue) words) }
  | .modMul =>
      { result := pkaIntToWords (pkaPositiveMod (lhsValue * rhsValue) modulus) words
        divByZero := modulus ≤ 0 }
  | .modExp =>
      { result := pkaIntToWords (pkaPowMod lhsValue rhsValue modulus) words
        divByZero := modulus ≤ 0 }
  | .modInv =>
      let (inverse, invertible) := pkaModInverse rhsValue modulus
      { result := pkaIntToWords inverse words, divByZero := !invertible }
  | .reduction =>
      { result := pkaIntToWords (pkaPositiveMod lhsValue modulus) words
        divByZero := modulus ≤ 0 }

/-- Every operand that the outcome holds has the operation's word count. -/
structure PkaOutcome.Sized (outcome : PkaOutcome) (words : Nat) : Prop where
  result : outcome.result.length = words
  storedBack : ∀ data, outcome.storedBack = some data → data.length = words

theorem PkaOperation.sized_compute (operation : PkaOperation) (rhsId : BitVec 32) {words : Nat}
    (modulus : Int) {lhs rhs : Operand} (lhsSized : lhs.length = words)
    (rhsSized : rhs.length = words) :
    (operation.compute rhsId words modulus lhs rhs).Sized words := by
  have added := (length_pkaAddWords (lhsSized.trans rhsSized.symm)).trans lhsSized
  have subtracted := (length_pkaSubWords (lhsSized.trans rhsSized.symm)).trans lhsSized
  cases operation
  case addInc | subDecNeg => exact ⟨by assumption, by simp [compute]⟩
  case modAddModInc | modSubModDecModNeg | div =>
    dsimp only [compute]
    split <;> constructor <;> simp [added, subtracted, lhsSized]
  all_goals constructor <;> simp [compute, lhsSized, rhsSized]

def signExtend5 (value : BitVec 32) : BitVec 32 :=
  if value &&& 0x1f &&& 0x10 ≠ 0 then value &&& 0x1f ||| ~~~0x1f else value &&& 0x1f

/-- The words of an immediate operand. -/
def immediateWords (value : BitVec 32) (signedImmediate : Bool) : (words : Nat) → Operand
  | 0 => []
  | words + 1 =>
      if signedImmediate then
        signExtend5 value ::
          List.replicate words (if (signExtend5 value).msb then 0xffffffff else 0)
      else (value &&& 0x1f) :: List.replicate words 0

@[simp]
theorem length_immediateWords (value : BitVec 32) (signedImmediate : Bool) (words : Nat) :
    (immediateWords value signedImmediate words).length = words := by
  cases words with
  | zero => rfl
  | succ words => cases signedImmediate <;> simp [immediateWords]

namespace Core

variable {Memory : Type}

/-- The words of an operand size.  The sum with 31 wraps, so the largest sizes count no words. -/
def pkaLenWords (core : Core Memory) (sizeId : Nat) : Nat :=
  let bits := if sizeId < 8 then core.load32 (pkaLBase + sizeId * 4) else 0
  if bits = 0 then 1 else min ((bits + 31).toNat / 32) pkaSramWords

def pkaSramRead (core : Core Memory) (wordAddr : BitVec 32) : BitVec 32 :=
  if wordAddr.toNat < pkaSramWords then core.pkaSram wordAddr.toNat else 0

def pkaInvalidateModulusCache (core : Core Memory) : Core Memory :=
  { core with pkaModulusCache := ⟨false, 0, 0⟩ }

def pkaSramWrite (core : Core Memory) (wordAddr value : BitVec 32) (invalidateModulus : Bool) :
    Core Memory :=
  if wordAddr.toNat < pkaSramWords then
    let written := { core with pkaSram := Function.update core.pkaSram wordAddr.toNat value }
    if invalidateModulus then written.pkaInvalidateModulusCache else written
  else core

def pkaPhysRegBase (core : Core Memory) (physReg : BitVec 32) : BitVec 32 :=
  if 32 ≤ physReg.toNat then 0 else core.load32 (physReg.toNat * 4)

/-- The words of the SRAM from an address on; the addresses wrap. -/
def pkaSramWindow (core : Core Memory) (base : BitVec 32) (words : Nat) : Operand :=
  (List.range words).map fun index => core.pkaSramRead (base + BitVec.ofNat 32 index)

def pkaLoadOperand (core : Core Memory) (isImmediate : Bool) (value : BitVec 32) (words : Nat)
    (signedImmediate : Bool) : Operand :=
  if isImmediate then immediateWords value signedImmediate words
  else core.pkaSramWindow (core.pkaPhysRegBase value) words

/-- The overlap test of `pka_store_operand`, in 64 bits. -/
def pkaWritesModulus (core : Core Memory) (physReg : BitVec 32) (size : Nat) : Bool :=
  let base := core.pkaPhysRegBase physReg
  let nBase := core.pkaPhysRegBase 0
  base.toNat < nBase.toNat + size && nBase.toNat < base.toNat + size

/-- The loop of `pka_store_operand`. -/
def pkaStoreWords (core : Core Memory) (base : BitVec 32) (writesModulus : Bool) :
    Operand → Core Memory
  | [] => core
  | word :: rest =>
      (core.pkaSramWrite base word writesModulus).pkaStoreWords (base + 1) writesModulus rest

def pkaStoreOperand (core : Core Memory) (physReg : BitVec 32) (data : Operand) : Core Memory :=
  core.pkaStoreWords (core.pkaPhysRegBase physReg) (core.pkaWritesModulus physReg data.length) data

/-- The modulus loaded from the SRAM. -/
def pkaFreshModulus (core : Core Memory) (words : Nat) : Int :=
  pkaWordsToInt (core.pkaLoadOperand false 0 words false)

/-- `pka_modulus_value`: the value, and the core with the cache filled. -/
def pkaModulusValue (core : Core Memory) (words : Nat) : Int × Core Memory :=
  if core.pkaModulusCache.valid ∧ core.pkaModulusCache.key = words then
    (core.pkaModulusCache.value, core)
  else
    let value := pkaWordsToInt (core.pkaLoadOperand false 0 words false)
    (value, { core with pkaModulusCache := ⟨true, words, value⟩ })

def pkaUpdateStatus (core : Core Memory) (outcome : PkaOutcome) : Core Memory :=
  let status : BitVec 32 :=
    0x1 ||| (if outcome.sign then pkaStatusAluSignOut else 0) |||
      (if outcome.carry then pkaStatusAluCarry else 0) |||
      (if pkaIsZero outcome.result then pkaStatusAluOutZero else 0) |||
      (if outcome.divByZero then pkaStatusDivByZero else 0)
  core.storeAll [(pkaStatus, status), (pkaPipeRdy, 1), (pkaDone, 1)]

/-- The operands of an opcode; the right one of a shift is not loaded. -/
def pkaLoadOperands (core : Core Memory) (opcode : PkaOpcode) (operation : PkaOperation) :
    Operand × Operand :=
  let words := core.pkaLenWords opcode.sizeId
  (core.pkaLoadOperand opcode.lhsImmediate opcode.lhsId words operation.signedImmediate,
    if operation.isShift then List.replicate words 0
    else core.pkaLoadOperand opcode.rhsImmediate opcode.rhsId words operation.signedImmediate)

/-- The operands that an operation stores, each with its register, in order. -/
def pkaStores (opcode : PkaOpcode) (outcome : PkaOutcome) : List (BitVec 32 × Operand) :=
  (match outcome.storedBack with
    | some words => if opcode.lhsImmediate then [] else [(opcode.lhsId, words)]
    | none => []) ++
  if opcode.discardResult then [] else [(opcode.resultId, outcome.result)]

def pkaStoreAll (core : Core Memory) (stores : List (BitVec 32 × Operand)) : Core Memory :=
  stores.foldl (fun current store => current.pkaStoreOperand store.1 store.2) core

/-- The modulus for an operation, looked up where it asks for one. -/
def pkaModulusFor (core : Core Memory) (operation : PkaOperation) (words : Nat) :
    Int × Core Memory :=
  if operation.isModular then core.pkaModulusValue words else (0, core)

/-- An operation of the `switch`. -/
def pkaExecute (core : Core Memory) (opcode : PkaOpcode) (operation : PkaOperation) :
    Core Memory :=
  let words := core.pkaLenWords opcode.sizeId
  let (lhs, rhs) := core.pkaLoadOperands opcode operation
  let (modulus, ready) := core.pkaModulusFor operation words
  let outcome := operation.compute opcode.rhsId words modulus lhs rhs
  (ready.pkaStoreAll (pkaStores opcode outcome)).pkaUpdateStatus outcome

/-- `execute_pka_opcode`.  An operation that is not in the `switch` leaves a zero result in the
status and stores nothing. -/
def executePkaOpcode (core : Core Memory) (opcode : BitVec 32) : Core Memory :=
  let fields := PkaOpcode.decode opcode
  if fields.op = 0 then core
  else
    match PkaOperation.decode fields.op with
    | some operation => core.pkaExecute fields operation
    | none =>
        core.pkaUpdateStatus { result := List.replicate (core.pkaLenWords fields.sizeId) 0 }

end Core

end QboxPlatform.Cc3xx
