import QboxPlatform.Cc3xx.Aes
import QboxPlatform.Cc3xx.Core
import QboxPlatform.Foundation.Bus

/-!
# The hash and AES engines and their DMA

The engines read their configuration from the register file and move data in chunks through the
memory behind the core.  A failing access ends a transfer where it stands.
-/

namespace QboxPlatform.Cc3xx

open Foundation

/-- ECB over the 16-byte blocks of a chunk. -/
def ecbBlocks (cipher : Block → Option Block) : (count : Nat) → List Byte → Option (List Byte)
  | 0, _ => some []
  | count + 1, input => do
      let output ← cipher (Block.ofBytes (input.take 16))
      let rest ← ecbBlocks cipher count (input.drop 16)
      return output.toBytes ++ rest

/-- CTR over the blocks of a chunk, the last of which may be short; it gives the next counter. -/
def ctrBlocks (key : List Byte) :
    (count : Nat) → Block → List Byte → Option (List Byte × Block)
  | 0, counter, _ => some ([], counter)
  | count + 1, counter, input => do
      let stream ← aesEncryptBlock key counter
      let (rest, next) ← ctrBlocks key count (aesIncrementCounter counter) (input.drop 16)
      return (List.zipWith (· ^^^ ·) (input.take 16) stream.toBytes ++ rest, next)

namespace Core

variable {Memory : Type}

def hashCurrentLen (core : Core Memory) : BitVec 64 :=
  (core.load32 hashCurLen0).setWidth 64 ||| (core.load32 hashCurLen1).setWidth 64 <<< 32

def storeHashCurrentLen (core : Core Memory) (value : BitVec 64) : Core Memory :=
  core.storeAll [(hashCurLen0, value.setWidth 32), (hashCurLen1, (value >>> 32).setWidth 32)]

def storeSha256H (core : Core Memory) : Core Memory :=
  core.storeAll
    (core.sha256.h.toList.zipIdx.map fun (word, index) => (hashH + index * 4, word))

def sha256Reset (core : Core Memory) : Core Memory :=
  ({ core with sha256 := .started }.storeHashCurrentLen 0).storeSha256H

/-- `sha256_update`; the chaining value reaches the registers with each full block. -/
def sha256Update (core : Core Memory) (data : List Byte) : Core Memory :=
  if !core.sha256.active || core.sha256.finalized then core
  else
    let state := core.sha256.update data
    let counted := { core with sha256 := state }.storeHashCurrentLen state.bytes
    if 64 ≤ core.sha256.block.length + data.length then counted.storeSha256H else counted

/-- `sha256_finish`; the length registers keep the length of the message. -/
def sha256Finish (core : Core Memory) : Core Memory :=
  if !core.sha256.active || core.sha256.finalized then core
  else
    { core with sha256 := core.sha256.finish }.storeSha256H.storeHashCurrentLen core.sha256.bytes

/-- Feed `remaining` bytes of the memory to a consumer, a chunk at a time; tells whether every
chunk could be read. -/
def dmaInput (bus : Bus Memory) (consume : Core Memory → List Byte → Core Memory)
    (core : Core Memory) (source : BitVec 64) (remaining : Nat) (chunk : List Byte) :
    Bool × Core Memory :=
  if remaining = 0 then (true, core)
  else
    let len := min remaining dmaChunkBytes
    let (ok, data, memory) := bus.read core.memory source (chunk.take len)
    let loaded := { core with memory := memory }
    if ok then
      dmaInput bus consume (consume loaded data) (source + BitVec.ofNat 64 len) (remaining - len)
        (data ++ chunk.drop len)
    else (false, loaded)
termination_by remaining
decreasing_by
  simp only [dmaChunkBytes]
  omega

def emptyChunk : List Byte := List.replicate dmaChunkBytes 0

def dmaSource (core : Core Memory) : BitVec 64 := (core.load32 dinSrcLliWord0).setWidth 64

def hashDmaInput (bus : Bus Memory) (core : Core Memory) (triggerOffset : Nat) : Core Memory :=
  if core.engine ≠ engineHash ∨ core.sha256.active = false ∨ core.sha256.finalized = true ∨
      triggerOffset ≠ dinSrcLliWord1 then core
  else
    let (completed, fed) := dmaInput bus sha256Update core core.dmaSource
      (core.load32 dinSrcLliWord1).toNat emptyChunk
    if completed && (fed.load32 autoHwPadding &&& 0x1 != 0) then fed.sha256Finish else fed

def aesKeySizeBytes (core : Core Memory) : Nat :=
  match (core.load32 aesControl >>> 12 &&& 0x3).toNat with
  | 0 => 16
  | 1 => 24
  | 2 => 32
  | _ => 16

def aesKey (core : Core Memory) : List Byte := core.regs.read aesKey0 core.aesKeySizeBytes

def aesMode (core : Core Memory) : BitVec 32 := core.load32 aesControl >>> 2 &&& 0xf

def aesDecrypt (core : Core Memory) : Bool := core.load32 aesControl &&& 0x1 != 0

/-- Read a chunk, transform it, write it to the destination, until no bytes remain. -/
def aesChunks {Chaining : Type} (bus : Bus Memory)
    (transform : Chaining → List Byte → Option (List Byte × Chaining)) (core : Core Memory)
    (source dest : BitVec 64) (remaining : Nat) (chunk : List Byte) (chaining : Chaining) :
    Option Chaining × Core Memory :=
  if remaining = 0 then (some chaining, core)
  else
    let len := min remaining dmaChunkBytes
    let (readOk, input, memory) := bus.read core.memory source (chunk.take len)
    let loaded := { core with memory := memory }
    if readOk then
      match transform chaining input with
      | none => (none, loaded)
      | some (output, next) =>
          let (writeOk, memory) := bus.write loaded.memory dest output
          let stored := { loaded with memory := memory }
          if writeOk then
            aesChunks bus transform stored (source + BitVec.ofNat 64 len)
              (dest + BitVec.ofNat 64 len) (remaining - len) (input ++ chunk.drop len) next
          else (none, stored)
    else (none, loaded)
termination_by remaining
decreasing_by
  simp only [dmaChunkBytes]
  omega

def aesCtrXcrypt (bus : Bus Memory) (core : Core Memory) (source dest : BitVec 64) (len : Nat) :
    Core Memory :=
  let key := core.aesKey
  let counter := Block.ofBytes (core.regs.read aesCtr0 16)
  let transform := fun counter (input : List Byte) =>
    ctrBlocks key ((input.length + 15) / 16) counter input
  match aesChunks bus transform core source dest len emptyChunk counter with
  | (some counter, moved) =>
      { moved with regs := moved.regs.write aesCtr0 counter.toBytes }.storeAll
        [(aesRemainingBytes, 0), (aesBusy, 0)]
  | (none, moved) => moved

def aesEcbXcrypt (bus : Bus Memory) (core : Core Memory) (source dest : BitVec 64) (len : Nat) :
    Core Memory :=
  if len % 16 ≠ 0 then core
  else
    let key := core.aesKey
    let cipher := if core.aesDecrypt then aesDecryptBlock key else aesEncryptBlock key
    let transform := fun (_ : Unit) (input : List Byte) =>
      (ecbBlocks cipher (input.length / 16) input).map fun output => (output, ())
    match aesChunks bus transform core source dest len emptyChunk () with
    | (some _, moved) => moved.storeAll [(aesRemainingBytes, 0), (aesBusy, 0)]
    | (none, moved) => moved

def aesDmaOutput (bus : Bus Memory) (core : Core Memory) (triggerOffset : Nat) : Core Memory :=
  let aesEngine := core.engine = engineAes ∨ core.engine = engineAesAndHash ∨
    core.engine = engineAesToHashAndDout
  let dest := (core.load32 doutDstLliWord0).setWidth 64
  let len := min (core.load32 dinSrcLliWord1).toNat (core.load32 doutDstLliWord1).toNat
  if triggerOffset ≠ dinSrcLliWord1 ∨ ¬aesEngine ∨ len = 0 then core
  else if core.aesMode = aesModeEcb then core.aesEcbXcrypt bus core.dmaSource dest len
  else if core.aesMode = aesModeCtr then core.aesCtrXcrypt bus core.dmaSource dest len
  else core

def cmacReset (core : Core Memory) : Core Memory :=
  { core with cmacData := [], cmacActive := true }

def cmacDmaInput (bus : Bus Memory) (core : Core Memory) (triggerOffset : Nat) : Core Memory :=
  if core.cmacActive = false ∨ core.engine ≠ engineAes ∨ core.aesMode ≠ aesModeCmac ∨
      triggerOffset ≠ dinSrcLliWord1 then core
  else
    (dmaInput bus (fun core data => { core with cmacData := core.cmacData ++ data }) core
      core.dmaSource (core.load32 dinSrcLliWord1).toNat emptyChunk).2

def cmacFinish (core : Core Memory) : Core Memory :=
  if core.cmacActive = false ∨ core.aesMode ≠ aesModeCmac then core
  else
    let tagged :=
      match aesCmac core.aesKey core.cmacData with
      | some tag => { core with regs := core.regs.write aesIv0 tag.toBytes }
      | none => core
    { tagged.store32 aesBusy 0 with cmacActive := false }

def completeDmaTransfer (bus : Bus Memory) (core : Core Memory) (triggerOffset : Nat) :
    Core Memory :=
  let interrupts :=
    if triggerOffset = dinSrcLliWord1 then symDmaCompleted ||| memToDinInt
    else if triggerOffset = dinSramBytesLen then symDmaCompleted ||| sramToDinInt
    else if triggerOffset = doutDstLliWord1 then symDmaCompleted ||| doutToMemInt
    else if triggerOffset = doutSramBytesLen then symDmaCompleted ||| doutToSramInt
    else symDmaCompleted
  let hashed := core.hashDmaInput bus triggerOffset
  let moved := hashed.aesDmaOutput bus triggerOffset
  let tagged := moved.cmacDmaInput bus triggerOffset
  tagged.storeAll
    [(hostRgfIrr, tagged.load32 hostRgfIrr ||| interrupts), (dinMemDmaBusy, 0),
      (dinSramDmaBusy, 0), (doutMemDmaBusy, 0), (doutSramDmaBusy, 0), (fifoInEmpty, 1),
      (doutFifoEmpty, 1), (hostCcIsIdle, 1)]

/-- The registers that show the end of a transfer. -/
def statusRegisters : List Nat :=
  [hostRgfIrr, dinMemDmaBusy, dinSramDmaBusy, doutMemDmaBusy, doutSramDmaBusy, fifoInEmpty,
    doutFifoEmpty, hostCcIsIdle]

/-- A transfer is what the engines make of it, and stores to the status registers. -/
theorem completeDmaTransfer_eq (bus : Bus Memory) (core : Core Memory) (triggerOffset : Nat) :
    ∃ stores : List (Nat × BitVec 32), (∀ store ∈ stores, store.1 ∈ statusRegisters) ∧
      core.completeDmaTransfer bus triggerOffset =
        (((core.hashDmaInput bus triggerOffset).aesDmaOutput bus triggerOffset).cmacDmaInput bus
          triggerOffset).storeAll stores := by
  refine ⟨_, ?_, rfl⟩
  simp only [List.mem_cons, List.not_mem_nil, or_false, forall_eq_or_imp, forall_eq]
  decide

end Core

end QboxPlatform.Cc3xx
