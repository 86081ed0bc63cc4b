import QboxPlatform.Cc3xx.AesTransfer
import QboxPlatform.Foundation.BigEndian
import QboxPlatform.Foundation.CounterMode

/-!
# Counter mode through the DMA

The CTR path of the DMA carries the counter from transfer to transfer in the registers.  Over
transfers of complete blocks its output is that of the one-shot function.
-/

namespace QboxPlatform.Cc3xx

open Foundation

/-- The loop of `aes_ctr_xcrypt_buffer`; the first block of the stream is used from an offset
on. -/
def ctrBufferLoop (key : List Byte) (counter : Block) (input : List Byte)
    (streamOffset : Fin 16) : Option (List Byte) :=
  if input = [] then some []
  else do
    let stream ← aesEncryptBlock key counter
    let blockLen := min (16 - streamOffset.val) input.length
    let rest ← ctrBufferLoop key (aesIncrementCounter counter) (input.drop blockLen) 0
    return List.zipWith (· ^^^ ·) (input.take blockLen) (stream.toBytes.drop streamOffset) ++ rest
termination_by input.length
decreasing_by
  have positive : 0 < input.length := List.length_pos_iff.mpr (by assumption)
  rw [List.length_drop]
  omega

def aesCtrXcryptBuffer (key : List Byte) (counter : Block) (input : List Byte) (blkOff : Nat) :
    Option (List Byte) :=
  if key.length ≠ 16 ∧ key.length ≠ 24 ∧ key.length ≠ 32 then none
  else if inside : blkOff < 16 then ctrBufferLoop key counter input ⟨blkOff, inside⟩
  else none

/-- A block as a number, most significant byte first. -/
def Block.toNat (block : Block) : Nat := BigEndian.number block.toBytes

theorem number_incrementBytes (bytes : List Byte) :
    BigEndian.number (incrementBytes bytes).reverse =
      (BigEndian.number bytes.reverse + 1) % 256 ^ bytes.length := by
  induction bytes with
  | nil => rfl
  | cons byte rest inductionHypothesis =>
      have below := BigEndian.number_lt rest.reverse
      rw [List.length_reverse] at below
      rw [incrementBytes, List.length_cons, Nat.pow_succ, List.reverse_cons,
        BigEndian.number_append, BigEndian.number_singleton, List.length_singleton, pow_one]
      by_cases carries : byte + 1 = 0
      · have last : byte.toNat = 255 := by bv_omega
        rw [if_neg (not_not_intro carries), List.reverse_cons, BigEndian.number_append,
          inductionHypothesis, BigEndian.number_singleton, List.length_singleton, pow_one, last,
          ← Nat.mul_mod_mul_right]
        have carried : BigEndian.number rest.reverse * 256 + 255 + 1 =
            (BigEndian.number rest.reverse + 1) * 256 := by ring
        rw [carried]
        rfl
      · have next : (byte + 1).toNat = byte.toNat + 1 := by bv_omega
        have small : byte.toNat + 1 < 256 := next ▸ (byte + 1).isLt
        rw [if_pos carries, List.reverse_cons, BigEndian.number_append,
          BigEndian.number_singleton, List.length_singleton, pow_one, next,
          Nat.mod_eq_of_lt (by omega)]
        omega

theorem length_incrementBytes (bytes : List Byte) :
    (incrementBytes bytes).length = bytes.length := by
  induction bytes with
  | nil => rfl
  | cons byte rest inductionHypothesis =>
      rw [incrementBytes]
      split
      · rfl
      · rw [List.length_cons, List.length_cons, inductionHypothesis]

theorem Block.toNat_lt (block : Block) : block.toNat < 2 ^ 128 := by
  have bounded := BigEndian.number_lt block.toBytes
  rw [Block.length_toBytes] at bounded
  have same : 256 ^ 16 = 2 ^ 128 := by norm_num
  exact same ▸ bounded

/-- The counter is incremented as a 128-bit number. -/
theorem toNat_aesIncrementCounter (counter : Block) :
    (aesIncrementCounter counter).toNat = (counter.toNat + 1) % 2 ^ 128 := by
  have whole : (incrementBytes counter.toBytes.reverse).reverse.length = 16 := by
    rw [List.length_reverse, length_incrementBytes, List.length_reverse, Block.length_toBytes]
  rw [Block.toNat, aesIncrementCounter, Block.toBytes_ofBytes whole, number_incrementBytes,
    List.reverse_reverse, List.length_reverse, Block.length_toBytes]
  rfl

theorem toNat_iterate_aesIncrementCounter (count : Nat) (counter : Block) :
    (aesIncrementCounter^[count] counter).toNat = (counter.toNat + count) % 2 ^ 128 := by
  induction count generalizing counter with
  | zero =>
      rw [Function.iterate_zero, id_eq, Nat.add_zero, Nat.mod_eq_of_lt counter.toNat_lt]
  | succ count inductionHypothesis =>
      rw [Function.iterate_succ_apply, inductionHypothesis, toNat_aesIncrementCounter,
        Nat.mod_add_mod, Nat.add_assoc, Nat.add_comm 1]

/-- The output of counter mode from a counter on. -/
def ctrOutput (key : List Byte) (counter : Block) (input : List Byte) : List Byte :=
  CounterMode.crypt (fun counter => (encrypted key counter).toBytes) aesIncrementCounter
    (· ^^^ ·) 16 counter input

/-- The counter after some bytes. -/
def ctrAfter (counter : Block) (length : Nat) : Block :=
  aesIncrementCounter^[CounterMode.blocks 16 length] counter

theorem ctrBufferLoop_eq {key : List Byte}
    (supported : key.length = 16 ∨ key.length = 24 ∨ key.length = 32) (counter : Block)
    (input : List Byte) :
    ctrBufferLoop key counter input 0 = some (ctrOutput key counter input) := by
  unfold ctrOutput
  induction counter, input using
      CounterMode.crypt.induct aesIncrementCounter 16 with
  | case1 counter input nonempty inductionHypothesis =>
      have least : min (16 - (0 : Fin 16).val) input.length = min 16 input.length := rfl
      rw [ctrBufferLoop, if_neg nonempty.2, aesEncryptBlock_eq supported, least]
      change (ctrBufferLoop key _ (input.drop (min 16 input.length)) 0).bind (fun rest =>
        some (List.zipWith (· ^^^ ·) (input.take (min 16 input.length)) _ ++ rest)) = _
      rw [← List.take_eq_take_min, ← List.drop_eq_drop_min, inductionHypothesis,
        CounterMode.crypt_of_ne_nil (by decide) counter nonempty.2]
      rfl
  | case2 counter input exhausted =>
      have empty : input = [] := by
        by_contra nonempty
        exact exhausted ⟨by decide, nonempty⟩
      rw [empty, CounterMode.crypt_nil, ctrBufferLoop, if_pos rfl]

theorem ctrBlocks_eq {key : List Byte}
    (supported : key.length = 16 ∨ key.length = 24 ∨ key.length = 32) (counter : Block)
    (input : List Byte) :
    ctrBlocks key (CounterMode.blocks 16 input.length) counter input =
      some (ctrOutput key counter input, ctrAfter counter input.length) := by
  unfold ctrOutput ctrAfter
  induction counter, input using
      CounterMode.crypt.induct aesIncrementCounter 16 with
  | case1 counter input nonempty inductionHypothesis =>
      rw [CounterMode.blocks_drop (by decide) nonempty.2, ctrBlocks,
        aesEncryptBlock_eq supported, inductionHypothesis, Function.iterate_succ_apply,
        CounterMode.crypt_of_ne_nil (by decide) counter nonempty.2]
      rfl
  | case2 counter input exhausted =>
      have empty : input = [] := by
        by_contra nonempty
        exact exhausted ⟨by decide, nonempty⟩
      rw [empty, CounterMode.crypt_nil, List.length_nil, CounterMode.blocks_zero (by decide)]
      rfl

theorem length_ctrOutput (key : List Byte) (counter : Block) (input : List Byte) :
    (ctrOutput key counter input).length = input.length :=
  CounterMode.length_crypt (by decide) (fun _ => Block.length_toBytes _) counter input

theorem ctrOutput_append (key : List Byte) (counter : Block) {front back : List Byte}
    (whole : 16 ∣ front.length ∨ back = []) :
    ctrOutput key counter (front ++ back) =
      ctrOutput key counter front ++ ctrOutput key (ctrAfter counter front.length) back :=
  CounterMode.crypt_append (by decide) counter whole

theorem ctrAfter_add (counter : Block) {first second : Nat}
    (whole : 16 ∣ first ∨ second = 0) :
    ctrAfter counter (first + second) = ctrAfter (ctrAfter counter first) second := by
  rw [ctrAfter, CounterMode.blocks_add (by decide) whole, Function.iterate_add_apply]
  rfl

/-- The transformation of a chunk by `aes_ctr_xcrypt`. -/
def ctrTransform (key : List Byte) (counter : Block) (input : List Byte) :
    Option (List Byte × Block) :=
  ctrBlocks key ((input.length + 15) / 16) counter input

theorem ctrTransform_eq {key : List Byte}
    (supported : key.length = 16 ∨ key.length = 24 ∨ key.length = 32) (counter : Block)
    (input : List Byte) :
    ctrTransform key counter input =
      some (ctrOutput key counter input, ctrAfter counter input.length) :=
  ctrBlocks_eq supported counter input

/-- Counter mode takes every length. -/
abbrev ctrMode (key : List Byte) : BlockMode Block where
  Takes _ := True
  output := ctrOutput key
  after := ctrAfter
  length_output counter _ _ := length_ctrOutput key counter _
  output_nil _ := CounterMode.crypt_nil _
  after_zero counter := by
    rw [ctrAfter, CounterMode.blocks_zero (by decide)]
    rfl
  takes_cut _ _ := ⟨trivial, trivial⟩
  output_append counter _ _ whole _ := ctrOutput_append key counter whole
  after_add counter _ _ whole := ctrAfter_add counter whole

namespace Core

variable {Memory : Type}

/-- The block in the `AES_CTR` registers. -/
def aesCounter (core : Core Memory) : Block := Block.ofBytes (core.regs.read aesCtr0 16)

/-- The core is set up for counter mode. -/
structure Encrypting (key : List Byte) (counter : Block) (core : Core Memory) : Prop where
  selected : core.AesSelected
  mode : core.aesMode = aesModeCtr
  key : core.aesKey = key
  counter : core.aesCounter = counter

namespace Encrypting

variable {core : Core Memory} {key : List Byte} {counter : Block}

theorem ofMemory (encrypting : Encrypting key counter core) (memory : Memory) :
    Encrypting key counter { core with memory := memory } :=
  ⟨encrypting.selected, encrypting.mode, encrypting.key, encrypting.counter⟩

theorem store32 (encrypting : Encrypting key counter core) {offset : Nat} (value : BitVec 32)
    (apart : aesCtr0 + 16 ≤ offset ∧ offset + 4 ≤ aesControl ∨ aesControl + 4 ≤ offset) :
    Encrypting key counter (core.store32 offset value) := by
  have control : (core.store32 offset value).load32 aesControl = core.load32 aesControl :=
    load32_store32_of_disjoint core value (by omega)
  have low : aesCtr0 + 16 ≤ offset := by
    simp only [aesCtr0, aesControl] at apart ⊢
    omega
  refine ⟨encrypting.selected, ?_, ?_, ?_⟩
  · rw [aesMode, control]
    exact encrypting.mode
  · rw [← encrypting.key]
    apply aesKey_congr control
    intro index _ below
    apply Image.store32_outside
    simp only [aesCtr0, aesKey0] at low below
    omega
  · rw [← encrypting.counter, aesCounter, aesCounter]
    congr 1
    apply Image.read_congr
    intro index _ below
    apply Image.store32_outside
    omega

/-- The counter registers take the counter of the next transfer. -/
theorem setCounter (encrypting : Encrypting key counter core) (next : Block) :
    Encrypting key next { core with regs := core.regs.write aesCtr0 next.toBytes } := by
  have control : { core with regs := core.regs.write aesCtr0 next.toBytes }.load32 aesControl =
      core.load32 aesControl :=
    Image.load32_write_of_disjoint _ _ (Or.inr (by rw [Block.length_toBytes]; decide))
  refine ⟨encrypting.selected, ?_, ?_, ?_⟩
  · rw [aesMode, control]
    exact encrypting.mode
  · rw [← encrypting.key]
    apply aesKey_congr control
    intro index _ below
    apply Image.write_outside
    simp only [aesCtr0, aesKey0] at below ⊢
    omega
  · have read := Image.read_write_same core.regs aesCtr0 next.toBytes
    rw [Block.length_toBytes] at read
    rw [aesCounter, read, Block.ofBytes_toBytes]

end Encrypting

/-- The CTR path is counter mode. -/
theorem drives_ctr {bus : Bus Memory} {content : Memory → BitVec 64 → Byte}
    (writable : bus.Writable content) {key : List Byte}
    (supported : key.length = 16 ∨ key.length = 24 ∨ key.length = 32) :
    Drives (ctrMode key) (Encrypting key) bus content where
  selected encrypting := encrypting.selected
  notCmac encrypting := by
    rw [encrypting.mode]
    decide
  ofMemory encrypting memory := encrypting.ofMemory memory
  store32 encrypting _ value above := encrypting.store32 value (Or.inr above)
  moves {counter core source dest length} encrypting programmed _ apart := by
    have notEcb : aesModeCtr ≠ aesModeEcb := by decide
    have outcome := aesDmaOutput_eq bus encrypting.selected programmed
    rw [encrypting.mode, if_neg notEcb, if_pos rfl] at outcome
    by_cases empty : length.toNat = 0
    · rw [if_pos empty] at outcome
      rw [outcome, empty, (ctrMode key).after_zero]
      exact ⟨encrypting, ((ctrMode key).output_nil counter).symm⟩
    · have full : emptyChunk.length = dmaChunkBytes := List.length_replicate ..
      obtain ⟨memory, chunks, written, -⟩ := aesChunks_eq writable (ctrMode key)
        (fun counter input _ => ctrTransform_eq supported counter input) core length.toNat trivial
        (by omega) apart full counter
      have path : core.aesCtrXcrypt bus (source.setWidth 64) (dest.setWidth 64) length.toNat =
          { core with
            regs := core.regs.write aesCtr0 (ctrAfter counter length.toNat).toBytes
            memory := memory }.storeAll [(aesRemainingBytes, 0), (aesBusy, 0)] := by
        have start := encrypting.counter
        unfold ctrTransform at chunks
        unfold aesCounter at start
        unfold Core.aesCtrXcrypt
        dsimp only
        rw [encrypting.key, start, chunks]
      rw [if_neg empty, path] at outcome
      rw [outcome]
      refine ⟨?_, ?_⟩
      · have advanced :=
          (encrypting.ofMemory memory).setCounter (ctrAfter counter length.toNat)
        exact (advanced.store32 0 (Or.inl (by decide))).store32 0 (Or.inl (by decide))
      · rw [storeAll_memory]
        exact written

/-- Counter mode over a sequence of transfers writes the output of one call of
`aes_ctr_xcrypt_buffer` over all the data, and the counter registers advance by the number of
blocks. -/
theorem ctrTransfers_oneShot {bus : Bus Memory} {content : Memory → BitVec 64 → Byte}
    (writable : bus.Writable content) (core : Core Memory) (selected : core.AesSelected)
    (mode : core.aesMode = aesModeCtr) (transfers : List (AesTransfer Memory))
    (separated : ∀ transfer ∈ transfers, transfer.Separated)
    (whole : ∀ transfer ∈ transfers.dropLast, 16 ∣ transfer.length.toNat) :
    aesCtrXcryptBuffer core.aesKey core.aesCounter
        (transfers.flatMap (AesTransfer.data content)) 0 =
      some (core.aesTransfers bus content transfers).1 ∧
    (core.aesTransfers bus content transfers).2.aesCounter.toNat =
      (core.aesCounter.toNat +
        ((transfers.flatMap (AesTransfer.data content)).length + 15) / 16) % 2 ^ 128 := by
  have supported := core.aesKey_supported
  have encrypting : Encrypting core.aesKey core.aesCounter core := ⟨selected, mode, rfl, rfl⟩
  obtain ⟨final, written⟩ := (drives_ctr writable supported).transfers core.aesCounter encrypting
    separated whole trivial
  refine ⟨?_, ?_⟩
  · rw [written, aesCtrXcryptBuffer, if_neg (by omega), dif_pos (by decide)]
    exact ctrBufferLoop_eq supported _ _
  · rw [final.counter]
    exact toNat_iterate_aesIncrementCounter _ _

/-- A core set up for counter mode with a key of 16 bytes. -/
def ctrReady : Core (BitVec 64 → Byte) :=
  { (reset fun _ => 0).store32 aesControl 8 with engine := engineAes }

/-- A transfer of one block to another place, and one of three bytes in place. -/
def ctrPair : List (AesTransfer (BitVec 64 → Byte)) :=
  [⟨fun _ => 1, 0, 0x100, 16⟩, ⟨fun _ => 2, 0x40, 0x40, 3⟩]

theorem ctrTransfers_oneShot_pair :
    aesCtrXcryptBuffer ctrReady.aesKey ctrReady.aesCounter
        (ctrPair.flatMap (AesTransfer.data id)) 0 =
      some (ctrReady.aesTransfers Bus.ram id ctrPair).1 ∧
    (ctrReady.aesTransfers Bus.ram id ctrPair).2.aesCounter.toNat =
      (ctrReady.aesCounter.toNat +
        ((ctrPair.flatMap (AesTransfer.data id)).length + 15) / 16) % 2 ^ 128 := by
  have control : ctrReady.load32 aesControl = 8 :=
    Image.load32_store32 (reset fun (_ : BitVec 64) => (0 : Byte)).regs aesControl 8
  have mode : ctrReady.aesMode = aesModeCtr := by
    rw [aesMode, control]
    decide
  apply ctrTransfers_oneShot Bus.ram_writable ctrReady (Or.inl rfl) mode ctrPair
  · simp [ctrPair, AesTransfer.Separated]
  · simp [ctrPair]

end Core

end QboxPlatform.Cc3xx
