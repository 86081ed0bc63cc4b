import QboxPlatform.Cc3xx.AesInverse
import QboxPlatform.Cc3xx.AesTransfer
import QboxPlatform.Foundation.Codebook

/-!
# Transfers in codebook mode

The ECB path of the AES engine over sequences of transfers, and back.
-/

namespace QboxPlatform.Cc3xx

open Foundation

/-- The block that a key of a supported size makes of a block in the other direction. -/
def decrypted (key : List Byte) (block : Block) : Block := (aesDecryptBlock key block).getD .zero

theorem aesDecryptBlock_eq {key : List Byte}
    (supported : key.length = 16 ∨ key.length = 24 ∨ key.length = 32) (block : Block) :
    aesDecryptBlock key block = some (decrypted key block) := by
  rw [decrypted, aesDecryptBlock, aesExpandKey, if_pos supported]
  rfl

/-- The block function of a direction. -/
def blockCipher (decrypt : Bool) (key : List Byte) (block : Block) : Block :=
  if decrypt then decrypted key block else encrypted key block

theorem blockCipher_inverse {key : List Byte}
    (supported : key.length = 16 ∨ key.length = 24 ∨ key.length = 32) (decrypt : Bool)
    (block : Block) : blockCipher (!decrypt) key (blockCipher decrypt key block) = block := by
  cases decrypt with
  | false =>
      obtain ⟨output, there, back⟩ := decryptBlock_encryptBlock supported block
      have same : encrypted key block = output := by rw [encrypted, there, Option.getD_some]
      have taken : decrypted key output = block := by rw [decrypted, back, Option.getD_some]
      simp only [blockCipher, Bool.not_false, if_true, Bool.false_eq_true, if_false, same, taken]
  | true =>
      obtain ⟨output, there, back⟩ := encryptBlock_decryptBlock supported block
      have same : decrypted key block = output := by rw [decrypted, there, Option.getD_some]
      have taken : encrypted key output = block := by rw [encrypted, back, Option.getD_some]
      simp only [blockCipher, Bool.not_true, if_true, Bool.false_eq_true, if_false, same, taken]

/-- A block function on the bytes of a block. -/
def onBytes (cipher : Block → Block) (bytes : List Byte) : List Byte :=
  (cipher (Block.ofBytes bytes)).toBytes

theorem length_onBytes (cipher : Block → Block) (bytes : List Byte) :
    (onBytes cipher bytes).length = 16 := Block.length_toBytes _

/-- The output of codebook mode. -/
def ecbOutput (cipher : Block → Block) (input : List Byte) : List Byte :=
  codebook 16 (onBytes cipher) (input.length / 16) input

theorem ecbOutput_nil (cipher : Block → Block) : ecbOutput cipher [] = [] := by
  rw [ecbOutput, List.length_nil, Nat.zero_div, codebook]

theorem ecbBlocks_eq {cipher : Block → Option Block} {block : Block → Block}
    (total : ∀ input, cipher input = some (block input)) (count : Nat) (input : List Byte) :
    ecbBlocks cipher count input = some (codebook 16 (onBytes block) count input) := by
  induction count generalizing input with
  | zero => rfl
  | succ count inductionHypothesis =>
      rw [ecbBlocks, total, inductionHypothesis]
      rfl

theorem length_ecbOutput (cipher : Block → Block) {input : List Byte}
    (whole : 16 ∣ input.length) : (ecbOutput cipher input).length = input.length := by
  rw [ecbOutput, length_codebook (length_onBytes cipher), Nat.div_mul_cancel whole]

theorem ecbOutput_append (cipher : Block → Block) {front : List Byte}
    (whole : 16 ∣ front.length) (back : List Byte) :
    ecbOutput cipher (front ++ back) = ecbOutput cipher front ++ ecbOutput cipher back := by
  rw [ecbOutput, List.length_append, Nat.add_div_of_dvd_right whole]
  exact codebook_append _ (Nat.div_mul_cancel whole).symm back

theorem ecbOutput_inverse {key : List Byte}
    (supported : key.length = 16 ∨ key.length = 24 ∨ key.length = 32) (decrypt : Bool)
    {input : List Byte} (whole : 16 ∣ input.length) :
    ecbOutput (blockCipher (!decrypt) key) (ecbOutput (blockCipher decrypt key) input) = input := by
  have length := length_ecbOutput (blockCipher decrypt key) whole
  rw [ecbOutput, length]
  refine codebook_inverse (length_onBytes _) (fun block full => ?_) (Nat.div_mul_cancel whole).symm
  rw [onBytes, onBytes, Block.ofBytes_toBytes, blockCipher_inverse supported,
    Block.toBytes_ofBytes full]

/-- Codebook mode takes complete blocks and carries nothing on. -/
abbrev ecbMode (cipher : Block → Block) : BlockMode Unit where
  Takes length := 16 ∣ length
  output _ := ecbOutput cipher
  after _ _ := ()
  length_output _ _ whole := length_ecbOutput cipher whole
  output_nil _ := ecbOutput_nil cipher
  after_zero _ := rfl
  takes_cut {first second} cut whole := by
    rcases cut with dividesFirst | none
    · exact ⟨dividesFirst, (Nat.dvd_add_right dividesFirst).mp whole⟩
    · rw [none] at whole ⊢
      exact ⟨whole, dvd_zero 16⟩
  output_append _ front back cut whole := by
    rcases cut with dividesFront | none
    · exact ecbOutput_append cipher dividesFront back
    · rw [none, ecbOutput_nil, List.append_nil, List.append_nil]
  after_add _ _ _ _ := rfl

namespace Core

variable {Memory : Type} {bus : Bus Memory} {content : Memory → BitVec 64 → Byte}

/-- The core is set up for codebook mode, in a direction. -/
structure Ciphering (key : List Byte) (decrypt : Bool) (core : Core Memory) : Prop where
  selected : core.AesSelected
  mode : core.aesMode = aesModeEcb
  key : core.aesKey = key
  direction : core.aesDecrypt = decrypt

namespace Ciphering

variable {core : Core Memory} {key : List Byte} {decrypt : Bool}

theorem ofMemory (ciphering : Ciphering key decrypt core) (memory : Memory) :
    Ciphering key decrypt { core with memory := memory } :=
  ⟨ciphering.selected, ciphering.mode, ciphering.key, ciphering.direction⟩

theorem store32 (ciphering : Ciphering key decrypt core) {offset : Nat} (value : BitVec 32)
    (apart : aesKey0 + 32 ≤ offset ∧ offset + 4 ≤ aesControl ∨ aesControl + 4 ≤ offset) :
    Ciphering key decrypt (core.store32 offset value) := by
  have control : (core.store32 offset value).load32 aesControl = core.load32 aesControl :=
    load32_store32_of_disjoint core value (by omega)
  have low : aesKey0 + 32 ≤ offset := by
    simp only [aesKey0, aesControl] at apart ⊢
    omega
  refine ⟨ciphering.selected, ?_, ?_, ?_⟩
  · rw [aesMode, control]
    exact ciphering.mode
  · rw [← ciphering.key]
    apply aesKey_congr control
    intro index _ below
    apply Image.store32_outside
    omega
  · rw [aesDecrypt, control]
    exact ciphering.direction

end Ciphering

/-- The ECB path is codebook mode. -/
theorem drives_ecb (writable : bus.Writable content) {key : List Byte}
    (supported : key.length = 16 ∨ key.length = 24 ∨ key.length = 32) (decrypt : Bool) :
    Drives (ecbMode (blockCipher decrypt key)) (fun _ => Ciphering key decrypt) bus content where
  selected ciphering := ciphering.selected
  notCmac ciphering := by
    rw [ciphering.mode]
    decide
  ofMemory ciphering memory := ciphering.ofMemory memory
  store32 ciphering _ value above := ciphering.store32 value (Or.inr above)
  moves {_ core source dest length} ciphering programmed whole apart := by
    have outcome := aesDmaOutput_eq bus ciphering.selected programmed
    rw [ciphering.mode, if_pos rfl] at outcome
    by_cases empty : length.toNat = 0
    · rw [if_pos empty] at outcome
      rw [outcome, empty]
      exact ⟨ciphering, ((ecbMode (blockCipher decrypt key)).output_nil ()).symm⟩
    · have full : emptyChunk.length = dmaChunkBytes := List.length_replicate ..
      obtain ⟨memory, chunks, written, -⟩ := aesChunks_eq writable
        (ecbMode (blockCipher decrypt key)) (fun _ _ _ => rfl) core length.toNat whole (by omega)
        apart full ()
      have total (input : Block) :
          (if decrypt then aesDecryptBlock key else aesEncryptBlock key) input =
            some (blockCipher decrypt key input) := by
        cases decrypt with
        | true => exact aesDecryptBlock_eq supported input
        | false => exact aesEncryptBlock_eq supported input
      have path : core.aesEcbXcrypt bus (source.setWidth 64) (dest.setWidth 64) length.toNat =
          { core with memory := memory }.storeAll [(aesRemainingBytes, 0), (aesBusy, 0)] := by
        unfold Core.aesEcbXcrypt
        rw [if_neg (not_not.mpr (Nat.mod_eq_zero_of_dvd whole)), ciphering.key,
          ciphering.direction]
        simp only [ecbBlocks_eq total, Option.map_some]
        simp only [ecbOutput] at chunks
        rw [chunks]
      rw [if_neg empty, path] at outcome
      rw [outcome]
      refine ⟨?_, ?_⟩
      · have after := ciphering.ofMemory memory
        exact (after.store32 0 (Or.inl (by decide))).store32 0 (Or.inl (by decide))
      · rw [storeAll_memory]
        exact written

theorem dvd_length_data {transfers : List (AesTransfer Memory)}
    (whole : ∀ transfer ∈ transfers, 16 ∣ transfer.length.toNat) :
    16 ∣ (transfers.flatMap (AesTransfer.data content)).length := by
  induction transfers with
  | nil => exact dvd_zero 16
  | cons transfer rest inductionHypothesis =>
      rw [List.flatMap_cons, List.length_append, AesTransfer.data, Bus.length_slice]
      exact dvd_add (whole transfer List.mem_cons_self)
        (inductionHypothesis fun later member => whole later (List.mem_cons_of_mem _ member))

/-- What one direction writes over a sequence of transfers, the other one takes back over any
other sequence of transfers. -/
theorem ecbTransfers_roundTrip (writable : bus.Writable content) (first second : Core Memory)
    (firstSelected : first.AesSelected) (firstMode : first.aesMode = aesModeEcb)
    (secondSelected : second.AesSelected) (secondMode : second.aesMode = aesModeEcb)
    (sameKey : second.aesKey = first.aesKey) (opposite : second.aesDecrypt = !first.aesDecrypt)
    (there back : List (AesTransfer Memory))
    (separated : ∀ transfer ∈ there ++ back, transfer.Separated)
    (whole : ∀ transfer ∈ there ++ back, 16 ∣ transfer.length.toNat)
    (handed : back.flatMap (AesTransfer.data content) =
      (first.aesTransfers bus content there).1) :
    (second.aesTransfers bus content back).1 = there.flatMap (AesTransfer.data content) := by
  have forward : Ciphering first.aesKey first.aesDecrypt first :=
    ⟨firstSelected, firstMode, rfl, rfl⟩
  have backward : Ciphering first.aesKey (!first.aesDecrypt) second :=
    ⟨secondSelected, secondMode, sameKey, opposite⟩
  have wholeThere : ∀ transfer ∈ there, 16 ∣ transfer.length.toNat := fun transfer member =>
    whole transfer (List.mem_append_left _ member)
  have wholeBack : ∀ transfer ∈ back, 16 ∣ transfer.length.toNat := fun transfer member =>
    whole transfer (List.mem_append_right _ member)
  have supported := first.aesKey_supported
  obtain ⟨-, out⟩ := (drives_ecb writable supported first.aesDecrypt).transfers () forward
    (fun transfer member => separated transfer (List.mem_append_left _ member))
    (fun transfer member => wholeThere transfer (List.dropLast_subset _ member))
    (dvd_length_data wholeThere)
  obtain ⟨-, home⟩ := (drives_ecb writable supported (!first.aesDecrypt)).transfers () backward
    (fun transfer member => separated transfer (List.mem_append_right _ member))
    (fun transfer member => wholeBack transfer (List.dropLast_subset _ member))
    (dvd_length_data wholeBack)
  rw [home, handed, out]
  exact ecbOutput_inverse supported first.aesDecrypt (dvd_length_data wholeThere)

/-- A core set up for codebook mode with a key of 16 bytes. -/
def ecbReady (decrypt : Bool) : Core (BitVec 64 → Byte) :=
  { (reset fun _ => 0).store32 aesControl (if decrypt then 1 else 0) with engine := engineAes }

theorem ecbReady_control (decrypt : Bool) :
    (ecbReady decrypt).load32 aesControl = if decrypt then 1 else 0 :=
  Image.load32_store32 (reset fun (_ : BitVec 64) => (0 : Byte)).regs aesControl _

theorem ecbReady_mode (decrypt : Bool) : (ecbReady decrypt).aesMode = aesModeEcb := by
  rw [aesMode, ecbReady_control]
  cases decrypt <;> decide

theorem ecbReady_key (decrypt : Bool) :
    (ecbReady decrypt).aesKey = (reset fun (_ : BitVec 64) => (0 : Byte)).regs.read aesKey0 16 := by
  have size : (ecbReady decrypt).aesKeySizeBytes = 16 := by
    rw [aesKeySizeBytes, ecbReady_control]
    cases decrypt <;> rfl
  rw [aesKey, size]
  apply Image.read_congr
  intro index _ below
  apply Image.store32_outside
  simp only [aesKey0, aesControl] at below ⊢
  omega

theorem ecbReady_direction (decrypt : Bool) : (ecbReady decrypt).aesDecrypt = decrypt := by
  rw [aesDecrypt, ecbReady_control]
  cases decrypt <;> decide

/-- A block encrypted to another place. -/
def ecbThere : AesTransfer (BitVec 64 → Byte) := ⟨fun _ => 1, 0, 0x100, 16⟩

/-- The same block decrypted in place. -/
def ecbBack : AesTransfer (BitVec 64 → Byte) :=
  ⟨((ecbReady false).aesTransfer Bus.ram ecbThere).memory, 0x100, 0x100, 16⟩

theorem ecbTransfers_roundTrip_block :
    ((ecbReady true).aesTransfers Bus.ram id [ecbBack]).1 =
      [ecbThere].flatMap (AesTransfer.data id) := by
  have sameKey : (ecbReady true).aesKey = (ecbReady false).aesKey := by
    rw [ecbReady_key, ecbReady_key]
  have opposite : (ecbReady true).aesDecrypt = !(ecbReady false).aesDecrypt := by
    rw [ecbReady_direction, ecbReady_direction]
    rfl
  apply ecbTransfers_roundTrip Bus.ram_writable (ecbReady false) (ecbReady true) (Or.inl rfl)
    (ecbReady_mode false) (Or.inl rfl) (ecbReady_mode true) sameKey opposite
  · simp [ecbThere, ecbBack, AesTransfer.Separated]
  · simp [ecbThere, ecbBack]
  · rfl

end Core

end QboxPlatform.Cc3xx
