import QboxPlatform.Cc3xx.CtrTransfer
import QboxPlatform.Foundation.Cmac

/-!
# The CMAC function is the standard one

Blocks of the code as 128-bit blocks of the standard, the shift loop as a shift, and the loop of
`aes_cmac` as the chain of the standard.
-/

namespace QboxPlatform.Cc3xx

open Foundation

namespace Block

/-- The block as the standard's. -/
def standard (block : Block) : BitVec 128 := Cmac.ofOctets block.toBytes

theorem octets_standard (block : Block) : Cmac.octets block.standard = block.toBytes :=
  Cmac.octets_ofOctets rfl

theorem ofBytes_octets_standard (block : Block) :
    ofBytes (Cmac.octets block.standard) = block := by
  rw [octets_standard, ofBytes_toBytes]

@[simp]
theorem standard_zero : zero.standard = 0 := by decide +kernel

theorem standard_xor (first second : Block) :
    (first.xor second).standard = first.standard ^^^ second.standard := by
  apply BitVec.eq_of_getLsbD_eq
  intro bit below
  simp only [standard, Cmac.ofOctets, BitVec.getLsbD_xor, getLsbD_ofBytes, below, decide_true,
    Bool.true_and]
  have quotient : bit / 8 < 16 := by omega
  rw [← BitVec.getLsbD_xor]
  congr 1
  generalize bit / 8 = index at quotient
  interval_cases index <;> rfl

end Block

/-- The block cipher under a key of a supported size. -/
def aesCipher (key : List Byte) (block : BitVec 128) : BitVec 128 :=
  (encrypted key (Block.ofBytes (Cmac.octets block))).standard

theorem aesCipher_standard (key : List Byte) (block : Block) :
    aesCipher key block.standard = (encrypted key block).standard := by
  rw [aesCipher, Block.ofBytes_octets_standard]

/-! ### Subkeys -/

theorem length_leftShiftBytes (carry : Byte) (bytes : List Byte) :
    (leftShiftBytes carry bytes).length = bytes.length := by
  induction bytes generalizing carry with
  | nil => rfl
  | cons byte rest inductionHypothesis =>
      rw [leftShiftBytes, List.length_cons, inductionHypothesis, List.length_cons]

/-- A carry is a single bit. -/
def Carry (carry : Byte) : Prop := ∀ bit, 0 < bit → carry.getLsbD bit = false

theorem carry_zero : Carry 0 := fun _ _ => BitVec.getLsbD_zero

/-- The bit that falls out of a byte. -/
def carryOf (byte : Byte) : Byte := if byte &&& 0x80 ≠ 0 then 1 else 0

theorem carry_carryOf (byte : Byte) : Carry (carryOf byte) := by
  intro bit positive
  unfold carryOf
  split_ifs
  · change (1#8).getLsbD bit = false
    rw [BitVec.getLsbD_one, decide_eq_false (show ¬bit = 0 by omega), Bool.and_false]
  · exact BitVec.getLsbD_zero

theorem getLsbD_carryOf (byte : Byte) : (carryOf byte).getLsbD 0 = byte.getLsbD 7 := by
  have top := and_bit_ne_zero_iff byte (show 7 < 8 by decide)
  unfold carryOf
  cases set : byte.getLsbD 7 <;> simp_all

theorem leftShiftBytes_cons (carry byte : Byte) (rest : List Byte) :
    leftShiftBytes carry (byte :: rest) =
      (byte <<< 1 ||| carry) :: leftShiftBytes (carryOf byte) rest := rfl

/-- A bit of a shifted byte is the bit below, which may be in the byte before. -/
theorem getLsbD_leftShiftBytes {carry : Byte} (single : Carry carry) {bytes : List Byte}
    {index low : Nat} (inside : index < bytes.length) (below : low < 8) :
    ((leftShiftBytes carry bytes).getD index 0).getLsbD low =
      if 0 < low then (bytes.getD index 0).getLsbD (low - 1)
      else if index = 0 then carry.getLsbD 0
      else (bytes.getD (index - 1) 0).getLsbD 7 := by
  induction bytes generalizing carry index with
  | nil => cases inside
  | cons byte rest inductionHypothesis =>
      rw [leftShiftBytes_cons]
      cases index with
      | zero =>
          rw [List.getD_cons_zero, List.getD_cons_zero, BitVec.getLsbD_or,
            BitVec.getLsbD_shiftLeft]
          by_cases positive : 0 < low
          · have later : ¬low < 1 := by omega
            rw [single low positive, if_pos positive]
            simp [below, later]
          · have first : low = 0 := by omega
            rw [if_neg positive, if_pos rfl, first]
            simp
      | succ index =>
          rw [List.getD_cons_succ, List.getD_cons_succ,
            inductionHypothesis (carry_carryOf byte) (Nat.lt_of_succ_lt_succ inside),
            getLsbD_carryOf, Nat.add_sub_cancel]
          cases index <;> simp

/-- The shift loop, from the least significant byte on, shifts the number. -/
theorem ofBytes_leftShiftBytes {width : Nat} {carry : Byte} (single : Carry carry)
    {bytes : List Byte} (fits : 8 * bytes.length = width) :
    ofBytes width (leftShiftBytes carry bytes) =
      ofBytes width bytes <<< 1 ||| carry.setWidth width := by
  apply BitVec.eq_of_getLsbD_eq
  intro bit below
  have inside : bit / 8 < bytes.length := by omega
  rw [getLsbD_ofBytes, getLsbD_leftShiftBytes single inside (Nat.mod_lt _ (by decide)),
    BitVec.getLsbD_or, BitVec.getLsbD_shiftLeft, BitVec.getLsbD_setWidth, getLsbD_ofBytes]
  by_cases first : bit = 0
  · simp [first]
  · have earlier : bit - 1 < width := by omega
    rw [single bit (by omega)]
    simp only [below, earlier, first, decide_true, Bool.true_and, Nat.lt_one_iff, decide_false,
      Bool.not_false, Bool.and_false, Bool.or_false]
    split_ifs with positive start
    · have quotient : (bit - 1) / 8 = bit / 8 := by omega
      have remainder : (bit - 1) % 8 = bit % 8 - 1 := by omega
      rw [quotient, remainder]
    · omega
    · have quotient : (bit - 1) / 8 = bit / 8 - 1 := by omega
      have remainder : (bit - 1) % 8 = 7 := by omega
      rw [quotient, remainder]

theorem standard_aesLeftShiftBlock (block : Block) :
    (aesLeftShiftBlock block).standard = block.standard <<< 1 := by
  have whole : (leftShiftBytes 0 block.toBytes.reverse).reverse.length = 16 := by
    rw [List.length_reverse, length_leftShiftBytes, List.length_reverse, Block.length_toBytes]
  rw [Block.standard, aesLeftShiftBlock, Block.toBytes_ofBytes whole, Cmac.ofOctets,
    List.reverse_reverse, ofBytes_leftShiftBytes carry_zero (by simp), Block.standard,
    Cmac.ofOctets]
  simp

theorem msb_standard (block : Block) : block.standard.msb = true ↔ block.c0.b0 &&& 0x80 ≠ 0 := by
  have top := and_bit_ne_zero_iff block.c0.b0 (show 7 < 8 by decide)
  have position : block.standard.msb = block.c0.b0.getLsbD 7 := by
    rw [BitVec.msb_eq_getLsbD_last, Block.standard, Cmac.ofOctets, getLsbD_ofBytes]
    rfl
  rw [position, ← top]
  rfl

/-- The reduction changes the last byte only. -/
theorem standard_reduce (block : Block) :
    Block.standard { block with c3 := { block.c3 with b3 := block.c3.b3 ^^^ 0x87 } } =
      block.standard ^^^ 0x87 := by
  have mask : Block.standard { Block.zero with c3 := { Column.zero with b3 := 0x87 } } = 0x87 := by
    decide +kernel
  rw [← mask, ← Block.standard_xor]
  congr 1
  simp [Block.xor, Column.xor, Block.zero, Column.zero]

theorem standard_cmacSubkey (block : Block) :
    (cmacSubkey block).standard = Cmac.double block.standard := by
  unfold cmacSubkey Cmac.double
  by_cases top : block.c0.b0 &&& 0x80 ≠ 0
  · rw [if_pos ((msb_standard block).mpr top), ← standard_aesLeftShiftBlock]
    dsimp only
    rw [if_pos top]
    exact standard_reduce _
  · rw [if_neg fun set => top ((msb_standard block).mp set), ← standard_aesLeftShiftBlock]
    dsimp only
    rw [if_neg top]

/-! ### The chain -/

/-- A block read from fewer bytes ends in zeros. -/
theorem Block.toBytes_ofBytes_short {bytes : List Byte} (short : bytes.length ≤ 16) :
    (Block.ofBytes bytes).toBytes = bytes ++ List.replicate (16 - bytes.length) 0 := by
  have filled : (bytes ++ List.replicate (16 - bytes.length) 0).length = 16 := by
    rw [List.length_append, List.length_replicate]
    omega
  rw [← Block.toBytes_ofBytes filled]
  congr 1
  have same (index : Nat) :
      (bytes ++ List.replicate (16 - bytes.length) 0).getD index 0 = bytes.getD index 0 := by
    by_cases inside : index < bytes.length
    · rw [List.getD_append _ _ _ _ inside]
    · rw [List.getD_append_right _ _ _ _ (by omega), List.getD_eq_default bytes 0 (by omega)]
      rw [List.getD_eq_getElem?_getD, List.getElem?_replicate]
      split_ifs <;> rfl
  simp only [Block.ofBytes, Column.ofBytes, same]

theorem standard_ofBytes {octets : List Byte} (whole : octets.length = 16) :
    (Block.ofBytes octets).standard = Cmac.ofOctets octets := by
  rw [Block.standard, Block.toBytes_ofBytes whole]

theorem standard_ofBytes_pad {incomplete : List Byte} (short : incomplete.length < 16) :
    (Block.ofBytes (incomplete ++ [0x80])).standard = Cmac.ofOctets (Cmac.pad incomplete) := by
  rw [Block.standard, Block.toBytes_ofBytes_short (by simp; omega), Cmac.pad]
  have zeros : 16 - (incomplete ++ [0x80]).length = 15 - incomplete.length := by
    rw [List.length_append, List.length_singleton]
    omega
  rw [zeros, List.append_assoc, List.singleton_append]

section Chain

variable {key : List Byte} (data : List Byte)

/-- The mask that the code puts on the last block is that of the standard. -/
theorem lastBlock_eq (k1 k2 : Block) (first : k1.standard = Cmac.subkey1 (aesCipher key))
    (second : k2.standard = Cmac.subkey2 (aesCipher key)) :
    Block.standard
        (if data ≠ [] ∧ data.length % 16 = 0 then
          (Block.ofBytes (Cmac.blockOctets data (Cmac.blockCount data - 1))).xor k1
        else (Block.ofBytes (Cmac.blockOctets data (Cmac.blockCount data - 1) ++ [0x80])).xor k2) =
      Cmac.lastBlock (aesCipher key) data := by
  have empty : data ≠ [] ↔ data.length ≠ 0 := List.length_eq_zero_iff.not.symm
  have length : (Cmac.blockOctets data (Cmac.blockCount data - 1)).length =
      min 16 (data.length - 16 * (Cmac.blockCount data - 1)) := by
    rw [Cmac.blockOctets, List.length_take, List.length_drop]
  unfold Cmac.lastBlock
  dsimp only
  simp only [empty]
  split_ifs with complete
  · have whole : (Cmac.blockOctets data (Cmac.blockCount data - 1)).length = 16 := by
      rw [length]
      unfold Cmac.blockCount
      split_ifs <;> omega
    rw [Block.standard_xor, standard_ofBytes whole, first]
  · have short : (Cmac.blockOctets data (Cmac.blockCount data - 1)).length < 16 := by
      rw [length]
      unfold Cmac.blockCount
      split_ifs <;> omega
    rw [Block.standard_xor, standard_ofBytes_pad short, second]

/-- The loop from a block on, given the chaining value before it. -/
theorem cmacBlocks_eq (supported : key.length = 16 ∨ key.length = 24 ∨ key.length = 32)
    {k1 k2 : Block} (first : k1.standard = Cmac.subkey1 (aesCipher key))
    (second : k2.standard = Cmac.subkey2 (aesCipher key)) (remaining : Nat) {index : Nat}
    {state : Block} (total : index + (remaining + 1) = Cmac.blockCount data)
    (chained : state.standard = Cmac.chain (aesCipher key) data index) :
    ∃ tag : Block, cmacBlocks key k1 k2 data (Cmac.blockCount data) (remaining + 1) index state =
        some tag ∧ tag.standard = Cmac.tag (aesCipher key) data := by
  induction remaining generalizing index state with
  | zero =>
      have last : index = Cmac.blockCount data - 1 := by omega
      subst last
      refine ⟨_, by rw [cmacBlocks, aesEncryptBlock_eq supported]; rfl, ?_⟩
      rw [← aesCipher_standard, Block.standard_xor, if_pos rfl, chained, Cmac.tag]
      congr 2
      exact lastBlock_eq data k1 k2 first second
  | succ remaining inductionHypothesis =>
      have before : index < Cmac.blockCount data - 1 := by omega
      rw [cmacBlocks, aesEncryptBlock_eq supported, Option.bind_some]
      apply inductionHypothesis (by omega)
      rw [if_neg (Nat.ne_of_lt before), ← aesCipher_standard, Block.standard_xor, chained,
        Cmac.chain_succ, BitVec.xor_comm]
      congr 2
      exact standard_ofBytes (Cmac.length_blockOctets before)

/-- The code computes the tag of the standard. -/
theorem aesCmac_eq (supported : key.length = 16 ∨ key.length = 24 ∨ key.length = 32) :
    ∃ tag : Block, aesCmac key data = some tag ∧ tag.standard = Cmac.tag (aesCipher key) data := by
  have first : (cmacSubkey (encrypted key .zero)).standard = Cmac.subkey1 (aesCipher key) := by
    rw [standard_cmacSubkey, Cmac.subkey1, ← aesCipher_standard, Block.standard_zero]
  have second : (cmacSubkey (cmacSubkey (encrypted key .zero))).standard =
      Cmac.subkey2 (aesCipher key) := by
    rw [standard_cmacSubkey, first, Cmac.subkey2]
  have count : (if data = [] then 1 else (data.length + 15) / 16) = Cmac.blockCount data := by
    simp only [Cmac.blockCount, List.length_eq_zero_iff]
  obtain ⟨remaining, total⟩ : ∃ remaining, remaining + 1 = Cmac.blockCount data := by
    refine ⟨Cmac.blockCount data - 1, ?_⟩
    unfold Cmac.blockCount
    split_ifs <;> omega
  rw [aesCmac, aesEncryptBlock_eq supported, Option.bind_some]
  dsimp only
  rw [count, ← total, total]
  have looped := cmacBlocks_eq data supported first second remaining
    ((Nat.zero_add _).trans total) Block.standard_zero
  rwa [total] at looped

end Chain

/-- The empty message of the standard's test vectors. -/
example :
    (aesCmac [0x2b, 0x7e, 0x15, 0x16, 0x28, 0xae, 0xd2, 0xa6, 0xab, 0xf7, 0x15, 0x88, 0x09, 0xcf,
      0x4f, 0x3c] []).map Block.toBytes =
    some [0xbb, 0x1d, 0x69, 0x29, 0xe9, 0x59, 0x37, 0x28, 0x7f, 0xa3, 0x7d, 0x12, 0x9b, 0x75, 0x67,
      0x46] := by
  decide +kernel

end QboxPlatform.Cc3xx
