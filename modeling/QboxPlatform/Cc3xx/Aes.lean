import QboxPlatform.Foundation.Bytes

/-!
# The AES block functions

The key schedule, the block functions in both directions, the counter and the CMAC of the
CC3XX core.  The 16 bytes of a block are its four columns, in the order in which the code
stores them.
-/

namespace QboxPlatform.Cc3xx

open Foundation

/-- Four consecutive bytes of a block, or one word of the key schedule. -/
structure Column where
  b0 : Byte
  b1 : Byte
  b2 : Byte
  b3 : Byte
  deriving DecidableEq

/-- The 16 bytes of a block. -/
structure Block where
  c0 : Column
  c1 : Column
  c2 : Column
  c3 : Column
  deriving DecidableEq

namespace Column

def zero : Column := ⟨0, 0, 0, 0⟩

def map (operation : Byte → Byte) (column : Column) : Column :=
  ⟨operation column.b0, operation column.b1, operation column.b2, operation column.b3⟩

def xor (first second : Column) : Column :=
  ⟨first.b0 ^^^ second.b0, first.b1 ^^^ second.b1, first.b2 ^^^ second.b2, first.b3 ^^^ second.b3⟩

/-- The column at a byte position; bytes past the end count as zero. -/
def ofBytes (bytes : List Byte) (position : Nat) : Column :=
  ⟨bytes.getD position 0, bytes.getD (position + 1) 0, bytes.getD (position + 2) 0,
    bytes.getD (position + 3) 0⟩

def toBytes (column : Column) : List Byte := [column.b0, column.b1, column.b2, column.b3]

end Column

namespace Block

def zero : Block := ⟨.zero, .zero, .zero, .zero⟩

def map (operation : Column → Column) (block : Block) : Block :=
  ⟨operation block.c0, operation block.c1, operation block.c2, operation block.c3⟩

/-- `aes_add_round_key` and `aes_xor_block`. -/
def xor (first second : Block) : Block :=
  ⟨first.c0.xor second.c0, first.c1.xor second.c1, first.c2.xor second.c2,
    first.c3.xor second.c3⟩

def ofBytes (bytes : List Byte) : Block :=
  ⟨Column.ofBytes bytes 0, Column.ofBytes bytes 4, Column.ofBytes bytes 8,
    Column.ofBytes bytes 12⟩

def toBytes (block : Block) : List Byte :=
  block.c0.toBytes ++ block.c1.toBytes ++ block.c2.toBytes ++ block.c3.toBytes

@[simp]
theorem length_toBytes (block : Block) : block.toBytes.length = 16 := rfl

@[simp]
theorem ofBytes_toBytes (block : Block) : ofBytes block.toBytes = block := rfl

end Block

def sbox : List Byte :=
  [
    0x63, 0x7c, 0x77, 0x7b, 0xf2, 0x6b, 0x6f, 0xc5, 0x30, 0x01, 0x67, 0x2b,
    0xfe, 0xd7, 0xab, 0x76, 0xca, 0x82, 0xc9, 0x7d, 0xfa, 0x59, 0x47, 0xf0,
    0xad, 0xd4, 0xa2, 0xaf, 0x9c, 0xa4, 0x72, 0xc0, 0xb7, 0xfd, 0x93, 0x26,
    0x36, 0x3f, 0xf7, 0xcc, 0x34, 0xa5, 0xe5, 0xf1, 0x71, 0xd8, 0x31, 0x15,
    0x04, 0xc7, 0x23, 0xc3, 0x18, 0x96, 0x05, 0x9a, 0x07, 0x12, 0x80, 0xe2,
    0xeb, 0x27, 0xb2, 0x75, 0x09, 0x83, 0x2c, 0x1a, 0x1b, 0x6e, 0x5a, 0xa0,
    0x52, 0x3b, 0xd6, 0xb3, 0x29, 0xe3, 0x2f, 0x84, 0x53, 0xd1, 0x00, 0xed,
    0x20, 0xfc, 0xb1, 0x5b, 0x6a, 0xcb, 0xbe, 0x39, 0x4a, 0x4c, 0x58, 0xcf,
    0xd0, 0xef, 0xaa, 0xfb, 0x43, 0x4d, 0x33, 0x85, 0x45, 0xf9, 0x02, 0x7f,
    0x50, 0x3c, 0x9f, 0xa8, 0x51, 0xa3, 0x40, 0x8f, 0x92, 0x9d, 0x38, 0xf5,
    0xbc, 0xb6, 0xda, 0x21, 0x10, 0xff, 0xf3, 0xd2, 0xcd, 0x0c, 0x13, 0xec,
    0x5f, 0x97, 0x44, 0x17, 0xc4, 0xa7, 0x7e, 0x3d, 0x64, 0x5d, 0x19, 0x73,
    0x60, 0x81, 0x4f, 0xdc, 0x22, 0x2a, 0x90, 0x88, 0x46, 0xee, 0xb8, 0x14,
    0xde, 0x5e, 0x0b, 0xdb, 0xe0, 0x32, 0x3a, 0x0a, 0x49, 0x06, 0x24, 0x5c,
    0xc2, 0xd3, 0xac, 0x62, 0x91, 0x95, 0xe4, 0x79, 0xe7, 0xc8, 0x37, 0x6d,
    0x8d, 0xd5, 0x4e, 0xa9, 0x6c, 0x56, 0xf4, 0xea, 0x65, 0x7a, 0xae, 0x08,
    0xba, 0x78, 0x25, 0x2e, 0x1c, 0xa6, 0xb4, 0xc6, 0xe8, 0xdd, 0x74, 0x1f,
    0x4b, 0xbd, 0x8b, 0x8a, 0x70, 0x3e, 0xb5, 0x66, 0x48, 0x03, 0xf6, 0x0e,
    0x61, 0x35, 0x57, 0xb9, 0x86, 0xc1, 0x1d, 0x9e, 0xe1, 0xf8, 0x98, 0x11,
    0x69, 0xd9, 0x8e, 0x94, 0x9b, 0x1e, 0x87, 0xe9, 0xce, 0x55, 0x28, 0xdf,
    0x8c, 0xa1, 0x89, 0x0d, 0xbf, 0xe6, 0x42, 0x68, 0x41, 0x99, 0x2d, 0x0f,
    0xb0, 0x54, 0xbb, 0x16
  ]

def invSbox : List Byte :=
  [
    0x52, 0x09, 0x6a, 0xd5, 0x30, 0x36, 0xa5, 0x38, 0xbf, 0x40, 0xa3, 0x9e,
    0x81, 0xf3, 0xd7, 0xfb, 0x7c, 0xe3, 0x39, 0x82, 0x9b, 0x2f, 0xff, 0x87,
    0x34, 0x8e, 0x43, 0x44, 0xc4, 0xde, 0xe9, 0xcb, 0x54, 0x7b, 0x94, 0x32,
    0xa6, 0xc2, 0x23, 0x3d, 0xee, 0x4c, 0x95, 0x0b, 0x42, 0xfa, 0xc3, 0x4e,
    0x08, 0x2e, 0xa1, 0x66, 0x28, 0xd9, 0x24, 0xb2, 0x76, 0x5b, 0xa2, 0x49,
    0x6d, 0x8b, 0xd1, 0x25, 0x72, 0xf8, 0xf6, 0x64, 0x86, 0x68, 0x98, 0x16,
    0xd4, 0xa4, 0x5c, 0xcc, 0x5d, 0x65, 0xb6, 0x92, 0x6c, 0x70, 0x48, 0x50,
    0xfd, 0xed, 0xb9, 0xda, 0x5e, 0x15, 0x46, 0x57, 0xa7, 0x8d, 0x9d, 0x84,
    0x90, 0xd8, 0xab, 0x00, 0x8c, 0xbc, 0xd3, 0x0a, 0xf7, 0xe4, 0x58, 0x05,
    0xb8, 0xb3, 0x45, 0x06, 0xd0, 0x2c, 0x1e, 0x8f, 0xca, 0x3f, 0x0f, 0x02,
    0xc1, 0xaf, 0xbd, 0x03, 0x01, 0x13, 0x8a, 0x6b, 0x3a, 0x91, 0x11, 0x41,
    0x4f, 0x67, 0xdc, 0xea, 0x97, 0xf2, 0xcf, 0xce, 0xf0, 0xb4, 0xe6, 0x73,
    0x96, 0xac, 0x74, 0x22, 0xe7, 0xad, 0x35, 0x85, 0xe2, 0xf9, 0x37, 0xe8,
    0x1c, 0x75, 0xdf, 0x6e, 0x47, 0xf1, 0x1a, 0x71, 0x1d, 0x29, 0xc5, 0x89,
    0x6f, 0xb7, 0x62, 0x0e, 0xaa, 0x18, 0xbe, 0x1b, 0xfc, 0x56, 0x3e, 0x4b,
    0xc6, 0xd2, 0x79, 0x20, 0x9a, 0xdb, 0xc0, 0xfe, 0x78, 0xcd, 0x5a, 0xf4,
    0x1f, 0xdd, 0xa8, 0x33, 0x88, 0x07, 0xc7, 0x31, 0xb1, 0x12, 0x10, 0x59,
    0x27, 0x80, 0xec, 0x5f, 0x60, 0x51, 0x7f, 0xa9, 0x19, 0xb5, 0x4a, 0x0d,
    0x2d, 0xe5, 0x7a, 0x9f, 0x93, 0xc9, 0x9c, 0xef, 0xa0, 0xe0, 0x3b, 0x4d,
    0xae, 0x2a, 0xf5, 0xb0, 0xc8, 0xeb, 0xbb, 0x3c, 0x83, 0x53, 0x99, 0x61,
    0x17, 0x2b, 0x04, 0x7e, 0xba, 0x77, 0xd6, 0x26, 0xe1, 0x69, 0x14, 0x63,
    0x55, 0x21, 0x0c, 0x7d
  ]

def aesSbox (value : Byte) : Byte := sbox.getD value.toNat 0
def aesInvSbox (value : Byte) : Byte := invSbox.getD value.toNat 0

def aesXtime (value : Byte) : Byte :=
  value <<< 1 ^^^ if value &&& 0x80 ≠ 0 then 0x1b else 0x00

/-- The loop of `aes_mul` over the bits of the factor. -/
def aesMul (value factor : Byte) : Byte :=
  if factor = 0 then 0
  else
    (if factor &&& 1 ≠ 0 then value else 0) ^^^ aesMul (aesXtime value) (factor >>> 1)
termination_by factor.toNat
decreasing_by
  rename_i nonzero
  have positive : 0 < factor.toNat :=
    Nat.pos_of_ne_zero fun zero => nonzero (BitVec.eq_of_toNat_eq zero)
  simp only [BitVec.toNat_ushiftRight, Nat.shiftRight_succ, Nat.shiftRight_zero]
  omega

def aesSubBytes (state : Block) : Block := state.map (Column.map aesSbox)
def aesInvSubBytes (state : Block) : Block := state.map (Column.map aesInvSbox)

def aesShiftRows (state : Block) : Block where
  c0 := ⟨state.c0.b0, state.c1.b1, state.c2.b2, state.c3.b3⟩
  c1 := ⟨state.c1.b0, state.c2.b1, state.c3.b2, state.c0.b3⟩
  c2 := ⟨state.c2.b0, state.c3.b1, state.c0.b2, state.c1.b3⟩
  c3 := ⟨state.c3.b0, state.c0.b1, state.c1.b2, state.c2.b3⟩

def aesInvShiftRows (state : Block) : Block where
  c0 := ⟨state.c0.b0, state.c3.b1, state.c2.b2, state.c1.b3⟩
  c1 := ⟨state.c1.b0, state.c0.b1, state.c3.b2, state.c2.b3⟩
  c2 := ⟨state.c2.b0, state.c1.b1, state.c0.b2, state.c3.b3⟩
  c3 := ⟨state.c3.b0, state.c2.b1, state.c1.b2, state.c0.b3⟩

def mixColumn (column : Column) : Column :=
  let t := column.b0 ^^^ column.b1 ^^^ column.b2 ^^^ column.b3
  { b0 := column.b0 ^^^ (t ^^^ aesXtime (column.b0 ^^^ column.b1))
    b1 := column.b1 ^^^ (t ^^^ aesXtime (column.b1 ^^^ column.b2))
    b2 := column.b2 ^^^ (t ^^^ aesXtime (column.b2 ^^^ column.b3))
    b3 := column.b3 ^^^ (t ^^^ aesXtime (column.b3 ^^^ column.b0)) }

def invMixColumn (column : Column) : Column where
  b0 := aesMul column.b0 0x0e ^^^ aesMul column.b1 0x0b ^^^ aesMul column.b2 0x0d ^^^
    aesMul column.b3 0x09
  b1 := aesMul column.b0 0x09 ^^^ aesMul column.b1 0x0e ^^^ aesMul column.b2 0x0b ^^^
    aesMul column.b3 0x0d
  b2 := aesMul column.b0 0x0d ^^^ aesMul column.b1 0x09 ^^^ aesMul column.b2 0x0e ^^^
    aesMul column.b3 0x0b
  b3 := aesMul column.b0 0x0b ^^^ aesMul column.b1 0x0d ^^^ aesMul column.b2 0x09 ^^^
    aesMul column.b3 0x0e

def aesMixColumns (state : Block) : Block := state.map mixColumn
def aesInvMixColumns (state : Block) : Block := state.map invMixColumn

def rcon : List Byte := [0x00, 0x01, 0x02, 0x04, 0x08, 0x10, 0x20, 0x40, 0x80, 0x1b, 0x36]

/-- The loop of `aes_expand_key` from word `index` on; `nk` is the key length in words. -/
def expandWords (nk : Nat) : (remaining index : Nat) → List Column → List Column
  | 0, _, words => words
  | remaining + 1, index, words =>
      let last := words.getD (index - 1) .zero
      let temp :=
        if index % nk = 0 then
          ⟨aesSbox last.b1 ^^^ rcon.getD (index / nk) 0, aesSbox last.b2, aesSbox last.b3,
            aesSbox last.b0⟩
        else if 6 < nk ∧ index % nk = 4 then last.map aesSbox
        else last
      expandWords nk remaining (index + 1) (words ++ [(words.getD (index - nk) .zero).xor temp])

/-- The round keys, as a list of words, and the number of rounds. -/
def aesExpandKey (key : List Byte) : Option (List Column × Nat) :=
  if key.length = 16 ∨ key.length = 24 ∨ key.length = 32 then
    let nk := key.length / 4
    let rounds := nk + 6
    let initial := (List.range nk).map fun index => Column.ofBytes key (4 * index)
    some (expandWords nk (4 * (rounds + 1) - nk) nk initial, rounds)
  else none

/-- The key that is added in a round. -/
def roundKey (words : List Column) (round : Nat) : Block where
  c0 := words.getD (4 * round) .zero
  c1 := words.getD (4 * round + 1) .zero
  c2 := words.getD (4 * round + 2) .zero
  c3 := words.getD (4 * round + 3) .zero

/-- The middle rounds of `aes_encrypt_block`, from `round` on. -/
def encryptRounds (words : List Column) : (remaining round : Nat) → Block → Block
  | 0, _, state => state
  | remaining + 1, round, state =>
      encryptRounds words remaining (round + 1)
        ((aesMixColumns (aesShiftRows (aesSubBytes state))).xor (roundKey words round))

def aesEncryptBlock (key : List Byte) (input : Block) : Option Block :=
  (aesExpandKey key).map fun (words, rounds) =>
    let state := encryptRounds words (rounds - 1) 1 (input.xor (roundKey words 0))
    (aesShiftRows (aesSubBytes state)).xor (roundKey words rounds)

/-- The middle rounds of `aes_decrypt_block`, down from `round`. -/
def decryptRounds (words : List Column) : (round : Nat) → Block → Block
  | 0, state => state
  | round + 1, state =>
      decryptRounds words round
        (aesInvMixColumns
          ((aesInvSubBytes (aesInvShiftRows state)).xor (roundKey words (round + 1))))

def aesDecryptBlock (key : List Byte) (input : Block) : Option Block :=
  (aesExpandKey key).map fun (words, rounds) =>
    let state := decryptRounds words (rounds - 1) (input.xor (roundKey words rounds))
    (aesInvSubBytes (aesInvShiftRows state)).xor (roundKey words 0)

/-- The loop of `aes_increment_counter` over the bytes from the last one on. -/
def incrementBytes : List Byte → List Byte
  | [] => []
  | byte :: rest => if byte + 1 ≠ 0 then (byte + 1) :: rest else 0 :: incrementBytes rest

def aesIncrementCounter (counter : Block) : Block :=
  Block.ofBytes (incrementBytes counter.toBytes.reverse).reverse

/-- The loop of `aes_left_shift_block` over the bytes from the last one on. -/
def leftShiftBytes (carry : Byte) : List Byte → List Byte
  | [] => []
  | byte :: rest =>
      (byte <<< 1 ||| carry) :: leftShiftBytes (if byte &&& 0x80 ≠ 0 then 1 else 0) rest

def aesLeftShiftBlock (input : Block) : Block :=
  Block.ofBytes (leftShiftBytes 0 input.toBytes.reverse).reverse

/-- A CMAC subkey: the shifted block, reduced when its top bit was set. -/
def cmacSubkey (block : Block) : Block :=
  let shifted := aesLeftShiftBlock block
  if block.c0.b0 &&& 0x80 ≠ 0 then
    { shifted with c3 := { shifted.c3 with b3 := shifted.c3.b3 ^^^ 0x87 } }
  else shifted

/-- The loop of `aes_cmac` over the blocks from `index` on. -/
def cmacBlocks (key : List Byte) (k1 k2 : Block) (data : List Byte) (blockCount : Nat) :
    (remaining index : Nat) → Block → Option Block
  | 0, _, state => some state
  | remaining + 1, index, state =>
      let copied := (data.drop (16 * index)).take 16
      let block :=
        if index = blockCount - 1 then
          if data ≠ [] ∧ data.length % 16 = 0 then (Block.ofBytes copied).xor k1
          else (Block.ofBytes (copied ++ [0x80])).xor k2
        else Block.ofBytes copied
      (aesEncryptBlock key (block.xor state)).bind
        (cmacBlocks key k1 k2 data blockCount remaining (index + 1))

def aesCmac (key data : List Byte) : Option Block :=
  (aesEncryptBlock key .zero).bind fun l =>
    let k1 := cmacSubkey l
    let k2 := cmacSubkey k1
    let blockCount := if data = [] then 1 else (data.length + 15) / 16
    cmacBlocks key k1 k2 data blockCount blockCount 0 .zero

end QboxPlatform.Cc3xx
