import QboxPlatform.Foundation.Bytes

/-!
# CMAC

The message authentication code over a block cipher of 128 bits as its standard words it:
subkeys by doubling in the field of the blocks, the choice between them by the length of the last
block, and the chain of the blocks.  Octet strings have the most significant octet first.
-/

namespace Foundation.Cmac

/-- The block of 16 octets. -/
def ofOctets (octets : List Byte) : BitVec 128 := ofBytes 128 octets.reverse

/-- The octets of a block. -/
def octets (block : BitVec 128) : List Byte := (toBytes 16 block).reverse

theorem octets_ofOctets {bytes : List Byte} (whole : bytes.length = 16) :
    octets (ofOctets bytes) = bytes := by
  have decoded := toBytes_ofBytes bytes.reverse
    (show 8 * bytes.reverse.length ≤ 128 by simp [whole])
  rw [List.length_reverse, whole] at decoded
  rw [octets, ofOctets, decoded, List.reverse_reverse]

/-- Shift to the left, and add the reduction of the bit that falls out. -/
def double (block : BitVec 128) : BitVec 128 :=
  if block.msb then block <<< 1 ^^^ 0x87 else block <<< 1

/-- Fill up an incomplete block with a one bit and zeros. -/
def pad (incomplete : List Byte) : List Byte :=
  incomplete ++ 0x80 :: List.replicate (15 - incomplete.length) 0

section Message

variable (cipher : BitVec 128 → BitVec 128) (message : List Byte)

def subkey1 : BitVec 128 := double (cipher 0)
def subkey2 : BitVec 128 := double (subkey1 cipher)

/-- The number of blocks; an empty message has one. -/
def blockCount : Nat := if message.length = 0 then 1 else (message.length + 15) / 16

/-- The octets of block `index`, counted from zero. -/
def blockOctets (index : Nat) : List Byte := (message.drop (16 * index)).take 16

/-- The last block, masked by the first subkey when it is complete, and otherwise padded and
masked by the second. -/
def lastBlock : BitVec 128 :=
  let last := blockOctets message (blockCount message - 1)
  if message.length ≠ 0 ∧ message.length % 16 = 0 then ofOctets last ^^^ subkey1 cipher
  else ofOctets (pad last) ^^^ subkey2 cipher

/-- The chaining value after the first `count` blocks. -/
def chain (count : Nat) : BitVec 128 :=
  (List.range count).foldl
    (fun value index => cipher (value ^^^ ofOctets (blockOctets message index))) 0

/-- The code of a message. -/
def tag : BitVec 128 :=
  cipher (lastBlock cipher message ^^^ chain cipher message (blockCount message - 1))

theorem chain_succ (count : Nat) :
    chain cipher message (count + 1) =
      cipher (chain cipher message count ^^^ ofOctets (blockOctets message count)) := by
  rw [chain, List.range_succ, List.foldl_append]
  rfl

variable {message}

theorem length_blockOctets {index : Nat} (before : index < blockCount message - 1) :
    (blockOctets message index).length = 16 := by
  rw [blockOctets, List.length_take, List.length_drop]
  unfold blockCount at before
  split_ifs at before <;> omega

end Message

end Foundation.Cmac
