import QboxPlatform.Foundation.Bytes
import QboxPlatform.RseP256Ecdsa.Curve

/-!
# The parser of signatures

`parse_ecdsa_der_signature` and what it calls.  Offsets and lengths are numbers of 64 bits; an
index behind the data ends the parse.
-/

namespace QboxPlatform.RseP256Ecdsa

open Foundation

universe u

/-- Why nothing is parsed: the input is rejected, or a byte behind the data is read. -/
inductive Failure
  | rejected
  | outOfBounds
  deriving DecidableEq

abbrev Parse := Except Failure

def reject {Value : Type u} : Parse Value := .error .rejected

def readByte (data : List Byte) (index : Nat) : Parse Byte :=
  match data[index]? with
  | some byte => .ok byte
  | none => .error .outOfBounds

/-- The loop of `from_be`. -/
def fromBeLoop (data : List Byte) : (size offset : Nat) → Int → Parse Int
  | 0, _, value => .ok value
  | size + 1, offset, value => do
      let byte ← readByte data offset
      fromBeLoop data size (offset + 1) (value * 2 ^ 8 + byte.toNat)

def fromBe (data : List Byte) (offset size : Nat) : Parse Int := fromBeLoop data size offset 0

/-- The loop of `parse_der_length`. -/
def readLength (data : List Byte) : (bytes offset length : Nat) → Parse (Nat × Nat)
  | 0, offset, length => .ok (offset, length)
  | bytes + 1, offset, length => do
      let byte ← readByte data offset
      readLength data bytes (offset + 1) ((length <<< 8) % 2 ^ 64 ||| byte.toNat)

/-- The offset behind the length, and the length. -/
def parseDerLength (data : List Byte) (size offset : Nat) : Parse (Nat × Nat) :=
  if size ≤ offset then reject
  else do
    let first ← readByte data offset
    if first &&& 0x80 = 0 then
      if (offset + 1 + first.toNat) % 2 ^ 64 ≤ size then pure (offset + 1, first.toNat) else reject
    else
      let bytes := (first &&& 0x7f).toNat
      if bytes = 0 ∨ 8 < bytes ∨ size < (offset + 1 + bytes) % 2 ^ 64 then reject
      else
        let (start, length) ← readLength data bytes (offset + 1) 0
        if (start + length) % 2 ^ 64 ≤ size then pure (start, length) else reject

/-- The loop of `parse_der_integer` over leading zeros. -/
def skipZeros (data : List Byte) : (length offset : Nat) → Parse (Nat × Nat)
  | 0, offset => .ok (offset, 0)
  | 1, offset => .ok (offset, 1)
  | length + 2, offset => do
      let byte ← readByte data offset
      if byte = 0 then skipZeros data (length + 1) (offset + 1) else pure (offset, length + 2)

/-- The offset behind the integer, and its value. -/
def parseDerInteger (data : List Byte) (size offset : Nat) : Parse (Nat × Int) :=
  if size ≤ offset then reject
  else do
    let tag ← readByte data offset
    if tag ≠ 0x02 then reject
    else
      let (start, length) ← parseDerLength data size (offset + 1)
      if length = 0 then reject
      else
        let first ← readByte data start
        if first &&& 0x80 ≠ 0 then reject
        else
          let (start, length) ← skipZeros data length start
          let value ← fromBe data start length
          pure ((start + length) % 2 ^ 64, value)

def parseEcdsaDerSignature (sig : List Byte) : Parse (Int × Int) :=
  if sig.length = 0 then reject
  else do
    let tag ← readByte sig 0
    if tag ≠ 0x30 then reject
    else
      let (start, seqLength) ← parseDerLength sig sig.length 1
      let seqEnd := (start + seqLength) % 2 ^ 64
      if seqEnd ≠ sig.length then reject
      else
        let (middle, r) ← parseDerInteger sig seqEnd start
        let (last, s) ← parseDerInteger sig seqEnd middle
        if last ≠ seqEnd then reject
        else if 0 < r ∧ r < n ∧ 0 < s ∧ s < n then pure (r, s)
        else reject

end QboxPlatform.RseP256Ecdsa
