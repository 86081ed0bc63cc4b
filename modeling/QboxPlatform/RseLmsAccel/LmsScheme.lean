import QboxPlatform.Foundation.HashTree
import QboxPlatform.RseLmsAccel.Lms

/-!
# The signature scheme

Keys and signatures of LMS with LM-OTS as the standard for hash-based signatures defines them:
the private strings of each leaf are hashed along chains, and the ends of the chains are hashed
into the leaf of a tree.  Numbers are strings with the most significant byte first.
-/

namespace QboxPlatform.RseLmsAccel

open Foundation

namespace LmsScheme

/-! ### Parameters and encodings -/

/-- The typecodes of `LMS_SHA256_M32_H10` and `LMOTS_SHA256_N32_W8`. -/
def lmsType : Nat := 6
def otsType : Nat := 4
/-- The bits of a digit. -/
def w : Nat := 8
/-- The number of chains. -/
def p : Nat := 34
/-- The shift of the checksum. -/
def ls : Nat := 0
/-- The height of the tree. -/
def h : Nat := 10

def numberString (count value : Nat) : List Byte :=
  ((List.range count).map fun index => BitVec.ofNat 8 (value / 256 ^ index)).reverse

/-- The digit of a string with an index. -/
def coef (text : List Byte) (index width : Nat) : Nat :=
  (2 ^ width - 1) &&&
    ((text.getD (index * width / 8) 0).toNat >>> (8 - (width * (index % (8 / width)) + width)))

/-- The checksum over the digits of a hash. -/
def cksm (text : List Byte) : Nat :=
  (((List.range (hashLen * 8 / w)).map fun index => 2 ^ w - 1 - coef text index w).sum) <<< ls

variable (hash : List Byte → Digest) (keyId : List.Vector Byte iKeyIdLen)
  (secret : Nat → Nat → Digest)

/-! ### The one-time signature of a leaf -/

/-- One step of the chain with an index. -/
def chainStep (leaf index j : Nat) (value : Digest) : Digest :=
  hash (keyId.toList ++ numberString 4 leaf ++ numberString 2 index ++ numberString 1 j ++
    value.toList)

def otsPublicKey (leaf : Nat) : Digest :=
  hash (keyId.toList ++ numberString 4 leaf ++ numberString 2 0x8080 ++
    (List.range p).flatMap fun index =>
      (chain (chainStep hash keyId leaf index) 0 (2 ^ w - 1) (secret leaf index)).toList)

def messageHash (leaf : Nat) (randomizer : Digest) (message : List Byte) : Digest :=
  hash (keyId.toList ++ numberString 4 leaf ++ numberString 2 0x8181 ++ randomizer.toList ++
    message)

/-- The digits that are signed: those of the hash and of its checksum. -/
def digits (text : List Byte) : List Byte := text ++ numberString 2 (cksm text)

/-- The chains as far as the digits say. -/
def signedChains (leaf : Nat) (text : List Byte) : List Byte :=
  (List.range p).flatMap fun index =>
    (chain (chainStep hash keyId leaf index) 0 (coef (digits text) index w)
      (secret leaf index)).toList

def otsSignature (leaf : Nat) (randomizer : Digest) (message : List Byte) : List Byte :=
  numberString 4 otsType ++ randomizer.toList ++
    signedChains hash keyId secret leaf (messageHash hash keyId leaf randomizer message).toList

/-! ### The tree -/

def leafNode (number : Nat) : Digest :=
  hash (keyId.toList ++ numberString 4 number ++ numberString 2 0x8282 ++
    (otsPublicKey hash keyId secret (number - 2 ^ h)).toList)

def innerNode (number : Nat) (left right : Digest) : Digest :=
  hash (keyId.toList ++ numberString 4 number ++ numberString 2 0x8383 ++ left.toList ++
    right.toList)

/-- The node with the number 1. -/
def root : Digest := treeNode (leafNode hash keyId secret) (innerNode hash keyId) h 1

def publicKey : List Byte :=
  numberString 4 lmsType ++ numberString 4 otsType ++ keyId.toList ++
    (root hash keyId secret).toList

def path (leaf : Nat) : List Digest :=
  treePath (leafNode hash keyId secret) (innerNode hash keyId) h (2 ^ h + leaf)

def signature (leaf : Nat) (randomizer : Digest) (message : List Byte) : List Byte :=
  numberString 4 leaf ++ otsSignature hash keyId secret leaf randomizer message ++
    numberString 4 lmsType ++ (path hash keyId secret leaf).flatMap List.Vector.toList

end LmsScheme

end QboxPlatform.RseLmsAccel
