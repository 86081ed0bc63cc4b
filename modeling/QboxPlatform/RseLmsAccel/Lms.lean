import QboxPlatform.RseLmsAccel.Sha256

/-!
# Verification of LMS signatures

`verify` and `lmots_candidate` of `rse_lms_accel.h`.  The hash is a parameter: `sha256_concat`
hashes the concatenation of its chunks.
-/

namespace QboxPlatform.RseLmsAccel

open Foundation

def lmsSha256M32H10 : BitVec 32 := 0x00000006
def lmotsSha256N32W8 : BitVec 32 := 0x00000004
def hashLen : Nat := 32
def iKeyIdLen : Nat := 16
def qLeafIdLen : Nat := 4
def lmotsP : Nat := 34
def lmsHeight : Nat := 10
def lmsPublicKeyLen : Nat := 4 + 4 + iKeyIdLen + hashLen
def lmotsSigLen : Nat := 4 + hashLen + lmotsP * hashLen
def lmsSigLen : Nat := qLeafIdLen + lmotsSigLen + 4 + lmsHeight * hashLen

abbrev Digest := List.Vector Byte hashLen

def loadBe32 (bytes : List Byte) : BitVec 32 :=
  (bytes.getD 0 0).setWidth 32 <<< 24 ||| (bytes.getD 1 0).setWidth 32 <<< 16 |||
    (bytes.getD 2 0).setWidth 32 <<< 8 ||| (bytes.getD 3 0).setWidth 32

def storeBe16 (value : BitVec 16) : List Byte := (toBytes 2 value).reverse

def dMessage : List Byte := [0x81, 0x81]
def dPublic : List Byte := [0x80, 0x80]
def dLeaf : List Byte := [0x82, 0x82]
def dIntr : List Byte := [0x83, 0x83]

variable (hash : List Byte → Digest)

/-- The checksum of the digits of a hash. -/
def checksum (digits : List Byte) : BitVec 32 :=
  digits.foldl (fun sum digit => sum + (0xff - digit.setWidth 32)) 0

/-- The loop over `j`: the chain from a digit to its end. -/
def hashDigit (keyId leafId : List Byte) (index : Nat) (digit : Byte) (value : List Byte) :
    List Byte :=
  (List.range' digit.toNat (0xff - digit.toNat)).foldl
    (fun tmp j =>
      (hash (keyId ++ leafId ++ storeBe16 (BitVec.ofNat 16 index) ++ [BitVec.ofNat 8 j] ++
        tmp)).toList)
    value

def lmotsCandidate (msg sig keyId leafId : List Byte) : Option Digest :=
  if sig.length ≠ lmotsSigLen ∨ loadBe32 sig ≠ lmotsSha256N32W8 then none
  else
    let random := (sig.drop 4).take hashLen
    let y := sig.drop (4 + hashLen)
    let qHash := (hash (keyId ++ leafId ++ dMessage ++ random ++ msg)).toList
    let digits := qHash ++ storeBe16 ((checksum qHash).setWidth 16)
    let hashedDigits := (List.range lmotsP).flatMap fun index =>
      hashDigit hash keyId leafId index (digits.getD index 0)
        ((y.drop (index * hashLen)).take hashLen)
    some (hash (keyId ++ leafId ++ dPublic ++ hashedDigits))

/-- One level of the path: the number of the node and its hash. -/
def climbPath (keyId path : List Byte) (current : BitVec 32 × List Byte) (height : Nat) :
    BitVec 32 × List Byte :=
  let sibling := (path.drop (height * hashLen)).take hashLen
  let parent := current.1 / 2
  if current.1 &&& 1 ≠ 0 then
    (parent, (hash (keyId ++ storeBe32 parent ++ dIntr ++ sibling ++ current.2)).toList)
  else (parent, (hash (keyId ++ storeBe32 parent ++ dIntr ++ current.2 ++ sibling)).toList)

/-- The hash at the root, from the hash of the one-time public key. -/
def rootOfPath (keyId path : List Byte) (leaf : BitVec 32) (candidate : Digest) : List Byte :=
  let number := BitVec.ofNat 32 (1 <<< lmsHeight) + leaf
  let node := (hash (keyId ++ storeBe32 number ++ dLeaf ++ candidate.toList)).toList
  ((List.range lmsHeight).foldl (climbPath hash keyId path) (number, node)).2

/-- The overload for vectors; the tests for null pointers exclude nothing that the lengths
do not. -/
def verify (publicKey msg sig : List Byte) : Bool :=
  if publicKey.length ≠ lmsPublicKeyLen ∨ sig.length ≠ lmsSigLen then false
  else if loadBe32 publicKey ≠ lmsSha256M32H10 ∨
      loadBe32 (publicKey.drop 4) ≠ lmotsSha256N32W8 then false
  else
    let keyId := (publicKey.drop 8).take iKeyIdLen
    let publicRoot := (publicKey.drop 24).take hashLen
    if loadBe32 (sig.drop (4 + lmotsSigLen)) ≠ lmsSha256M32H10 then false
    else
      let leaf := loadBe32 sig
      if BitVec.ofNat 32 (1 <<< lmsHeight) ≤ leaf then false
      else
        match lmotsCandidate hash msg ((sig.drop 4).take lmotsSigLen) keyId (storeBe32 leaf) with
        | none => false
        | some candidate =>
            rootOfPath hash keyId (sig.drop (4 + lmotsSigLen + 4)) leaf candidate == publicRoot

end QboxPlatform.RseLmsAccel
