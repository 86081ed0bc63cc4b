import QboxPlatform.Foundation.BlockStream
import QboxPlatform.Foundation.Bytes

/-!
# SHA-256

The hash function as the standard defines it: the constants from roots of primes, the padding of
the whole message, the message schedule as a recurrence, and the hash computation over the
512-bit blocks of the padded message.
-/

namespace Foundation.Sha256

abbrev Word := BitVec 32

/-- Eight words: a hash value, or the working variables. -/
structure Variables where
  a : Word
  b : Word
  c : Word
  d : Word
  e : Word
  f : Word
  g : Word
  h : Word
  deriving DecidableEq

def Variables.toList (working : Variables) : List Word :=
  [working.a, working.b, working.c, working.d, working.e, working.f, working.g,
    working.h]

def Variables.add (first second : Variables) : Variables :=
  ⟨first.a + second.a, first.b + second.b, first.c + second.c, first.d + second.d,
    first.e + second.e, first.f + second.f, first.g + second.g, first.h + second.h⟩

/-! ### Functions and constants -/

def choose (x y z : Word) : Word := (x &&& y) ^^^ (~~~x &&& z)
def majority (x y z : Word) : Word := (x &&& y) ^^^ (x &&& z) ^^^ (y &&& z)
def upperSigma0 (x : Word) : Word := x.rotateRight 2 ^^^ x.rotateRight 13 ^^^ x.rotateRight 22
def upperSigma1 (x : Word) : Word := x.rotateRight 6 ^^^ x.rotateRight 11 ^^^ x.rotateRight 25
def lowerSigma0 (x : Word) : Word := x.rotateRight 7 ^^^ x.rotateRight 18 ^^^ x >>> 3
def lowerSigma1 (x : Word) : Word := x.rotateRight 17 ^^^ x.rotateRight 19 ^^^ x >>> 10

/-- The first `count` primes, among the numbers below `bound`. -/
def primes (count bound : Nat) : List Nat :=
  ((List.range bound).filter fun number =>
    1 < number && (List.range number).all fun divisor =>
      divisor < 2 || number % divisor != 0).take count

/-- The largest number whose power stays below a value, from the bits `0` to `bits - 1`. -/
def floorRoot (power value : Nat) : (bits : Nat) → Nat → Nat
  | 0, root => root
  | bits + 1, root =>
      floorRoot power value bits
        (if (root + 2 ^ bits) ^ power ≤ value then root + 2 ^ bits else root)

/-- The first 32 bits of the fractional part of a root. -/
def fractionOfRoot (power number : Nat) : Word :=
  BitVec.ofNat 32 (floorRoot power (number * 2 ^ (32 * power)) 40 0)

/-- The first eight primes give the initial hash value by their square roots. -/
def initialWords : List Word := (primes 8 20).map (fractionOfRoot 2)

def initial : Variables :=
  ⟨initialWords.getD 0 0, initialWords.getD 1 0, initialWords.getD 2 0, initialWords.getD 3 0,
    initialWords.getD 4 0, initialWords.getD 5 0, initialWords.getD 6 0, initialWords.getD 7 0⟩

/-- The first sixty-four primes give the constants by their cube roots. -/
def constants : List Word := (primes 64 312).map (fractionOfRoot 3)

/-! ### Padding -/

/-- A 64-bit number, most significant byte first. -/
def bigEndian64 (value : BitVec 64) : List Byte := (toBytes 8 value).reverse

/-- A one bit, the least number of zeros that fills the last block up to its length field, and
the length of the message in bits. -/
def padding (length : Nat) : List Byte :=
  0x80 :: List.replicate ((119 - length % 64) % 64) 0 ++
    bigEndian64 (BitVec.ofNat 64 (8 * length))

def pad (message : List Byte) : List Byte := message ++ padding message.length

/-! ### Hash computation -/

/-- Word `t` of a block, most significant byte first. -/
def messageWord (block : List Byte) (t : Nat) : Word :=
  block.getD (4 * t) 0 ++ block.getD (4 * t + 1) 0 ++ block.getD (4 * t + 2) 0 ++
    block.getD (4 * t + 3) 0

/-- The message schedule. -/
def schedule (block : List Byte) (t : Nat) : Word :=
  if t < 16 then messageWord block t
  else
    lowerSigma1 (schedule block (t - 2)) + schedule block (t - 7) +
      lowerSigma0 (schedule block (t - 15)) + schedule block (t - 16)
termination_by t

def round (working : Variables) (constant word : Word) : Variables :=
  let t1 := working.h + upperSigma1 working.e +
    choose working.e working.f working.g + constant + word
  let t2 := upperSigma0 working.a + majority working.a working.b working.c
  ⟨t1 + t2, working.a, working.b, working.c, working.d + t1, working.e, working.f,
    working.g⟩

/-- The hash value after a block. -/
def compress (hash : Variables) (block : List Byte) : Variables :=
  hash.add ((List.range 64).foldl
    (fun working t => round working (constants.getD t 0) (schedule block t)) hash)

/-- The hash of a message of fewer than `2 ^ 61` bytes. -/
def hash (message : List Byte) : Variables :=
  (BlockStream.absorb compress 64 initial (pad message)).1

/-- The words of the hash, most significant byte first. -/
def digest (message : List Byte) : List Byte :=
  (hash message).toList.flatMap fun word => (toBytes 4 word).reverse

end Foundation.Sha256
