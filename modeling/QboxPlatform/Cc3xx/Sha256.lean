import QboxPlatform.Foundation.Bytes

/-!
# The SHA-256 engine

The chaining state with its partial block, the compression function, and the update and the
padding that feed it.
-/

namespace QboxPlatform.Cc3xx

open Foundation

abbrev Word := BitVec 32

/-- Eight words: the chaining value, or the working variables of the compression. -/
structure Sha256Words where
  a : Word
  b : Word
  c : Word
  d : Word
  e : Word
  f : Word
  g : Word
  h : Word
  deriving DecidableEq

namespace Sha256Words

def zero : Sha256Words := ⟨0, 0, 0, 0, 0, 0, 0, 0⟩

def initial : Sha256Words :=
  ⟨0x6a09e667, 0xbb67ae85, 0x3c6ef372, 0xa54ff53a, 0x510e527f, 0x9b05688c, 0x1f83d9ab,
    0x5be0cd19⟩

def toList (words : Sha256Words) : List Word :=
  [words.a, words.b, words.c, words.d, words.e, words.f, words.g, words.h]

def add (first second : Sha256Words) : Sha256Words :=
  ⟨first.a + second.a, first.b + second.b, first.c + second.c, first.d + second.d,
    first.e + second.e, first.f + second.f, first.g + second.g, first.h + second.h⟩

/-- The words with the one at an index replaced. -/
def set (words : Sha256Words) (index : Nat) (value : Word) : Sha256Words :=
  match index with
  | 0 => { words with a := value }
  | 1 => { words with b := value }
  | 2 => { words with c := value }
  | 3 => { words with d := value }
  | 4 => { words with e := value }
  | 5 => { words with f := value }
  | 6 => { words with g := value }
  | 7 => { words with h := value }
  | _ => words

end Sha256Words

def sha256K : List Word :=
  [
    0x428a2f98, 0x71374491, 0xb5c0fbcf, 0xe9b5dba5, 0x3956c25b, 0x59f111f1, 0x923f82a4,
    0xab1c5ed5, 0xd807aa98, 0x12835b01, 0x243185be, 0x550c7dc3, 0x72be5d74, 0x80deb1fe,
    0x9bdc06a7, 0xc19bf174, 0xe49b69c1, 0xefbe4786, 0x0fc19dc6, 0x240ca1cc, 0x2de92c6f,
    0x4a7484aa, 0x5cb0a9dc, 0x76f988da, 0x983e5152, 0xa831c66d, 0xb00327c8, 0xbf597fc7,
    0xc6e00bf3, 0xd5a79147, 0x06ca6351, 0x14292967, 0x27b70a85, 0x2e1b2138, 0x4d2c6dfc,
    0x53380d13, 0x650a7354, 0x766a0abb, 0x81c2c92e, 0x92722c85, 0xa2bfe8a1, 0xa81a664b,
    0xc24b8b70, 0xc76c51a3, 0xd192e819, 0xd6990624, 0xf40e3585, 0x106aa070, 0x19a4c116,
    0x1e376c08, 0x2748774c, 0x34b0bcb5, 0x391c0cb3, 0x4ed8aa4a, 0x5b9cca4f, 0x682e6ff3,
    0x748f82ee, 0x78a5636f, 0x84c87814, 0x8cc70208, 0x90befffa, 0xa4506ceb, 0xbef9a3f7,
    0xc67178f2
  ]

def loadBe32 (data : List Byte) (offset : Nat) : Word :=
  ofBytes 32 ((data.drop offset).take 4).reverse

def storeBe64 (value : BitVec 64) : List Byte := (toBytes 8 value).reverse

/-- The message schedule from word `index` on. -/
def extendSchedule : (remaining index : Nat) → List Word → List Word
  | 0, _, schedule => schedule
  | remaining + 1, index, schedule =>
      let w15 := schedule.getD (index - 15) 0
      let w2 := schedule.getD (index - 2) 0
      let s0 := w15.rotateRight 7 ^^^ w15.rotateRight 18 ^^^ w15 >>> 3
      let s1 := w2.rotateRight 17 ^^^ w2.rotateRight 19 ^^^ w2 >>> 10
      extendSchedule remaining (index + 1)
        (schedule ++ [schedule.getD (index - 16) 0 + s0 + schedule.getD (index - 7) 0 + s1])

def messageSchedule (block : List Byte) : List Word :=
  extendSchedule 48 16 ((List.range 16).map fun index => loadBe32 block (4 * index))

/-- One round of the compression function. -/
def sha256Round (words : Sha256Words) (k w : Word) : Sha256Words :=
  let s1 := words.e.rotateRight 6 ^^^ words.e.rotateRight 11 ^^^ words.e.rotateRight 25
  let ch := words.e &&& words.f ^^^ ~~~words.e &&& words.g
  let temp1 := words.h + s1 + ch + k + w
  let s0 := words.a.rotateRight 2 ^^^ words.a.rotateRight 13 ^^^ words.a.rotateRight 22
  let maj := words.a &&& words.b ^^^ words.a &&& words.c ^^^ words.b &&& words.c
  let temp2 := s0 + maj
  ⟨temp1 + temp2, words.a, words.b, words.c, words.d + temp1, words.e, words.f, words.g⟩

/-- `sha256_transform`, without the copy into the registers. -/
def sha256Compress (h : Sha256Words) (block : List Byte) : Sha256Words :=
  h.add ((sha256K.zip (messageSchedule block)).foldl
    (fun words (k, w) => sha256Round words k w) h)

/-- `sha256_state`; `block` holds the bytes of the partial block. -/
structure Sha256State where
  h : Sha256Words := .zero
  block : List Byte := []
  bytes : BitVec 64 := 0#64
  active : Bool := false
  finalized : Bool := false

namespace Sha256State

/-- The state that `sha256_reset` leaves. -/
def started : Sha256State where
  h := .initial
  active := true

/-- The loop of `sha256_update_impl`. -/
def absorb (state : Sha256State) (data : List Byte) : Sha256State :=
  if data = [] then state
  else if 64 ≤ state.block.length then state
  else
    let copied := data.take (64 - state.block.length)
    let block := state.block ++ copied
    if block.length = 64 then
      absorb { state with h := sha256Compress state.h block, block := [] }
        (data.drop copied.length)
    else absorb { state with block := block } (data.drop copied.length)
termination_by data.length
decreasing_by
  all_goals
    have positive : 0 < data.length := List.length_pos_iff.mpr (by assumption)
    simp only [List.length_drop, List.length_take]
    omega

/-- `sha256_update_impl`. -/
def update (state : Sha256State) (data : List Byte) : Sha256State :=
  if !state.active || state.finalized then state
  else absorb { state with bytes := state.bytes + BitVec.ofNat 64 data.length } data

/-- `sha256_finish`; the byte count it leaves in the state includes the padding. -/
def finish (state : Sha256State) : Sha256State :=
  if !state.active || state.finalized then state
  else
    let padLen :=
      if state.block.length < 56 then 56 - state.block.length else 120 - state.block.length
    let padded := state.update (0x80 :: List.replicate (padLen - 1) 0)
    { padded.update (storeBe64 (state.bytes * 8)) with finalized := true }

end Sha256State

end QboxPlatform.Cc3xx
