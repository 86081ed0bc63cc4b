import QboxPlatform.RseP256Ecdsa.Der

/-!
# The verification of signatures

`parse_public_key_point` looks for an uncompressed point of the curve in the bytes of a key, and
`verify` checks a signature of a hash against it.
-/

namespace QboxPlatform.RseP256Ecdsa

open Foundation

/-- The point whose coordinates follow the byte at `i`. -/
def readPoint (key : List Byte) (i : Nat) : Parse Point := do
  let x ← fromBe key (i + 1) 32
  let y ← fromBe key (i + 33) 32
  pure { x := x, y := y, infinity := false }

/-- The loop of `parse_public_key_point`, with a bound on its rounds. -/
def findPoint (key : List Byte) : (rounds i : Nat) → Parse Point
  | 0, _ => reject
  | rounds + 1, i =>
      if key.length < (i + 65) % 2 ^ 64 then reject
      else do
        let first ← readByte key i
        if first ≠ 0x04 then findPoint key rounds (i + 1)
        else
          let candidate ← readPoint key i
          if isOnCurve candidate then pure candidate else findPoint key rounds (i + 1)

/-- A byte behind the key is read before the rounds run out. -/
def parsePublicKeyPoint (key : List Byte) : Parse Point :=
  if key.length < 65 then reject
  else do
    let first ← readByte key 0
    if key.length = 65 ∧ first = 0x04 then
      let point ← readPoint key 0
      if isOnCurve point then pure point else reject
    else findPoint key (key.length + 1) 0

/-- The check of a signature that is read. -/
def checkSignature (q : Point) (e r s : Int) : Bool :=
  let w := modInverse s n
  if w = 0 then false
  else
    let u1 := mod (e * w) n
    let u2 := mod (r * w) n
    let point := pointAdd (scalarMultiply generator u1) (scalarMultiply q u2)
    if point.infinity then false else mod point.x n == r

/-- `none` if a byte behind the key or the signature is read. -/
def verify (publicKey hash signature : List Byte) : Option Bool :=
  if hash.length ≠ 32 then some false
  else
    let checked : Parse Bool := do
      let q ← parsePublicKeyPoint publicKey
      let (r, s) ← parseEcdsaDerSignature signature
      let e ← fromBe hash 0 hash.length
      pure (checkSignature q e r s)
    match checked with
    | .ok accepted => some accepted
    | .error .rejected => some false
    | .error .outOfBounds => none

end QboxPlatform.RseP256Ecdsa
