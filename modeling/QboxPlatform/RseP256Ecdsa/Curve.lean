import Mathlib

/-!
# The arithmetic of the curve

The numbers of `rse_p256_ecdsa.h` are integers of any size; its quotients and remainders round
towards zero.
-/

namespace QboxPlatform.RseP256Ecdsa

/-! ### Parameters -/

def p : Int := 0xffffffff00000001000000000000000000000000ffffffffffffffffffffffff
def n : Int := 0xffffffff00000000ffffffffffffffffbce6faada7179e84f3b9cac2fc632551
def a : Int := p - 3
def b : Int := 0x5ac635d8aa3a93e7b3ebbd55769886bc651d06b0cc53b0f63bce3c3e27d2604b

structure Point where
  x : Int
  y : Int
  infinity : Bool
  deriving DecidableEq

/-- `Point{}` -/
def Point.zero : Point := ⟨0, 0, true⟩

def generator : Point where
  x := 0x6b17d1f2e12c4247f8bce6e563a440f277037d812deb33a0f4a13945d898c296
  y := 0x4fe342e2fe1a7f9b8ee7eb4a7c0f9e162bce33576b315ececbb6406837bf51f5
  infinity := false

/-! ### Modular arithmetic -/

def mod (value modulus : Int) : Int :=
  let rest := value.tmod modulus
  if rest < 0 then rest + modulus else rest

/-- The variables of the loop of `mod_inverse`. -/
structure Euclid where
  t : Int
  newT : Int
  r : Int
  newR : Int

def Euclid.next (state : Euclid) : Euclid :=
  let quotient := state.r.tdiv state.newR
  { t := state.newT
    newT := state.t - quotient * state.newT
    r := state.newR
    newR := state.r - quotient * state.newR }

/-- The loop of `mod_inverse`, with a bound on its rounds. -/
def Euclid.run : Nat → Euclid → Euclid
  | 0, state => state
  | rounds + 1, state => if state.newR = 0 then state else run rounds state.next

/-- `new_r` falls in every round, so that it is zero before the rounds run out. -/
def modInverse (value modulus : Int) : Int :=
  let start := ⟨0, 1, modulus, mod value modulus⟩
  let final := Euclid.run (modulus.toNat + 1) start
  if final.r ≠ 1 then 0 else mod final.t modulus

/-! ### Points -/

def isOnCurve (point : Point) : Bool :=
  if point.infinity then false
  else
    let lhs := mod (point.y * point.y) p
    let rhs := mod (point.x * point.x * point.x + a * point.x + b) p
    lhs == rhs

def pointDouble (point : Point) : Point :=
  if point.infinity || point.y == 0 then .zero
  else
    let lambda := mod ((3 * point.x * point.x + a) * modInverse (2 * point.y) p) p
    let x := mod (lambda * lambda - 2 * point.x) p
    { x := x
      y := mod (lambda * (point.x - x) - point.y) p
      infinity := false }

def pointAdd (lhs rhs : Point) : Point :=
  if lhs.infinity then rhs
  else if rhs.infinity then lhs
  else if lhs.x = rhs.x then
    if mod (lhs.y + rhs.y) p = 0 then .zero else pointDouble lhs
  else
    let lambda := mod ((rhs.y - lhs.y) * modInverse (rhs.x - lhs.x) p) p
    let x := mod (lambda * lambda - lhs.x - rhs.x) p
    { x := x
      y := mod (lambda * (lhs.x - x) - lhs.y) p
      infinity := false }

/-- The loop of `scalar_multiply`, with a bound on its rounds. -/
def multiplyLoop : Nat → Nat → Point → Point → Point
  | 0, _, result, _ => result
  | rounds + 1, scalar, result, point =>
      if scalar = 0 then result
      else
        let added := if scalar &&& 1 ≠ 0 then pointAdd result point else result
        let rest := scalar >>> 1
        multiplyLoop rounds rest added (if rest ≠ 0 then pointDouble point else point)

/-- The scalar is halved in every round. -/
def scalarMultiply (point : Point) (scalar : Int) : Point :=
  let reduced := (mod scalar n).toNat
  multiplyLoop reduced reduced .zero point

end QboxPlatform.RseP256Ecdsa
