import QboxPlatform.Foundation.Bytes

/-!
# The arithmetic of the public-key accelerator

What the PKA operations compute on operands, that is on lists of 32-bit words with the least
significant one first.  `pka_int` is an unbounded integer whose division truncates.
-/

namespace QboxPlatform.Cc3xx

open Foundation

abbrev Operand := List (BitVec 32)

def pkaIsZero (data : Operand) : Bool := data.all (· == 0)

def pkaWordModulus (words : Nat) : Int := 2 ^ (32 * words)

def pkaWordMask (words : Nat) : Int := pkaWordModulus words - 1

def pkaWordsToInt : Operand → Int
  | [] => 0
  | word :: rest => pkaWordsToInt rest * 2 ^ 32 + word.toNat

/-- The loop of `pka_int_to_words`. -/
def intWords : (words : Nat) → Int → Operand
  | 0, _ => []
  | words + 1, value => BitVec.ofInt 32 value :: intWords words (value / 2 ^ 32)

def pkaIntToWords (value : Int) (words : Nat) : Operand :=
  let reduced := value.tmod (pkaWordModulus words)
  intWords words (if reduced < 0 then reduced + pkaWordModulus words else reduced)

@[simp]
theorem length_intWords (words : Nat) (value : Int) : (intWords words value).length = words := by
  induction words generalizing value with
  | zero => rfl
  | succ words inductionHypothesis => simp [intWords, inductionHypothesis]

@[simp]
theorem length_pkaIntToWords (value : Int) (words : Nat) :
    (pkaIntToWords value words).length = words :=
  length_intWords _ _

def pkaPositiveMod (value modulus : Int) : Int :=
  if modulus ≤ 0 then 0
  else
    let reduced := value.tmod modulus
    if reduced < 0 then reduced + modulus else reduced

/-- The loop of `pka_pow_mod`. -/
def powModLoop (modulus : Int) (base exponent result : Int) : Int :=
  if 0 < exponent then
    powModLoop modulus ((base * base).tmod modulus) (exponent / 2)
      (if exponent % 2 ≠ 0 then (result * base).tmod modulus else result)
  else result
termination_by exponent.toNat
decreasing_by omega

def pkaPowMod (base exponent modulus : Int) : Int :=
  if modulus ≤ 0 then 0
  else powModLoop modulus (pkaPositiveMod base modulus) exponent (Int.tmod 1 modulus)

/-- The loop of `pka_mod_inverse`; it gives the last `t` and `r`. -/
def modInverseLoop (t newT r newR : Int) : Int × Int :=
  if newR = 0 then (t, r)
  else
    let quotient := r.tdiv newR
    modInverseLoop newT (t - quotient * newT) newR (r - quotient * newR)
termination_by newR.natAbs
decreasing_by
  rename_i nonzero
  have remainder : r - r.tdiv newR * newR = r.tmod newR := by
    have split := Int.tmod_add_tdiv_mul r newR
    omega
  rw [remainder, Int.natAbs_tmod]
  exact Nat.mod_lt _ (Int.natAbs_pos.mpr nonzero)

/-- The inverse, and whether there is one. -/
def pkaModInverse (value modulus : Int) : Int × Bool :=
  if modulus ≤ 1 then (0, false)
  else
    let (t, r) := modInverseLoop 0 1 modulus (pkaPositiveMod value modulus)
    if r ≠ 1 then (0, false) else (if t < 0 then t + modulus else t, true)

/-- `pka_shift_words`. -/
def pkaShiftWords (value : Operand) (amount : Nat) (left fillOne : Bool) : Operand :=
  let words := value.length
  let width := words * 32
  if words = 0 ∨ amount = 0 then value
  else if width ≤ amount then
    if fillOne then pkaIntToWords (pkaWordMask words) words else List.replicate words 0
  else
    let number := (pkaWordsToInt value).toNat
    let ones := 2 ^ amount - 1
    let result :=
      if left then
        if fillOne then number <<< amount ||| ones else number <<< amount
      else if fillOne then number >>> amount ||| ones <<< (width - amount)
      else number >>> amount
    pkaIntToWords result words

/-- The loop of `pka_add_words`: the sum words and the last carry. -/
def addWordsFrom (carry : Nat) : Operand → Operand → Operand × Nat
  | left :: lhs, right :: rhs =>
      let sum := left.toNat + right.toNat + carry
      let (rest, last) := addWordsFrom (sum / 2 ^ 32) lhs rhs
      (BitVec.ofNat 32 sum :: rest, last)
  | _, _ => ([], carry)

def pkaAddWords (lhs rhs : Operand) : Operand × Bool :=
  let (result, carry) := addWordsFrom 0 lhs rhs
  (result, carry != 0)

/-- The loop of `pka_sub_words`: the difference words and the last borrow. -/
def subWordsFrom (borrow : Bool) : Operand → Operand → Operand × Bool
  | left :: lhs, right :: rhs =>
      let subtrahend := right.toNat + borrow.toNat
      let (rest, last) := subWordsFrom (left.toNat < subtrahend) lhs rhs
      (BitVec.ofInt 32 (left.toNat - subtrahend) :: rest, last)
  | _, _ => ([], borrow)

def pkaSubWords (lhs rhs : Operand) : Operand × Bool :=
  subWordsFrom false lhs rhs

/-! ### The results have the size of the operands -/

@[simp]
theorem length_pkaShiftWords (value : Operand) (amount : Nat) (left fillOne : Bool) :
    (pkaShiftWords value amount left fillOne).length = value.length := by
  unfold pkaShiftWords
  dsimp only
  split_ifs <;> simp

theorem length_addWordsFrom (carry : Nat) {lhs rhs : Operand} (same : lhs.length = rhs.length) :
    (addWordsFrom carry lhs rhs).1.length = lhs.length := by
  induction lhs generalizing rhs carry with
  | nil => rfl
  | cons left lhs inductionHypothesis =>
      cases rhs with
      | nil => simp at same
      | cons right rhs =>
          have shorter : lhs.length = rhs.length := by simpa using same
          simp [addWordsFrom, inductionHypothesis _ shorter]

theorem length_subWordsFrom (borrow : Bool) {lhs rhs : Operand}
    (same : lhs.length = rhs.length) :
    (subWordsFrom borrow lhs rhs).1.length = lhs.length := by
  induction lhs generalizing rhs borrow with
  | nil => rfl
  | cons left lhs inductionHypothesis =>
      cases rhs with
      | nil => simp at same
      | cons right rhs =>
          have shorter : lhs.length = rhs.length := by simpa using same
          simp [subWordsFrom, inductionHypothesis _ shorter]

theorem length_pkaAddWords {lhs rhs : Operand} (same : lhs.length = rhs.length) :
    (pkaAddWords lhs rhs).1.length = lhs.length :=
  length_addWordsFrom 0 same

theorem length_pkaSubWords {lhs rhs : Operand} (same : lhs.length = rhs.length) :
    (pkaSubWords lhs rhs).1.length = lhs.length :=
  length_subWordsFrom false same

end QboxPlatform.Cc3xx
