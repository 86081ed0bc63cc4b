import QboxPlatform.Cc3xx.Pka
import QboxPlatform.Foundation.Bezout
import QboxPlatform.Foundation.Words

/-!
# What the operations mean for numbers

The operands of the PKA represent natural numbers.  Each operation is compared with the number it
is meant to compute: sums, products and shifts of numbers, truncated to the operand size, and the
residues that the modular operations give.
-/

namespace QboxPlatform.Cc3xx

open Foundation

/-- The outcome of an operation on numbers. -/
structure PkaMeaning where
  result : Nat
  remainder : Option Nat := none
  carry : Bool := false
  sign : Bool := false
  divByZero : Bool := false

namespace PkaMeaning

def sum (words lhs rhs : Nat) : PkaMeaning where
  result := (lhs + rhs) % 2 ^ (32 * words)
  carry := 2 ^ (32 * words) ≤ lhs + rhs

def difference (words lhs rhs : Nat) : PkaMeaning where
  result := ((lhs - rhs : Int) % 2 ^ (32 * words)).toNat
  carry := lhs < rhs
  sign := lhs < rhs

/-- The result of a modular operation; there is none without a modulus. -/
def modular (modulus number : Nat) : PkaMeaning :=
  if modulus = 0 then { result := 0, divByZero := true } else { result := number % modulus }

end PkaMeaning

/-- What an operation means, for operands of `words` words; `amount` is that of a shift. -/
def PkaOperation.meaning (operation : PkaOperation) (amount words modulus lhs rhs : Nat) :
    PkaMeaning :=
  match operation with
  | .addInc => .sum words lhs rhs
  | .subDecNeg => .difference words lhs rhs
  | .modAddModInc =>
      if modulus = 0 then .sum words lhs rhs
      else { result := (lhs + rhs) % modulus, carry := modulus ≤ lhs + rhs }
  | .modSubModDecModNeg =>
      if modulus = 0 then .difference words lhs rhs
      else
        { result := ((lhs - rhs : Int) % modulus).toNat
          carry := lhs < rhs
          sign := lhs < rhs }
  | .andTst0Clr0 => { result := lhs &&& rhs }
  | .orCopySet0 => { result := lhs ||| rhs }
  | .xorFlip0InvertCompare => { result := lhs ^^^ rhs }
  | .shr0 => { result := lhs / 2 ^ amount }
  | .shr1 =>
      { result := (lhs + (2 ^ amount - 1) * 2 ^ (32 * words)) / 2 ^ amount % 2 ^ (32 * words) }
  | .shl0 => { result := lhs * 2 ^ amount % 2 ^ (32 * words) }
  | .shl1 => { result := (lhs * 2 ^ amount + (2 ^ amount - 1)) % 2 ^ (32 * words) }
  | .mulLow =>
      { result := lhs * rhs % 2 ^ (32 * words), carry := 2 ^ (32 * words) ≤ lhs * rhs }
  | .mulHigh => { result := lhs * rhs / 2 ^ (32 * words) }
  | .div =>
      if rhs = 0 then { result := 0, remainder := some lhs, divByZero := true }
      else { result := lhs / rhs, remainder := some (lhs % rhs) }
  | .modMul => .modular modulus (lhs * rhs)
  | .modExp => .modular modulus (lhs ^ rhs)
  | .modInv =>
      if 1 < modulus ∧ Nat.Coprime rhs modulus then
        { result := ((rhs : ZMod modulus)⁻¹).val }
      else { result := 0, divByZero := true }
  | .reduction => .modular modulus lhs

theorem pkaWordsToInt_eq (data : Operand) : pkaWordsToInt data = Words.value data := by
  induction data with
  | nil => rfl
  | cons word rest inductionHypothesis =>
      rw [pkaWordsToInt, inductionHypothesis, Words.value_cons]
      push_cast
      ring

/-- The low word of a remainder is that of the number, and the others are a remainder. -/
theorem split_remainder (words value : Nat) :
    2 ^ 32 * (value / 2 ^ 32 % 2 ^ (32 * words)) + value % 2 ^ 32 =
      value % 2 ^ (32 * (words + 1)) := by
  rw [Nat.mul_succ, Nat.add_comm (32 * words), Nat.pow_add, Nat.mod_mul, Nat.add_comm]

theorem value_intWords (words value : Nat) :
    Words.value (intWords words value) = value % 2 ^ (32 * words) := by
  induction words generalizing value with
  | zero => simp [intWords, Nat.mod_one]
  | succ words inductionHypothesis =>
      have low : (BitVec.ofInt 32 value).toNat = value % 2 ^ 32 := by
        rw [BitVec.ofInt_natCast, BitVec.toNat_ofNat]
      have rest : (value : Int) / 2 ^ 32 = ((value / 2 ^ 32 : Nat) : Int) := by push_cast; rfl
      rw [intWords, Words.value_cons, low, rest, inductionHypothesis, split_remainder]

theorem value_pkaIntToWords (value : Int) (words : Nat) :
    Words.value (pkaIntToWords value words) = (value % 2 ^ (32 * words)).toNat := by
  have positive : (0 : Int) < 2 ^ (32 * words) := by positivity
  obtain ⟨reduced, eq⟩ := Int.eq_ofNat_of_zero_le (Int.emod_nonneg value positive.ne')
  have below : reduced < 2 ^ (32 * words) := by
    have cast := eq ▸ Int.emod_lt_of_pos value positive
    exact_mod_cast cast
  have reduces : pkaIntToWords value words = intWords words (value % 2 ^ (32 * words)) :=
    congrArg (intWords words)
      (Bezout.tmod_corrected (show 0 < pkaWordModulus words from positive) value)
  rw [reduces, eq, value_intWords, Nat.mod_eq_of_lt below, Int.toNat_natCast]

theorem value_pkaIntToWords_natCast (value words : Nat) :
    Words.value (pkaIntToWords value words) = value % 2 ^ (32 * words) := by
  rw [value_pkaIntToWords]
  norm_cast

theorem value_pkaIntToWords_of_lt {value words : Nat} (below : value < 2 ^ (32 * words)) :
    Words.value (pkaIntToWords value words) = value := by
  rw [value_pkaIntToWords_natCast, Nat.mod_eq_of_lt below]

theorem value_replicate_zero (words : Nat) :
    Words.value (List.replicate words (0 : BitVec 32)) = 0 := by
  rw [Words.value_eq_zero_iff]
  exact fun word member => List.eq_of_mem_replicate member

theorem pkaIsZero_eq (data : Operand) : pkaIsZero data = decide (Words.value data = 0) := by
  rw [pkaIsZero, Bool.eq_iff_iff, decide_eq_true_iff, Words.value_eq_zero_iff, List.all_eq_true]
  simp only [beq_iff_eq]

theorem value_addWordsFrom (carry : Nat) {lhs rhs : Operand} (same : lhs.length = rhs.length) :
    Words.value (addWordsFrom carry lhs rhs).1 +
        2 ^ (32 * lhs.length) * (addWordsFrom carry lhs rhs).2 =
      Words.value lhs + Words.value rhs + carry := by
  induction lhs generalizing rhs carry with
  | nil =>
      rw [List.eq_nil_of_length_eq_zero same.symm]
      simp [addWordsFrom]
  | cons left lhs inductionHypothesis =>
      cases rhs with
      | nil => cases same
      | cons right rhs =>
          have rest := inductionHypothesis ((left.toNat + right.toNat + carry) / 2 ^ 32)
            (Nat.succ.inj same)
          have split := Nat.div_add_mod (left.toNat + right.toNat + carry) (2 ^ 32)
          have low : (BitVec.ofNat 32 (left.toNat + right.toNat + carry)).toNat =
              (left.toNat + right.toNat + carry) % 2 ^ 32 := BitVec.toNat_ofNat _ _
          simp only [addWordsFrom, Words.value_cons, List.length_cons, Nat.mul_succ, low]
          rw [Nat.pow_add 2 (32 * lhs.length)]
          linear_combination 2 ^ 32 * rest + split

/-- The last carry is one when the sum of the numbers does not fit. -/
theorem pkaAddWords_value {words : Nat} {lhs rhs : Operand} (lhsSized : lhs.length = words)
    (rhsSized : rhs.length = words) :
    Words.value (pkaAddWords lhs rhs).1 =
        (Words.value lhs + Words.value rhs) % 2 ^ (32 * words) ∧
      (pkaAddWords lhs rhs).2 =
        decide (2 ^ (32 * words) ≤ Words.value lhs + Words.value rhs) := by
  have same := lhsSized.trans rhsSized.symm
  have sum := value_addWordsFrom 0 same
  have below := Words.value_lt (addWordsFrom 0 lhs rhs).1
  rw [length_addWordsFrom 0 same] at below
  rw [lhsSized, Nat.add_zero] at sum
  rw [lhsSized] at below
  constructor
  · rw [← sum, Nat.add_mul_mod_self_left, Nat.mod_eq_of_lt below]
    rfl
  · have positive := Nat.two_pow_pos (32 * words)
    change ((addWordsFrom 0 lhs rhs).2 != 0) = _
    rw [← sum, Bool.eq_iff_iff, bne_iff_ne, decide_eq_true_iff]
    cases (addWordsFrom 0 lhs rhs).2 with
    | zero => simpa using below
    | succ carry => simp [Nat.mul_succ]; omega

theorem value_subWordsFrom (borrow : Bool) {lhs rhs : Operand}
    (same : lhs.length = rhs.length) :
    (Words.value (subWordsFrom borrow lhs rhs).1 : Int) =
      Words.value lhs - Words.value rhs - borrow.toNat +
        2 ^ (32 * lhs.length) * (subWordsFrom borrow lhs rhs).2.toNat := by
  induction lhs generalizing rhs borrow with
  | nil =>
      rw [List.eq_nil_of_length_eq_zero same.symm]
      simp [subWordsFrom]
  | cons left lhs inductionHypothesis =>
      cases rhs with
      | nil => cases same
      | cons right rhs =>
          have rest := inductionHypothesis (decide (left.toNat < right.toNat + borrow.toNat))
            (Nat.succ.inj same)
          -- One word, with what it borrows from the next.
          have word : ((BitVec.ofInt 32 (left.toNat - (right.toNat + borrow.toNat : Nat))).toNat :
              Int) = left.toNat - right.toNat - borrow.toNat +
                2 ^ 32 * (decide (left.toNat < right.toNat + borrow.toNat)).toNat := by
            have leftSmall := left.isLt
            have rightSmall := right.isLt
            have borrowed := borrow.toNat_le
            rw [BitVec.toNat_ofInt]
            by_cases less : left.toNat < right.toNat + borrow.toNat
            · rw [decide_eq_true less]
              simp only [Bool.toNat_true]
              omega
            · rw [decide_eq_false less]
              simp only [Bool.toNat_false]
              omega
          simp only [subWordsFrom, Words.value_cons, List.length_cons, Nat.mul_succ]
          rw [pow_add 2 (32 * lhs.length)]
          push_cast at rest word ⊢
          linear_combination 2 ^ 32 * rest + word

theorem pkaSubWords_value {words : Nat} {lhs rhs : Operand} (lhsSized : lhs.length = words)
    (rhsSized : rhs.length = words) :
    Words.value (pkaSubWords lhs rhs).1 =
        ((Words.value lhs - Words.value rhs : Int) % 2 ^ (32 * words)).toNat ∧
      (pkaSubWords lhs rhs).2 = decide (Words.value lhs < Words.value rhs) := by
  have same := lhsSized.trans rhsSized.symm
  have difference := value_subWordsFrom false same
  have below := Words.value_lt (subWordsFrom false lhs rhs).1
  have lhsBelow := Words.value_lt lhs
  have rhsBelow := Words.value_lt rhs
  rw [length_subWordsFrom false same] at below
  rw [lhsSized] at difference below lhsBelow
  rw [rhsSized] at rhsBelow
  have bound : ((2 ^ (32 * words) : Nat) : Int) = 2 ^ (32 * words) := by push_cast; rfl
  constructor
  · have congruent : (Words.value lhs - Words.value rhs : Int) % 2 ^ (32 * words) =
        (Words.value (subWordsFrom false lhs rhs).1 : Int) % 2 ^ (32 * words) := by
      rw [difference, Int.add_mul_emod_self_left]
      simp
    rw [congruent, ← bound, ← Int.natCast_mod, Int.toNat_natCast, Nat.mod_eq_of_lt below]
    rfl
  · change (subWordsFrom false lhs rhs).2 = _
    cases borrowed : (subWordsFrom false lhs rhs).2 with
    | false =>
        rw [borrowed] at difference
        simp only [Bool.toNat_false, Nat.cast_zero, mul_zero, add_zero, sub_zero] at difference
        symm
        rw [decide_eq_false_iff_not]
        omega
    | true =>
        rw [borrowed, ← bound] at difference
        simp only [Bool.toNat_true, Bool.toNat_false, Nat.cast_zero, Nat.cast_one, mul_one,
          sub_zero] at difference
        symm
        rw [decide_eq_true_iff]
        omega

theorem value_replicate_ones (words : Nat) :
    Words.value (pkaIntToWords (pkaWordMask words) words) = 2 ^ (32 * words) - 1 := by
  have positive := Nat.two_pow_pos (32 * words)
  have mask : pkaWordMask words = ((2 ^ (32 * words) - 1 : Nat) : Int) := by
    rw [Nat.cast_sub positive]
    simp [pkaWordMask, pkaWordModulus]
  rw [mask, value_pkaIntToWords_of_lt (by omega)]

/-- The bits shifted in from the right. -/
theorem shiftLeft_or_ones (number amount : Nat) :
    number <<< amount ||| 2 ^ amount - 1 = number * 2 ^ amount + (2 ^ amount - 1) := by
  have positive := Nat.two_pow_pos amount
  rw [Nat.shiftLeft_eq, Nat.mul_comm, ← Nat.two_pow_add_eq_or_of_lt (by omega)]

/-- The bits shifted in from the left. -/
theorem shiftRight_or_ones {number amount width : Nat} (below : number < 2 ^ width)
    (inside : amount ≤ width) :
    number >>> amount ||| (2 ^ amount - 1) <<< (width - amount) =
      (number + (2 ^ amount - 1) * 2 ^ width) / 2 ^ amount := by
  have width_eq : 2 ^ width = 2 ^ (width - amount) * 2 ^ amount := by
    rw [← Nat.pow_add, Nat.sub_add_cancel inside]
  have low : number / 2 ^ amount < 2 ^ (width - amount) :=
    Nat.div_lt_of_lt_mul (by rwa [Nat.mul_comm, ← width_eq])
  rw [width_eq, ← Nat.mul_assoc, Nat.add_mul_div_right _ _ (Nat.two_pow_pos amount),
    Nat.shiftRight_eq_div_pow, Nat.shiftLeft_eq, Nat.mul_comm _ (2 ^ (width - amount)),
    Nat.lor_comm, ← Nat.two_pow_add_eq_or_of_lt low, Nat.add_comm]

/-- The number that a shift gives, without the operand size. -/
def shifted (width number amount : Nat) (left fillOne : Bool) : Nat :=
  match left, fillOne with
  | true, true => number * 2 ^ amount + (2 ^ amount - 1)
  | true, false => number * 2 ^ amount
  | false, true => (number + (2 ^ amount - 1) * 2 ^ width) / 2 ^ amount
  | false, false => number / 2 ^ amount

/-- A shift by the width of the operand or more leaves only the bits shifted in. -/
theorem shifted_of_width_le {width number amount : Nat} (below : number < 2 ^ width)
    (outside : width ≤ amount) (left fillOne : Bool) :
    shifted width number amount left fillOne % 2 ^ width =
      if fillOne then 2 ^ width - 1 else 0 := by
  have positive := Nat.two_pow_pos width
  obtain ⟨more, rfl⟩ := Nat.exists_eq_add_of_le outside
  have split : 2 ^ (width + more) = 2 ^ width * 2 ^ more := Nat.pow_add 2 width more
  have moves := Nat.two_pow_pos more
  cases left <;> cases fillOne
  case false.false =>
    have gone : number < 2 ^ (width + more) :=
      below.trans_le (Nat.pow_le_pow_right (by decide) outside)
    simp [shifted, Nat.div_eq_of_lt gone]
  case true.false =>
    rw [shifted, split, Nat.mul_left_comm, Nat.mul_mod_right]
    rfl
  case true.true =>
    have ones : number * 2 ^ (width + more) + (2 ^ (width + more) - 1) =
        2 ^ width * (number * 2 ^ more + (2 ^ more - 1)) + (2 ^ width - 1) := by
      rw [split]
      zify [Nat.mul_pos positive moves, positive, moves,
        show 1 ≤ 2 ^ width * 2 ^ more from Nat.mul_pos positive moves,
        show 1 ≤ 2 ^ width from positive, show 1 ≤ 2 ^ more from moves]
      ring
    rw [shifted, ones, Nat.mul_add_mod, Nat.mod_eq_of_lt (by omega)]
    rfl
  case false.true =>
    -- The number is less than what is missing from a whole multiple.
    have ones : (number + (2 ^ (width + more) - 1) * 2 ^ width) / 2 ^ (width + more) =
        2 ^ width - 1 := by
      rw [Nat.div_eq_iff (Nat.two_pow_pos _)]
      have large : 2 ^ width ≤ 2 ^ (width + more) :=
        Nat.pow_le_pow_right (by decide) outside
      have product : (2 ^ (width + more) - 1) * 2 ^ width + 2 ^ width =
          2 ^ (width + more) * 2 ^ width := by
        rw [← Nat.succ_mul]
        congr 1
        omega
      have multiple : (2 ^ width - 1) * 2 ^ (width + more) + 2 ^ (width + more) =
          2 ^ (width + more) * 2 ^ width := by
        rw [← Nat.succ_mul, Nat.mul_comm]
        congr 1
        omega
      omega
    rw [shifted, ones, Nat.mod_eq_of_lt (by omega)]
    rfl

theorem value_pkaShiftWords {words : Nat} {lhs : Operand} (sized : lhs.length = words)
    {amount : Nat} (moves : amount ≠ 0) (left fillOne : Bool) :
    Words.value (pkaShiftWords lhs amount left fillOne) =
      shifted (32 * words) (Words.value lhs) amount left fillOne % 2 ^ (32 * words) := by
  have below := Words.value_lt lhs
  rw [sized] at below
  simp only [pkaShiftWords, sized, moves, or_false, Nat.mul_comm words, pkaWordsToInt_eq,
    Int.toNat_natCast]
  split_ifs with none outside fills toLeft fills fills
  · subst none
    rw [List.eq_nil_of_length_eq_zero sized]
    simp [Nat.mod_one]
  · rw [value_replicate_ones, shifted_of_width_le below outside, if_pos fills]
  · rw [value_replicate_zero, shifted_of_width_le below outside, if_neg fills]
  · rw [value_pkaIntToWords_natCast, shiftLeft_or_ones, toLeft, fills, shifted]
  · rw [value_pkaIntToWords_natCast, Nat.shiftLeft_eq, toLeft, Bool.eq_false_of_not_eq_true fills,
      shifted]
  · rw [value_pkaIntToWords_natCast, shiftRight_or_ones below (by omega),
      Bool.eq_false_of_not_eq_true toLeft, fills, shifted]
  · rw [value_pkaIntToWords_natCast, Nat.shiftRight_eq_div_pow,
      Bool.eq_false_of_not_eq_true toLeft, Bool.eq_false_of_not_eq_true fills, shifted]

theorem pkaPositiveMod_of_pos {modulus : Int} (positive : 0 < modulus) (value : Int) :
    pkaPositiveMod value modulus = value % modulus := by
  rw [pkaPositiveMod, if_neg (not_le.mpr positive)]
  exact Bezout.tmod_corrected positive value

theorem pkaPositiveMod_natCast {modulus : Nat} (positive : 0 < modulus) (value : Nat) :
    pkaPositiveMod value modulus = ((value % modulus : Nat) : Int) := by
  rw [pkaPositiveMod_of_pos (by exact_mod_cast positive), Int.natCast_mod]

/-- The loop multiplies the result by the power that is left. -/
theorem powModLoop_eq {modulus : Nat} (base exponent result : Nat) (reduced : result < modulus) :
    powModLoop modulus base exponent result =
      ((result * base ^ exponent % modulus : Nat) : Int) := by
  induction exponent using Nat.strong_induction_on generalizing base result with
  | _ exponent inductionHypothesis =>
      have positive : 0 < modulus := Nat.zero_lt_of_lt reduced
      have halved : (exponent : Int) / 2 = ((exponent / 2 : Nat) : Int) := by push_cast; rfl
      have parity : ((exponent : Int) % 2 ≠ 0) ↔ exponent % 2 ≠ 0 := by omega
      have square : ((base : Int) * base).tmod modulus = ((base * base % modulus : Nat) : Int) := by
        rw [← Nat.cast_mul, Int.tmod_eq_emod_of_nonneg (by positivity), Int.natCast_mod]
      have product :
          ((result : Int) * base).tmod modulus = ((result * base % modulus : Nat) : Int) := by
        rw [← Nat.cast_mul, Int.tmod_eq_emod_of_nonneg (by positivity), Int.natCast_mod]
      rw [powModLoop]
      rcases Nat.eq_zero_or_pos exponent with rfl | more
      · simp [Nat.mod_eq_of_lt reduced]
      · have smaller : exponent / 2 < exponent := by omega
        rw [if_pos (by exact_mod_cast more), halved, square]
        by_cases odd : exponent % 2 ≠ 0
        · have split : exponent = 2 * (exponent / 2) + 1 := by omega
          rw [if_pos (parity.mpr odd), product,
            inductionHypothesis _ smaller _ _ (Nat.mod_lt _ positive)]
          congr 1
          calc result * base % modulus * (base * base % modulus) ^ (exponent / 2) % modulus
              = result * base * (base * base) ^ (exponent / 2) % modulus :=
                (Nat.mod_modEq _ _).mul ((Nat.mod_modEq _ _).pow _)
            _ = result * base ^ exponent % modulus := by
                conv_rhs => rw [split, Nat.pow_succ, Nat.pow_mul, Nat.pow_two]
                congr 1
                ring
        · have split : exponent = 2 * (exponent / 2) := by omega
          rw [if_neg (mt parity.mp odd), inductionHypothesis _ smaller _ _ reduced]
          congr 1
          calc result * (base * base % modulus) ^ (exponent / 2) % modulus
              = result * (base * base) ^ (exponent / 2) % modulus :=
                (Nat.ModEq.refl _).mul ((Nat.mod_modEq _ _).pow _)
            _ = result * base ^ exponent % modulus := by
                conv_rhs => rw [split, Nat.pow_mul, Nat.pow_two]

theorem pkaPowMod_natCast {modulus : Nat} (positive : 0 < modulus) (base exponent : Nat) :
    pkaPowMod base exponent modulus = ((base ^ exponent % modulus : Nat) : Int) := by
  have one : Int.tmod 1 modulus = ((1 % modulus : Nat) : Int) := by
    rw [Int.tmod_eq_emod_of_nonneg (by decide), Int.natCast_mod, Nat.cast_one]
  rw [pkaPowMod, if_neg (by omega), pkaPositiveMod_natCast positive, one,
    powModLoop_eq _ _ _ (Nat.mod_lt _ positive)]
  congr 1
  calc 1 % modulus * (base % modulus) ^ exponent % modulus
      = 1 * base ^ exponent % modulus := (Nat.mod_modEq _ _).mul ((Nat.mod_modEq _ _).pow _)
    _ = base ^ exponent % modulus := by rw [Nat.one_mul]

/-- The loop ends with a factor that gives the greatest common divisor from the value. -/
theorem modInverseLoop_invariant {value modulus t newT r newR : Int}
    (invariant : Bezout.Invariant value modulus t newT r newR) :
    ∃ lastT, Bezout.Invariant value modulus (modInverseLoop t newT r newR).1 lastT
      (modInverseLoop t newT r newR).2 0 := by
  fun_induction modInverseLoop t newT r newR with
  | case1 t newT r => exact ⟨newT, invariant⟩
  | case2 t newT r newR more quotient inductionHypothesis =>
      exact inductionHypothesis (invariant.next more)

/-- A residue that gives one is the inverse. -/
theorem val_inv_of_congruent {modulus value : Nat} {factor : Int} (proper : 1 < modulus)
    (congruent : factor * value ≡ 1 [ZMOD modulus]) :
    (((value : ZMod modulus)⁻¹).val : Int) = factor % modulus := by
  have : NeZero modulus := ⟨by omega⟩
  have product : (factor : ZMod modulus) * (value : ZMod modulus) = 1 := by
    have cast := (ZMod.intCast_eq_intCast_iff _ _ _).mpr congruent
    simpa using cast
  have inverse : (value : ZMod modulus)⁻¹ = (factor : ZMod modulus) :=
    ZMod.inv_eq_of_mul_eq_one _ _ _ (by rw [mul_comm]; exact product)
  rw [inverse, ZMod.val_intCast]

theorem pkaModInverse_natCast (value modulus : Nat) :
    pkaModInverse value modulus =
      if 1 < modulus ∧ Nat.Coprime value modulus then
        ((((value : ZMod modulus)⁻¹).val : Int), true)
      else (0, false) := by
  unfold pkaModInverse
  by_cases proper : 1 < modulus
  · have positive : 0 < modulus := by omega
    rw [if_neg (by omega), pkaPositiveMod_natCast positive]
    have starts : Bezout.Invariant ((value % modulus : Nat) : Int) modulus 0 1 modulus
        ((value % modulus : Nat) : Int) :=
      .start (by positivity) (by exact_mod_cast Nat.mod_lt value positive)
    obtain ⟨lastT, ends⟩ := modInverseLoop_invariant starts
    generalize modInverseLoop 0 1 modulus ((value % modulus : Nat) : Int) = final at ends
    obtain ⟨t, r⟩ := final
    have last : Bezout.Invariant ((value % modulus : Nat) : Int) modulus t lastT r 0 := ends
    have divisor : r = Nat.gcd value modulus := by
      rw [last.divisor_eq, Int.gcd_natCast_natCast, Nat.gcd_comm, ← Nat.gcd_rec, Nat.gcd_comm]
    by_cases coprime : Nat.Coprime value modulus
    · obtain rfl : r = 1 := by rw [divisor, coprime.gcd_eq_one, Nat.cast_one]
      have congruent : t * value ≡ 1 [ZMOD modulus] :=
        ((Int.ModEq.refl t).mul (by exact_mod_cast (Nat.mod_modEq value modulus).symm)).trans
          last.congruent
      have small := abs_lt.mp (last.abs_lt (by exact_mod_cast proper))
      have corrected : (if t < 0 then t + modulus else t) = t % modulus := by
        split_ifs with negative
        · rw [← Int.add_emod_right, Int.emod_eq_of_lt (by omega) (by omega)]
        · rw [Int.emod_eq_of_lt (by omega) small.2]
      rw [if_pos ⟨proper, coprime⟩, val_inv_of_congruent proper congruent, ← corrected]
      rfl
    · have other : r ≠ 1 := by
        rw [divisor]
        exact_mod_cast coprime
      rw [if_neg (fun both => coprime both.2)]
      exact if_pos other
  · rw [if_pos (by omega), if_neg (fun both => proper both.1)]

/-- An outcome represents the numbers that an operation means. -/
structure PkaOutcome.Represents (outcome : PkaOutcome) (meaning : PkaMeaning) : Prop where
  result : Words.value outcome.result = meaning.result
  storedBack : outcome.storedBack.map Words.value = meaning.remainder
  carry : outcome.carry = meaning.carry
  sign : outcome.sign = meaning.sign
  divByZero : outcome.divByZero = meaning.divByZero

theorem represents_sum {words : Nat} {lhs rhs : Operand} (lhsSized : lhs.length = words)
    (rhsSized : rhs.length = words) :
    PkaOutcome.Represents { result := (pkaAddWords lhs rhs).1, carry := (pkaAddWords lhs rhs).2 }
      (.sum words (Words.value lhs) (Words.value rhs)) := by
  obtain ⟨result, carry⟩ := pkaAddWords_value lhsSized rhsSized
  exact ⟨result, rfl, carry, rfl, rfl⟩

theorem represents_difference {words : Nat} {lhs rhs : Operand} (lhsSized : lhs.length = words)
    (rhsSized : rhs.length = words) :
    PkaOutcome.Represents
      { result := (pkaSubWords lhs rhs).1
        carry := (pkaSubWords lhs rhs).2
        sign := (pkaSubWords lhs rhs).2 }
      (.difference words (Words.value lhs) (Words.value rhs)) := by
  obtain ⟨result, borrow⟩ := pkaSubWords_value lhsSized rhsSized
  exact ⟨result, rfl, borrow, borrow, rfl⟩

/-- A modular operation whose number is computed as a residue. -/
theorem represents_modular {words modulus : Nat} (bounded : modulus ≤ 2 ^ (32 * words))
    {computed : Int} {number : Nat} (zero : modulus = 0 → computed = 0)
    (reduced : 0 < modulus → computed = ((number % modulus : Nat) : Int)) :
    PkaOutcome.Represents
      { result := pkaIntToWords computed words, divByZero := (modulus : Int) ≤ 0 }
      (.modular modulus number) := by
  unfold PkaMeaning.modular
  rcases Nat.eq_zero_or_pos modulus with rfl | positive
  · rw [zero rfl, if_pos rfl]
    refine ⟨?_, rfl, rfl, rfl, rfl⟩
    exact_mod_cast value_pkaIntToWords_of_lt (Nat.two_pow_pos (32 * words))
  · rw [reduced positive, if_neg positive.ne']
    refine ⟨?_, rfl, rfl, rfl, by simpa using positive.ne'⟩
    exact value_pkaIntToWords_of_lt ((Nat.mod_lt _ positive).trans_le bounded)

/-- Every operation represents what it means. -/
theorem PkaOperation.represents_compute (operation : PkaOperation) (rhsId : BitVec 32)
    {words modulus : Nat} (bounded : modulus ≤ 2 ^ (32 * words)) {lhs rhs : Operand}
    (lhsSized : lhs.length = words) (rhsSized : rhs.length = words) :
    (operation.compute rhsId words modulus lhs rhs).Represents
      (operation.meaning (rhsId.toNat + 1) words modulus (Words.value lhs) (Words.value rhs)) := by
  have same := lhsSized.trans rhsSized.symm
  have lhsBelow := Words.value_lt lhs
  have rhsBelow := Words.value_lt rhs
  rw [lhsSized] at lhsBelow
  rw [rhsSized] at rhsBelow
  have moves : rhsId.toNat + 1 ≠ 0 := Nat.succ_ne_zero _
  have word : pkaWordModulus words = ((2 ^ (32 * words) : Nat) : Int) := by
    simp [pkaWordModulus]
  cases operation
  case addInc => exact represents_sum lhsSized rhsSized
  case subDecNeg => exact represents_difference lhsSized rhsSized
  case modAddModInc =>
    simp only [compute, meaning, pkaWordsToInt_eq]
    rcases Nat.eq_zero_or_pos modulus with rfl | positive
    · exact represents_sum lhsSized rhsSized
    · rw [if_pos (by exact_mod_cast positive), if_neg positive.ne', ← Nat.cast_add,
        pkaPositiveMod_natCast positive]
      refine ⟨?_, rfl, ?_, rfl, rfl⟩
      · exact value_pkaIntToWords_of_lt ((Nat.mod_lt _ positive).trans_le bounded)
      · exact decide_eq_decide.mpr Nat.cast_le
  case modSubModDecModNeg =>
    simp only [compute, meaning, pkaWordsToInt_eq]
    rcases Nat.eq_zero_or_pos modulus with rfl | positive
    · exact represents_difference lhsSized rhsSized
    · have some : (0 : Int) < modulus := by exact_mod_cast positive
      obtain ⟨residue, eq⟩ := Int.eq_ofNat_of_zero_le
        (Int.emod_nonneg (Words.value lhs - Words.value rhs : Int) some.ne')
      have below : residue < modulus := by
        have cast := eq ▸ Int.emod_lt_of_pos (Words.value lhs - Words.value rhs : Int) some
        exact_mod_cast cast
      rw [if_pos some, if_neg positive.ne', pkaPositiveMod_of_pos some, eq, Int.toNat_natCast]
      refine ⟨?_, rfl, ?_, ?_, rfl⟩
      · exact value_pkaIntToWords_of_lt (below.trans_le bounded)
      · exact decide_eq_decide.mpr Nat.cast_lt
      · exact decide_eq_decide.mpr Nat.cast_lt
  case andTst0Clr0 => exact ⟨Words.value_and same, rfl, rfl, rfl, rfl⟩
  case orCopySet0 => exact ⟨Words.value_or same, rfl, rfl, rfl, rfl⟩
  case xorFlip0InvertCompare => exact ⟨Words.value_xor same, rfl, rfl, rfl, rfl⟩
  case shr0 =>
    refine ⟨(value_pkaShiftWords lhsSized moves false false).trans ?_, rfl, rfl, rfl, rfl⟩
    exact Nat.mod_eq_of_lt ((Nat.div_le_self _ _).trans_lt lhsBelow)
  case shr1 => exact ⟨value_pkaShiftWords lhsSized moves false true, rfl, rfl, rfl, rfl⟩
  case shl0 => exact ⟨value_pkaShiftWords lhsSized moves true false, rfl, rfl, rfl, rfl⟩
  case shl1 => exact ⟨value_pkaShiftWords lhsSized moves true true, rfl, rfl, rfl, rfl⟩
  case mulLow =>
    simp only [compute, meaning, pkaWordsToInt_eq, word]
    rw [← Nat.cast_mul, ← Int.natCast_div]
    refine ⟨value_pkaIntToWords_natCast _ _, rfl, ?_, rfl, rfl⟩
    rw [Bool.eq_iff_iff, decide_eq_true_iff, decide_eq_true_iff]
    norm_cast
    rw [Nat.div_eq_zero_iff]
    have positive := Nat.two_pow_pos (32 * words)
    omega
  case mulHigh =>
    simp only [compute, meaning, pkaWordsToInt_eq, word]
    rw [← Nat.cast_mul, ← Int.natCast_div]
    refine ⟨value_pkaIntToWords_of_lt ?_, rfl, rfl, rfl, rfl⟩
    exact Nat.div_lt_of_lt_mul (Nat.mul_lt_mul'' lhsBelow rhsBelow)
  case div =>
    simp only [compute, meaning, pkaWordsToInt_eq]
    by_cases zero : Words.value rhs = 0
    · rw [if_pos (by exact_mod_cast zero), if_pos zero]
      exact ⟨value_replicate_zero words, rfl, rfl, rfl, rfl⟩
    · rw [if_neg (by exact_mod_cast zero), if_neg zero, ← Int.ofNat_tdiv, ← Int.ofNat_tmod]
      refine ⟨?_, congrArg some ?_, rfl, rfl, rfl⟩
      · exact value_pkaIntToWords_of_lt ((Nat.div_le_self _ _).trans_lt lhsBelow)
      · exact value_pkaIntToWords_of_lt ((Nat.mod_le _ _).trans_lt lhsBelow)
  case modMul =>
    simp only [compute, meaning, pkaWordsToInt_eq]
    rw [← Nat.cast_mul]
    exact represents_modular bounded (fun none => by simp [none, pkaPositiveMod])
      (fun positive => pkaPositiveMod_natCast positive _)
  case modExp =>
    simp only [compute, meaning, pkaWordsToInt_eq]
    exact represents_modular bounded (fun none => by simp [none, pkaPowMod])
      (fun positive => pkaPowMod_natCast positive _ _)
  case modInv =>
    simp only [compute, meaning, pkaWordsToInt_eq, pkaModInverse_natCast]
    split_ifs with invertible
    · have : NeZero modulus := ⟨by omega⟩
      refine ⟨?_, rfl, rfl, rfl, rfl⟩
      exact value_pkaIntToWords_of_lt ((ZMod.val_lt _).trans_le bounded)
    · refine ⟨?_, rfl, rfl, rfl, rfl⟩
      exact_mod_cast value_pkaIntToWords_of_lt (Nat.two_pow_pos (32 * words))
  case reduction =>
    simp only [compute, meaning, pkaWordsToInt_eq]
    exact represents_modular bounded (fun none => by simp [none, pkaPositiveMod])
      (fun positive => pkaPositiveMod_natCast positive _)

end QboxPlatform.Cc3xx
