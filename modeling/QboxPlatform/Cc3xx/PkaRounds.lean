import QboxPlatform.Cc3xx.PkaMeaning
import QboxPlatform.Foundation.Loop

/-!
# The loops of the modular operations

`pka_mod_inverse` and `pka_pow_mod` run loops over unbounded integers.  Each loop is left after
finitely many rounds, and the operation returns what the variables then hold: the inverse, or
that there is none, and the power.
-/

namespace QboxPlatform.Cc3xx

open Foundation

/-! ### The rounds of the extended Euclidean algorithm -/

/-- The variables of `pka_mod_inverse`. -/
structure InverseRound where
  t : Int
  newT : Int
  r : Int
  newR : Int

namespace InverseRound

def first (value modulus : Int) : InverseRound where
  t := 0
  newT := 1
  r := modulus
  newR := pkaPositiveMod value modulus

/-- The condition of the loop. -/
def more (round : InverseRound) : Prop := round.newR ≠ 0

/-- The body of the loop. -/
def next (round : InverseRound) : InverseRound :=
  let quotient := round.r.tdiv round.newR
  { t := round.newT
    newT := round.t - quotient * round.newT
    r := round.newR
    newR := round.r - quotient * round.newR }

/-- What is returned after the loop, and whether it is an inverse. -/
def outcome (modulus : Int) (round : InverseRound) : Int × Bool :=
  if round.r ≠ 1 then (0, false)
  else (if round.t < 0 then round.t + modulus else round.t, true)

theorem newR_next_lt (round : InverseRound) (more : round.more) :
    round.next.newR.natAbs < round.newR.natAbs := by
  have remainder : round.next.newR = round.r.tmod round.newR := by
    have split := Int.tmod_add_tdiv_mul round.r round.newR
    simp only [next]
    linarith
  rw [remainder, Int.natAbs_tmod]
  exact Nat.mod_lt _ (Int.natAbs_pos.mpr more)

theorem exits (value modulus : Int) :
    ∃ rounds final, rounds ≤ (pkaPositiveMod value modulus).natAbs ∧
      Exits more next (first value modulus) rounds final :=
  exits_of_measure (fun round => round.newR.natAbs) newR_next_lt (first value modulus)

theorem modInverseLoop_next (round : InverseRound) (more : round.more) :
    modInverseLoop round.t round.newT round.r round.newR =
      modInverseLoop round.next.t round.next.newT round.next.r round.next.newR := by
  rw [modInverseLoop, if_neg more]
  rfl

theorem pkaModInverse_eq {value modulus : Int} {rounds : Nat} {final : InverseRound}
    (proper : 1 < modulus) (exits : Exits more next (first value modulus) rounds final) :
    pkaModInverse value modulus = final.outcome modulus := by
  have loop : modInverseLoop 0 1 modulus (pkaPositiveMod value modulus) = (final.t, final.r) := by
    have last : final.newR = 0 := not_not.mp exits.stops
    apply (exits.value_eq modInverseLoop_next).trans
    rw [modInverseLoop, if_pos last]
  rw [pkaModInverse, if_neg (not_le.mpr proper), loop]
  rfl

end InverseRound

/-! ### The rounds of square-and-multiply -/

/-- The variables of `pka_pow_mod`. -/
structure PowerRound where
  result : Int
  base : Int
  exponent : Int

namespace PowerRound

def first (base exponent modulus : Int) : PowerRound where
  result := Int.tmod 1 modulus
  base := pkaPositiveMod base modulus
  exponent := exponent

/-- The condition of the loop. -/
def more (round : PowerRound) : Prop := 0 < round.exponent

/-- The body of the loop. -/
def next (modulus : Int) (round : PowerRound) : PowerRound where
  result :=
    if round.exponent % 2 ≠ 0 then (round.result * round.base).tmod modulus else round.result
  base := (round.base * round.base).tmod modulus
  exponent := round.exponent / 2

theorem exponent_next_lt (modulus : Int) (round : PowerRound) (more : round.more) :
    (round.next modulus).exponent.toNat < round.exponent.toNat := by
  have positive : 0 < round.exponent := more
  have halved : (round.next modulus).exponent = round.exponent / 2 := rfl
  omega

theorem exits (base exponent modulus : Int) :
    ∃ rounds final, rounds ≤ exponent.toNat ∧
      Exits more (next modulus) (first base exponent modulus) rounds final :=
  exits_of_measure (fun round => round.exponent.toNat) (exponent_next_lt modulus)
    (first base exponent modulus)

theorem powModLoop_next (modulus : Int) (round : PowerRound) (more : round.more) :
    powModLoop modulus round.base round.exponent round.result =
      powModLoop modulus (round.next modulus).base (round.next modulus).exponent
        (round.next modulus).result := by
  have positive : 0 < round.exponent := more
  rw [powModLoop, if_pos positive]
  rfl

theorem pkaPowMod_eq {base exponent modulus : Int} {rounds : Nat} {final : PowerRound}
    (positive : 0 < modulus)
    (exits : Exits more (next modulus) (first base exponent modulus) rounds final) :
    pkaPowMod base exponent modulus = final.result := by
  have unrolled := exits.value_eq (powModLoop_next modulus)
  have last : ¬ 0 < final.exponent := exits.stops
  rw [pkaPowMod, if_neg (not_le.mpr positive)]
  apply unrolled.trans
  rw [powModLoop, if_neg last]

end PowerRound

/-! ### What is returned -/

theorem pkaModInverse_emod {modulus : Int} (positive : 0 < modulus) (value : Int) :
    pkaModInverse (value % modulus) modulus = pkaModInverse value modulus := by
  simp only [pkaModInverse, pkaPositiveMod_of_pos positive, Int.emod_emod]

theorem pkaPowMod_emod {modulus : Int} (positive : 0 < modulus) (base exponent : Int) :
    pkaPowMod (base % modulus) exponent modulus = pkaPowMod base exponent modulus := by
  simp only [pkaPowMod, pkaPositiveMod_of_pos positive, Int.emod_emod]

theorem gcd_emod (value modulus : Int) :
    Int.gcd (value % modulus) modulus = Int.gcd value modulus := by
  rw [Int.emod_def, Int.gcd_sub_mul_left_left]

theorem pkaModInverse_ok_iff {value modulus : Int} (proper : 1 < modulus) :
    (pkaModInverse value modulus).2 = true ↔ Int.gcd value modulus = 1 := by
  have positive : 0 < modulus := one_pos.trans proper
  obtain ⟨width, rfl⟩ := Int.eq_ofNat_of_zero_le positive.le
  obtain ⟨residue, eq⟩ :=
    Int.eq_ofNat_of_zero_le (Int.emod_nonneg value positive.ne')
  have wide : 1 < width := by exact_mod_cast proper
  rw [← pkaModInverse_emod positive, ← gcd_emod, eq, pkaModInverse_natCast,
    Int.gcd_natCast_natCast]
  by_cases coprime : Nat.Coprime residue width
  · rw [if_pos ⟨wide, coprime⟩]
    exact ⟨fun _ => coprime, fun _ => rfl⟩
  · rw [if_neg (fun both => coprime both.2)]
    exact ⟨fun ok => by simp at ok, fun unit => absurd unit coprime⟩

theorem pkaModInverse_inverts {value modulus : Int} (proper : 1 < modulus)
    (ok : (pkaModInverse value modulus).2 = true) :
    0 ≤ (pkaModInverse value modulus).1 ∧ (pkaModInverse value modulus).1 < modulus ∧
      value * (pkaModInverse value modulus).1 ≡ 1 [ZMOD modulus] := by
  have unit := (pkaModInverse_ok_iff proper).mp ok
  have positive : 0 < modulus := one_pos.trans proper
  obtain ⟨width, rfl⟩ := Int.eq_ofNat_of_zero_le positive.le
  obtain ⟨residue, eq⟩ :=
    Int.eq_ofNat_of_zero_le (Int.emod_nonneg value positive.ne')
  have wide : 1 < width := by exact_mod_cast proper
  have : NeZero width := ⟨by omega⟩
  have coprime : Nat.Coprime residue width := by
    rwa [← gcd_emod, eq, Int.gcd_natCast_natCast] at unit
  have returned : (pkaModInverse value width).1 = (((residue : ZMod width)⁻¹).val : Int) := by
    rw [← pkaModInverse_emod positive, eq, pkaModInverse_natCast, if_pos ⟨wide, coprime⟩]
  have cast : (value : ZMod width) = (residue : ZMod width) := by
    rw [← ZMod.intCast_mod value width, eq, Int.cast_natCast]
  rw [returned]
  refine ⟨by positivity, by exact_mod_cast ZMod.val_lt _, ?_⟩
  apply (ZMod.intCast_eq_intCast_iff _ _ _).mp
  push_cast
  rw [cast, ZMod.natCast_val, ZMod.cast_id', id_eq, ZMod.coe_mul_inv_eq_one _ coprime]

theorem pkaPowMod_power {base exponent modulus : Int} (counts : 0 ≤ exponent)
    (positive : 0 < modulus) :
    pkaPowMod base exponent modulus = base ^ exponent.toNat % modulus := by
  obtain ⟨width, rfl⟩ := Int.eq_ofNat_of_zero_le positive.le
  obtain ⟨power, rfl⟩ := Int.eq_ofNat_of_zero_le counts
  obtain ⟨residue, eq⟩ :=
    Int.eq_ofNat_of_zero_le (Int.emod_nonneg base positive.ne')
  have same : base ≡ residue [ZMOD width] := by
    rw [← eq]
    exact (Int.mod_modEq base width).symm
  rw [← pkaPowMod_emod positive, eq, pkaPowMod_natCast (by exact_mod_cast positive),
    Int.toNat_natCast]
  push_cast
  exact (same.pow power).symm

/-- Both loops end.  The inverse is reported exactly when the value and the modulus have no divisor
in common, and is then the residue that inverts the value; the power is the power's residue. -/
theorem modular_loops_correct :
    (∀ value modulus : Int, 1 < modulus →
      (∃ rounds final,
        Exits InverseRound.more InverseRound.next (.first value modulus) rounds final ∧
          pkaModInverse value modulus = final.outcome modulus) ∧
      ((pkaModInverse value modulus).2 = true ↔ Int.gcd value modulus = 1) ∧
      ((pkaModInverse value modulus).2 = true →
        0 ≤ (pkaModInverse value modulus).1 ∧ (pkaModInverse value modulus).1 < modulus ∧
          value * (pkaModInverse value modulus).1 ≡ 1 [ZMOD modulus])) ∧
    (∀ base exponent modulus : Int, 0 ≤ exponent → 0 < modulus →
      (∃ rounds final,
        Exits PowerRound.more (PowerRound.next modulus) (.first base exponent modulus) rounds
            final ∧
          pkaPowMod base exponent modulus = final.result) ∧
      pkaPowMod base exponent modulus = base ^ exponent.toNat % modulus) := by
  constructor
  · intro value modulus proper
    obtain ⟨rounds, final, -, exits⟩ := InverseRound.exits value modulus
    exact ⟨⟨rounds, final, exits, InverseRound.pkaModInverse_eq proper exits⟩,
      pkaModInverse_ok_iff proper, pkaModInverse_inverts proper⟩
  · intro base exponent modulus counts positive
    obtain ⟨rounds, final, -, exits⟩ := PowerRound.exits base exponent modulus
    exact ⟨⟨rounds, final, exits, PowerRound.pkaPowMod_eq positive exits⟩,
      pkaPowMod_power counts positive⟩

theorem modular_loops_correct_sample :
    3 * (pkaModInverse 3 7).1 ≡ 1 [ZMOD 7] ∧ pkaPowMod (-2) 5 1000 = 968 :=
  ⟨((modular_loops_correct.1 3 7 (by decide)).2.2
      ((modular_loops_correct.1 3 7 (by decide)).2.1.mpr (by decide))).2.2,
    (modular_loops_correct.2 (-2) 5 1000 (by decide) (by decide)).2⟩

end QboxPlatform.Cc3xx
