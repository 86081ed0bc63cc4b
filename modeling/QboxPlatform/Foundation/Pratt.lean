import Mathlib

/-!
# Certified primes

Lucas's test proves a number prime from a primitive root and the prime factors of its
predecessor.  A chain of such certificates is checked by computation, each entry with the
primes that are known before it.
-/

namespace Foundation.Pratt

/-- The loop of a modular power; the exponent is used up from its lowest bit. -/
def powLoop (modulus : Nat) : Nat → Nat → Nat → Nat → Nat
  | 0, _, result, _ => result
  | rounds + 1, exponent, result, base =>
      powLoop modulus rounds (exponent / 2)
        (if exponent % 2 = 1 then result * base % modulus else result) (base * base % modulus)

theorem powLoop_cast {modulus rounds exponent : Nat} (result base : Nat)
    (fits : exponent < 2 ^ rounds) :
    (powLoop modulus rounds exponent result base : ZMod modulus) = result * base ^ exponent := by
  induction rounds generalizing exponent result base with
  | zero =>
      obtain rfl : exponent = 0 := by simpa using fits
      simp [powLoop]
  | succ rounds inductionHypothesis =>
      have halved : exponent / 2 < 2 ^ rounds := by
        rw [pow_succ] at fits
        omega
      have square (value : ZMod modulus) :
          (value * value) ^ (exponent / 2) = value ^ (2 * (exponent / 2)) := by
        rw [← pow_two, pow_mul]
      rw [powLoop, inductionHypothesis _ _ halved, ZMod.natCast_mod, Nat.cast_mul, square]
      have parts := Nat.div_add_mod exponent 2
      split_ifs with odd
      · rw [ZMod.natCast_mod, Nat.cast_mul, mul_assoc, ← pow_succ', ← odd, parts]
      · have even : exponent % 2 = 0 := by omega
        rw [even, add_zero] at parts
        rw [parts]

/-- A power modulo a number that, like its exponents, is below `2 ^ 256`. -/
def powMod (modulus base exponent : Nat) : Nat :=
  powLoop modulus 256 exponent 1 base

theorem powMod_cast {modulus exponent : Nat} (base : Nat) (fits : exponent < 2 ^ 256) :
    (powMod modulus base exponent : ZMod modulus) = base ^ exponent := by
  rw [powMod, powLoop_cast 1 base fits, Nat.cast_one, one_mul]

/-- A primitive root and the prime factors of the predecessor, with their multiplicities. -/
structure Certificate where
  prime : Nat
  root : Nat
  factors : List Nat

namespace Certificate

/-- What is computed of a certificate. -/
def Valid (known : List Nat) (certificate : Certificate) : Prop :=
  (1 < certificate.prime ∧ certificate.prime < 2 ^ 256) ∧
    certificate.factors.prod = certificate.prime - 1 ∧
    powMod certificate.prime certificate.root (certificate.prime - 1) = 1 ∧
    ∀ factor ∈ certificate.factors, factor ∈ known ∧
      powMod certificate.prime certificate.root ((certificate.prime - 1) / factor) %
        certificate.prime ≠ 1

instance (known : List Nat) (certificate : Certificate) : Decidable (certificate.Valid known) :=
  inferInstanceAs (Decidable (_ ∧ _))

theorem Valid.isPrime {known : List Nat} {certificate : Certificate}
    (primes : ∀ factor ∈ known, factor.Prime) (valid : certificate.Valid known) :
    certificate.prime.Prime := by
  obtain ⟨⟨proper, bounded⟩, product, whole, each⟩ := valid
  have fits : certificate.prime - 1 < 2 ^ 256 := by omega
  apply lucas_primality certificate.prime certificate.root
  · rw [← powMod_cast _ fits, whole, Nat.cast_one]
  · intro divisor isPrime divides
    -- The divisor is one of the factors.
    have listed : divisor ∈ certificate.factors := by
      rw [← product] at divides
      obtain ⟨factor, member, divides⟩ := (isPrime.prime.dvd_prod_iff).mp divides
      have same := (Nat.prime_dvd_prime_iff_eq isPrime (primes factor (each factor member).1)).mp
        divides
      rwa [same]
    have smaller : (certificate.prime - 1) / divisor < 2 ^ 256 :=
      (Nat.div_le_self _ _).trans_lt fits
    rw [← powMod_cast _ smaller]
    intro one
    have same := (ZMod.natCast_eq_natCast_iff' _ 1 _).mp (one.trans Nat.cast_one.symm)
    rw [Nat.mod_eq_of_lt proper] at same
    exact (each divisor listed).2 same

end Certificate

/-- Every certificate is valid when the primes of those before it are known. -/
def Chain : List Nat → List Certificate → Prop
  | _, [] => True
  | known, certificate :: rest =>
      certificate.Valid known ∧ Chain (certificate.prime :: known) rest

instance decidableChain : (known : List Nat) → (certificates : List Certificate) →
    Decidable (Chain known certificates)
  | _, [] => isTrue trivial
  | known, certificate :: rest =>
      have : Decidable (Chain (certificate.prime :: known) rest) := decidableChain _ rest
      inferInstanceAs (Decidable (_ ∧ _))

theorem prime_of_chain {known : List Nat} {certificates : List Certificate}
    (primes : ∀ factor ∈ known, factor.Prime) (chain : Chain known certificates) :
    ∀ certificate ∈ certificates, certificate.prime.Prime := by
  induction certificates generalizing known with
  | nil => simp
  | cons certificate rest inductionHypothesis =>
      obtain ⟨valid, later⟩ := chain
      have isPrime := valid.isPrime primes
      rw [List.forall_mem_cons]
      refine ⟨isPrime, inductionHypothesis ?_ later⟩
      rw [List.forall_mem_cons]
      exact ⟨isPrime, primes⟩

end Foundation.Pratt
