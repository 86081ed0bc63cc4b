import QboxPlatform.Foundation.Pratt
import QboxPlatform.RseP256Ecdsa.Curve

/-!
# The two primes of P-256

The field has a prime number of elements, and so has the group.
-/

namespace QboxPlatform.RseP256Ecdsa

open Foundation

def smallPrimes : List Nat :=
  [2, 3, 5, 7, 11, 17, 19, 23, 29, 41, 43, 53, 71, 107, 127, 131, 173, 197, 229, 257, 311, 373,
    641, 1201, 1297, 1531, 2411, 3023, 3407, 3677, 3769, 16879, 17449, 18169, 38189, 65537,
    78283, 104471, 126241, 155317, 490463, 704251]

theorem smallPrimes_prime : ∀ factor ∈ smallPrimes, factor.Prime := by
  simp only [smallPrimes, List.forall_mem_cons, List.not_mem_nil, false_implies, implies_true,
    and_true]
  norm_num

/-- The primes that the group order and the field size are certified with, these two last. -/
def certificates : List Pratt.Certificate :=
  [⟨9350987, 2, [2, 17, 229, 1201]⟩,
    ⟨187019741, 2, [2, 2, 5, 9350987]⟩,
    ⟨311245691, 2, [2, 5, 7, 17, 29, 29, 311]⟩,
    ⟨622491383, 5, [2, 311245691]⟩,
    ⟨3969899, 2, [2, 19, 104471]⟩,
    ⟨1002328039319, 19, [2, 126241, 3969899]⟩,
    ⟨191039911, 3, [2, 3, 5, 41, 155317]⟩,
    ⟨208150935158385979, 2, [2, 3, 11, 43, 127, 3023, 191039911]⟩,
    ⟨2624747550333869278416773953, 7, [2, 2, 2, 2, 2, 2, 3, 3, 1297, 16879, 208150935158385979]⟩,
    ⟨6700417, 5, [2, 2, 2, 2, 2, 2, 2, 3, 17449]⟩,
    ⟨204061199, 11, [2, 11, 23, 107, 3769]⟩,
    ⟨34282281433, 17, [2, 2, 2, 3, 7, 204061199]⟩,
    ⟨66417393611, 6, [2, 5, 53, 173, 197, 3677]⟩,
    ⟨11290956913871, 13, [2, 5, 17, 66417393611]⟩,
    ⟨46076956964474543, 5, [2, 23, 18169, 78283, 704251]⟩,
    ⟨774023187263532362759620327192479577272145303, 3, [2, 3, 3, 2411, 34282281433,
      11290956913871, 46076956964474543]⟩,
    ⟨835945042244614951780389953367877943453916927241, 11, [2, 2, 2, 3, 3, 3, 5,
      774023187263532362759620327192479577272145303]⟩,
    ⟨115792089210356248762697446949407573529996955224135760342422259061068512044369, 7, [2, 2, 2,
      2, 3, 71, 131, 373, 3407, 17449, 38189, 187019741, 622491383, 1002328039319,
      2624747550333869278416773953]⟩,
    ⟨115792089210356248762697446949407573530086143415290314195533631308867097853951, 6, [2, 3, 5,
      5, 17, 257, 641, 1531, 65537, 490463, 6700417,
      835945042244614951780389953367877943453916927241]⟩]

theorem certificates_chain : Pratt.Chain smallPrimes certificates := by
  decide +kernel

theorem prime_of_certified {number : Nat}
    (certified : number ∈ certificates.map Pratt.Certificate.prime) : number.Prime := by
  obtain ⟨certificate, member, rfl⟩ := List.mem_map.mp certified
  exact Pratt.prime_of_chain smallPrimes_prime certificates_chain certificate member

theorem n_prime : n.toNat.Prime := prime_of_certified (by decide)

theorem p_prime : p.toNat.Prime := prime_of_certified (by decide)

end QboxPlatform.RseP256Ecdsa
