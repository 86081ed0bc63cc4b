import QboxPlatform.Cc3xx.PkaExact

/-!
# Exact operations and the cached modulus

An operation is exact for all operands when it uses no modulus, when it loads N anew, or when the
cached modulus is N.  Any other cached number shows: its residues differ from those of N for some
operand.  Only an inversion leaves a choice, because it has no result for moduli up to one, and
without the result it tells two moduli apart by their prime factors alone.
-/

namespace QboxPlatform.Cc3xx

open Foundation

/-- Two moduli for which an inversion has the same outcome, whatever it inverts. -/
def InvertAlike (discardResult : Bool) (cached modulus : Nat) : Prop :=
  (cached ≤ 1 ∧ modulus ≤ 1) ∨
    (discardResult = true ∧ cached.primeFactors = modulus.primeFactors)

/-- Two meanings that an operation shows in the same way. -/
structure PkaMeaning.Alike (discardResult : Bool) (first second : PkaMeaning) : Prop where
  result : discardResult = false → first.result = second.result
  zero : first.result = 0 ↔ second.result = 0
  carry : first.carry = second.carry
  sign : first.sign = second.sign
  divByZero : first.divByZero = second.divByZero

namespace PkaMeaning.Alike

variable {discardResult : Bool} {first second : PkaMeaning}

theorem refl (meaning : PkaMeaning) : meaning.Alike discardResult meaning :=
  ⟨fun _ => rfl, Iff.rfl, rfl, rfl, rfl⟩

theorem symm (alike : first.Alike discardResult second) : second.Alike discardResult first :=
  ⟨fun kept => (alike.result kept).symm, alike.zero.symm, alike.carry.symm, alike.sign.symm,
    alike.divByZero.symm⟩

end PkaMeaning.Alike

/-! ### Moduli that differ -/

theorem modInv_divByZero (amount words lhs : Nat) (modulus rhs : Nat) :
    (PkaOperation.modInv.meaning amount words modulus lhs rhs).divByZero = true ↔
      ¬(1 < modulus ∧ Nat.Coprime rhs modulus) := by
  unfold PkaOperation.meaning
  dsimp only
  split_ifs with invertible
  · simpa using invertible
  · simpa using invertible

theorem modInv_pred {modulus : Nat} (proper : 1 < modulus) (amount words lhs : Nat) :
    PkaOperation.modInv.meaning amount words modulus lhs (modulus - 1) =
      { result := modulus - 1 } := by
  obtain ⟨previous, rfl⟩ := Nat.exists_eq_add_of_lt proper
  have coprime : Nat.Coprime (1 + previous) (1 + previous + 1) := by simp
  have negative : ((1 + previous : Nat) : ZMod (1 + previous + 1)) = -1 := by
    have whole : ((1 + previous + 1 : Nat) : ZMod (1 + previous + 1)) = 0 := ZMod.natCast_self _
    rw [Nat.cast_succ] at whole
    exact eq_neg_of_add_eq_zero_left whole
  have inverse : ((1 + previous : Nat) : ZMod (1 + previous + 1))⁻¹ = -1 := by
    apply ZMod.inv_eq_of_mul_eq_one
    rw [negative]
    ring
  unfold PkaOperation.meaning
  dsimp only
  rw [Nat.add_sub_cancel, if_pos ⟨proper, coprime⟩, inverse, ZMod.val_neg_one]

theorem exists_refused {first second : Nat} {prime : Nat} (member : prime ∈ first.primeFactors)
    (other : prime ∉ second.primeFactors) (amount words lhs : Nat) :
    ∃ rhs ≤ first, (PkaOperation.modInv.meaning amount words first lhs rhs).divByZero ≠
      (PkaOperation.modInv.meaning amount words second lhs rhs).divByZero := by
  obtain ⟨isPrime, divides, nonzero⟩ := Nat.mem_primeFactors.mp member
  have proper : 1 < first :=
    isPrime.one_lt.trans_le (Nat.le_of_dvd (Nat.pos_of_ne_zero nonzero) divides)
  by_cases trivial : second ≤ 1
  · refine ⟨1, proper.le, ?_⟩
    intro same
    have refuses := (modInv_divByZero amount words lhs second 1).mpr fun both => by omega
    exact (modInv_divByZero amount words lhs first 1).mp (same.trans refuses)
      ⟨proper, Nat.coprime_one_left first⟩
  · have apart : Nat.Coprime prime second := by
      apply isPrime.coprime_iff_not_dvd.mpr
      exact fun shared => other (Nat.mem_primeFactors.mpr ⟨isPrime, shared, by omega⟩)
    refine ⟨prime, Nat.le_of_dvd (Nat.pos_of_ne_zero nonzero) divides, ?_⟩
    intro same
    have refuses := (modInv_divByZero amount words lhs first prime).mpr fun both =>
      isPrime.coprime_iff_not_dvd.mp both.2 divides
    exact (modInv_divByZero amount words lhs second prime).mp (same.symm.trans refuses)
      ⟨by omega, apart⟩

theorem exists_inverted {discardResult : Bool} {smaller larger : Nat} (less : smaller < larger)
    (different : ¬InvertAlike discardResult smaller larger) (amount words lhs : Nat) :
    ∃ rhs ≤ larger,
      ¬(PkaOperation.modInv.meaning amount words smaller lhs rhs).Alike discardResult
        (PkaOperation.modInv.meaning amount words larger lhs rhs) := by
  simp only [InvertAlike, not_or, not_and] at different
  obtain ⟨proper, factors⟩ := different
  cases discardResult with
  | false =>
      have large : 1 < larger := by omega
      refine ⟨larger - 1, Nat.sub_le _ _, ?_⟩
      rw [modInv_pred large]
      intro alike
      have same : (PkaOperation.modInv.meaning amount words smaller lhs (larger - 1)).result =
        larger - 1 := alike.result rfl
      revert same
      unfold PkaOperation.meaning
      dsimp only
      split_ifs with invertible
      · have : NeZero smaller := ⟨by omega⟩
        have below := ZMod.val_lt (((larger - 1 : Nat) : ZMod smaller)⁻¹)
        intro same
        dsimp only at same
        omega
      · intro same
        dsimp only at same
        omega
  | true =>
      have unequal := factors rfl
      rw [Finset.ext_iff, not_forall] at unequal
      obtain ⟨prime, differs⟩ := unequal
      by_cases member : prime ∈ smaller.primeFactors
      · have other : prime ∉ larger.primeFactors :=
          fun both => differs ⟨fun _ => both, fun _ => member⟩
        obtain ⟨rhs, bounded, shows⟩ := exists_refused member other amount words lhs
        exact ⟨rhs, bounded.trans less.le, fun alike => shows alike.divByZero⟩
      · have other : prime ∈ larger.primeFactors := by
          by_contra neither
          exact differs ⟨fun inside => absurd inside member, fun inside => absurd inside neither⟩
        obtain ⟨rhs, bounded, shows⟩ := exists_refused other member amount words lhs
        exact ⟨rhs, bounded, fun alike => shows alike.divByZero.symm⟩

/-- The operand that tells two moduli apart: the smaller one, which it takes to zero, or the
larger one if there is no smaller modulus. -/
def tellingNumber (smaller larger : Nat) : Nat := if smaller = 0 then larger else smaller

theorem not_alike_modular {discardResult : Bool} {smaller larger : Nat} (less : smaller < larger) :
    ¬(PkaMeaning.modular smaller (tellingNumber smaller larger)).Alike discardResult
      (PkaMeaning.modular larger (tellingNumber smaller larger)) := by
  unfold PkaMeaning.modular tellingNumber
  rcases Nat.eq_zero_or_pos smaller with rfl | positive
  · rw [if_pos rfl, if_pos rfl, if_neg less.ne']
    exact fun alike => Bool.noConfusion alike.divByZero
  · rw [if_neg positive.ne', if_neg positive.ne', if_neg (by omega)]
    intro alike
    have zero := alike.zero
    rw [Nat.mod_self, Nat.mod_eq_of_lt less] at zero
    exact absurd (zero.mp rfl) positive.ne'

theorem exists_not_alike {operation : PkaOperation} (modular : operation.isModular = true)
    {discardResult : Bool} {smaller larger words : Nat} (less : smaller < larger)
    (different : operation = .modInv → ¬InvertAlike discardResult smaller larger)
    (below : larger < 2 ^ (32 * words)) (amount : Nat) :
    ∃ lhs < 2 ^ (32 * words), ∃ rhs < 2 ^ (32 * words),
      ¬(operation.meaning amount words smaller lhs rhs).Alike discardResult
        (operation.meaning amount words larger lhs rhs) := by
  have telling : tellingNumber smaller larger < 2 ^ (32 * words) := by
    unfold tellingNumber
    split <;> omega
  have one : 1 < 2 ^ (32 * words) := by omega
  have residue := @not_alike_modular discardResult _ _ less
  -- A sum or a difference with zero.
  have summed {meaning meaning' : PkaMeaning}
      (small : meaning.result = if smaller = 0 then larger else 0)
      (large : meaning'.result = if smaller = 0 then 0 else smaller) :
      ¬meaning.Alike discardResult meaning' := by
    intro alike
    have zero := alike.zero
    rw [small, large] at zero
    split_ifs at zero <;> omega
  cases operation <;> try cases modular
  case modMul =>
    refine ⟨_, telling, 1, one, ?_⟩
    simp only [PkaOperation.meaning, Nat.mul_one]
    exact residue
  case modExp =>
    refine ⟨_, telling, 1, one, ?_⟩
    simp only [PkaOperation.meaning, Nat.pow_one]
    exact residue
  case reduction => exact ⟨_, telling, 1, one, residue⟩
  case modInv =>
    obtain ⟨rhs, bounded, shows⟩ := exists_inverted less (different rfl) amount words 0
    exact ⟨0, by omega, rhs, by omega, shows⟩
  case modAddModInc =>
    refine ⟨_, telling, 0, by omega, summed ?_ ?_⟩
    all_goals
      unfold PkaOperation.meaning tellingNumber PkaMeaning.sum
      dsimp only
      split_ifs <;> simp_all [Nat.mod_eq_of_lt]
  case modSubModDecModNeg =>
    have remainder (number modulus : Nat) :
        (((number : Int) - (0 : Nat)) % modulus).toNat = number % modulus := by
      rw [Nat.cast_zero, sub_zero, ← Int.natCast_mod, Int.toNat_natCast]
    have whole := remainder larger (2 ^ (32 * words))
    rw [Nat.mod_eq_of_lt below] at whole
    push_cast at whole
    refine ⟨_, telling, 0, by omega, summed ?_ ?_⟩
    all_goals
      unfold PkaOperation.meaning tellingNumber PkaMeaning.difference
      dsimp only
      split_ifs <;> simp_all [Nat.mod_eq_of_lt]

theorem invertible_iff (rhs modulus : Nat) :
    (1 < modulus ∧ Nat.Coprime rhs modulus) ↔
      modulus.primeFactors.Nonempty ∧ ∀ prime ∈ modulus.primeFactors, ¬prime ∣ rhs := by
  rw [Nat.nonempty_primeFactors]
  refine and_congr_right fun proper => ?_
  rw [← not_iff_not, Nat.Prime.not_coprime_iff_dvd]
  push Not
  constructor
  · rintro ⟨prime, isPrime, divides, factor⟩
    exact ⟨prime, Nat.mem_primeFactors.mpr ⟨isPrime, factor, by omega⟩, divides⟩
  · rintro ⟨prime, member, divides⟩
    obtain ⟨isPrime, factor, -⟩ := Nat.mem_primeFactors.mp member
    exact ⟨prime, isPrime, divides, factor⟩

theorem modInv_zero_iff (amount words lhs modulus rhs : Nat) :
    (PkaOperation.modInv.meaning amount words modulus lhs rhs).result = 0 ↔
      ¬(1 < modulus ∧ Nat.Coprime rhs modulus) := by
  unfold PkaOperation.meaning
  dsimp only
  split_ifs with invertible
  · have : Fact (1 < modulus) := ⟨invertible.1⟩
    have product := ZMod.coe_mul_inv_eq_one rhs invertible.2
    refine iff_of_false ?_ (not_not_intro invertible)
    intro zero
    rw [(ZMod.val_eq_zero _).mp zero, mul_zero] at product
    exact zero_ne_one product
  · exact iff_of_true rfl invertible

theorem alike_of_invertAlike {discardResult : Bool} {cached modulus : Nat}
    (alike : InvertAlike discardResult cached modulus) (amount words lhs rhs : Nat) :
    (PkaOperation.modInv.meaning amount words cached lhs rhs).Alike discardResult
      (PkaOperation.modInv.meaning amount words modulus lhs rhs) := by
  rcases alike with ⟨cachedTrivial, modulusTrivial⟩ | ⟨discarded, factors⟩
  · have nothing {modulus : Nat} (trivial : modulus ≤ 1) :
        PkaOperation.modInv.meaning amount words modulus lhs rhs =
          { result := 0, divByZero := true } := by
      unfold PkaOperation.meaning
      dsimp only
      rw [if_neg fun both => by omega]
    rw [nothing cachedTrivial, nothing modulusTrivial]
    exact .refl _
  · have same : (1 < cached ∧ Nat.Coprime rhs cached) ↔ 1 < modulus ∧ Nat.Coprime rhs modulus := by
      rw [invertible_iff, invertible_iff, factors]
    have flags {modulus : Nat} :
        (PkaOperation.modInv.meaning amount words modulus lhs rhs).carry = false ∧
          (PkaOperation.modInv.meaning amount words modulus lhs rhs).sign = false := by
      unfold PkaOperation.meaning
      dsimp only
      split_ifs <;> exact ⟨rfl, rfl⟩
    refine ⟨?_, ?_, flags.1.trans flags.1.symm, flags.2.trans flags.2.symm, ?_⟩
    · intro kept
      rw [discarded] at kept
      cases kept
    · rw [modInv_zero_iff, modInv_zero_iff, same]
    · rw [Bool.eq_iff_iff, modInv_divByZero, modInv_divByZero, same]

namespace Core

variable {Memory : Type}

/-- The modulus that an operation looks up is N, or as good as N. -/
def ModulusServes (core : Core Memory) (opcode : PkaOpcode) (operation : PkaOperation) : Prop :=
  operation.isModular = true → core.pkaModulusCache.valid = true →
    core.pkaModulusCache.key = core.pkaLenWords opcode.sizeId →
      core.pkaModulusCache.value = core.pkaRegister 0 (core.pkaLenWords opcode.sizeId) ∨
        operation = .modInv ∧
          InvertAlike opcode.discardResult core.pkaModulusCache.value.toNat
            (core.pkaRegister 0 (core.pkaLenWords opcode.sizeId))

theorem Executed.alike {before after : Core Memory} {opcode : PkaOpcode} {words : Nat}
    {first second : PkaMeaning} (one : Executed before after opcode words first)
    (other : Executed before after opcode words second) :
    first.Alike opcode.discardResult second where
  result := fun kept => (one.result kept).symm.trans (other.result kept)
  zero := decide_eq_decide.mp (one.zero.symm.trans other.zero)
  carry := one.carry.symm.trans other.carry
  sign := one.sign.symm.trans other.sign
  divByZero := one.divByZero.symm.trans other.divByZero

theorem Executed.of_alike {before after : Core Memory} {opcode : PkaOpcode} {words : Nat}
    {first second : PkaMeaning} (executed : Executed before after opcode words first)
    (alike : first.Alike opcode.discardResult second)
    (remainder : second.remainder = first.remainder) :
    Executed before after opcode words second where
  result := fun kept => (executed.result kept).trans (alike.result kept)
  remainder := by
    rw [remainder]
    exact executed.remainder
  carry := executed.carry.trans alike.carry
  zero := executed.zero.trans (decide_eq_decide.mpr alike.zero)
  sign := executed.sign.trans alike.sign
  divByZero := executed.divByZero.trans alike.divByZero
  mapping := executed.mapping
  unchanged := by
    rw [remainder]
    exact executed.unchanged

theorem executed_executePkaOpcode {core : Core Memory} {value : BitVec 32}
    {operation : PkaOperation}
    (decoded : PkaOperation.decode (PkaOpcode.decode value).op = some operation)
    (operands : core.RegisterOperands (PkaOpcode.decode value) operation) {modulus : Nat}
    (looked : (core.pkaModulusFor operation
      (core.pkaLenWords (PkaOpcode.decode value).sizeId)).1 = modulus)
    (below : modulus < 2 ^ (32 * core.pkaLenWords (PkaOpcode.decode value).sizeId)) :
    Executed core (core.executePkaOpcode value) (PkaOpcode.decode value)
      (core.pkaLenWords (PkaOpcode.decode value).sizeId)
      (core.registerMeaning (PkaOpcode.decode value) operation modulus) := by
  have some : (PkaOpcode.decode value).op ≠ 0 := by
    intro none
    rw [none] at decoded
    cases decoded
  unfold executePkaOpcode
  dsimp only
  rw [if_neg some, decoded]
  exact executed_pkaExecute operands looked below

/-! ### Numbers in the operands -/

/-- Stores that give the operands of an operation their numbers. -/
def operandStores (opcode : PkaOpcode) (operation : PkaOperation) (words lhs rhs : Nat) :
    List (BitVec 32 × Operand) :=
  (if operation.usesLhs then [(opcode.lhsId, pkaIntToWords lhs words)] else []) ++
    if operation.usesRhs then [(opcode.rhsId, pkaIntToWords rhs words)] else []

theorem exists_sram {core : Core Memory} {opcode : PkaOpcode} {operation : PkaOperation}
    (operands : core.RegisterOperands opcode operation) (modular : operation.isModular = true)
    {lhs rhs : Nat} (lhsBelow : lhs < 2 ^ (32 * core.pkaLenWords opcode.sizeId))
    (rhsBelow : rhs < 2 ^ (32 * core.pkaLenWords opcode.sizeId)) :
    ∃ sram, Core.pkaRegister { core with pkaSram := sram } 0 (core.pkaLenWords opcode.sizeId) =
        core.pkaRegister 0 (core.pkaLenWords opcode.sizeId) ∧
      (operation.usesLhs = true → Core.pkaRegister { core with pkaSram := sram } opcode.lhsId
        (core.pkaLenWords opcode.sizeId) = lhs) ∧
      (operation.usesRhs = true → Core.pkaRegister { core with pkaSram := sram } opcode.rhsId
        (core.pkaLenWords opcode.sizeId) = rhs) := by
  have inside := operands.inside
  have apart := operands.apart
  generalize core.pkaLenWords opcode.sizeId = words at inside apart lhsBelow rhsBelow ⊢
  -- N comes before the registers that are stored to.
  have among : (0 :: (operandStores opcode operation words lhs rhs).map Prod.fst).Sublist
      (opcode.registers operation) := by
    unfold PkaOpcode.registers operandStores
    rw [if_pos modular]
    refine List.Sublist.trans ?_ (List.sublist_append_left _ _)
    cases operation.usesLhs <;> cases operation.usesRhs <;> simp
  have disjoint := List.pairwise_cons.mp (apart.sublist among)
  have fits : core.FitStores words (operandStores opcode operation words lhs rhs) := by
    refine ⟨?_, ?_⟩
    · intro store member
      rcases List.mem_append.mp member with left | right
      · cases used : operation.usesLhs <;> simp [used] at left
        rw [left, length_pkaIntToWords]
      · cases used : operation.usesRhs <;> simp [used] at right
        rw [right, length_pkaIntToWords]
    · intro store member
      exact inside store.1 (among.subset (List.mem_cons_of_mem _ (List.mem_map_of_mem member)))
  obtain ⟨sram, sameN, held⟩ := exists_sram_of_stores fits disjoint.2
    (inside 0 (among.subset List.mem_cons_self))
    fun store member => (disjoint.1 store.1 (List.mem_map_of_mem member)).symm
  refine ⟨sram, sameN, ?_, ?_⟩
  · intro used
    have member : (opcode.lhsId, pkaIntToWords lhs words) ∈
        operandStores opcode operation words lhs rhs := by
      simp [operandStores, used]
    exact (held _ member).trans (value_pkaIntToWords_of_lt lhsBelow)
  · intro used
    have member : (opcode.rhsId, pkaIntToWords rhs words) ∈
        operandStores opcode operation words lhs rhs := by
      simp [operandStores, used]
    exact (held _ member).trans (value_pkaIntToWords_of_lt rhsBelow)

theorem exact_of_modulusServes {core : Core Memory} (fits : core.FitsCache) {value : BitVec 32}
    {operation : PkaOperation}
    (decoded : PkaOperation.decode (PkaOpcode.decode value).op = some operation)
    (operands : core.RegisterOperands (PkaOpcode.decode value) operation)
    (serves : core.ModulusServes (PkaOpcode.decode value) operation) :
    core.Exact value operation := by
  intro sram sameN
  have fitsNow : FitsCache { core with pkaSram := sram } := fits
  have operandsNow : RegisterOperands { core with pkaSram := sram } (PkaOpcode.decode value)
      operation := ⟨operands.lhs, operands.rhs, operands.inside, operands.apart⟩
  have servesNow : ModulusServes { core with pkaSram := sram } (PkaOpcode.decode value)
      operation := by
    unfold ModulusServes
    rw [show Core.pkaLenWords { core with pkaSram := sram } (PkaOpcode.decode value).sizeId =
      core.pkaLenWords (PkaOpcode.decode value).sizeId from rfl, sameN]
    exact serves
  generalize ({ core with pkaSram := sram } : Core Memory) = now at fitsNow operandsNow servesNow ⊢
  obtain ⟨modulus, looked, below, which⟩ := exists_modulus fitsNow operation
    (now.pkaLenWords (PkaOpcode.decode value).sizeId)
  have executed := executed_executePkaOpcode decoded operandsNow looked below
  by_cases same : modulus = now.pkaRegister 0 (now.pkaLenWords (PkaOpcode.decode value).sizeId)
  · rw [same] at executed
    exact executed
  by_cases modular : operation.isModular = true
  · have fromCache := which modular
    split_ifs at fromCache with hit
    · rcases servesNow modular hit.1 hit.2 with current | ⟨rfl, alike⟩
      · exact absurd (by exact_mod_cast fromCache.symm.trans current) same
      · rw [fromCache, Int.toNat_natCast] at alike
        refine executed.of_alike (alike_of_invertAlike alike _ _ _ _) ?_
        unfold registerMeaning PkaOperation.meaning
        dsimp only
        split_ifs <;> rfl
    · exact absurd fromCache same
  · have unused : now.registerMeaning (PkaOpcode.decode value) operation modulus =
        now.registerMeaning (PkaOpcode.decode value) operation
          (now.pkaRegister 0 (now.pkaLenWords (PkaOpcode.decode value).sizeId)) :=
      PkaOperation.meaning_congr operation _ _ (fun uses => absurd uses modular) (fun _ => rfl)
        (fun _ => rfl)
    rw [unused] at executed
    exact executed

theorem modulusServes_of_exact {core : Core Memory} (fits : core.FitsCache) {value : BitVec 32}
    {operation : PkaOperation}
    (decoded : PkaOperation.decode (PkaOpcode.decode value).op = some operation)
    (operands : core.RegisterOperands (PkaOpcode.decode value) operation)
    (exacts : core.Exact value operation) :
    core.ModulusServes (PkaOpcode.decode value) operation := by
  intro modular valid key
  by_contra serves
  obtain ⟨cached, held, cachedBelow⟩ := fits valid
  rw [key] at cachedBelow
  rw [held, Int.toNat_natCast, not_or, not_and] at serves
  obtain ⟨stale, different⟩ := serves
  have other : cached ≠ core.pkaRegister 0 (core.pkaLenWords (PkaOpcode.decode value).sizeId) :=
    fun same => stale (congrArg Nat.cast same)
  have modulusBelow := core.pkaRegister_lt 0
    (core.pkaLenWords (PkaOpcode.decode value).sizeId)
  -- Operands for which the two moduli show.
  have telling : ∃ lhs < 2 ^ (32 * core.pkaLenWords (PkaOpcode.decode value).sizeId),
      ∃ rhs < 2 ^ (32 * core.pkaLenWords (PkaOpcode.decode value).sizeId),
        ¬(operation.meaning ((PkaOpcode.decode value).rhsId.toNat + 1)
            (core.pkaLenWords (PkaOpcode.decode value).sizeId) cached lhs rhs).Alike
          (PkaOpcode.decode value).discardResult
          (operation.meaning ((PkaOpcode.decode value).rhsId.toNat + 1)
            (core.pkaLenWords (PkaOpcode.decode value).sizeId)
            (core.pkaRegister 0 (core.pkaLenWords (PkaOpcode.decode value).sizeId)) lhs rhs) := by
    rcases Nat.lt_or_gt_of_ne other with less | greater
    · exact exists_not_alike modular less different modulusBelow _
    · have reversed : operation = .modInv →
          ¬InvertAlike (PkaOpcode.decode value).discardResult
            (core.pkaRegister 0 (core.pkaLenWords (PkaOpcode.decode value).sizeId)) cached := by
        intro inverts alike
        exact different inverts (alike.imp And.symm fun both => ⟨both.1, both.2.symm⟩)
      obtain ⟨lhs, lhsBelow, rhs, rhsBelow, shows⟩ :=
        exists_not_alike modular greater reversed cachedBelow
          ((PkaOpcode.decode value).rhsId.toNat + 1)
      exact ⟨lhs, lhsBelow, rhs, rhsBelow, fun alike => shows alike.symm⟩
  obtain ⟨lhs, lhsBelow, rhs, rhsBelow, shows⟩ := telling
  obtain ⟨sram, sameN, lhsHeld, rhsHeld⟩ := exists_sram operands modular lhsBelow rhsBelow
  have means (modulus : Nat) :
      Core.registerMeaning { core with pkaSram := sram } (PkaOpcode.decode value) operation
          modulus =
        operation.meaning ((PkaOpcode.decode value).rhsId.toNat + 1)
          (core.pkaLenWords (PkaOpcode.decode value).sizeId) modulus lhs rhs :=
    PkaOperation.meaning_congr operation _ _ (fun _ => rfl) lhsHeld rhsHeld
  have looked : (Core.pkaModulusFor { core with pkaSram := sram } operation
      (core.pkaLenWords (PkaOpcode.decode value).sizeId)).1 = cached := by
    unfold pkaModulusFor pkaModulusValue
    rw [if_pos modular]
    simp only [valid, key, and_self, if_true]
    exact held
  have operandsNow : RegisterOperands { core with pkaSram := sram } (PkaOpcode.decode value)
      operation := ⟨operands.lhs, operands.rhs, operands.inside, operands.apart⟩
  have executed := executed_executePkaOpcode decoded operandsNow looked cachedBelow
  have sized : Core.pkaLenWords { core with pkaSram := sram } (PkaOpcode.decode value).sizeId =
    core.pkaLenWords (PkaOpcode.decode value).sizeId := rfl
  have alike := executed.alike (exacts sram sameN)
  rw [means, means, sized, sameN] at alike
  exact shows alike

instance (core : Core Memory) (opcode : PkaOpcode) (operation : PkaOperation) :
    Decidable (core.RegisterOperands opcode operation) :=
  decidable_of_iff
    ((operation.usesLhs = true → opcode.lhsImmediate = false) ∧
      (operation.usesRhs = true → opcode.rhsImmediate = false) ∧
      (opcode.registers operation).all
        (fun physReg => core.InSram (core.pkaLenWords opcode.sizeId) physReg) = true ∧
      (opcode.registers operation).Pairwise (core.WindowsApart (core.pkaLenWords opcode.sizeId)))
    ⟨fun both => ⟨both.1, both.2.1, by simpa using both.2.2.1, both.2.2.2⟩,
      fun operands => ⟨operands.lhs, operands.rhs, by simpa using operands.inside,
        operands.apart⟩⟩

/-- In a state that a run from reset comes to, with an opcode just written, an operation on
registers is exact for all numbers in them if and only if the cached modulus serves. -/
theorem executePkaOpcode_exact_iff {bus : Bus Memory} {memory : Memory}
    {accesses : List RegisterAccess} {reached core : Core Memory} {value : BitVec 32}
    {operation : PkaOperation}
    (runs : run (step bus) (reset memory) accesses = some reached)
    (written : core = reached.store32 pkaOpcode value)
    (decoded : PkaOperation.decode (PkaOpcode.decode value).op = some operation)
    (operands : core.RegisterOperands (PkaOpcode.decode value) operation) :
    core.Exact value operation ↔ core.ModulusServes (PkaOpcode.decode value) operation := by
  have fits : core.FitsCache := by
    rw [written]
    exact fitsCache_congr (fitsCache_run runs) rfl
  constructor
  · exact modulusServes_of_exact fits decoded operands
  · exact exact_of_modulusServes fits decoded operands

theorem modulusServes_of_coherent {core : Core Memory} (coherent : core.ModulusCoherent)
    (opcode : PkaOpcode) (operation : PkaOperation) : core.ModulusServes opcode operation := by
  intro _ valid key
  rw [← key]
  exact Or.inl ((coherent valid).trans (core.pkaFreshModulus_eq _))

/-- In a run whose accesses the invalidation tests are up to, every operation on registers is
exact. -/
theorem exact_of_keepsModulus {bus : Bus Memory} {memory : Memory}
    {accesses : List RegisterAccess} {core : Core Memory} {value : BitVec 32}
    {operation : PkaOperation}
    (keeps : Along (step bus) KeepsModulus (reset memory) accesses)
    (runs : run (step bus) (reset memory) accesses = some core)
    (decoded : PkaOperation.decode (PkaOpcode.decode value).op = some operation)
    (operands : core.RegisterOperands (PkaOpcode.decode value) operation) :
    core.Exact value operation := by
  have coherent := run_invariant_along modulusCoherent_step (modulusCoherent_reset memory) keeps
    runs
  exact exact_of_modulusServes (fitsCache_run runs) decoded operands
    (modulusServes_of_coherent coherent _ _)

/-- Registers 1 and 2 and N have windows of one word, and the product of 3 and 4 modulo 5 goes to
register 3; once it is there, N is cached. -/
def productAccesses : List RegisterAccess :=
  [.writeWord pkaLBase 32, .writeWord 4 1, .writeWord 8 2, .writeWord 12 3,
    .writeWord pkaSramWdata 5, .writeWord pkaSramAddr 1, .writeWord pkaSramWdata 3,
    .writeWord pkaSramAddr 2, .writeWord pkaSramWdata 4, .writeWord pkaOpcode 0x880420c0]

theorem executePkaOpcode_exact_iff_product :
    ∃ reached, run (step Bus.ram) (reset fun _ => 0) productAccesses = some reached ∧
      reached.pkaRegister 0 1 = 5 ∧ reached.pkaRegister 3 1 = 2 ∧
      Exact (reached.store32 pkaOpcode 0x880420c0) 0x880420c0 .modMul := by
  have outcome : (run (step Bus.ram) (reset fun _ => 0) productAccesses).map (fun core =>
      (decide (RegisterOperands (core.store32 pkaOpcode 0x880420c0)
          (PkaOpcode.decode 0x880420c0) .modMul),
        core.pkaRegister 0 1, core.pkaRegister 3 1, core.pkaModulusCache.value,
        (core.store32 pkaOpcode 0x880420c0).pkaRegister 0
          ((core.store32 pkaOpcode 0x880420c0).pkaLenWords
            (PkaOpcode.decode 0x880420c0).sizeId))) = some (true, 5, 2, 5, 5) := by
    decide +kernel
  obtain ⟨reached, runs, values⟩ := Option.map_eq_some_iff.mp outcome
  simp only [Prod.mk.injEq] at values
  obtain ⟨operands, modulus, product, cached, fresh⟩ := values
  refine ⟨reached, runs, modulus, product, ?_⟩
  refine (executePkaOpcode_exact_iff runs rfl (by decide) (of_decide_eq_true operands)).mpr ?_
  intro _ _ _
  exact Or.inl (cached.trans (congrArg Nat.cast fresh.symm))

/-- Two words of N are cached, an operation on one word stores to the upper one, and a reduction
of 7 by the N of two words takes the number of one word that was cached. -/
theorem not_exactAt_stale_modulus :
    ∃ reached, run (step Bus.ram) (reset fun _ => 0)
        [.writeWord pkaLBase 64, .writeWord (pkaLBase + 4) 32, .writeWord 4 1, .writeWord 8 4,
          .writeWord 12 8, .writeWord pkaSramWdata 5, .writeWord pkaSramAddr 4,
          .writeWord pkaSramWdata 7, .writeWord pkaOpcode 0xd89e1800,
          .writeWord pkaOpcode 0x49861040] = some reached ∧
      RegisterOperands (reached.store32 pkaOpcode 0xd80800c0) (PkaOpcode.decode 0xd80800c0)
        .reduction ∧
      ¬ExactAt (reached.store32 pkaOpcode 0xd80800c0) 0xd80800c0 .reduction := by
  have outcome : (run (step Bus.ram) (reset fun _ => 0)
      [.writeWord pkaLBase 64, .writeWord (pkaLBase + 4) 32, .writeWord 4 1, .writeWord 8 4,
        .writeWord 12 8, .writeWord pkaSramWdata 5, .writeWord pkaSramAddr 4,
        .writeWord pkaSramWdata 7, .writeWord pkaOpcode 0xd89e1800,
        .writeWord pkaOpcode 0x49861040]).map
        (fun core =>
          (decide (RegisterOperands (core.store32 pkaOpcode 0xd80800c0)
              (PkaOpcode.decode 0xd80800c0) .reduction),
            ((core.store32 pkaOpcode 0xd80800c0).executePkaOpcode 0xd80800c0).pkaRegister 3 2,
            (core.store32 pkaOpcode 0xd80800c0).pkaLenWords 0,
            (core.store32 pkaOpcode 0xd80800c0).pkaRegister 0 2,
            (core.store32 pkaOpcode 0xd80800c0).pkaRegister 2 2)) =
      some (true, 2, 2, 5 + 2 ^ 32, 7) := by decide +kernel
  obtain ⟨reached, runs, values⟩ := Option.map_eq_some_iff.mp outcome
  simp only [Prod.mk.injEq] at values
  obtain ⟨operands, stored, words, modulus, reduced⟩ := values
  refine ⟨reached, runs, of_decide_eq_true operands, ?_⟩
  intro exact
  have fields : PkaOpcode.decode 0xd80800c0 =
      { op := 0x1b, sizeId := 0, lhsImmediate := false, lhsId := 2, rhsImmediate := false,
        rhsId := 0, discardResult := false, resultId := 3 } := by decide
  unfold ExactAt at exact
  rw [fields] at exact
  have result := exact.result rfl
  dsimp only [registerMeaning, PkaOperation.meaning] at result
  rw [words, stored, modulus, reduced] at result
  revert result
  decide

end Core

end QboxPlatform.Cc3xx
