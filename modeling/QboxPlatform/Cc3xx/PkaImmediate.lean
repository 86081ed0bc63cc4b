import QboxPlatform.Cc3xx.PkaModulus

/-!
# Signed immediates in modular operations

A negative immediate is spread over all words of the operand and then taken as the number that is
2^(32 * words) above it, before it is reduced by N.  This is congruent to the immediate only when
N divides the difference.
-/

namespace QboxPlatform.Cc3xx

open Foundation

/-- The signed value of a five-bit immediate. -/
def signedImmediateValue (value : BitVec 32) : Int := (signExtend5 value).toInt

theorem value_immediateWords (value : BitVec 32) {words : Nat} (nonempty : 0 < words) :
    (Words.value (immediateWords value true words) : Int) =
      signedImmediateValue value +
        if signedImmediateValue value < 0 then 2 ^ (32 * words) else 0 := by
  obtain ⟨words, rfl⟩ := Nat.exists_eq_add_of_lt nonempty
  have ones (count : Nat) :
      Words.value (List.replicate count (0xffffffff : BitVec 32)) + 1 = 2 ^ (32 * count) := by
    induction count with
    | zero => rfl
    | succ count inductionHypothesis =>
        have word : (0xffffffff : BitVec 32).toNat = 2 ^ 32 - 1 := by decide
        rw [List.replicate_succ, Words.value_cons, word, Nat.mul_succ, Nat.pow_add 2 (32 * count),
          ← inductionHypothesis]
        omega
  have rest := ones words
  unfold signedImmediateValue
  rw [BitVec.toInt_eq_msb_cond, Nat.zero_add, immediateWords, if_pos rfl, Words.value_cons,
    Nat.mul_succ]
  rw [pow_add 2 (32 * words)]
  have small := (signExtend5 value).isLt
  cases (signExtend5 value).msb with
  | false =>
      simp only [Bool.false_eq_true, if_false, value_replicate_zero]
      rw [if_neg (by omega)]
      push_cast
      ring
  | true =>
      simp only [if_true]
      rw [if_pos (by omega)]
      zify at rest
      push_cast
      linear_combination 2 ^ 32 * rest

/-- The modulus that an addition or a subtraction works with; without one it wraps. -/
def workingModulus (words modulus : Nat) : Nat :=
  if modulus = 0 then 2 ^ (32 * words) else modulus

theorem dvd_of_residues_agree {bound first second : Nat} (inside : first < bound)
    {one other : Int}
    (agree : ∀ number < bound,
      ((number : Int) + one) % first = ((number : Int) + other) % second) :
    second ∣ first := by
  have start := agree 0 (by omega)
  have later := agree first inside
  rw [Int.add_comm, Int.add_emod_right, ← Int.zero_add one] at later
  have congruent : ((first : Int) + other) ≡ (((0 : Nat) : Int) + other) [ZMOD second] :=
    later.symm.trans start
  have divides := congruent.symm.dvd
  rw [Nat.cast_zero, zero_add, add_sub_cancel_right] at divides
  exact_mod_cast divides

theorem residues_agree_iff {bound working modulus : Nat} (positive : 0 < modulus)
    (below : modulus < bound) (shift intended : Int) :
    (∀ number < bound, ((number : Int) + shift) % working = ((number : Int) + intended) % modulus)
      ↔ working = modulus ∧ (modulus : Int) ∣ intended - shift := by
  constructor
  · intro agree
    have divides := dvd_of_residues_agree below fun number inside => (agree number inside).symm
    have small : working < bound := (Nat.le_of_dvd positive divides).trans_lt below
    have same : working = modulus := Nat.dvd_antisymm divides (dvd_of_residues_agree small agree)
    have start : ((0 : Nat) : Int) + shift ≡ ((0 : Nat) : Int) + intended [ZMOD modulus] := by
      have first := agree 0 (by omega)
      rwa [same] at first
    refine ⟨same, ?_⟩
    have difference := start.dvd
    rwa [Nat.cast_zero, zero_add, zero_add] at difference
  · rintro ⟨rfl, divides⟩ number inside
    exact (Int.ModEq.refl _).add (Int.modEq_iff_dvd.mpr divides)

/-- The sum or the difference that an operation reduces. -/
def PkaOperation.combine (operation : PkaOperation) (lhs rhs : Int) : Int :=
  if operation = .modAddModInc then lhs + rhs else lhs - rhs

theorem result_meaning {operation : PkaOperation}
    (kind : operation = .modAddModInc ∨ operation = .modSubModDecModNeg)
    (amount words modulus lhs rhs : Nat) :
    ((operation.meaning amount words modulus lhs rhs).result : Int) =
      operation.combine lhs rhs % workingModulus words modulus := by
  have positive : 0 < workingModulus words modulus := by
    unfold workingModulus
    split
    · exact Nat.two_pow_pos _
    · omega
  have nonneg := Int.emod_nonneg (operation.combine lhs rhs)
    (show (workingModulus words modulus : Int) ≠ 0 by exact_mod_cast positive.ne')
  rw [← Int.toNat_of_nonneg nonneg]
  congr 1
  unfold workingModulus PkaOperation.combine
  obtain rfl | rfl := kind
  · rw [if_pos rfl, ← Nat.cast_add, ← Int.natCast_mod, Int.toNat_natCast]
    unfold PkaOperation.meaning
    dsimp only
    split_ifs <;> rfl
  · rw [if_neg (by decide)]
    unfold PkaOperation.meaning
    dsimp only
    split_ifs
    · unfold PkaMeaning.difference
      push_cast
      rfl
    · rfl

namespace Core

variable {Memory : Type}

/-- The operands are a register and an immediate, and the result is stored into the SRAM. -/
structure ImmediateOperands (core : Core Memory) (opcode : PkaOpcode) : Prop where
  lhs : opcode.lhsImmediate = false
  rhs : opcode.rhsImmediate = true
  kept : opcode.discardResult = false
  inside : core.InSram (core.pkaLenWords opcode.sizeId) opcode.resultId

/-- For every number in the left register, the operation stores what it gives with the signed
value of the immediate modulo the N that register 0 holds. -/
def ImmediateExact (core : Core Memory) (value : BitVec 32) (operation : PkaOperation) : Prop :=
  let opcode := PkaOpcode.decode value
  let words := core.pkaLenWords opcode.sizeId
  ∀ sram, Core.pkaRegister { core with pkaSram := sram } 0 words = core.pkaRegister 0 words →
    ((Core.executePkaOpcode { core with pkaSram := sram } value).pkaRegister opcode.resultId words :
        Int) =
      operation.combine (Core.pkaRegister { core with pkaSram := sram } opcode.lhsId words)
        (signedImmediateValue opcode.rhsId) % core.pkaRegister 0 words

/-- The modulus that is looked up is N, and a negative immediate stays the same modulo N when it
is spread over the operand. -/
def ImmediateServes (core : Core Memory) (opcode : PkaOpcode) : Prop :=
  (core.pkaModulusCache.valid = true →
      core.pkaModulusCache.key = core.pkaLenWords opcode.sizeId →
        core.pkaModulusCache.value = core.pkaRegister 0 (core.pkaLenWords opcode.sizeId)) ∧
    (signedImmediateValue opcode.rhsId < 0 →
      core.pkaRegister 0 (core.pkaLenWords opcode.sizeId) ∣
        2 ^ (32 * core.pkaLenWords opcode.sizeId))

theorem pkaRegister_executePkaOpcode {core : Core Memory} {value : BitVec 32}
    {operation : PkaOperation}
    (decoded : PkaOperation.decode (PkaOpcode.decode value).op = some operation)
    (kind : operation = .modAddModInc ∨ operation = .modSubModDecModNeg)
    (operands : core.ImmediateOperands (PkaOpcode.decode value))
    (nonempty : 0 < core.pkaLenWords (PkaOpcode.decode value).sizeId) {modulus : Nat}
    (looked : (core.pkaModulusFor operation
      (core.pkaLenWords (PkaOpcode.decode value).sizeId)).1 = modulus)
    (below : modulus < 2 ^ (32 * core.pkaLenWords (PkaOpcode.decode value).sizeId)) :
    ((core.executePkaOpcode value).pkaRegister (PkaOpcode.decode value).resultId
        (core.pkaLenWords (PkaOpcode.decode value).sizeId) : Int) =
      operation.combine
          (core.pkaRegister (PkaOpcode.decode value).lhsId
            (core.pkaLenWords (PkaOpcode.decode value).sizeId))
          (signedImmediateValue (PkaOpcode.decode value).rhsId +
            if signedImmediateValue (PkaOpcode.decode value).rhsId < 0 then
              2 ^ (32 * core.pkaLenWords (PkaOpcode.decode value).sizeId)
            else 0) %
        workingModulus (core.pkaLenWords (PkaOpcode.decode value).sizeId) modulus := by
  have operates : (PkaOpcode.decode value).op ≠ 0 := by
    intro none
    rw [none] at decoded
    cases decoded
  unfold executePkaOpcode
  dsimp only
  rw [if_neg operates, decoded]
  generalize PkaOpcode.decode value = opcode at operands nonempty looked below ⊢
  obtain ⟨lhsSized, rhsSized⟩ := core.length_pkaLoadOperands opcode operation
  have represents := operation.represents_compute opcode.rhsId below.le lhsSized rhsSized
  have sized := operation.sized_compute opcode.rhsId (modulus : Int) lhsSized rhsSized
  have loaded : core.pkaLoadOperands opcode operation =
      (core.pkaSramWindow (core.pkaPhysRegBase opcode.lhsId) (core.pkaLenWords opcode.sizeId),
        immediateWords opcode.rhsId true (core.pkaLenWords opcode.sizeId)) := by
    unfold pkaLoadOperands pkaLoadOperand
    dsimp only
    rw [operands.lhs, operands.rhs]
    obtain rfl | rfl := kind <;> rfl
  have stored : pkaStores opcode (operation.compute opcode.rhsId
      (core.pkaLenWords opcode.sizeId) modulus (core.pkaLoadOperands opcode operation).1
      (core.pkaLoadOperands opcode operation).2) =
        [(opcode.resultId, (operation.compute opcode.rhsId (core.pkaLenWords opcode.sizeId) modulus
          (core.pkaLoadOperands opcode operation).1
          (core.pkaLoadOperands opcode operation).2).result)] := by
    have back := isSome_storedBack_compute operation opcode.rhsId
      (core.pkaLenWords opcode.sizeId) (modulus : Int) (core.pkaLoadOperands opcode operation).1
      (core.pkaLoadOperands opcode operation).2
    have none : operation ≠ .div := by
      obtain rfl | rfl := kind <;> decide
    rw [decide_eq_false none, Option.isSome_eq_false_iff, Option.isNone_iff_eq_none] at back
    rw [pkaStores, back, operands.kept]
    rfl
  obtain ⟨regs, -⟩ := core.pkaModulusFor_same operation (core.pkaLenWords opcode.sizeId)
  unfold pkaExecute
  dsimp only
  rw [looked, stored, pkaRegister_congr (samePka_pkaUpdateStatus _ _).sram
    (pkaPhysRegBase_pkaUpdateStatus _ _)]
  have result := @pkaRegister_pkaStoreOperand _
    (core.pkaModulusFor operation (core.pkaLenWords opcode.sizeId)).2
    (core.pkaLenWords opcode.sizeId) opcode.resultId _ sized.result
    ((inSram_congr regs _).mpr operands.inside)
  change ((Core.pkaRegister (pkaStoreOperand _ _ _) _ _ : Nat) : Int) = _
  rw [result, represents.result, result_meaning kind, loaded, value_immediateWords _ nonempty]
  rfl

theorem pkaModulusFor_congr {core : Core Memory} (operation : PkaOperation) {words : Nat}
    {sram : Nat → BitVec 32}
    (sameN : Core.pkaRegister { core with pkaSram := sram } 0 words = core.pkaRegister 0 words) :
    (Core.pkaModulusFor { core with pkaSram := sram } operation words).1 =
      (core.pkaModulusFor operation words).1 := by
  have fresh : Core.pkaFreshModulus { core with pkaSram := sram } words =
      core.pkaFreshModulus words := by
    rw [pkaFreshModulus_eq, pkaFreshModulus_eq, sameN]
  unfold pkaModulusFor pkaModulusValue
  split
  · dsimp only
    split
    · rfl
    · exact fresh
  · rfl

/-- What is added to the left register. -/
def addend (operation : PkaOperation) (rhs : Int) : Int :=
  if operation = .modAddModInc then rhs else -rhs

theorem combine_eq (operation : PkaOperation) (lhs rhs : Int) :
    operation.combine lhs rhs = lhs + addend operation rhs := by
  unfold PkaOperation.combine addend
  split
  · rfl
  · exact sub_eq_add_neg lhs rhs

theorem immediateServes_iff {core : Core Memory} {opcode : PkaOpcode} {operation : PkaOperation}
    (kind : operation = .modAddModInc ∨ operation = .modSubModDecModNeg) {modulus : Nat}
    (positive : 0 < core.pkaRegister 0 (core.pkaLenWords opcode.sizeId))
    (which : if core.pkaModulusCache.valid = true ∧
        core.pkaModulusCache.key = core.pkaLenWords opcode.sizeId then
      core.pkaModulusCache.value = modulus
      else modulus = core.pkaRegister 0 (core.pkaLenWords opcode.sizeId)) :
    core.ImmediateServes opcode ↔
      workingModulus (core.pkaLenWords opcode.sizeId) modulus =
          core.pkaRegister 0 (core.pkaLenWords opcode.sizeId) ∧
        (core.pkaRegister 0 (core.pkaLenWords opcode.sizeId) : Int) ∣
          addend operation (signedImmediateValue opcode.rhsId) -
            addend operation (signedImmediateValue opcode.rhsId +
              if signedImmediateValue opcode.rhsId < 0 then
                2 ^ (32 * core.pkaLenWords opcode.sizeId) else 0) := by
  have below := core.pkaRegister_lt 0 (core.pkaLenWords opcode.sizeId)
  unfold ImmediateServes
  generalize core.pkaRegister 0 (core.pkaLenWords opcode.sizeId) = N at positive which below ⊢
  generalize core.pkaLenWords opcode.sizeId = words at which below ⊢
  have current : (core.pkaModulusCache.valid = true → core.pkaModulusCache.key = words →
      core.pkaModulusCache.value = N) ↔ workingModulus words modulus = N := by
    have works : workingModulus words modulus = N ↔ modulus = N := by
      unfold workingModulus
      split <;> omega
    rw [works]
    split_ifs at which with hit
    · rw [which]
      constructor
      · exact fun serves => by exact_mod_cast serves hit.1 hit.2
      · exact fun same _ _ => by exact_mod_cast same
    · exact iff_of_true (fun valid key => absurd ⟨valid, key⟩ hit) which
  refine and_congr current ?_
  -- The spread immediate differs by 2^(32 * words) or not at all.
  by_cases negative : signedImmediateValue opcode.rhsId < 0
  · have cast : ((2 ^ (32 * words) : Nat) : Int) = 2 ^ (32 * words) := by push_cast; rfl
    simp only [negative, true_implies, if_true]
    rw [← Int.natCast_dvd_natCast, cast]
    obtain rfl | rfl := kind
    · simp only [addend, if_true, sub_add_cancel_left, dvd_neg]
    · simp only [addend, reduceCtorEq, if_false, neg_add_rev]
      rw [show -signedImmediateValue opcode.rhsId -
        (-2 ^ (32 * words) + -signedImmediateValue opcode.rhsId) = 2 ^ (32 * words) by ring]
  · simp [negative]

/-- In a state that a run from reset comes to, with an opcode just written, a modular addition or
subtraction of an immediate stores the residue for the signed value of the immediate, for all
numbers in the left register, if the modulus and the immediate serve, and only if they do when
the left register can hold all numbers beside N. -/
theorem executePkaOpcode_immediate_iff {bus : Bus Memory} {memory : Memory}
    {accesses : List RegisterAccess} {reached core : Core Memory} {value : BitVec 32}
    {operation : PkaOperation}
    (runs : run (step bus) (reset memory) accesses = some reached)
    (written : core = reached.store32 pkaOpcode value)
    (decoded : PkaOperation.decode (PkaOpcode.decode value).op = some operation)
    (kind : operation = .modAddModInc ∨ operation = .modSubModDecModNeg)
    (operands : core.ImmediateOperands (PkaOpcode.decode value))
    (positive : 0 < core.pkaRegister 0 (core.pkaLenWords (PkaOpcode.decode value).sizeId)) :
    (core.ImmediateServes (PkaOpcode.decode value) → core.ImmediateExact value operation) ∧
      (core.InSram (core.pkaLenWords (PkaOpcode.decode value).sizeId) 0 →
        core.InSram (core.pkaLenWords (PkaOpcode.decode value).sizeId)
          (PkaOpcode.decode value).lhsId →
        core.WindowsApart (core.pkaLenWords (PkaOpcode.decode value).sizeId)
          (PkaOpcode.decode value).lhsId 0 →
        core.ImmediateExact value operation → core.ImmediateServes (PkaOpcode.decode value)) := by
  have fits : core.FitsCache := by
    rw [written]
    exact fitsCache_congr (fitsCache_run runs) rfl
  have modular : operation.isModular = true := by
    obtain rfl | rfl := kind <;> rfl
  have modulusBelow := core.pkaRegister_lt 0 (core.pkaLenWords (PkaOpcode.decode value).sizeId)
  have nonempty : 0 < core.pkaLenWords (PkaOpcode.decode value).sizeId := by
    by_contra none
    rw [Nat.eq_zero_of_not_pos none] at modulusBelow positive
    rw [Nat.mul_zero, Nat.pow_zero] at modulusBelow
    omega
  obtain ⟨modulus, looked, below, which⟩ := exists_modulus fits operation
    (core.pkaLenWords (PkaOpcode.decode value).sizeId)
  rw [immediateServes_iff kind positive (which modular),
    ← residues_agree_iff positive modulusBelow]
  have stores {sram : Nat → BitVec 32} (sameN : Core.pkaRegister { core with pkaSram := sram } 0
      (core.pkaLenWords (PkaOpcode.decode value).sizeId) =
        core.pkaRegister 0 (core.pkaLenWords (PkaOpcode.decode value).sizeId)) :=
    @pkaRegister_executePkaOpcode _ { core with pkaSram := sram } value operation decoded kind
      ⟨operands.lhs, operands.rhs, operands.kept, operands.inside⟩ nonempty modulus
      ((pkaModulusFor_congr operation sameN).trans looked) below
  constructor
  · intro agree sram sameN
    rw [combine_eq]
    refine (stores sameN).trans ?_
    rw [combine_eq]
    exact agree _ (Core.pkaRegister_lt { core with pkaSram := sram } _ _)
  · intro inside lhsInside apart exact number small
    have fitsStores : core.FitStores (core.pkaLenWords (PkaOpcode.decode value).sizeId)
        [((PkaOpcode.decode value).lhsId, pkaIntToWords number
          (core.pkaLenWords (PkaOpcode.decode value).sizeId))] := by
      constructor <;> simp [lhsInside]
    obtain ⟨sram, sameN, held⟩ := exists_sram_of_stores fitsStores (List.pairwise_singleton _ _)
      inside (by rintro store member; rwa [List.mem_singleton.mp member])
    have left := (held _ (List.mem_singleton_self _)).trans (value_pkaIntToWords_of_lt small)
    have agrees := (stores sameN).symm.trans (exact sram sameN)
    rw [combine_eq, combine_eq] at agrees
    rw [← left]
    exact agrees

/-- An immediate of minus one is subtracted from register 1 modulo N, for a word of N that is
seven. -/
theorem executePkaOpcode_immediate_iff_minus_one :
    ∃ reached, run (step Bus.ram) (reset fun _ => 0)
        [.writeWord pkaLBase 32, .writeWord 4 1, .writeWord 8 2, .writeWord pkaSramWdata 7] =
          some reached ∧
      ((ImmediateServes (reached.store32 pkaOpcode 0x3807f080) (PkaOpcode.decode 0x3807f080) →
          ImmediateExact (reached.store32 pkaOpcode 0x3807f080) 0x3807f080 .modSubModDecModNeg) ∧
        (ImmediateExact (reached.store32 pkaOpcode 0x3807f080) 0x3807f080 .modSubModDecModNeg →
          ImmediateServes (reached.store32 pkaOpcode 0x3807f080)
            (PkaOpcode.decode 0x3807f080))) := by
  have outcome : (run (step Bus.ram) (reset fun _ => 0)
      [.writeWord pkaLBase 32, .writeWord 4 1, .writeWord 8 2, .writeWord pkaSramWdata 7]).map
        (fun core =>
          ((core.store32 pkaOpcode 0x3807f080).pkaLenWords 0,
            decide (InSram (core.store32 pkaOpcode 0x3807f080) 1 0),
            decide (InSram (core.store32 pkaOpcode 0x3807f080) 1 1),
            decide (InSram (core.store32 pkaOpcode 0x3807f080) 1 2),
            decide (WindowsApart (core.store32 pkaOpcode 0x3807f080) 1 1 0),
            (core.store32 pkaOpcode 0x3807f080).pkaRegister 0 1)) =
      some (1, true, true, true, true, 7) := by decide +kernel
  obtain ⟨reached, runs, values⟩ := Option.map_eq_some_iff.mp outcome
  simp only [Prod.mk.injEq, decide_eq_true_eq] at values
  obtain ⟨words, modulusInside, lhsInside, resultInside, apart, modulus⟩ := values
  have fields : PkaOpcode.decode 0x3807f080 =
      { op := 0x07, sizeId := 0, lhsImmediate := false, lhsId := 1, rhsImmediate := true,
        rhsId := 0x1f, discardResult := false, resultId := 2 } := by decide
  have both := executePkaOpcode_immediate_iff runs rfl
    (show PkaOperation.decode (PkaOpcode.decode 0x3807f080).op = some .modSubModDecModNeg by decide)
    (.inr rfl)
    ⟨by rw [fields], by rw [fields], by rw [fields], by rw [fields, words]; exact resultInside⟩
    (by rw [fields, words, modulus]; decide)
  rw [fields, words] at both
  rw [fields]
  exact ⟨reached, runs, both.1, both.2 modulusInside lhsInside apart⟩

/-- Minus one is added to zero modulo seven, in operands of one word: the spread immediate is
2^32 - 1, whose residue is three. -/
theorem not_immediateExact_minus_one :
    ∃ reached, run (step Bus.ram) (reset fun _ => 0)
        [.writeWord pkaLBase 32, .writeWord 4 1, .writeWord 8 2, .writeWord pkaSramWdata 7] =
          some reached ∧
      ImmediateOperands (reached.store32 pkaOpcode 0x3007f080) (PkaOpcode.decode 0x3007f080) ∧
      (reached.store32 pkaOpcode 0x3007f080).pkaRegister 0 1 = 7 ∧
      ¬ImmediateExact (reached.store32 pkaOpcode 0x3007f080) 0x3007f080 .modAddModInc := by
  have outcome : (run (step Bus.ram) (reset fun _ => 0)
      [.writeWord pkaLBase 32, .writeWord 4 1, .writeWord 8 2, .writeWord pkaSramWdata 7]).map
        (fun core =>
          ((core.store32 pkaOpcode 0x3007f080).pkaLenWords 0,
            decide (InSram (core.store32 pkaOpcode 0x3007f080) 1 2),
            (core.store32 pkaOpcode 0x3007f080).pkaRegister 0 1,
            (core.store32 pkaOpcode 0x3007f080).pkaRegister 1 1,
            ((core.store32 pkaOpcode 0x3007f080).executePkaOpcode 0x3007f080).pkaRegister 2 1)) =
      some (1, true, 7, 0, 3) := by decide +kernel
  obtain ⟨reached, runs, values⟩ := Option.map_eq_some_iff.mp outcome
  simp only [Prod.mk.injEq, decide_eq_true_eq] at values
  obtain ⟨words, resultInside, modulus, left, stored⟩ := values
  have fields : PkaOpcode.decode 0x3007f080 =
      { op := 0x06, sizeId := 0, lhsImmediate := false, lhsId := 1, rhsImmediate := true,
        rhsId := 0x1f, discardResult := false, resultId := 2 } := by decide
  refine ⟨reached, runs, ?_, modulus, ?_⟩
  · rw [fields]
    exact ⟨rfl, rfl, rfl, by rw [words]; exact resultInside⟩
  · intro exact
    unfold ImmediateExact at exact
    rw [fields] at exact
    dsimp only at exact
    rw [words] at exact
    have result := exact (reached.store32 pkaOpcode 0x3007f080).pkaSram rfl
    rw [stored, left, modulus] at result
    revert result
    decide

end Core

end QboxPlatform.Cc3xx
