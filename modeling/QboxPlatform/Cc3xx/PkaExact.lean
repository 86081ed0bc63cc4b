import QboxPlatform.Cc3xx.PkaWindows

/-!
# The operations on registers

An operation stores the number that it means into its result register, a division its remainder
into the left one, and the status has the flags of the numbers.  All of this holds for the modulus
that the operation looks up.  It holds for N when the cached modulus is N, and by the choice of
the operands it fails otherwise.
-/

namespace QboxPlatform.Cc3xx

open Foundation

/-- The inverse is that of the right operand. -/
def PkaOperation.usesLhs (operation : PkaOperation) : Bool := operation ≠ .modInv

def PkaOperation.usesRhs (operation : PkaOperation) : Bool :=
  !operation.isShift && operation ≠ .reduction

/-- The registers that an operation reads and stores, N included. -/
def PkaOpcode.registers (opcode : PkaOpcode) (operation : PkaOperation) : List (BitVec 32) :=
  (if operation.isModular then [0] else []) ++
    (if operation.usesLhs then [opcode.lhsId] else []) ++
    (if operation.usesRhs then [opcode.rhsId] else []) ++
    if opcode.discardResult then [] else [opcode.resultId]

/-- The meaning depends on the operands that the operation uses. -/
theorem PkaOperation.meaning_congr (operation : PkaOperation) (amount words : Nat)
    {modulus modulus' lhs lhs' rhs rhs' : Nat}
    (sameModulus : operation.isModular = true → modulus = modulus')
    (sameLhs : operation.usesLhs = true → lhs = lhs')
    (sameRhs : operation.usesRhs = true → rhs = rhs') :
    operation.meaning amount words modulus lhs rhs =
      operation.meaning amount words modulus' lhs' rhs' := by
  cases operation
  case modInv =>
    obtain rfl := sameModulus rfl
    obtain rfl := sameRhs rfl
    rfl
  all_goals
    simp only [isModular, usesLhs, usesRhs, isShift] at sameModulus sameLhs sameRhs
    simp_all [meaning]

namespace Core

variable {Memory : Type}

/-- A flag of the status. -/
def statusFlag (core : Core Memory) (mask : BitVec 32) : Bool :=
  core.load32 pkaStatus &&& mask != 0

/-- An operation on numbers of `words` words has the outcome that it means. -/
structure Executed (before after : Core Memory) (opcode : PkaOpcode) (words : Nat)
    (meaning : PkaMeaning) : Prop where
  result : opcode.discardResult = false →
    after.pkaRegister opcode.resultId words = meaning.result
  remainder : ∀ number ∈ meaning.remainder, after.pkaRegister opcode.lhsId words = number
  carry : after.statusFlag pkaStatusAluCarry = meaning.carry
  zero : after.statusFlag pkaStatusAluOutZero = decide (meaning.result = 0)
  sign : after.statusFlag pkaStatusAluSignOut = meaning.sign
  divByZero : after.statusFlag pkaStatusDivByZero = meaning.divByZero
  mapping : ∀ physReg, after.pkaPhysRegBase physReg = before.pkaPhysRegBase physReg
  unchanged : ∀ address,
    (opcode.discardResult = false → before.OutsideWindow words opcode.resultId address) →
      (meaning.remainder.isSome = true → before.OutsideWindow words opcode.lhsId address) →
        after.pkaSram address = before.pkaSram address

/-- The operands are registers whose windows lie in the SRAM and are disjoint. -/
structure RegisterOperands (core : Core Memory) (opcode : PkaOpcode) (operation : PkaOperation) :
    Prop where
  lhs : operation.usesLhs = true → opcode.lhsImmediate = false
  rhs : operation.usesRhs = true → opcode.rhsImmediate = false
  inside : ∀ physReg ∈ opcode.registers operation,
    core.InSram (core.pkaLenWords opcode.sizeId) physReg
  apart : (opcode.registers operation).Pairwise (core.WindowsApart (core.pkaLenWords opcode.sizeId))

/-- The number that an operation means for the numbers in its registers. -/
def registerMeaning (core : Core Memory) (opcode : PkaOpcode) (operation : PkaOperation)
    (modulus : Nat) : PkaMeaning :=
  operation.meaning (opcode.rhsId.toNat + 1) (core.pkaLenWords opcode.sizeId) modulus
    (core.pkaRegister opcode.lhsId (core.pkaLenWords opcode.sizeId))
    (core.pkaRegister opcode.rhsId (core.pkaLenWords opcode.sizeId))

/-- `execute_pka_opcode` has the outcome that the operation means, with N in register 0. -/
def ExactAt (core : Core Memory) (value : BitVec 32) (operation : PkaOperation) : Prop :=
  let opcode := PkaOpcode.decode value
  let words := core.pkaLenWords opcode.sizeId
  Executed core (core.executePkaOpcode value) opcode words
    (core.registerMeaning opcode operation (core.pkaRegister 0 words))

/-- The operation is exact for all numbers in the operands, for the N that register 0 holds. -/
def Exact (core : Core Memory) (value : BitVec 32) (operation : PkaOperation) : Prop :=
  ∀ sram, Core.pkaRegister { core with pkaSram := sram } 0
      (core.pkaLenWords (PkaOpcode.decode value).sizeId) =
        core.pkaRegister 0 (core.pkaLenWords (PkaOpcode.decode value).sizeId) →
    ExactAt { core with pkaSram := sram } value operation

/-! ### The cached modulus is a number of its size -/

/-- The cached value fits into the cached word count. -/
def FitsCache (core : Core Memory) : Prop :=
  core.pkaModulusCache.valid = true →
    ∃ number : Nat, core.pkaModulusCache.value = number ∧
      number < 2 ^ (32 * core.pkaModulusCache.key)

theorem fitsCache_congr {before after : Core Memory} (fits : before.FitsCache)
    (same : after.pkaModulusCache = before.pkaModulusCache) : after.FitsCache := by
  rw [FitsCache, same]
  exact fits

theorem fitsCache_of_invalid {core : Core Memory} (invalid : core.pkaModulusCache.valid = false) :
    core.FitsCache := by
  intro valid
  rw [invalid] at valid
  cases valid

theorem pkaFreshModulus_eq (core : Core Memory) (words : Nat) :
    core.pkaFreshModulus words = core.pkaRegister 0 words := pkaWordsToInt_eq _

theorem fitsCache_pkaModulusFor {core : Core Memory} (fits : core.FitsCache)
    (operation : PkaOperation) (words : Nat) :
    (core.pkaModulusFor operation words).2.FitsCache := by
  unfold pkaModulusFor pkaModulusValue
  split
  · split
    · exact fits
    · intro _
      exact ⟨core.pkaRegister 0 words, core.pkaFreshModulus_eq words, core.pkaRegister_lt 0 words⟩
  · exact fits

theorem fitsCache_pkaStoreAll {core : Core Memory} (fits : core.FitsCache)
    (stores : List (BitVec 32 × Operand)) : (core.pkaStoreAll stores).FitsCache := by
  induction stores generalizing core with
  | nil => exact fits
  | cons store rest inductionHypothesis =>
      apply inductionHypothesis
      obtain ⟨-, dropped⟩ | ⟨-, kept⟩ := core.pkaStoreOperand_cache store.1 store.2
      · exact fitsCache_of_invalid (by rw [dropped])
      · exact fitsCache_congr fits kept

theorem fitsCache_executePkaOpcode {core : Core Memory} (fits : core.FitsCache)
    (value : BitVec 32) : (core.executePkaOpcode value).FitsCache := by
  unfold executePkaOpcode
  dsimp only
  split
  · exact fits
  · split
    · exact fitsCache_congr (fitsCache_pkaStoreAll (fitsCache_pkaModulusFor fits _ _) _)
        (samePka_pkaUpdateStatus _ _).cache
    · exact fitsCache_congr fits (samePka_pkaUpdateStatus _ _).cache

theorem fitsCache_pkaSwResetWrite (core : Core Memory) (value : BitVec 32) :
    (core.pkaSwResetWrite value).FitsCache := by
  refine fitsCache_congr (fitsCache_of_invalid rfl) (SamePka.storeAll _ ?_).cache
  simp [pkaStatus, pkaPipeRdy, pkaDone]

theorem fitsCache_pkaSramDataWrite {core : Core Memory} (fits : core.FitsCache)
    (value : BitVec 32) : (core.pkaSramDataWrite value).FitsCache := by
  unfold pkaSramDataWrite pkaSramWrite
  dsimp only
  split
  · exact fitsCache_of_invalid rfl
  · exact fitsCache_congr fits rfl

theorem fitsCache_write32 {bus : Bus Memory} {core : Core Memory} (fits : core.FitsCache)
    {offset : Nat} (value : BitVec 32) (aligned : offset % 4 = 0) :
    (core.write32 bus offset value).FitsCache := by
  by_cases elsewhere : reachesPka offset
  · obtain rfl | rfl | rfl | rfl := elsewhere
    · exact fitsCache_of_invalid rfl
    · exact fitsCache_pkaSwResetWrite core value
    · exact fitsCache_pkaSramDataWrite fits value
    · have stored : (core.store32 pkaOpcode value).FitsCache := fitsCache_congr fits rfl
      exact fitsCache_executePkaOpcode stored value
  · exact fitsCache_congr fits (samePka_write32 bus core value aligned elsewhere).cache

theorem fitsCache_step {bus : Bus Memory} (core : Core Memory) (access : RegisterAccess)
    (next : Core Memory) (fits : core.FitsCache) (stepped : step bus core access = some next) :
    next.FitsCache := by
  unfold step respond at stepped
  by_cases rejected : access.rejected = true
  · rw [if_pos rejected] at stepped
    cases stepped
    exact fits
  rw [if_neg rejected] at stepped
  by_cases inside : access.inside = true
  · rw [if_pos inside] at stepped
    cases access with
    | read offset len debug =>
        cases stepped
        exact fitsCache_congr fits (samePka_read core _ _ _).cache
    | write offset data =>
        cases stepped
        unfold Core.write
        by_cases word : RegisterAccess.isWordWrite offset data = true
        · rw [if_pos word]
          simp only [RegisterAccess.isWordWrite, Bool.and_eq_true, beq_iff_eq] at word
          exact fitsCache_write32 fits _ word.2
        · rw [if_neg word]
          exact fitsCache_congr fits rfl
  · rw [if_neg inside] at stepped
    cases stepped

theorem fitsCache_reset (memory : Memory) : (reset memory).FitsCache :=
  fitsCache_congr (fitsCache_of_invalid rfl) (SamePka.storeAll _ (by decide)).cache

/-- In every state of a run from reset the cached modulus fits into its word count. -/
theorem fitsCache_run {bus : Bus Memory} {memory : Memory} {accesses : List RegisterAccess}
    {core : Core Memory} (reached : run (step bus) (reset memory) accesses = some core) :
    core.FitsCache :=
  run_invariant fitsCache_step (fitsCache_reset memory) reached

/-! ### One operation -/

/-- The looked-up modulus is the cached one or N. -/
theorem exists_modulus {core : Core Memory} (fits : core.FitsCache) (operation : PkaOperation)
    (words : Nat) :
    ∃ modulus : Nat, (core.pkaModulusFor operation words).1 = modulus ∧
      modulus < 2 ^ (32 * words) ∧
      (operation.isModular = true →
        if core.pkaModulusCache.valid = true ∧ core.pkaModulusCache.key = words then
          core.pkaModulusCache.value = modulus
        else modulus = core.pkaRegister 0 words) := by
  unfold pkaModulusFor pkaModulusValue
  by_cases modular : operation.isModular = true
  · rw [if_pos modular]
    by_cases hit : core.pkaModulusCache.valid = true ∧ core.pkaModulusCache.key = words
    · obtain ⟨number, value, below⟩ := fits hit.1
      rw [hit.2] at below
      simp only [if_pos hit]
      exact ⟨number, value, below, fun _ => value⟩
    · simp only [if_neg hit]
      exact ⟨core.pkaRegister 0 words, core.pkaFreshModulus_eq words, core.pkaRegister_lt 0 words,
        fun _ => rfl⟩
  · rw [if_neg modular]
    exact ⟨0, rfl, Nat.two_pow_pos _, fun other => absurd other modular⟩

theorem pkaModulusFor_same (core : Core Memory) (operation : PkaOperation) (words : Nat) :
    (core.pkaModulusFor operation words).2.regs = core.regs ∧
      (core.pkaModulusFor operation words).2.pkaSram = core.pkaSram := by
  unfold pkaModulusFor pkaModulusValue
  split
  · split <;> exact ⟨rfl, rfl⟩
  · exact ⟨rfl, rfl⟩

/-- The status that an outcome leaves. -/
theorem load32_pkaUpdateStatus (core : Core Memory) (outcome : PkaOutcome) :
    (core.pkaUpdateStatus outcome).load32 pkaStatus =
      0x1 ||| (if outcome.sign then pkaStatusAluSignOut else 0) |||
        (if outcome.carry then pkaStatusAluCarry else 0) |||
        (if pkaIsZero outcome.result then pkaStatusAluOutZero else 0) |||
        (if outcome.divByZero then pkaStatusDivByZero else 0) := by
  unfold pkaUpdateStatus
  dsimp only
  rw [storeAll_cons, load32_storeAll_of_disjoint]
  · exact core.regs.load32_store32 _ _
  · simp [pkaStatus, pkaPipeRdy, pkaDone]

theorem statusFlag_pkaUpdateStatus (core : Core Memory) (outcome : PkaOutcome) :
    (core.pkaUpdateStatus outcome).statusFlag pkaStatusAluCarry = outcome.carry ∧
      (core.pkaUpdateStatus outcome).statusFlag pkaStatusAluOutZero = pkaIsZero outcome.result ∧
      (core.pkaUpdateStatus outcome).statusFlag pkaStatusAluSignOut = outcome.sign ∧
      (core.pkaUpdateStatus outcome).statusFlag pkaStatusDivByZero = outcome.divByZero := by
  simp only [statusFlag, load32_pkaUpdateStatus]
  cases outcome.sign <;> cases outcome.carry <;> cases pkaIsZero outcome.result <;>
    cases outcome.divByZero <;> decide

theorem pkaPhysRegBase_pkaUpdateStatus (core : Core Memory) (outcome : PkaOutcome)
    (physReg : BitVec 32) :
    (core.pkaUpdateStatus outcome).pkaPhysRegBase physReg = core.pkaPhysRegBase physReg := by
  unfold pkaPhysRegBase
  split
  · rfl
  · apply load32_storeAll_of_disjoint
    simp only [List.mem_cons, List.not_mem_nil, or_false, pkaStatus, pkaPipeRdy, pkaDone]
    rintro store (rfl | rfl | rfl) <;> dsimp only <;> omega

/-- The registers stored to are among those of the operation. -/
theorem sublist_storedRegs (opcode : PkaOpcode) (operation : PkaOperation) :
    (storedRegs opcode operation).Sublist (opcode.registers operation) := by
  refine List.Sublist.append ?_ (List.Sublist.refl _)
  split
  · rename_i division
    rw [division.1]
    simp [PkaOperation.isModular, PkaOperation.usesLhs]
  · exact List.nil_sublist _

theorem length_pkaLoadOperands (core : Core Memory) (opcode : PkaOpcode)
    (operation : PkaOperation) :
    (core.pkaLoadOperands opcode operation).1.length = core.pkaLenWords opcode.sizeId ∧
      (core.pkaLoadOperands opcode operation).2.length = core.pkaLenWords opcode.sizeId := by
  refine ⟨core.length_pkaLoadOperand _ _ _ _, ?_⟩
  unfold pkaLoadOperands
  dsimp only
  split
  · exact List.length_replicate
  · exact core.length_pkaLoadOperand _ _ _ _

/-- On register operands the outcome represents what the operation means. -/
theorem represents_registers {core : Core Memory} {opcode : PkaOpcode} {operation : PkaOperation}
    (operands : core.RegisterOperands opcode operation) {modulus : Nat}
    (below : modulus < 2 ^ (32 * core.pkaLenWords opcode.sizeId)) :
    (operation.compute opcode.rhsId (core.pkaLenWords opcode.sizeId) modulus
      (core.pkaLoadOperands opcode operation).1
      (core.pkaLoadOperands opcode operation).2).Represents
        (core.registerMeaning opcode operation modulus) := by
  obtain ⟨lhsSized, rhsSized⟩ := core.length_pkaLoadOperands opcode operation
  have same : core.registerMeaning opcode operation modulus =
      operation.meaning (opcode.rhsId.toNat + 1) (core.pkaLenWords opcode.sizeId) modulus
        (Words.value (core.pkaLoadOperands opcode operation).1)
        (Words.value (core.pkaLoadOperands opcode operation).2) := by
    apply PkaOperation.meaning_congr
    · exact fun _ => rfl
    · intro used
      rw [pkaLoadOperands, operands.lhs used]
      rfl
    · intro used
      have loaded : operation.isShift = false := by
        simp only [PkaOperation.usesRhs, Bool.and_eq_true, Bool.not_eq_true'] at used
        exact used.1
      rw [pkaLoadOperands, operands.rhs used, loaded]
      rfl
  rw [same]
  exact operation.represents_compute opcode.rhsId below.le lhsSized rhsSized

/-- An operation has the outcome that it means for the modulus that it looks up. -/
theorem executed_pkaExecute {core : Core Memory} {opcode : PkaOpcode} {operation : PkaOperation}
    (operands : core.RegisterOperands opcode operation) {modulus : Nat}
    (looked : (core.pkaModulusFor operation (core.pkaLenWords opcode.sizeId)).1 = modulus)
    (below : modulus < 2 ^ (32 * core.pkaLenWords opcode.sizeId)) :
    Executed core (core.pkaExecute opcode operation) opcode (core.pkaLenWords opcode.sizeId)
      (core.registerMeaning opcode operation modulus) := by
  have represents := represents_registers operands below
  obtain ⟨lhsSized, rhsSized⟩ := core.length_pkaLoadOperands opcode operation
  have sized := operation.sized_compute opcode.rhsId (modulus : Int) lhsSized rhsSized
  have back := isSome_storedBack_compute operation opcode.rhsId
    (core.pkaLenWords opcode.sizeId) (modulus : Int) (core.pkaLoadOperands opcode operation).1
    (core.pkaLoadOperands opcode operation).2
  have stored := map_fst_pkaStores opcode operation (core.pkaLenWords opcode.sizeId)
    (modulus : Int) (core.pkaLoadOperands opcode operation).1
    (core.pkaLoadOperands opcode operation).2
  obtain ⟨regs, sram⟩ := core.pkaModulusFor_same operation (core.pkaLenWords opcode.sizeId)
  unfold pkaExecute
  dsimp only
  rw [looked]
  generalize (core.pkaModulusFor operation (core.pkaLenWords opcode.sizeId)).2 = ready
    at regs sram ⊢
  generalize core.registerMeaning opcode operation modulus = meaning at represents ⊢
  generalize operation.compute opcode.rhsId (core.pkaLenWords opcode.sizeId) modulus
    (core.pkaLoadOperands opcode operation).1
    (core.pkaLoadOperands opcode operation).2 = outcome at represents sized back stored ⊢
  have among := sublist_storedRegs opcode operation
  rw [← stored] at among
  have fits : ready.FitStores (core.pkaLenWords opcode.sizeId) (pkaStores opcode outcome) :=
    { sized := sized_pkaStores sized
      inside := fun store member => (inSram_congr regs store.1).mpr
        (operands.inside store.1 (among.subset (List.mem_map_of_mem member))) }
  have apart := (operands.apart.sublist among).imp
    fun {left right} => (windowsApart_congr regs left right).mpr
  -- The status changes no register.
  have final := pkaRegister_congr
    (samePka_pkaUpdateStatus (ready.pkaStoreAll (pkaStores opcode outcome)) outcome).sram
    (pkaPhysRegBase_pkaUpdateStatus _ outcome)
  obtain ⟨carry, zero, sign, divByZero⟩ :=
    statusFlag_pkaUpdateStatus (ready.pkaStoreAll (pkaStores opcode outcome)) outcome
  -- Only a division stores a remainder, and it has a left operand.
  have register (held : outcome.storedBack.isSome = true) : opcode.lhsImmediate = false := by
    rw [back, decide_eq_true_iff] at held
    exact operands.lhs (by rw [held]; rfl)
  refine ⟨?_, ?_, ?_, ?_, ?_, ?_, ?_, ?_⟩
  · intro kept
    have member : (opcode.resultId, outcome.result) ∈ pkaStores opcode outcome := by
      simp [pkaStores, kept]
    rw [final, pkaRegister_pkaStoreAll fits apart member, represents.result]
  · intro number means
    rw [← represents.storedBack] at means
    obtain ⟨data, held, rfl⟩ := Option.map_eq_some_iff.mp means
    have member : (opcode.lhsId, data) ∈ pkaStores opcode outcome := by
      simp [pkaStores, held, register (by rw [held]; rfl)]
    rw [final, pkaRegister_pkaStoreAll fits apart member]
  · rw [carry, represents.carry]
  · rw [zero, pkaIsZero_eq, represents.result]
  · rw [sign, represents.sign]
  · rw [divByZero, represents.divByZero]
  · intro physReg
    rw [pkaPhysRegBase_pkaUpdateStatus, pkaPhysRegBase_congr (pkaStoreAll_regs _ _),
      pkaPhysRegBase_congr regs]
  · intro address resultOutside lhsOutside
    rw [(samePka_pkaUpdateStatus _ outcome).sram, pkaStoreAll_pkaSram fits, sram]
    intro store member
    rw [outsideWindow_congr regs]
    rcases List.mem_append.mp member with returned | result
    · cases held : outcome.storedBack with
      | none => simp [held] at returned
      | some data =>
          obtain ⟨-, rfl⟩ : opcode.lhsImmediate = false ∧ store = (opcode.lhsId, data) := by
            simpa [held] using returned
          exact lhsOutside (by rw [← represents.storedBack, held]; rfl)
    · obtain ⟨kept, rfl⟩ :
          opcode.discardResult = false ∧ store = (opcode.resultId, outcome.result) := by
        simpa using result
      exact resultOutside kept

end Core

end QboxPlatform.Cc3xx
