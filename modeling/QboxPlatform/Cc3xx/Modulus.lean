import QboxPlatform.Cc3xx.PkaFrame
import QboxPlatform.Foundation.Run

/-!
# The cached modulus

Every writer of the modulus has its own test for dropping the cached value.  Two of the tests
fall short: `pka_store_operand` compares the addresses with the size of the operation that
stores, not with the size that is cached, and does not let them wrap, and the plain copy of the
narrow and the wide writes has no test at all.  A run in which neither happens keeps the cache
equal to the modulus in the SRAM.
-/

namespace QboxPlatform.Cc3xx

open Foundation

namespace Core

variable {Memory : Type}

/-- The cache agrees with the SRAM, whatever word count is asked for. -/
def ModulusTransparent (core : Core Memory) : Prop :=
  ∀ words, (core.pkaModulusValue words).1 =
    pkaWordsToInt (core.pkaLoadOperand false 0 words false)

/-- The entry that is marked valid holds the modulus in the SRAM. -/
def ModulusCoherent (core : Core Memory) : Prop :=
  core.pkaModulusCache.Coherent core.pkaFreshModulus

theorem pkaModulusValue_eq (core : Core Memory) (words : Nat) :
    core.pkaModulusValue words =
      ((core.pkaModulusCache.lookup core.pkaFreshModulus words).1,
        { core with
          pkaModulusCache := (core.pkaModulusCache.lookup core.pkaFreshModulus words).2 }) := by
  unfold pkaModulusValue Memo.lookup
  split <;> rfl

theorem modulusTransparent_iff_coherent {core : Core Memory} :
    core.ModulusTransparent ↔ core.ModulusCoherent := by
  rw [ModulusCoherent, ← Memo.transparent_iff_coherent, ModulusTransparent, Memo.Transparent]
  simp only [pkaModulusValue_eq]
  rfl

/-- Some word that an operand of `size` words is stored to is one of the first `window` words
of the modulus.  Addresses wrap, and those past the SRAM are dropped. -/
def ReachesModulus (core : Core Memory) (physReg : BitVec 32) (size window : Nat) : Prop :=
  ∃ index < size,
    (core.pkaPhysRegBase physReg + BitVec.ofNat 32 index).toNat < pkaSramWords ∧
    (core.pkaPhysRegBase physReg + BitVec.ofNat 32 index - core.pkaPhysRegBase 0).toNat < window

/-- The store of an operand drops the cached modulus. -/
def Invalidates (core : Core Memory) (physReg : BitVec 32) (size : Nat) : Prop :=
  core.pkaWritesModulus physReg size = true ∧
    ∃ index < size, (core.pkaPhysRegBase physReg + BitVec.ofNat 32 index).toNat < pkaSramWords

/-- Of the operands stored in turn, each that reaches the first `window` words of the modulus
passes the overlap test, up to the first one that drops the cached modulus. -/
def Noticed (core : Core Memory) (size window : Nat) : List (BitVec 32) → Prop
  | [] => True
  | physReg :: rest =>
      (core.ReachesModulus physReg size window → core.pkaWritesModulus physReg size = true) ∧
        (core.Invalidates physReg size ∨ core.Noticed size window rest)

/-- The registers whose operands an operation stores: a division also stores its remainder. -/
def storedRegs (opcode : PkaOpcode) (operation : PkaOperation) : List (BitVec 32) :=
  (if operation = .div ∧ opcode.lhsImmediate = false then [opcode.lhsId] else []) ++
    if opcode.discardResult then [] else [opcode.resultId]

/-- The word count of the modulus that is cached when an operation comes to store. -/
def cachedWords (core : Core Memory) (opcode : PkaOpcode) (operation : PkaOperation) :
    Option Nat :=
  if operation.isModular then some (core.pkaLenWords opcode.sizeId)
  else if core.pkaModulusCache.valid then some core.pkaModulusCache.key
  else none

/-- The stores of an operation reach no word of the cached modulus unnoticed. -/
def OpcodeKeepsModulus (core : Core Memory) (value : BitVec 32) : Prop :=
  let opcode := PkaOpcode.decode value
  ∀ operation ∈ PkaOperation.decode opcode.op, ∀ window ∈ core.cachedWords opcode operation,
    core.Noticed (core.pkaLenWords opcode.sizeId) window (storedRegs opcode operation)

/-- An access that the invalidation tests are up to: its stores are noticed, and a plain copy
made while the cache is valid leaves mapping register 0 as it is. -/
def KeepsModulus (core : Core Memory) : RegisterAccess → Prop
  | .read .. => True
  | .write offset data =>
      if (RegisterAccess.write offset data).rejected then True
      else if RegisterAccess.isWordWrite offset data then
        offset.toNat = pkaOpcode → core.OpcodeKeepsModulus (ofBytes 32 data)
      else core.pkaModulusCache.valid = true →
        ∀ index < 4, core.regs.write offset.toNat data index = core.regs index

instance (core : Core Memory) (physReg : BitVec 32) (size window : Nat) :
    Decidable (core.ReachesModulus physReg size window) := by
  unfold ReachesModulus
  infer_instance

instance (core : Core Memory) (physReg : BitVec 32) (size : Nat) :
    Decidable (core.Invalidates physReg size) := by
  unfold Invalidates
  infer_instance

instance decidableNoticed (core : Core Memory) (size window : Nat) :
    (registers : List (BitVec 32)) → Decidable (core.Noticed size window registers)
  | [] => isTrue trivial
  | _ :: rest =>
      have := decidableNoticed core size window rest
      instDecidableAnd

instance (core : Core Memory) (value : BitVec 32) : Decidable (core.OpcodeKeepsModulus value) := by
  unfold OpcodeKeepsModulus
  infer_instance

instance (core : Core Memory) : (access : RegisterAccess) → Decidable (core.KeepsModulus access)
  | .read .. => isTrue trivial
  | .write .. => by
      unfold KeepsModulus
      infer_instance

theorem pkaSramWrite_regs (core : Core Memory) (wordAddr value : BitVec 32)
    (invalidateModulus : Bool) :
    (core.pkaSramWrite wordAddr value invalidateModulus).regs = core.regs := by
  unfold pkaSramWrite
  split_ifs <;> rfl

theorem pkaSramWrite_pkaSram (core : Core Memory) (wordAddr value : BitVec 32)
    (invalidateModulus : Bool) {address : Nat} (other : address ≠ wordAddr.toNat) :
    (core.pkaSramWrite wordAddr value invalidateModulus).pkaSram address =
      core.pkaSram address := by
  unfold pkaSramWrite pkaInvalidateModulusCache
  split_ifs <;> simp [Function.update_of_ne other]

theorem pkaSramWrite_cache (core : Core Memory) (wordAddr value : BitVec 32)
    (invalidateModulus : Bool) :
    (core.pkaSramWrite wordAddr value invalidateModulus).pkaModulusCache =
      if wordAddr.toNat < pkaSramWords ∧ invalidateModulus = true then ⟨false, 0, 0⟩
      else core.pkaModulusCache := by
  unfold pkaSramWrite pkaInvalidateModulusCache
  split_ifs <;> simp_all

theorem pkaStoreWords_regs (core : Core Memory) (base : BitVec 32) (writesModulus : Bool)
    (data : Operand) : (core.pkaStoreWords base writesModulus data).regs = core.regs := by
  induction data generalizing core base with
  | nil => rfl
  | cons word rest inductionHypothesis =>
      rw [pkaStoreWords, inductionHypothesis, pkaSramWrite_regs]

/-- The address of a word, counted from the next word on. -/
theorem next_add_ofNat (base : BitVec 32) (index : Nat) :
    base + 1 + BitVec.ofNat 32 index = base + BitVec.ofNat 32 (index + 1) := by
  rw [Nat.add_comm, BitVec.ofNat_add, BitVec.add_assoc]
  rfl

theorem pkaStoreWords_pkaSram (core : Core Memory) (base : BitVec 32) (writesModulus : Bool)
    (data : Operand) {address : Nat}
    (elsewhere : ∀ index < data.length, address ≠ (base + BitVec.ofNat 32 index).toNat) :
    (core.pkaStoreWords base writesModulus data).pkaSram address = core.pkaSram address := by
  induction data generalizing core base with
  | nil => rfl
  | cons word rest inductionHypothesis =>
      have here : address ≠ base.toNat := by simpa using elsewhere 0 (by simp)
      rw [pkaStoreWords, inductionHypothesis _ _ ?_, pkaSramWrite_pkaSram _ _ _ _ here]
      intro index inside
      rw [next_add_ofNat]
      exact elsewhere (index + 1) (by simpa using inside)

theorem pkaStoreWords_cache (core : Core Memory) (base : BitVec 32) (writesModulus : Bool)
    (data : Operand) :
    (core.pkaStoreWords base writesModulus data).pkaModulusCache =
      if writesModulus = true ∧
          ∃ index < data.length, (base + BitVec.ofNat 32 index).toNat < pkaSramWords then
        ⟨false, 0, 0⟩
      else core.pkaModulusCache := by
  induction data generalizing core base with
  | nil => simp [pkaStoreWords]
  | cons word rest inductionHypothesis =>
      rw [pkaStoreWords, inductionHypothesis, pkaSramWrite_cache]
      have first : base + BitVec.ofNat 32 0 = base := BitVec.add_zero base
      simp only [next_add_ofNat, List.length_cons, Nat.exists_lt_succ_left, first]
      cases writesModulus with
      | false => simp
      | true =>
          by_cases here : base.toNat < pkaSramWords
          · simp only [here, true_and, true_or, if_true, ite_self]
          · simp only [here, false_and, false_or, true_and, if_false]

theorem pkaStoreOperand_regs (core : Core Memory) (physReg : BitVec 32) (data : Operand) :
    (core.pkaStoreOperand physReg data).regs = core.regs :=
  core.pkaStoreWords_regs _ _ _

theorem pkaPhysRegBase_congr {first second : Core Memory} (same : first.regs = second.regs)
    (physReg : BitVec 32) : first.pkaPhysRegBase physReg = second.pkaPhysRegBase physReg := by
  rw [pkaPhysRegBase, pkaPhysRegBase, load32, load32, same]

/-- A store that does not drop the cached modulus leaves the cache as it is. -/
theorem pkaStoreOperand_cache (core : Core Memory) (physReg : BitVec 32) (data : Operand) :
    (core.Invalidates physReg data.length ∧
        (core.pkaStoreOperand physReg data).pkaModulusCache = ⟨false, 0, 0⟩) ∨
      (¬core.Invalidates physReg data.length ∧
        (core.pkaStoreOperand physReg data).pkaModulusCache = core.pkaModulusCache) := by
  rw [pkaStoreOperand, pkaStoreWords_cache]
  by_cases dropped : core.Invalidates physReg data.length
  · exact Or.inl ⟨dropped, if_pos dropped⟩
  · exact Or.inr ⟨dropped, if_neg dropped⟩

/-- A store that reaches none of its words leaves the modulus as it is. -/
theorem pkaFreshModulus_pkaStoreOperand (core : Core Memory) (physReg : BitVec 32)
    (data : Operand) {window : Nat}
    (apart : ¬core.ReachesModulus physReg data.length window) :
    (core.pkaStoreOperand physReg data).pkaFreshModulus window = core.pkaFreshModulus window := by
  simp only [pkaFreshModulus, pkaLoadOperand, Bool.false_eq_true, if_false,
    pkaPhysRegBase_congr (core.pkaStoreOperand_regs physReg data), pkaSramWindow]
  congr 1
  apply List.map_congr_left
  intro position member
  have inside := List.mem_range.mp member
  unfold pkaSramRead
  split
  · rename_i inSram
    apply pkaStoreWords_pkaSram
    intro index stored same
    apply apart
    have address := BitVec.eq_of_toNat_eq same
    refine ⟨index, stored, ?_, ?_⟩
    · rwa [← address]
    · rw [← address, BitVec.add_comm, BitVec.add_sub_cancel, BitVec.toNat_ofNat]
      exact lt_of_le_of_lt (Nat.mod_le _ _) inside
  · rfl

theorem modulusCoherent_pkaStoreOperand {core : Core Memory} (coherent : core.ModulusCoherent)
    (physReg : BitVec 32) (data : Operand)
    (noticed : core.pkaModulusCache.valid = true →
      core.ReachesModulus physReg data.length core.pkaModulusCache.key →
        core.pkaWritesModulus physReg data.length = true) :
    (core.pkaStoreOperand physReg data).ModulusCoherent := by
  obtain ⟨-, dropped⟩ | ⟨kept, same⟩ := core.pkaStoreOperand_cache physReg data
  · exact Memo.coherent_of_invalid (by rw [dropped])
  · rw [ModulusCoherent, same]
    refine Memo.Coherent.congr coherent fun valid => ?_
    apply pkaFreshModulus_pkaStoreOperand
    intro reaches
    obtain ⟨index, stored, inSram, -⟩ := id reaches
    exact kept ⟨noticed valid reaches, index, stored, inSram⟩

/-- The conditions on stores depend on the mapping registers only. -/
theorem noticed_congr {first second : Core Memory}
    (same : ∀ physReg, first.pkaPhysRegBase physReg = second.pkaPhysRegBase physReg)
    (size window : Nat) (registers : List (BitVec 32)) :
    first.Noticed size window registers ↔ second.Noticed size window registers := by
  induction registers with
  | nil => rfl
  | cons physReg rest inductionHypothesis =>
      simp only [Noticed, ReachesModulus, Invalidates, pkaWritesModulus, same,
        inductionHypothesis]

theorem modulusCoherent_pkaStoreAll {core : Core Memory} (coherent : core.ModulusCoherent)
    {size : Nat} {stores : List (BitVec 32 × Operand)}
    (sized : ∀ store ∈ stores, store.2.length = size)
    (noticed : core.pkaModulusCache.valid = true →
      core.Noticed size core.pkaModulusCache.key (stores.map Prod.fst)) :
    (core.pkaStoreAll stores).ModulusCoherent := by
  induction stores generalizing core with
  | nil => exact coherent
  | cons store rest inductionHypothesis =>
      obtain ⟨physReg, data⟩ := store
      obtain rfl : data.length = size := sized _ List.mem_cons_self
      have stored := modulusCoherent_pkaStoreOperand coherent physReg data fun valid =>
        (noticed valid).1
      refine inductionHypothesis stored
        (fun other member => sized other (List.mem_cons_of_mem _ member)) fun valid => ?_
      -- A cache that is still valid was not dropped, so the rest had to be noticed.
      obtain ⟨-, dropped⟩ | ⟨kept, same⟩ := core.pkaStoreOperand_cache physReg data
      · rw [dropped] at valid
        cases valid
      · rw [same] at valid ⊢
        rw [noticed_congr (pkaPhysRegBase_congr (core.pkaStoreOperand_regs physReg data))]
        exact (noticed valid).2.resolve_left kept

/-- The lookup before an operation leaves the modulus cached that the condition speaks of. -/
theorem modulusCoherent_pkaModulusFor {core : Core Memory} (coherent : core.ModulusCoherent)
    (opcode : PkaOpcode) (operation : PkaOperation) {ready : Core Memory}
    (looked : (core.pkaModulusFor operation (core.pkaLenWords opcode.sizeId)).2 = ready) :
    ready.ModulusCoherent ∧ ready.regs = core.regs ∧
      (ready.pkaModulusCache.valid = true →
        ready.pkaModulusCache.key ∈ core.cachedWords opcode operation) := by
  subst looked
  unfold pkaModulusFor cachedWords
  by_cases modular : operation.isModular = true
  · obtain ⟨-, key, still⟩ := Memo.Coherent.lookup coherent (core.pkaLenWords opcode.sizeId)
    rw [if_pos modular, if_pos modular, pkaModulusValue_eq]
    exact ⟨still, rfl, fun _ => by simp [key]⟩
  · rw [if_neg modular, if_neg modular]
    exact ⟨coherent, rfl, fun valid => by simp [show core.pkaModulusCache.valid = true from valid]⟩

theorem sized_pkaStores {opcode : PkaOpcode} {outcome : PkaOutcome} {words : Nat}
    (sized : outcome.Sized words) : ∀ store ∈ pkaStores opcode outcome, store.2.length = words := by
  intro store member
  rcases List.mem_append.mp member with back | result
  · cases held : outcome.storedBack with
    | none => simp [held] at back
    | some data =>
        obtain ⟨-, rfl⟩ : opcode.lhsImmediate = false ∧ store = (opcode.lhsId, data) := by
          simpa [held] using back
        exact sized.storedBack data held
  · obtain ⟨-, rfl⟩ : opcode.discardResult = false ∧ store = (opcode.resultId, outcome.result) := by
      simpa using result
    exact sized.result

/-- Only a division stores a second operand. -/
theorem isSome_storedBack_compute (operation : PkaOperation) (rhsId : BitVec 32) (words : Nat)
    (modulus : Int) (lhs rhs : Operand) :
    (operation.compute rhsId words modulus lhs rhs).storedBack.isSome =
      decide (operation = .div) := by
  cases operation
  case modAddModInc | modSubModDecModNeg | div =>
    dsimp only [PkaOperation.compute]
    split <;> rfl
  all_goals rfl

theorem map_fst_pkaStores (opcode : PkaOpcode) (operation : PkaOperation) (words : Nat)
    (modulus : Int) (lhs rhs : Operand) :
    (pkaStores opcode (operation.compute opcode.rhsId words modulus lhs rhs)).map Prod.fst =
      storedRegs opcode operation := by
  have back := isSome_storedBack_compute operation opcode.rhsId words modulus lhs rhs
  unfold pkaStores storedRegs
  cases held : (operation.compute opcode.rhsId words modulus lhs rhs).storedBack with
  | none =>
      have other : operation ≠ .div := by simpa [held] using back
      cases opcode.discardResult <;> simp [other]
  | some data =>
      have division : operation = .div := by simpa [held] using back
      cases opcode.discardResult <;> cases opcode.lhsImmediate <;> simp [division]

theorem length_pkaLoadOperand (core : Core Memory) (isImmediate : Bool) (value : BitVec 32)
    (words : Nat) (signedImmediate : Bool) :
    (core.pkaLoadOperand isImmediate value words signedImmediate).length = words := by
  cases isImmediate <;> simp [pkaLoadOperand, pkaSramWindow]

theorem SamePka.pkaFreshModulus {before after : Core Memory} (same : SamePka before after)
    (words : Nat) : after.pkaFreshModulus words = before.pkaFreshModulus words := by
  have base : after.pkaPhysRegBase 0 = before.pkaPhysRegBase 0 := by
    simpa [pkaPhysRegBase] using same.nBase
  simp only [Core.pkaFreshModulus, pkaLoadOperand, Bool.false_eq_true, if_false, base,
    pkaSramWindow, pkaSramRead, same.sram]

theorem SamePka.modulusCoherent {before after : Core Memory} (same : SamePka before after)
    (coherent : before.ModulusCoherent) : after.ModulusCoherent := by
  rw [ModulusCoherent, same.cache]
  exact Memo.Coherent.congr coherent fun _ => same.pkaFreshModulus _

theorem samePka_pkaUpdateStatus (core : Core Memory) (outcome : PkaOutcome) :
    SamePka core (core.pkaUpdateStatus outcome) :=
  SamePka.storeAll core (by simp [pkaStatus, pkaPipeRdy, pkaDone])

theorem modulusCoherent_pkaExecute {core : Core Memory} (coherent : core.ModulusCoherent)
    (opcode : PkaOpcode) (operation : PkaOperation)
    (noticed : ∀ window ∈ core.cachedWords opcode operation,
      core.Noticed (core.pkaLenWords opcode.sizeId) window (storedRegs opcode operation)) :
    (core.pkaExecute opcode operation).ModulusCoherent := by
  have lhsSized := core.length_pkaLoadOperand opcode.lhsImmediate opcode.lhsId
    (core.pkaLenWords opcode.sizeId) operation.signedImmediate
  have rhsSized : (core.pkaLoadOperands opcode operation).2.length =
      core.pkaLenWords opcode.sizeId := by
    unfold pkaLoadOperands
    dsimp only
    split
    · exact List.length_replicate
    · exact core.length_pkaLoadOperand _ _ _ _
  have sized (modulus : Int) := @sized_pkaStores opcode _ _
    (operation.sized_compute opcode.rhsId modulus lhsSized rhsSized)
  obtain ⟨ready, regs, cached⟩ := modulusCoherent_pkaModulusFor coherent opcode operation rfl
  unfold pkaExecute
  refine (samePka_pkaUpdateStatus _ _).modulusCoherent ?_
  refine modulusCoherent_pkaStoreAll ready (sized _) fun valid => ?_
  rw [map_fst_pkaStores, noticed_congr (pkaPhysRegBase_congr regs)]
  exact noticed _ (cached valid)

theorem modulusCoherent_of_invalid {core : Core Memory}
    (invalid : core.pkaModulusCache.valid = false) : core.ModulusCoherent :=
  Memo.coherent_of_invalid invalid

theorem modulusCoherent_pkaSwResetWrite (core : Core Memory) (value : BitVec 32) :
    (core.pkaSwResetWrite value).ModulusCoherent := by
  refine (SamePka.storeAll _ ?_).modulusCoherent (modulusCoherent_of_invalid rfl)
  simp [pkaStatus, pkaPipeRdy, pkaDone]

theorem modulusCoherent_pkaSramDataWrite {core : Core Memory} (coherent : core.ModulusCoherent)
    (value : BitVec 32) : (core.pkaSramDataWrite value).ModulusCoherent := by
  have stored := (SamePka.store32 core value (show 4 ≤ pkaSramWdata by decide)).modulusCoherent
    coherent
  unfold pkaSramDataWrite pkaSramWrite
  dsimp only
  split
  · exact modulusCoherent_of_invalid rfl
  · exact SamePka.modulusCoherent ⟨rfl, rfl, rfl⟩ stored

/-- The store of the opcode itself touches no mapping and no length register. -/
theorem pkaPhysRegBase_store32_pkaOpcode (core : Core Memory) (value physReg : BitVec 32) :
    (core.store32 pkaOpcode value).pkaPhysRegBase physReg = core.pkaPhysRegBase physReg := by
  unfold pkaPhysRegBase
  split
  · rfl
  · exact core.load32_store32_of_disjoint value (Or.inl (by simp only [pkaOpcode]; omega))

theorem pkaLenWords_store32_pkaOpcode (core : Core Memory) (value : BitVec 32) (sizeId : Nat) :
    (core.store32 pkaOpcode value).pkaLenWords sizeId = core.pkaLenWords sizeId := by
  have length : (core.store32 pkaOpcode value).load32 (pkaLBase + sizeId * 4) =
      core.load32 (pkaLBase + sizeId * 4) :=
    core.load32_store32_of_disjoint value (Or.inr (by simp only [pkaOpcode, pkaLBase]; omega))
  rw [pkaLenWords, pkaLenWords, length]

theorem modulusCoherent_executePkaOpcode {core : Core Memory} (coherent : core.ModulusCoherent)
    (value : BitVec 32) (keeps : core.OpcodeKeepsModulus value) :
    ((core.store32 pkaOpcode value).executePkaOpcode value).ModulusCoherent := by
  have stored := (SamePka.store32 core value (show 4 ≤ pkaOpcode by decide)).modulusCoherent
    coherent
  unfold executePkaOpcode
  dsimp only
  split
  · exact stored
  · split
    · rename_i operation decoded
      refine modulusCoherent_pkaExecute stored _ _ fun window cached => ?_
      rw [pkaLenWords_store32_pkaOpcode,
        noticed_congr (pkaPhysRegBase_store32_pkaOpcode core value)]
      refine keeps operation decoded window ?_
      rwa [cachedWords, pkaLenWords_store32_pkaOpcode] at cached
    · exact (samePka_pkaUpdateStatus _ _).modulusCoherent stored

theorem modulusCoherent_write32 {bus : Bus Memory} {core : Core Memory}
    (coherent : core.ModulusCoherent) {offset : Nat} (value : BitVec 32)
    (aligned : offset % 4 = 0) (keeps : offset = pkaOpcode → core.OpcodeKeepsModulus value) :
    (core.write32 bus offset value).ModulusCoherent := by
  by_cases elsewhere : reachesPka offset
  · obtain rfl | rfl | rfl | rfl := elsewhere
    · exact modulusCoherent_of_invalid rfl
    · exact modulusCoherent_pkaSwResetWrite core value
    · exact modulusCoherent_pkaSramDataWrite coherent value
    · exact modulusCoherent_executePkaOpcode coherent value (keeps rfl)
  · exact (samePka_write32 bus core value aligned elsewhere).modulusCoherent coherent

/-- A plain copy that leaves mapping register 0 as it is leaves the modulus as it is. -/
theorem modulusCoherent_regsWrite {core : Core Memory} (coherent : core.ModulusCoherent)
    (offset : Nat) (data : List Byte)
    (kept : core.pkaModulusCache.valid = true →
      ∀ index < 4, core.regs.write offset data index = core.regs index) :
    ModulusCoherent { core with regs := core.regs.write offset data } := by
  refine Memo.Coherent.congr coherent fun valid => ?_
  have same : SamePka core { core with regs := core.regs.write offset data } :=
    ⟨rfl, rfl, Image.load32_congr fun index _ inside => kept valid index (by omega)⟩
  exact same.pkaFreshModulus _

theorem modulusCoherent_step {bus : Bus Memory} (core : Core Memory) (access : RegisterAccess)
    (next : Core Memory) (coherent : core.ModulusCoherent) (keeps : core.KeepsModulus access)
    (stepped : step bus core access = some next) : next.ModulusCoherent := by
  unfold step respond at stepped
  by_cases rejected : access.rejected = true
  · rw [if_pos rejected] at stepped
    cases stepped
    exact coherent
  rw [if_neg rejected] at stepped
  by_cases inside : access.inside = true
  · rw [if_pos inside] at stepped
    cases access with
    | read offset len debug =>
        cases stepped
        exact (samePka_read core _ _ _).modulusCoherent coherent
    | write offset data =>
        cases stepped
        unfold KeepsModulus at keeps
        dsimp only at keeps
        rw [if_neg rejected] at keeps
        unfold Core.write
        by_cases word : RegisterAccess.isWordWrite offset data = true
        · rw [if_pos word] at keeps ⊢
          have aligned : offset.toNat % 4 = 0 := by
            simp only [RegisterAccess.isWordWrite, Bool.and_eq_true, beq_iff_eq] at word
            exact word.2
          exact modulusCoherent_write32 coherent _ aligned keeps
        · rw [if_neg word] at keeps ⊢
          exact modulusCoherent_regsWrite coherent _ _ keeps
  · rw [if_neg inside] at stepped
    cases stepped

theorem modulusCoherent_reset (memory : Memory) : (reset memory).ModulusCoherent := by
  refine (SamePka.storeAll _ ?_).modulusCoherent (modulusCoherent_of_invalid rfl)
  decide

/-- In a run from reset whose accesses the invalidation tests are up to, the cache agrees with
the SRAM in every state. -/
theorem always_modulusTransparent (bus : Bus Memory) (memory : Memory)
    (accesses : List RegisterAccess)
    (keeps : Along (step bus) KeepsModulus (reset memory) accesses) :
    Always (step bus) ModulusTransparent (reset memory) accesses := by
  have coherent := always_of_along modulusCoherent_step (modulusCoherent_reset memory) keeps
  exact (always_congr (fun _ _ _ _ _ => trivial)
    (fun _ (_ : True) => modulusTransparent_iff_coherent) trivial).mpr coherent

/-- Two words of N are cached by a reduction, a product goes to another register, and the
remainder of a division replaces N. -/
theorem always_modulusTransparent_division :
    Always (step Bus.ram) ModulusTransparent (reset fun _ => 0)
      [.writeWord pkaLBase 64, .writeWord 4 2, .writeWord pkaSramWdata 7,
        .writeWord pkaOpcode 0xd89e1800, .writeWord pkaOpcode 0x808e3040,
        .writeWord pkaOpcode 0xa0023040, .writeWord pkaOpcode 0xd89e1800] :=
  always_modulusTransparent Bus.ram (fun _ => 0) _ (by decide +kernel)

/-- Two words of N are cached, and an operation on one word stores to the upper one. -/
theorem not_modulusTransparent_of_narrow_store :
    ¬Always (step Bus.ram) ModulusTransparent (reset fun _ => 0)
      [.writeWord pkaLBase 64, .writeWord (pkaLBase + 4) 32, .writeWord 4 1,
        .writeWord pkaSramWdata 5, .writeWord pkaOpcode 0xd89e1800,
        .writeWord pkaOpcode 0x49861040] := by
  intro always
  have outcome : (run (step Bus.ram) (reset fun _ => 0)
      [.writeWord pkaLBase 64, .writeWord (pkaLBase + 4) 32, .writeWord 4 1,
        .writeWord pkaSramWdata 5, .writeWord pkaOpcode 0xd89e1800,
        .writeWord pkaOpcode 0x49861040]).map
        (fun core => ((core.pkaModulusValue 2).1, core.pkaFreshModulus 2)) =
      some (5, 5 + 2 ^ 32) := by decide +kernel
  obtain ⟨final, reached, values⟩ := Option.map_eq_some_iff.mp outcome
  obtain ⟨cached, fresh⟩ := Prod.mk.inj values
  have agrees := always_iff_prefix.mp always _ [] final (List.append_nil _).symm reached 2
  rw [cached] at agrees
  exact absurd (agrees.trans fresh) (by decide)

end Core

end QboxPlatform.Cc3xx
