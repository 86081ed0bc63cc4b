import QboxPlatform.Cc3xx.Modulus
import QboxPlatform.Cc3xx.PkaMeaning

/-!
# The registers of the public-key accelerator as numbers

A register is the window of the SRAM that starts where its mapping register says.  A store into a
window that lies in the SRAM gives that register its number, and no register with another window
changes.
-/

namespace QboxPlatform.Cc3xx

open Foundation

namespace Core

variable {Memory : Type}

/-- The number in a register. -/
def pkaRegister (core : Core Memory) (physReg : BitVec 32) (words : Nat) : Nat :=
  Words.value (core.pkaSramWindow (core.pkaPhysRegBase physReg) words)

/-- The window of a register lies in the SRAM. -/
def InSram (core : Core Memory) (words : Nat) (physReg : BitVec 32) : Prop :=
  (core.pkaPhysRegBase physReg).toNat + words ≤ pkaSramWords

/-- An address outside the window of a register. -/
def OutsideWindow (core : Core Memory) (words : Nat) (physReg : BitVec 32) (address : Nat) : Prop :=
  address < (core.pkaPhysRegBase physReg).toNat ∨
    (core.pkaPhysRegBase physReg).toNat + words ≤ address

/-- Two registers whose windows are disjoint. -/
def WindowsApart (core : Core Memory) (words : Nat) (first second : BitVec 32) : Prop :=
  (core.pkaPhysRegBase first).toNat + words ≤ (core.pkaPhysRegBase second).toNat ∨
    (core.pkaPhysRegBase second).toNat + words ≤ (core.pkaPhysRegBase first).toNat

instance (core : Core Memory) (words : Nat) (physReg : BitVec 32) :
    Decidable (core.InSram words physReg) := by
  unfold InSram
  infer_instance

instance (core : Core Memory) (words : Nat) (first second : BitVec 32) :
    Decidable (core.WindowsApart words first second) := by
  unfold WindowsApart
  infer_instance

variable {core : Core Memory} {words : Nat}

theorem WindowsApart.symm {first second : BitVec 32}
    (apart : core.WindowsApart words first second) :
    core.WindowsApart words second first := Or.symm apart

theorem length_pkaSramWindow (core : Core Memory) (base : BitVec 32) (words : Nat) :
    (core.pkaSramWindow base words).length = words := by
  simp [pkaSramWindow]

theorem pkaRegister_lt (core : Core Memory) (physReg : BitVec 32) (words : Nat) :
    core.pkaRegister physReg words < 2 ^ (32 * words) := by
  have below := Words.value_lt (core.pkaSramWindow (core.pkaPhysRegBase physReg) words)
  rwa [length_pkaSramWindow] at below

theorem pkaRegister_congr {first second : Core Memory} (sram : first.pkaSram = second.pkaSram)
    (mapping : ∀ physReg, first.pkaPhysRegBase physReg = second.pkaPhysRegBase physReg)
    (physReg : BitVec 32) (words : Nat) :
    first.pkaRegister physReg words = second.pkaRegister physReg words := by
  simp only [pkaRegister, mapping, pkaSramWindow, pkaSramRead, sram]

/-- Inside the SRAM the addresses do not wrap. -/
theorem toNat_base_add {base : BitVec 32} {index : Nat} (inside : base.toNat + index < 2 ^ 32) :
    (base + BitVec.ofNat 32 index).toNat = base.toNat + index := by
  rw [BitVec.toNat_add, BitVec.toNat_ofNat, Nat.add_mod_mod, Nat.mod_eq_of_lt inside]

theorem pkaSramWindow_congr {first second : Core Memory} {base : BitVec 32} {words : Nat}
    (inside : base.toNat + words ≤ pkaSramWords)
    (same : ∀ index < words,
      first.pkaSram (base.toNat + index) = second.pkaSram (base.toNat + index)) :
    first.pkaSramWindow base words = second.pkaSramWindow base words := by
  apply List.map_congr_left
  intro index member
  have position := List.mem_range.mp member
  have limit : pkaSramWords < 2 ^ 32 := by decide
  rw [pkaSramRead, pkaSramRead, toNat_base_add (by omega), same index position]

theorem pkaSramWindow_succ (core : Core Memory) (base : BitVec 32) (words : Nat) :
    core.pkaSramWindow base (words + 1) =
      core.pkaSramRead base :: core.pkaSramWindow (base + 1) words := by
  have first : base + BitVec.ofNat 32 0 = base := BitVec.add_zero base
  simp only [pkaSramWindow, List.range_succ_eq_map, List.map_cons, List.map_map, first]
  congr 1
  apply List.map_congr_left
  intro index _
  simp only [Function.comp_apply, next_add_ofNat]

/-! ### One store -/

/-- A store into a window of the SRAM is read back. -/
theorem pkaSramWindow_pkaStoreWords (core : Core Memory) (base : BitVec 32)
    (writesModulus : Bool) {data : Operand} (inside : base.toNat + data.length ≤ pkaSramWords) :
    (core.pkaStoreWords base writesModulus data).pkaSramWindow base data.length = data := by
  induction data generalizing core base with
  | nil => rfl
  | cons word rest inductionHypothesis =>
      have limit : pkaSramWords < 2 ^ 32 := by decide
      rw [List.length_cons] at inside
      have here : base.toNat < pkaSramWords := by omega
      rw [List.length_cons, pkaSramWindow_succ, pkaStoreWords]
      rcases Nat.eq_zero_or_pos rest.length with none | more
      · rw [List.eq_nil_of_length_eq_zero none]
        simp [pkaStoreWords, pkaSramRead, pkaSramWrite, here, pkaInvalidateModulusCache,
          pkaSramWindow, apply_ite pkaSram]
      · have next : (base + 1).toNat = base.toNat + 1 := @toNat_base_add base 1 (by omega)
        rw [inductionHypothesis _ _ (by omega), pkaSramRead, if_pos here,
          pkaStoreWords_pkaSram]
        · simp [pkaSramWrite, here, pkaInvalidateModulusCache, apply_ite pkaSram]
        · intro index stored
          rw [toNat_base_add (by omega), next]
          omega

theorem pkaRegister_pkaStoreOperand {physReg : BitVec 32} {data : Operand}
    (sized : data.length = words) (inside : core.InSram words physReg) :
    (core.pkaStoreOperand physReg data).pkaRegister physReg words = Words.value data := by
  subst sized
  rw [pkaRegister, pkaPhysRegBase_congr (core.pkaStoreOperand_regs physReg data), pkaStoreOperand,
    pkaSramWindow_pkaStoreWords core _ _ inside]

theorem pkaStoreOperand_pkaSram {physReg : BitVec 32} {data : Operand}
    (sized : data.length = words) (inside : core.InSram words physReg) {address : Nat}
    (outside : core.OutsideWindow words physReg address) :
    (core.pkaStoreOperand physReg data).pkaSram address = core.pkaSram address := by
  subst sized
  apply pkaStoreWords_pkaSram
  intro index stored
  have limit : pkaSramWords < 2 ^ 32 := by decide
  unfold InSram at inside
  unfold OutsideWindow at outside
  rw [toNat_base_add (by omega)]
  omega

/-! ### Stores in turn -/

theorem pkaStoreAll_regs (core : Core Memory) (stores : List (BitVec 32 × Operand)) :
    (core.pkaStoreAll stores).regs = core.regs := by
  induction stores generalizing core with
  | nil => rfl
  | cons store rest inductionHypothesis =>
      exact (inductionHypothesis _).trans (core.pkaStoreOperand_regs store.1 store.2)

/-- The conditions on windows depend on the mapping registers only. -/
theorem inSram_congr {first second : Core Memory} (same : first.regs = second.regs)
    (physReg : BitVec 32) : first.InSram words physReg ↔ second.InSram words physReg := by
  rw [InSram, InSram, pkaPhysRegBase_congr same]

theorem outsideWindow_congr {first second : Core Memory} (same : first.regs = second.regs)
    (physReg : BitVec 32) (address : Nat) :
    first.OutsideWindow words physReg address ↔ second.OutsideWindow words physReg address := by
  rw [OutsideWindow, OutsideWindow, pkaPhysRegBase_congr same]

theorem windowsApart_congr {first second : Core Memory} (same : first.regs = second.regs)
    (left right : BitVec 32) :
    first.WindowsApart words left right ↔ second.WindowsApart words left right := by
  rw [WindowsApart, WindowsApart, pkaPhysRegBase_congr same, pkaPhysRegBase_congr same]

/-- Operands of one size that are stored into windows of the SRAM. -/
structure FitStores (core : Core Memory) (words : Nat) (stores : List (BitVec 32 × Operand)) :
    Prop where
  sized : ∀ store ∈ stores, store.2.length = words
  inside : ∀ store ∈ stores, core.InSram words store.1

theorem FitStores.tail {store : BitVec 32 × Operand} {rest : List (BitVec 32 × Operand)}
    (fits : core.FitStores words (store :: rest)) :
    (core.pkaStoreOperand store.1 store.2).FitStores words rest where
  sized := fun other member => fits.sized other (List.mem_cons_of_mem _ member)
  inside := fun other member =>
    (inSram_congr (core.pkaStoreOperand_regs _ _) other.1).mpr
      (fits.inside other (List.mem_cons_of_mem _ member))

theorem pkaStoreAll_pkaSram {stores : List (BitVec 32 × Operand)}
    (fits : core.FitStores words stores) {address : Nat}
    (outside : ∀ store ∈ stores, core.OutsideWindow words store.1 address) :
    (core.pkaStoreAll stores).pkaSram address = core.pkaSram address := by
  induction stores generalizing core with
  | nil => rfl
  | cons store rest inductionHypothesis =>
      have regs := core.pkaStoreOperand_regs store.1 store.2
      have later := inductionHypothesis fits.tail fun other member =>
        (outsideWindow_congr regs other.1 address).mpr
          (outside other (List.mem_cons_of_mem _ member))
      exact later.trans (pkaStoreOperand_pkaSram (fits.sized store List.mem_cons_self)
        (fits.inside store List.mem_cons_self) (outside store List.mem_cons_self))

theorem WindowsApart.outside {first second : BitVec 32}
    (apart : core.WindowsApart words first second) {index : Nat} (stored : index < words) :
    core.OutsideWindow words first ((core.pkaPhysRegBase second).toNat + index) := by
  rcases apart with before | after
  · exact Or.inr (by omega)
  · exact Or.inl (by omega)

/-- A register with another window keeps its number. -/
theorem pkaRegister_pkaStoreAll_of_apart {stores : List (BitVec 32 × Operand)}
    (fits : core.FitStores words stores) {physReg : BitVec 32}
    (inside : core.InSram words physReg)
    (apart : ∀ store ∈ stores, core.WindowsApart words store.1 physReg) :
    (core.pkaStoreAll stores).pkaRegister physReg words = core.pkaRegister physReg words := by
  rw [pkaRegister, pkaRegister, pkaPhysRegBase_congr (core.pkaStoreAll_regs stores)]
  congr 1
  apply pkaSramWindow_congr inside
  intro index stored
  apply pkaStoreAll_pkaSram fits
  exact fun store member => (apart store member).outside stored

/-- Each register that is stored to has its number in the end, when the windows are disjoint. -/
theorem pkaRegister_pkaStoreAll {stores : List (BitVec 32 × Operand)}
    (fits : core.FitStores words stores)
    (apart : (stores.map Prod.fst).Pairwise (core.WindowsApart words)) {store : BitVec 32 × Operand}
    (member : store ∈ stores) :
    (core.pkaStoreAll stores).pkaRegister store.1 words = Words.value store.2 := by
  induction stores generalizing core with
  | nil => cases member
  | cons first rest inductionHypothesis =>
      have regs := core.pkaStoreOperand_regs first.1 first.2
      rw [List.map_cons, List.pairwise_cons] at apart
      rcases List.mem_cons.mp member with rfl | later
      · have kept := @pkaRegister_pkaStoreAll_of_apart _ _ words rest fits.tail store.1
          ((inSram_congr regs store.1).mpr (fits.inside store List.mem_cons_self))
          fun other stored => (windowsApart_congr regs other.1 store.1).mpr
            (apart.1 other.1 (List.mem_map_of_mem stored)).symm
        exact kept.trans (pkaRegister_pkaStoreOperand (fits.sized store List.mem_cons_self)
          (fits.inside store List.mem_cons_self))
      · refine inductionHypothesis fits.tail ?_ later
        exact apart.2.imp fun {left right} => (windowsApart_congr regs left right).mpr

/-- Registers with disjoint windows can hold any numbers beside one that keeps its own. -/
theorem exists_sram_of_stores {stores : List (BitVec 32 × Operand)}
    (fits : core.FitStores words stores)
    (apart : (stores.map Prod.fst).Pairwise (core.WindowsApart words)) {kept : BitVec 32}
    (inside : core.InSram words kept)
    (keptApart : ∀ store ∈ stores, core.WindowsApart words store.1 kept) :
    ∃ sram, Core.pkaRegister { core with pkaSram := sram } kept words =
        core.pkaRegister kept words ∧
      ∀ store ∈ stores,
        Core.pkaRegister { core with pkaSram := sram } store.1 words = Words.value store.2 := by
  have same (physReg : BitVec 32) :
      Core.pkaRegister { core with pkaSram := (core.pkaStoreAll stores).pkaSram } physReg words =
        (core.pkaStoreAll stores).pkaRegister physReg words := by
    apply pkaRegister_congr
    · rfl
    · exact pkaPhysRegBase_congr (core.pkaStoreAll_regs stores).symm
  refine ⟨(core.pkaStoreAll stores).pkaSram, ?_, ?_⟩
  · rw [same, pkaRegister_pkaStoreAll_of_apart fits inside keptApart]
  · intro store member
    rw [same, pkaRegister_pkaStoreAll fits apart member]

end Core

end QboxPlatform.Cc3xx
