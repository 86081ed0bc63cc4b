import QboxPlatform.Cc3xx.CtrTransfer
import QboxPlatform.RseKmu.HardwareKeys
import QboxPlatform.RseLcm.Persistence

/-!
# From the one-time programmable memory to the crypto engine

The life-cycle manager programs the OTP image, the key management unit loads its hardware slots from
it, and an export puts a key into the key registers of the CC3XX, without the software in between.
-/

namespace QboxPlatform.RseKmu

open Foundation
open RseLcm (Lcm otpWindow)
open Cc3xx (Core RegisterAccess aesKey0)

/-- Where the platform puts the registers of the CC3XX. -/
def rseCc3xxBaseS : BitVec 64 := 0x50154000

def rseCc3xxSize : Nat := 0x2000

/-- The parameters of the platform: both modules have the same OTP image, and it is written
back. -/
structure Config where
  lcm : RseLcm.Params
  kmu : Params
  sameImage : kmu.otpImage = lcm.otpImage
  writesBack : lcm.WritesBack

structure System (Memory : Type) where
  lcm : Lcm
  kmu : Kmu
  core : Core Memory

/-- What happens in the platform: accesses of the three modules, a value on the reset line of the
key management unit, and a new start with only the file kept. -/
inductive Event (Memory : Type)
  | lcm (access : Access)
  | kmu (access : Access)
  | kmuReset (value : Bool)
  | cc3xx (access : RegisterAccess)
  | restart (memory : Memory)

/-- The word on its way through the router of the crypto units, behind which the initiator of the
key management unit finds the CC3XX and nothing else, as `rse_local_crypto` has it by default. -/
def Export.deliver {Memory : Type} (bus : Bus Memory) (core : Core Memory) (sent : Export) :
    Option (Core Memory) :=
  if rseCc3xxBaseS.toNat ≤ sent.address.toNat ∧
      sent.address.toNat + 4 ≤ rseCc3xxBaseS.toNat + rseCc3xxSize then
    core.step bus (.writeWord (sent.address.toNat - rseCc3xxBaseS.toNat) sent.word)
  else some core

namespace Event

variable {Memory : Type}

/-- The event loads the hardware slots from the file. -/
def Loads : Event Memory → Prop
  | .kmuReset value => value = true
  | .restart _ => True
  | _ => False

/-- The event leaves the key registers of a slot alone. -/
def Spares (slot : Nat) : Event Memory → Prop
  | .kmu access => access.writesTo (keyReg slot) (keyReg slot + kmuKskStride) = false
  | .kmuReset value => value = false
  | .restart _ => False
  | _ => True

end Event

namespace System

variable {Memory : Type} (config : Config) (bus : Bus Memory) (system : System Memory)

def powerOn (imageFile : Option (List Byte)) (memory : Memory) : System Memory where
  lcm := .resetRegisters config.lcm imageFile
  kmu := .resetRegisters config.kmu imageFile
  core := .reset memory

def step : Event Memory → Option (System Memory)
  | .lcm access => (system.lcm.step config.lcm access).map fun lcm => { system with lcm := lcm }
  | .kmu access =>
      (system.kmu.access config.kmu access).bind fun (_, kmu, sent) =>
        (sent.foldlM (Export.deliver bus) system.core).map fun core =>
          { system with kmu := kmu, core := core }
  | .kmuReset value =>
      some { system with kmu := system.kmu.doreset config.kmu value system.lcm.imageFile }
  | .cc3xx access => (system.core.step bus access).map fun core => { system with core := core }
  | .restart memory => some (powerOn config system.lcm.imageFile memory)

/-- The key that is programmed for a hardware slot. -/
def fused (slot : Nat) : List Byte :=
  system.lcm.regs.read (otpWindow + otpOffset slot) kmuKskStride

/-! ### What is programmed stays -/

/-- The events of a run in which no plain write of the life-cycle manager reaches into its
memory. -/
def KeepsEdges : Event Memory → Prop
  | .lcm access => ¬ Lcm.Straddles config.lcm access
  | _ => True

/-- Nothing that was programmed is lost. -/
def Durable (earlier later : System Memory) : Prop :=
  ∀ index, config.lcm.InOtp index → SubBits (earlier.lcm.regs index) (later.lcm.regs index)

/-- The memory is large enough for the key of a slot. -/
def Fuses (slot : Nat) : Prop := otpWindow + otpOffset slot + kmuKskStride ≤ config.lcm.otpLimit

variable {config bus} {system next : System Memory} {event : Event Memory}

theorem persisted_powerOn (imageFile : Option (List Byte)) (memory : Memory) :
    (powerOn config imageFile memory).lcm.Persisted config.lcm :=
  Lcm.persisted_resetRegisters config.writesBack.named imageFile

theorem step_lcm (stepped : step config bus system event = some next) :
    (∃ access, event = .lcm access ∧ system.lcm.step config.lcm access = some next.lcm) ∨
      (∃ memory, event = .restart memory ∧
        next.lcm = .resetRegisters config.lcm system.lcm.imageFile) ∨
      next.lcm = system.lcm := by
  cases event with
  | lcm access =>
      obtain ⟨lcm, accessed, rfl⟩ := Option.map_eq_some_iff.mp stepped
      exact Or.inl ⟨access, rfl, accessed⟩
  | restart memory =>
      cases stepped
      exact Or.inr (Or.inl ⟨memory, rfl, rfl⟩)
  | kmu access =>
      obtain ⟨outcome, -, delivered⟩ := Option.bind_eq_some_iff.mp stepped
      obtain ⟨core, -, rfl⟩ := Option.map_eq_some_iff.mp delivered
      exact Or.inr (Or.inr rfl)
  | kmuReset value =>
      cases stepped
      exact Or.inr (Or.inr rfl)
  | cc3xx access =>
      obtain ⟨core, -, rfl⟩ := Option.map_eq_some_iff.mp stepped
      exact Or.inr (Or.inr rfl)

theorem persisted_step (keeps : KeepsEdges config event)
    (persisted : system.lcm.Persisted config.lcm)
    (stepped : step config bus system event = some next) : next.lcm.Persisted config.lcm := by
  rcases step_lcm stepped with ⟨access, rfl, accessed⟩ | ⟨memory, rfl, restarted⟩ | same
  · exact Lcm.persisted_step config.writesBack keeps persisted accessed
  · rw [restarted]
    exact Lcm.persisted_resetRegisters config.writesBack.named _
  · rwa [same]

theorem durable_step (keeps : KeepsEdges config event)
    (persisted : system.lcm.Persisted config.lcm)
    (stepped : step config bus system event = some next) : Durable config system next := by
  intro index inOtp
  rcases step_lcm stepped with ⟨access, rfl, accessed⟩ | ⟨memory, rfl, restarted⟩ | same
  · exact Lcm.subBits_step keeps accessed inOtp
  · rw [restarted, Lcm.resetRegisters_of_persisted config.writesBack.named persisted inOtp]
    exact SubBits.refl _
  · rw [same]
    exact SubBits.refl _

theorem persisted_run {start final : System Memory} {events : List (Event Memory)}
    (keeps : ∀ event ∈ events, KeepsEdges config event)
    (initially : start.lcm.Persisted config.lcm)
    (reached : run (step config bus) start events = some final) :
    final.lcm.Persisted config.lcm :=
  run_invariant_along (fun _ _ _ persisted keeps stepped => persisted_step keeps persisted stepped)
    initially (along_of_forall (fun event member _ => keeps event member) start) reached

/-- Over every run and every new start nothing that was programmed is lost, and a new start finds
the memory exactly as it was. -/
theorem programmed_survives (config : Config) (bus : Bus Memory) (imageFile : Option (List Byte))
    (memory : Memory) (events : List (Event Memory))
    (keeps : ∀ event ∈ events, KeepsEdges config event) :
    Evolves (step config bus) (Durable config) (powerOn config imageFile memory) events ∧
      ∀ final, run (step config bus) (powerOn config imageFile memory) events = some final →
        ∀ (later : Memory) (index : Nat), config.lcm.InOtp index →
          (powerOn config final.lcm.imageFile later).lcm.regs index = final.lcm.regs index := by
  have initially : (powerOn config imageFile memory).lcm.Persisted config.lcm :=
    persisted_powerOn imageFile memory
  constructor
  · have reflexive (system : System Memory) : Durable config system system :=
      fun _ _ => SubBits.refl _
    have transitive (first second third : System Memory) (lower : Durable config first second)
        (upper : Durable config second third) : Durable config first third :=
      fun index inOtp => (lower index inOtp).trans (upper index inOtp)
    rw [evolves_iff_along reflexive transitive]
    exact along_of_invariant
      (fun _ _ _ persisted keeps stepped => persisted_step keeps persisted stepped)
      (fun _ _ _ persisted keeps _ after reached => durable_step keeps persisted reached) initially
      (along_of_forall (fun event member _ => keeps event member) _)
  · intro final reached later index inOtp
    exact Lcm.resetRegisters_of_persisted config.writesBack.named
      (persisted_run keeps initially reached) inOtp

/-- The parameters of the platform, with write-back. -/
def platformConfig : Config where
  lcm := { otpImage := "rse-otp-image.img", otpWriteback := true }
  kmu := { otpImage := "rse-otp-image.img" }
  sameImage := rfl
  writesBack := ⟨rfl, by decide⟩

instance (config : Config) : (event : Event Memory) → Decidable (KeepsEdges config event)
  | .lcm access => inferInstanceAs (Decidable (¬ Lcm.Straddles config.lcm access))
  | .kmu _ | .kmuReset _ | .cc3xx _ | .restart _ => isTrue trivial

/-- The front of the hardware unique key. -/
def programsHuk : Event (BitVec 64 → Byte) := .lcm (.write 0x1000 [1, 2, 3, 4, 5, 6, 7, 8])

theorem programmed_survives_huk :
    Evolves (step platformConfig Bus.ram) (Durable platformConfig)
        (powerOn platformConfig none fun _ => 0)
        [programsHuk, .restart fun _ => 0, .kmuReset true] ∧
      ∀ final, run (step platformConfig Bus.ram) (powerOn platformConfig none fun _ => 0)
          [programsHuk, .restart fun _ => 0, .kmuReset true] = some final →
        ∀ (later : BitVec 64 → Byte) (index : Nat), platformConfig.lcm.InOtp index →
          (powerOn platformConfig final.lcm.imageFile later).lcm.regs index =
            final.lcm.regs index :=
  programmed_survives platformConfig Bus.ram none (fun _ => 0) _ (by decide)

/-! ### The way of a key -/

theorem key_eq_fused {slot : Nat} (isHardware : IsHardwareSlot slot) (fuses : Fuses config slot)
    (persisted : system.lcm.Persisted config.lcm)
    (loaded : system.kmu = .resetRegisters config.kmu system.lcm.imageFile) :
    system.kmu.key slot = system.fused slot := by
  have named : config.kmu.otpImage ≠ "" := config.sameImage ▸ config.writesBack.named
  rw [loaded, Kmu.key_resetRegisters named _ isHardware, fused, Image.read]
  apply List.map_congr_left
  intro position member
  have inside := List.mem_range.mp member
  have inOtp : config.lcm.InOtp (otpWindow + otpOffset slot + position) := by
    rw [Fuses] at fuses
    constructor
    · omega
    · omega
  rw [← persisted _ inOtp, Lcm.imageByte, Nat.add_assoc, Nat.add_sub_cancel_left]

theorem key_of_loads {slot : Nat} (isHardware : IsHardwareSlot slot) (fuses : Fuses config slot)
    (loads : event.Loads) (persisted : system.lcm.Persisted config.lcm)
    (stepped : step config bus system event = some next) : next.kmu.key slot = next.fused slot := by
  cases event with
  | kmuReset value =>
      cases stepped
      have raised : value = true := loads
      subst raised
      exact key_eq_fused isHardware fuses persisted rfl
  | restart memory =>
      cases stepped
      apply key_eq_fused isHardware fuses (persisted_powerOn _ memory)
      rw [powerOn, Lcm.resetRegisters_imageFile]
  | lcm access => exact loads.elim
  | kmu access => exact loads.elim
  | cc3xx access => exact loads.elim

theorem key_of_spares {slot : Nat} (spares : event.Spares slot)
    (stepped : step config bus system event = some next) :
    next.kmu.key slot = system.kmu.key slot := by
  cases event with
  | lcm access =>
      obtain ⟨lcm, -, rfl⟩ := Option.map_eq_some_iff.mp stepped
      rfl
  | restart memory => exact spares.elim
  | kmu access =>
      obtain ⟨⟨response, kmu, sent⟩, accessed, delivered⟩ := Option.bind_eq_some_iff.mp stepped
      obtain ⟨core, -, rfl⟩ := Option.map_eq_some_iff.mp delivered
      exact Kmu.key_access accessed spares
  | kmuReset value =>
      cases stepped
      rw [show value = false from spares]
      rfl
  | cc3xx access =>
      obtain ⟨core, -, rfl⟩ := Option.map_eq_some_iff.mp stepped
      rfl

theorem step_aesKey (core : Core Memory) (word : BitVec 32) {position : Nat}
    (inside : position < 8) :
    core.step bus (.writeWord (aesKey0 + position * 4) word) =
      some (core.store32 (aesKey0 + position * 4) word) := by
  have place : (BitVec.ofNat 64 (aesKey0 + position * 4)).toNat = aesKey0 + position * 4 := by
    rw [BitVec.toNat_ofNat, Nat.mod_eq_of_lt]
    rw [aesKey0]
    omega
  have accepted : (RegisterAccess.writeWord (aesKey0 + position * 4) word).rejected = false := by
    simp only [RegisterAccess.rejected, RegisterAccess.writeWord, RegisterAccess.len,
      RegisterAccess.offset, length_toBytes]
    interval_cases position <;> decide
  have within : (RegisterAccess.writeWord (aesKey0 + position * 4) word).inside = true := by
    simp only [RegisterAccess.inside, RegisterAccess.writeWord, RegisterAccess.len,
      RegisterAccess.offset, length_toBytes]
    interval_cases position <;> decide
  have isWord : RegisterAccess.isWordWrite (BitVec.ofNat 64 (aesKey0 + position * 4))
      (toBytes 4 word) = true := by
    simp only [RegisterAccess.isWordWrite, length_toBytes]
    interval_cases position <;> decide
  have plain : core.write32 bus (aesKey0 + position * 4) word =
      core.store32 (aesKey0 + position * 4) word := by
    interval_cases position <;> rfl
  unfold Core.step Core.respond
  rw [accepted, within, if_neg Bool.false_ne_true, if_pos rfl]
  dsimp only [RegisterAccess.writeWord]
  rw [Core.write, isWord, if_pos rfl, place, ofBytes_toBytes word (by decide), plain]
  rfl

theorem deliver_aesKey (core : Core Memory) (word : BitVec 32) {position : Nat}
    (inside : position < 8) :
    Export.deliver bus core
        ⟨rseCc3xxBaseS + BitVec.ofNat 64 aesKey0 + BitVec.ofNat 64 (position * 4), word⟩ =
      some (core.store32 (aesKey0 + position * 4) word) := by
  have place : (rseCc3xxBaseS + BitVec.ofNat 64 aesKey0 + BitVec.ofNat 64 (position * 4)).toNat =
      rseCc3xxBaseS.toNat + (aesKey0 + position * 4) := by
    interval_cases position <;> decide
  have mapped : aesKey0 + position * 4 + 4 ≤ rseCc3xxSize := by
    rw [aesKey0, rseCc3xxSize]
    omega
  unfold Export.deliver
  rw [place, if_pos ⟨Nat.le_add_right _ _, by omega⟩, Nat.add_sub_cancel_left,
    step_aesKey core word inside]

theorem deliver_words (core : Core Memory) (kmu : Kmu) (slot : Nat) {count : Nat}
    (bounded : count ≤ slotWords) :
    ((List.range count).map fun word => (⟨rseCc3xxBaseS + BitVec.ofNat 64 aesKey0 +
        BitVec.ofNat 64 (word * 4), kmu.load32 (keyReg slot + word * 4)⟩ : Export)).foldlM
        (Export.deliver bus) core =
      some { core with
        regs := core.regs.write aesKey0 (kmu.regs.read (keyReg slot) (count * 4)) } := by
  induction count with
  | zero =>
      have nothing : kmu.regs.read (keyReg slot) (0 * 4) = [] := rfl
      rw [nothing, Image.write_nil]
      rfl
  | succ count inductionHypothesis =>
      have stored := inductionHypothesis (Nat.le_of_succ_le bounded)
      have parts : kmu.regs.read (keyReg slot) ((count + 1) * 4) =
          kmu.regs.read (keyReg slot) (count * 4) ++
            toBytes 4 (kmu.load32 (keyReg slot + count * 4)) := by
        rw [Nat.succ_mul, Image.read_add, Kmu.load32, Image.toBytes_load32]
      rw [List.range_succ, List.map_append, List.foldlM_append, stored, Option.bind_eq_bind,
        Option.bind_some, List.map_singleton, List.foldlM_cons, deliver_aesKey _ _ bounded, parts,
        Image.write_append, Image.length_read]
      rfl

/-- The export of a slot whose address is that of the key registers loads the key into the
engine. -/
theorem aesKey_of_export {slot : Nat} {value : BitVec 32} (isSlot : slot < slotCount)
    (commands : value &&& kmuKscEk ≠ 0)
    (address : system.kmu.exportAddress config.kmu slot = rseCc3xxBaseS + BitVec.ofNat 64 aesKey0)
    (stepped : step config bus system (.kmu (exportCommand slot value)) = some next) :
    next.core.aesKey = (system.kmu.key slot).take next.core.aesKeySizeBytes := by
  obtain ⟨kmu, accessed, -⟩ := Kmu.access_exportCommand config.kmu system.kmu isSlot commands
  obtain ⟨outcome, same, delivered⟩ := Option.bind_eq_some_iff.mp stepped
  rw [accessed, Option.some.injEq] at same
  obtain ⟨core, sent, rfl⟩ := Option.map_eq_some_iff.mp delivered
  rw [← same] at sent
  rw [Kmu.exportKey, address, deliver_words system.core system.kmu slot le_rfl,
    Option.some.injEq] at sent
  have bounded := core.aesKey_supported
  rw [Core.aesKey, Image.length_read] at bounded
  show core.aesKey = (system.kmu.key slot).take core.aesKeySizeBytes
  rw [Core.aesKey, ← sent]
  apply Image.read_write_take
  rw [Image.length_read, sent, slotWords]
  omega

theorem key_of_run {slot : Nat} {start final : System Memory} {events : List (Event Memory)}
    (spares : ∀ event ∈ events, event.Spares slot)
    (reached : run (step config bus) start events = some final) :
    final.kmu.key slot = start.kmu.key slot := by
  have keeps (system : System Memory) (event : Event Memory) (next : System Memory)
      (same : system.kmu.key slot = start.kmu.key slot) (spared : event.Spares slot)
      (stepped : step config bus system event = some next) :
      next.kmu.key slot = start.kmu.key slot := by
    rw [key_of_spares spared stepped, same]
  exact run_invariant_along keeps rfl
    (along_of_forall (fun event member _ => spares event member) start) reached

/-- In every run, an export puts into the engine the key that was programmed when the slots were
last loaded. -/
theorem export_loads_fused_key (config : Config) (bus : Bus Memory)
    (imageFile : Option (List Byte)) (memory : Memory) {slot : Nat}
    (isHardware : IsHardwareSlot slot) (fuses : Fuses config slot)
    {front middle : List (Event Memory)} {loading : Event Memory} {value : BitVec 32}
    {before loaded last final : System Memory}
    (keeps : ∀ event ∈ front, KeepsEdges config event)
    (started : run (step config bus) (powerOn config imageFile memory) front = some before)
    (loads : loading.Loads) (loading_stepped : step config bus before loading = some loaded)
    (spares : ∀ event ∈ middle, event.Spares slot)
    (went : run (step config bus) loaded middle = some last)
    (address : last.kmu.exportAddress config.kmu slot = rseCc3xxBaseS + BitVec.ofNat 64 aesKey0)
    (commands : value &&& kmuKscEk ≠ 0)
    (exported : step config bus last (.kmu (exportCommand slot value)) = some final) :
    final.core.aesKey = (loaded.fused slot).take final.core.aesKeySizeBytes := by
  have isSlot : slot < slotCount := isHardware.2.trans (by decide)
  have persisted := persisted_run keeps (persisted_powerOn imageFile memory) started
  rw [aesKey_of_export isSlot commands address exported, key_of_run spares went,
    key_of_loads isHardware fuses loads persisted loading_stepped]

theorem export_loads_fused_key_huk :
    ∃ loaded final, run (step platformConfig Bus.ram) (powerOn platformConfig none fun _ => 0)
        [programsHuk, .kmuReset true] = some loaded ∧
      step platformConfig Bus.ram loaded (.kmu (exportCommand 1 kmuKscEk)) = some final ∧
      final.core.aesKey = (loaded.fused 1).take final.core.aesKeySizeBytes := by
  have evaluated : ((run (step platformConfig Bus.ram) (powerOn platformConfig none fun _ => 0)
      [programsHuk]).bind fun before =>
        (step platformConfig Bus.ram before (.kmuReset true)).bind fun loaded =>
          (step platformConfig Bus.ram loaded (.kmu (exportCommand 1 kmuKscEk))).map fun _ =>
            loaded.kmu.exportAddress platformConfig.kmu 1 ==
              rseCc3xxBaseS + BitVec.ofNat 64 aesKey0) = some true := by
    decide +kernel
  obtain ⟨before, started, evaluated⟩ := Option.bind_eq_some_iff.mp evaluated
  obtain ⟨loaded, loading, evaluated⟩ := Option.bind_eq_some_iff.mp evaluated
  obtain ⟨final, exported, address⟩ := Option.map_eq_some_iff.mp evaluated
  refine ⟨loaded, final, ?_, exported, ?_⟩
  · rw [← List.singleton_append, run_append, started, Option.bind_some, run_cons, loading,
      Option.bind_some, run_nil]
  · exact export_loads_fused_key platformConfig Bus.ram none (fun _ => 0) (by decide)
      (show otpWindow + otpOffset 1 + kmuKskStride ≤ platformConfig.lcm.otpLimit by decide)
      (by decide) started (show Event.Loads (.kmuReset true) from rfl) loading
      (fun _ member => absurd member List.not_mem_nil) (run_nil loaded) (eq_of_beq address)
      (by decide) exported

end System

end QboxPlatform.RseKmu
