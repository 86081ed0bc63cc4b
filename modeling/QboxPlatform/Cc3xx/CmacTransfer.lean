import QboxPlatform.Cc3xx.Access
import QboxPlatform.Cc3xx.Cmac
import QboxPlatform.Cc3xx.DmaInput
import QboxPlatform.Foundation.Run

/-!
# CMAC through the DMA

Software starts a CMAC, gives the message as a sequence of DMA transfers, and asks for the tag by
a write of zero to the remaining bytes.  Whatever register accesses stand between, the engine
collects the bytes of the transfers and nothing else.
-/

namespace QboxPlatform.Cc3xx

open Foundation

namespace Core

variable {Memory : Type}

structure KeepsCmac (before after : Core Memory) : Prop where
  data : after.cmacData = before.cmacData
  active : after.cmacActive = before.cmacActive

namespace KeepsCmac

theorem refl (core : Core Memory) : KeepsCmac core core := ⟨rfl, rfl⟩

theorem trans {first second third : Core Memory} (left : KeepsCmac first second)
    (right : KeepsCmac second third) : KeepsCmac first third :=
  ⟨right.data.trans left.data, right.active.trans left.active⟩

theorem ite {condition : Prop} [Decidable condition] {core first second : Core Memory}
    (taken : KeepsCmac core first) (skipped : KeepsCmac core second) :
    KeepsCmac core (if condition then first else second) := by
  split
  · exact taken
  · exact skipped

theorem store32 (core : Core Memory) (offset : Nat) (value : BitVec 32) :
    KeepsCmac core (core.store32 offset value) := ⟨rfl, rfl⟩

theorem storeAll (core : Core Memory) (stores : List (Nat × BitVec 32)) :
    KeepsCmac core (core.storeAll stores) := by
  rw [storeAll_eq]
  exact ⟨rfl, rfl⟩

end KeepsCmac

theorem keepsCmac_sha256 (core : Core Memory) (state : Sha256State) :
    KeepsCmac core { core with sha256 := state } := ⟨rfl, rfl⟩

theorem keepsCmac_sha256Reset (core : Core Memory) : KeepsCmac core core.sha256Reset :=
  (keepsCmac_sha256 core _).trans ((KeepsCmac.storeAll _ _).trans (KeepsCmac.storeAll _ _))

theorem keepsCmac_sha256Finish (core : Core Memory) : KeepsCmac core core.sha256Finish :=
  .ite (.refl core)
    ((keepsCmac_sha256 core _).trans ((KeepsCmac.storeAll _ _).trans (KeepsCmac.storeAll _ _)))

theorem keepsCmac_updateHashAfterWrite (core : Core Memory) (offset : Nat) (value : BitVec 32) :
    KeepsCmac core (core.updateHashAfterWrite offset value) := by
  have stored (offset : Nat) := KeepsCmac.store32 core offset value
  unfold updateHashAfterWrite
  dsimp only
  refine .ite (.ite ((stored _).trans (keepsCmac_sha256 _ _)) (stored _)) ?_
  refine .ite (.ite ((stored _).trans (keepsCmac_sha256 _ _)) (stored _)) ?_
  refine .ite (.ite ((stored _).trans (keepsCmac_sha256Reset _))
    ((stored _).trans (keepsCmac_sha256 _ _))) ?_
  refine .ite (.ite ((stored _).trans (keepsCmac_sha256Finish _)) (stored _)) ?_
  exact .ite (stored _) (.refl core)

theorem keepsCmac_updateRngAfterWrite (core : Core Memory) (offset : Nat) (value : BitVec 32) :
    KeepsCmac core (core.updateRngAfterWrite offset value) := by
  have stored (offset : Nat) (value : BitVec 32) := KeepsCmac.store32 core offset value
  unfold updateRngAfterWrite
  refine .ite ((stored _ _).trans (.store32 _ _ _)) ?_
  refine .ite (stored _ _) ?_
  refine .ite (.ite ((stored _ _).trans (.store32 _ _ _)) (stored _ _)) ?_
  exact .ite (stored _ _) (.ite (stored _ _) (.refl core))

theorem keepsCmac_pkaSramWrite (core : Core Memory) (wordAddr value : BitVec 32)
    (invalidateModulus : Bool) :
    KeepsCmac core (core.pkaSramWrite wordAddr value invalidateModulus) :=
  .ite (.ite ⟨rfl, rfl⟩ ⟨rfl, rfl⟩) (.refl core)

theorem keepsCmac_pkaStoreWords (core : Core Memory) (base : BitVec 32) (writesModulus : Bool)
    (data : Operand) : KeepsCmac core (core.pkaStoreWords base writesModulus data) := by
  induction data generalizing core base with
  | nil => exact .refl core
  | cons word rest inductionHypothesis =>
      exact (keepsCmac_pkaSramWrite core base word writesModulus).trans (inductionHypothesis _ _)

theorem keepsCmac_pkaStoreAll (core : Core Memory) (stores : List (BitVec 32 × Operand)) :
    KeepsCmac core (core.pkaStoreAll stores) := by
  induction stores generalizing core with
  | nil => exact .refl core
  | cons store rest inductionHypothesis =>
      exact (keepsCmac_pkaStoreWords core _ _ _).trans (inductionHypothesis _)

theorem keepsCmac_pkaModulusFor (core : Core Memory) (operation : PkaOperation) (words : Nat) :
    KeepsCmac core (core.pkaModulusFor operation words).2 := by
  unfold pkaModulusFor pkaModulusValue
  split
  · split <;> exact ⟨rfl, rfl⟩
  · exact .refl core

theorem keepsCmac_executePkaOpcode (core : Core Memory) (opcode : BitVec 32) :
    KeepsCmac core (core.executePkaOpcode opcode) := by
  unfold executePkaOpcode
  dsimp only
  split
  · exact .refl core
  · split
    · exact (keepsCmac_pkaModulusFor core _ _).trans
        ((keepsCmac_pkaStoreAll _ _).trans (.storeAll _ _))
    · exact .storeAll _ _

theorem keepsCmac_read (core : Core Memory) (offset len : Nat) (debug : Bool) :
    KeepsCmac core (core.read offset len debug).2 := by
  unfold read
  dsimp only
  split <;> split <;> exact ⟨rfl, rfl⟩

/-- Software accesses a register, or the memory behind the core changes. -/
inductive CmacEvent (Memory : Type)
  | access (access : RegisterAccess)
  | memory (memory : Memory)

def cmacStep (bus : Bus Memory) (core : Core Memory) : CmacEvent Memory → Option (Core Memory)
  | .access access => core.step bus access
  | .memory memory => some { core with memory := memory }

namespace CmacEvent

/-- The register offset and the word of a write that `write32` takes. -/
def wordWrite : CmacEvent Memory → Option (Nat × BitVec 32)
  | .access (.write offset data) =>
      if RegisterAccess.isWordWrite offset data then some (offset.toNat, ofBytes 32 data) else none
  | .access (.read _ _ _) => none
  | .memory _ => none

theorem wordWrite_of_word {offset : BitVec 64} {data : List Byte}
    (word : RegisterAccess.isWordWrite offset data = true) :
    (access (.write offset data) : CmacEvent Memory).wordWrite =
      some (offset.toNat, ofBytes 32 data) :=
  if_pos word

theorem wordWrite_of_plain {offset : BitVec 64} {data : List Byte}
    (plain : ¬RegisterAccess.isWordWrite offset data = true) :
    (access (.write offset data) : CmacEvent Memory).wordWrite = none :=
  if_neg plain

/-- The event starts a new message, or asks for the tag. -/
def Ends (event : CmacEvent Memory) : Prop :=
  ∃ written ∈ event.wordWrite, written.1 = aesCmacInit ∧ written.2 &&& 0x1 ≠ 0 ∨
    written.1 = aesRemainingBytes ∧ written.2 = 0

instance (event : CmacEvent Memory) : Decidable event.Ends :=
  inferInstanceAs (Decidable (∃ written ∈ event.wordWrite, _))

/-- The bytes that the event transfers to the engine: a write of the input length starts a
transfer from the address in the register beside it. -/
def data (content : Memory → BitVec 64 → Byte) (core : Core Memory) (event : CmacEvent Memory) :
    List Byte :=
  match event.wordWrite with
  | some (offset, value) =>
      if offset = dinSrcLliWord1 then
        Bus.slice (content core.memory) core.dmaSource value.toNat
      else []
  | none => []

end CmacEvent

/-- A rejected access is not one to the input length. -/
theorem CmacEvent.data_of_rejected (content : Memory → BitVec 64 → Byte) (core : Core Memory)
    {access : RegisterAccess} (rejected : access.rejected = true) :
    (CmacEvent.access access).data content core = [] := by
  cases access with
  | read offset len debug => rfl
  | write offset data =>
      unfold CmacEvent.data
      by_cases word : RegisterAccess.isWordWrite offset data = true
      · have length : data.length = 4 := by
          simp only [RegisterAccess.isWordWrite, Bool.and_eq_true, beq_iff_eq] at word
          exact word.1
        have elsewhere : offset.toNat ≠ dinSrcLliWord1 := by
          intro input
          obtain rfl : offset = BitVec.ofNat 64 dinSrcLliWord1 := by
            apply BitVec.eq_of_toNat_eq
            rw [input]
            rfl
          have accepted : (RegisterAccess.write (BitVec.ofNat 64 dinSrcLliWord1) data).rejected =
              false := by
            rw [RegisterAccess.rejected, RegisterAccess.len, RegisterAccess.offset, length]
            decide
          rw [accepted] at rejected
          cases rejected
        rw [CmacEvent.wordWrite_of_word word]
        exact if_neg elsewhere
      · rw [CmacEvent.wordWrite_of_plain word]

/-- The engine and the mode that a CMAC needs. -/
structure CmacSelected (core : Core Memory) : Prop where
  engine : core.engine = engineAes
  mode : core.aesMode = aesModeCmac

instance (core : Core Memory) : Decidable (CmacSelected core) :=
  decidable_of_iff (core.engine = engineAes ∧ core.aesMode = aesModeCmac)
    ⟨fun selected => ⟨selected.1, selected.2⟩, fun selected => ⟨selected.1, selected.2⟩⟩

/-- The engine has collected a message. -/
structure Collects (core : Core Memory) (message : List Byte) : Prop where
  active : core.cmacActive = true
  data : core.cmacData = message

theorem Collects.keeps {before after : Core Memory} {message : List Byte}
    (collects : Collects before message) (kept : KeepsCmac before after) :
    Collects after message :=
  ⟨kept.active.trans collects.active, kept.data.trans collects.data⟩

/-- The message that a run transfers. -/
def cmacMessage (bus : Bus Memory) (content : Memory → BitVec 64 → Byte) (core : Core Memory)
    (events : List (CmacEvent Memory)) : List Byte :=
  history (cmacStep bus) (fun core event message => message ++ event.data content core) core []
    events

/-- The other triggers of a transfer reach no engine. -/
theorem keepsCmac_completeDmaTransfer (bus : Bus Memory) (core : Core Memory)
    {triggerOffset : Nat} (other : triggerOffset ≠ dinSrcLliWord1) :
    KeepsCmac core (core.completeDmaTransfer bus triggerOffset) := by
  obtain ⟨stores, -, complete⟩ := core.completeDmaTransfer_eq bus triggerOffset
  rw [complete, hashDmaInput_of_ne bus (Or.inr other), aesDmaOutput, if_pos (Or.inl other),
    cmacDmaInput_of_ne bus (Or.inr other)]
  exact .storeAll core stores

theorem keepsCmac_write32 (bus : Bus Memory) (core : Core Memory) {offset : Nat}
    {value : BitVec 32} (notInput : offset ≠ dinSrcLliWord1)
    (notInit : ¬(offset = aesCmacInit ∧ value &&& 0x1 ≠ 0))
    (notFinish : ¬(offset = aesRemainingBytes ∧ value = 0)) :
    KeepsCmac core (core.write32 bus offset value) := by
  have stored (offset : Nat) (value : BitVec 32) := KeepsCmac.store32 core offset value
  have init (start : offset = aesCmacInit) : ¬value &&& 0x1 ≠ 0 := fun set => notInit ⟨start, set⟩
  have finish (last : offset = aesRemainingBytes) : ¬value = 0 := fun zero => notFinish ⟨last, zero⟩
  have reset : KeepsCmac core (core.pkaSwResetWrite value) := by
    rw [pkaSwResetWrite, storeAll_eq]
    exact ⟨rfl, rfl⟩
  have control : KeepsCmac core (core.cryptoCtlWrite value) := by
    rw [cryptoCtlWrite, storeAll_eq]
    exact ⟨rfl, rfl⟩
  have word : KeepsCmac core (core.pkaSramDataWrite value) := by
    have advanced : KeepsCmac core
        { core.store32 pkaSramWdata value with pkaWriteAddr := core.pkaWriteAddr + 1 } :=
      ⟨rfl, rfl⟩
    exact advanced.trans (keepsCmac_pkaSramWrite _ _ _ _)
  unfold write32
  refine .ite reset ?_
  refine .ite ⟨rfl, rfl⟩ ?_
  refine .ite word ?_
  refine .ite ⟨rfl, rfl⟩ ?_
  refine .ite ((stored _ _).trans (keepsCmac_executePkaOpcode _ _)) ?_
  refine .ite (keepsCmac_updateRngAfterWrite _ _ _) ?_
  refine .ite (stored _ _) ?_
  refine .ite (keepsCmac_updateHashAfterWrite _ _ _) ?_
  split_ifs with start set last zero ctl trigger hashReg base
  · exact absurd set (init start)
  · exact stored _ _
  · exact absurd zero (finish last)
  · exact stored _ _
  · exact control
  · exact (stored _ _).trans (keepsCmac_completeDmaTransfer bus _ notInput)
  · exact keepsCmac_updateHashAfterWrite _ _ _
  · exact ⟨rfl, rfl⟩
  · exact stored _ _

theorem aesMode_store32 (core : Core Memory) {offset : Nat} (value : BitVec 32)
    (apart : aesControl + 4 ≤ offset ∨ offset + 4 ≤ aesControl) :
    (core.store32 offset value).aesMode = core.aesMode := by
  rw [aesMode, load32_store32_of_disjoint core value apart, aesMode]

/-- A transfer extends the collected message, however it is cut into chunks. -/
theorem Collects.transfer {bus : Bus Memory} {content : Memory → BitVec 64 → Byte}
    (readable : bus.Readable content) {core : Core Memory} {message : List Byte}
    (collects : Collects core message) (selected : CmacSelected core) (value : BitVec 32) :
    Collects (core.write32 bus dinSrcLliWord1 value)
      (message ++ Bus.slice (content core.memory) core.dmaSource value.toNat) := by
  have mode : (core.store32 dinSrcLliWord1 value).aesMode = aesModeCmac :=
    (aesMode_store32 core value (Or.inl (by decide))).trans selected.mode
  have engine : (core.store32 dinSrcLliWord1 value).engine = engineAes := selected.engine
  have source : (core.store32 dinSrcLliWord1 value).dmaSource = core.dmaSource := by
    rw [dmaSource, load32_store32_of_disjoint core value (Or.inl (by decide)), dmaSource]
  have length : (core.store32 dinSrcLliWord1 value).load32 dinSrcLliWord1 = value :=
    load32_store32_same core dinSrcLliWord1 value
  have ready : Collects (core.store32 dinSrcLliWord1 value) message :=
    ⟨collects.active, collects.data⟩
  have notHash : engineAes ≠ engineHash := by decide
  have idle : (core.store32 dinSrcLliWord1 value).aesDmaOutput bus dinSrcLliWord1 =
      core.store32 dinSrcLliWord1 value := by
    have notEcb : aesModeCmac ≠ aesModeEcb := by decide
    have notCtr : aesModeCmac ≠ aesModeCtr := by decide
    unfold aesDmaOutput
    dsimp only
    rw [mode, if_neg notEcb, if_neg notCtr, ite_self]
  have accepts : ¬((core.store32 dinSrcLliWord1 value).cmacActive = false ∨
      (core.store32 dinSrcLliWord1 value).engine ≠ engineAes ∨
      (core.store32 dinSrcLliWord1 value).aesMode ≠ aesModeCmac ∨
      dinSrcLliWord1 ≠ dinSrcLliWord1) := by
    simp [ready.active, engine, mode]
  obtain ⟨stores, -, complete⟩ :=
    (core.store32 dinSrcLliWord1 value).completeDmaTransfer_eq bus dinSrcLliWord1
  rw [write32_dinSrcLliWord1, complete, hashDmaInput_of_ne bus (Or.inl (engine ▸ notHash)), idle,
    cmacDmaInput, if_neg accepts, source, length]
  refine Collects.keeps ?_ (.storeAll _ _)
  have consumed (core : Core Memory) (message data : List Byte) (collects : Collects core message) :
      Collects { core with cmacData := core.cmacData ++ data } (message ++ data) :=
    ⟨collects.active, congrArg (· ++ data) collects.data⟩
  exact (@dmaInput_extends _ _ _ readable _ Collects consumed (fun _ _ => rfl) _ message ready
    core.dmaSource value.toNat _ List.length_replicate).2

/-- One event extends the collected message by the bytes it transfers. -/
theorem Collects.step {bus : Bus Memory} {content : Memory → BitVec 64 → Byte}
    (readable : bus.Readable content) {core next : Core Memory} {message : List Byte}
    {event : CmacEvent Memory} (collects : Collects core message) (selected : CmacSelected core)
    (continues : ¬event.Ends) (stepped : cmacStep bus core event = some next) :
    Collects next (message ++ event.data content core) := by
  cases event with
  | memory memory =>
      cases stepped
      rw [CmacEvent.data, CmacEvent.wordWrite, List.append_nil]
      exact ⟨collects.active, collects.data⟩
  | access access =>
      obtain ⟨response, responded⟩ :
          ∃ response, core.respond bus access = some (response, next) := by
        obtain ⟨⟨response, reached⟩, responded, rfl⟩ := Option.map_eq_some_iff.mp stepped
        exact ⟨response, responded⟩
      unfold respond at responded
      split_ifs at responded with rejected inside
      · cases responded
        rw [CmacEvent.data_of_rejected content core rejected, List.append_nil]
        exact collects
      · cases access with
        | read offset len debug =>
            cases responded
            rw [CmacEvent.data, CmacEvent.wordWrite, List.append_nil]
            exact collects.keeps (keepsCmac_read core _ _ _)
        | write offset data =>
            cases responded
            unfold Core.write
            by_cases word : RegisterAccess.isWordWrite offset data = true
            · have written := @CmacEvent.wordWrite_of_word Memory _ _ word
              rw [if_pos word, CmacEvent.data, written]
              by_cases input : offset.toNat = dinSrcLliWord1
              · dsimp only
                rw [if_pos input, input]
                exact collects.transfer readable selected _
              · dsimp only
                rw [if_neg input, List.append_nil]
                refine collects.keeps (keepsCmac_write32 bus core input ?_ ?_)
                · exact fun start => continues ⟨_, written, .inl start⟩
                · exact fun last => continues ⟨_, written, .inr last⟩
            · rw [if_neg word, CmacEvent.data, CmacEvent.wordWrite_of_plain word, List.append_nil]
              exact ⟨collects.active, collects.data⟩

/-- The engine collects the message of a run that stays selected. -/
theorem Collects.run {bus : Bus Memory} {content : Memory → BitVec 64 → Byte}
    (readable : bus.Readable content) {core final : Core Memory}
    {events : List (CmacEvent Memory)} (started : Collects core [])
    (stays : Along (cmacStep bus) (fun core event => CmacSelected core ∧ ¬event.Ends) core events)
    (reached : Foundation.run (cmacStep bus) core events = some final) :
    Collects final (cmacMessage bus content core events) :=
  history_invariant_along
    (fun _ _ _ _ collects continues stepped =>
      collects.step readable continues.1 continues.2 stepped) started stays reached

/-- The write of zero to the remaining bytes puts the code of the collected message into the
`AES_IV` registers. -/
theorem Collects.finish (bus : Bus Memory) {core : Core Memory} {message : List Byte}
    (collects : Collects core message) (mode : core.aesMode = aesModeCmac) :
    (core.write32 bus aesRemainingBytes 0).regs.read aesIv0 16 =
      Cmac.octets (Cmac.tag (aesCipher core.aesKey) message) := by
  have key : (core.store32 aesRemainingBytes 0).aesKey = core.aesKey := by
    apply aesKey_congr (load32_store32_of_disjoint core 0 (Or.inr (by decide)))
    intro index _ below
    apply Image.store32_outside
    simp only [aesKey0, aesRemainingBytes] at below ⊢
    omega
  have continues : ¬((core.store32 aesRemainingBytes 0).cmacActive = false ∨
      (core.store32 aesRemainingBytes 0).aesMode ≠ aesModeCmac) := by
    rw [aesMode_store32 core 0 (Or.inr (by decide)), mode]
    simp [Core.store32, collects.active]
  obtain ⟨tag, computed, standard⟩ := aesCmac_eq message core.aesKey_supported
  have data : (core.store32 aesRemainingBytes 0).cmacData = message := collects.data
  have routed : core.write32 bus aesRemainingBytes 0 =
      (core.store32 aesRemainingBytes 0).cmacFinish := rfl
  rw [routed, cmacFinish, if_neg continues, key, data, computed, ← standard,
    Block.octets_standard]
  refine Eq.trans (Image.read_congr ?_) (Image.read_write_same
    (core.store32 aesRemainingBytes 0).regs aesIv0 tag.toBytes)
  intro index _ below
  apply Image.store32_outside
  simp only [aesIv0, aesBusy] at below ⊢
  omega

/-- Between the start of a CMAC and the write of zero to the remaining bytes any register
accesses and changes of the memory may stand, as long as the engine and the mode stay selected:
the `AES_IV` registers end with the code of the bytes that the transfers between cover. -/
theorem cmac_tag {bus : Bus Memory} {content : Memory → BitVec 64 → Byte}
    (readable : bus.Readable content) {core final : Core Memory} {init : BitVec 32}
    (start : init &&& 0x1 ≠ 0) {events : List (CmacEvent Memory)}
    (stays : Along (cmacStep bus) (fun core event => CmacSelected core ∧ ¬event.Ends)
      (core.write32 bus aesCmacInit init) events)
    (reached : Foundation.run (cmacStep bus) (core.write32 bus aesCmacInit init) events =
      some final) (mode : final.aesMode = aesModeCmac) :
    (final.write32 bus aesRemainingBytes 0).regs.read aesIv0 16 =
      Cmac.octets (Cmac.tag (aesCipher final.aesKey)
        (cmacMessage bus content (core.write32 bus aesCmacInit init) events)) := by
  have routed : core.write32 bus aesCmacInit init =
      (core.store32 aesCmacInit init).cmacReset := by
    change (if init &&& 0x1 ≠ 0 then (core.store32 aesCmacInit init).cmacReset else _) = _
    rw [if_pos start]
  have started : Collects (core.write32 bus aesCmacInit init) [] := by
    rw [routed]
    exact ⟨rfl, rfl⟩
  exact (started.run readable stays reached).finish bus mode

/-- Sixteen and three bytes in two transfers, under a key of zeros. -/
theorem cmac_tag_two :
    let core := ((reset fun _ => 0x61).write32 Bus.ram cryptoCtl engineAes).write32 Bus.ram
      aesControl 0x1c
    let events : List (CmacEvent (BitVec 64 → Byte)) :=
      [.access (.writeWord dinSrcLliWord1 16), .memory fun _ => 0x62,
        .access (.writeWord dinSrcLliWord0 5), .access (.writeWord dinSrcLliWord1 3)]
    ∃ final, Foundation.run (cmacStep Bus.ram) (core.write32 Bus.ram aesCmacInit 1) events =
        some final ∧
      (final.write32 Bus.ram aesRemainingBytes 0).regs.read aesIv0 16 =
        Cmac.octets (Cmac.tag (aesCipher final.aesKey)
          (cmacMessage Bus.ram (fun memory => memory) (core.write32 Bus.ram aesCmacInit 1)
            events)) := by
  refine ⟨_, rfl, ?_⟩
  exact cmac_tag Bus.ram_writable.toReadable (by decide) (by decide +kernel) rfl (by decide +kernel)

end Core

end QboxPlatform.Cc3xx
