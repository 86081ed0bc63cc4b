import QboxPlatform.Dma350.Destination
import QboxPlatform.Foundation.Run

/-!
# The command registers of the DMA-350

Memory changes only when the command register of a channel is written with the enable bit, and
then as the channel says; debug accesses never change it.
-/

namespace QboxPlatform.Dma350

open Foundation Foundation.Ranges

variable {Memory : Type*} {bus : Bus Memory}

/-- The registers of a channel start here. -/
def IsChannel (channelBase : Nat) : Prop :=
  chBase ≤ channelBase ∧ channelBase < regBytes ∧ (channelBase - chBase) % chStride = 0

/-- The access writes the enable bit of the command register of a channel. -/
def Enables (access : Access) (channelBase : Nat) : Prop :=
  ∃ offset data, access = .write offset data ∧ data.length = 4 ∧
    offset.toNat = channelBase + chCmd ∧ IsChannel channelBase ∧
    ofBytes 32 data &&& chCmdEnable ≠ 0

/-- The command and status registers are not read by a transfer. -/
theorem executeChannel_congr (bus : Bus Memory) {first second : Image} {channelBase : Nat}
    (same : ∀ index, channelBase + chCtrl ≤ index → second index = first index)
    (memory : Memory) :
    executeChannel bus second channelBase memory = executeChannel bus first channelBase memory := by
  have words : ∀ offset, chCtrl ≤ offset →
      second.load32 (channelBase + offset) = first.load32 (channelBase + offset) := by
    intro offset above
    apply Image.load32_congr
    intro index later _
    exact same index (by omega)
  simp (disch := decide) only [executeChannel, executeFill, executeCopy, channelAddress,
    sourceXsize, destXsize, Nat.add_assoc, words]

theorem write32_status (dma : Dma Memory) {offset : Nat} (value : BitVec 32)
    (executeSideEffects : Bool) (status : chBase ≤ offset ∧ offset < regBytes ∧
      (offset - chBase) % chStride = chStatus) :
    (write32 bus dma offset value executeSideEffects).memory = dma.memory := by
  have taken : write32 bus dma offset value executeSideEffects = { dma with regs := _ } :=
    if_pos status
  rw [taken]

theorem write32_other (dma : Dma Memory) {offset : Nat} (value : BitVec 32)
    (executeSideEffects : Bool)
    (status : ¬ (chBase ≤ offset ∧ offset < regBytes ∧ (offset - chBase) % chStride = chStatus))
    (command : ¬ IsChannel offset) :
    (write32 bus dma offset value executeSideEffects).memory = dma.memory := by
  have taken : write32 bus dma offset value executeSideEffects = { dma with regs := _ } :=
    (if_neg status).trans (if_neg command)
  rw [taken]

theorem IsChannel.not_status {offset : Nat} (channel : IsChannel offset) :
    ¬ (chBase ≤ offset ∧ offset < regBytes ∧ (offset - chBase) % chStride = chStatus) := by
  rintro ⟨-, -, status⟩
  rw [channel.2.2] at status
  cases status

theorem write32_idle (dma : Dma Memory) {offset : Nat} (channel : IsChannel offset)
    {value : BitVec 32} {executeSideEffects : Bool}
    (idle : ¬ (executeSideEffects = true ∧ value &&& chCmdEnable ≠ 0)) :
    (write32 bus dma offset value executeSideEffects).memory = dma.memory := by
  have taken : write32 bus dma offset value executeSideEffects = { dma with regs := _ } :=
    (if_neg channel.not_status).trans ((if_pos channel).trans (if_neg idle))
  rw [taken]

/-- An enabled channel runs to its end, reports it in its status, and clears its command. -/
theorem write32_enable (dma : Dma Memory) {channelBase : Nat} (channel : IsChannel channelBase)
    {value : BitVec 32} (enables : value &&& chCmdEnable ≠ 0) :
    let outcome := executeChannel bus dma.regs channelBase dma.memory
    let next := write32 bus dma (channelBase + chCmd) value true
    next.memory = outcome.2 ∧ next.regs.load32 (channelBase + chCmd) = 0 ∧
      next.regs.load32 (channelBase + chStatus) &&& (chStatusStatDone ||| chStatusStatErr) =
        if outcome.1 then chStatusStatDone else chStatusStatErr := by
  have start : channelBase + chCmd - (channelBase + chCmd - chBase) % chStride = channelBase := by
    have aligned : (channelBase + chCmd - chBase) % chStride = 0 := channel.2.2
    rw [aligned]
    rfl
  have unread (base : Nat) : executeChannel bus (dma.regs.store32 (base + chStatus) 0) base
      dma.memory = executeChannel bus dma.regs base dma.memory := by
    apply executeChannel_congr
    intro index later
    apply Image.store32_outside
    simp only [chCtrl, chStatus] at later ⊢
    omega
  have written : write32 bus dma (channelBase + chCmd) value true = _ :=
    (if_neg channel.not_status).trans ((if_pos channel).trans (if_pos ⟨rfl, enables⟩))
  rw [start] at written
  dsimp only at written
  rw [unread] at written
  intro outcome next
  have reached : next = _ := written
  refine ⟨congrArg Dma.memory reached, ?_, ?_⟩
  · rw [reached]
    exact Image.load32_store32 _ _ _
  · rw [reached, Image.load32_store32_of_disjoint _ _ (by simp only [chStatus, chCmd]; omega),
      completeChannel, Image.load32_store32]
    split_ifs <;> rfl

/-- Only the enable bit of a command register starts a transfer, and not for the debugger. -/
theorem write32_memory (dma : Dma Memory) (offset : Nat) (value : BitVec 32)
    (executeSideEffects : Bool) :
    (write32 bus dma offset value executeSideEffects).memory = dma.memory ∨
      executeSideEffects = true ∧ IsChannel offset ∧ value &&& chCmdEnable ≠ 0 := by
  by_cases channel : IsChannel offset
  · by_cases enabled : executeSideEffects = true ∧ value &&& chCmdEnable ≠ 0
    · exact Or.inr ⟨enabled.1, channel, enabled.2⟩
    · exact Or.inl (write32_idle dma channel enabled)
  · left
    by_cases status : chBase ≤ offset ∧ offset < regBytes ∧
        (offset - chBase) % chStride = chStatus
    · exact write32_status dma value executeSideEffects status
    · exact write32_other dma value executeSideEffects status channel

/-- What an access can do to memory. -/
theorem access_memory {dma next : Dma Memory} {executeSideEffects : Bool} {access : Access}
    {response : Response}
    (accessed : Dma350.access bus dma executeSideEffects access = some (response, next)) :
    next.memory = dma.memory ∨ executeSideEffects = true ∧ ∃ channelBase,
      Enables access channelBase ∧
        next.memory = (executeChannel bus dma.regs channelBase dma.memory).2 := by
  unfold Dma350.access at accessed
  split_ifs at accessed
  · cases accessed
    exact Or.inl rfl
  · cases access with
    | read offset len =>
        dsimp only at accessed
        split_ifs at accessed
        cases accessed
        exact Or.inl rfl
    | ignore offset len =>
        cases accessed
        exact Or.inl rfl
    | write offset data =>
        dsimp only at accessed
        split_ifs at accessed with outside word
        · cases accessed
          rcases write32_memory dma offset.toNat (ofBytes 32 data) executeSideEffects with
            same | ⟨rfl, channel, enables⟩
          · exact Or.inl same
          · right
            refine ⟨rfl, offset.toNat, ⟨offset, data, rfl, word.1, rfl, channel, enables⟩, ?_⟩
            exact (write32_enable dma channel enables).1
        · cases accessed
          exact Or.inl rfl

/-- An access through `b_transport`, or through `transport_dbg`. -/
def step (bus : Bus Memory) (dma : Dma Memory) (event : Bool × Access) : Option (Dma Memory) :=
  (access bus dma event.1 event.2).map Prod.snd

/-- A run in which no channel is enabled, or only by the debugger, leaves memory alone. -/
theorem run_memory {dma final : Dma Memory} {events : List (Bool × Access)}
    (idle : ∀ event ∈ events, event.1 = true → ∀ channelBase, ¬ Enables event.2 channelBase)
    (reached : run (step bus) dma events = some final) : final.memory = dma.memory := by
  have keeps : ∀ (state : Dma Memory) (event : Bool × Access) (next : Dma Memory),
      state.memory = dma.memory → (event.1 = true → ∀ channelBase, ¬ Enables event.2 channelBase) →
        step bus state event = some next → next.memory = dma.memory := by
    intro state event next same quiet stepped
    obtain ⟨⟨response, reached⟩, accessed, rfl⟩ := Option.map_eq_some_iff.mp stepped
    rcases access_memory accessed with kept | ⟨effects, channelBase, enables, -⟩
    · exact kept.trans same
    · exact absurd enables (quiet effects channelBase)
  have quiet : Along (step bus)
      (fun _ event => event.1 = true → ∀ channelBase, ¬ Enables event.2 channelBase) dma events :=
    along_of_forall (fun event member _ => idle event member) dma
  exact run_invariant_along keeps rfl quiet reached

/-- A channel that is enabled before it has been set up moves nothing. -/
theorem executeChannel_reset (bus : Bus Memory) {channelBase : Nat}
    (channel : IsChannel channelBase) (memory : Memory) :
    executeChannel bus resetRegisters channelBase memory = (true, memory) := by
  have counts : ∀ offset, offset = chXsize ∨ offset = chXsizehi →
      resetRegisters.load32 (channelBase + offset) = 0 := by
    intro offset which
    obtain ⟨above, -, aligned⟩ := channel
    have apart : ∀ register ∈ [dmasecinfo, dmainfoIidr, dmainfoAidr, chBase + chCtrl,
        chBase + chDestranscfg],
          channelBase + offset + 4 ≤ register ∨ register + 4 ≤ channelBase + offset := by
      simp only [List.forall_mem_cons, dmasecinfo, dmainfoIidr, dmainfoAidr, chBase, chCtrl,
        chDestranscfg, chXsize, chXsizehi, chStride] at above aligned which ⊢
      refine ⟨?_, ?_, ?_, ?_, ?_, List.forall_mem_nil _⟩ <;> omega
    unfold resetRegisters
    dsimp only
    rw [Image.load32_store32_of_disjoint _ _ (apart _ (by simp)),
      Image.load32_store32_of_disjoint _ _ (apart _ (by simp)),
      Image.load32_store32_of_disjoint _ _ (apart _ (by simp)),
      Image.load32_store32_of_disjoint _ _ (apart _ (by simp)),
      Image.load32_store32_of_disjoint _ _ (apart _ (by simp))]
    have zeros : ofBytes 32 ((List.range 4).map fun _ => 0) = 0 := by decide
    exact zeros
  simp [executeChannel, executeFill, executeCopy, sourceXsize, counts]

/-- The channel is set up to fill. -/
def Fills (regs : Image) (channelBase : Nat) : Prop :=
  (regs.load32 (channelBase + chCtrl) &&& chCtrlXtypeMask) >>> chCtrlXtypeShift = chCtrlXtypeFill

/-- The cells that an enabled channel writes. -/
theorem written_enable_fill (reliable : bus.Reliable) {regs : Image} {channelBase : Nat}
    (channel : IsChannel channelBase) (fills : Fills regs channelBase) {value : BitVec 32}
    (enables : value &&& chCmdEnable ≠ 0) (memory : Memory) :
    Bus.written
        (write32 bus.logged ⟨regs, (memory, [])⟩ (channelBase + chCmd) value true).memory.2 =
      cells ((regs.load32 (channelBase + chDesaddr)).setWidth 64)
        (destIncrement regs channelBase).toInt 8 (fillCount regs channelBase) := by
  have moved : (write32 bus.logged ⟨regs, (memory, [])⟩ (channelBase + chCmd) value true).memory =
      (executeChannel bus.logged regs channelBase (memory, [])).2 :=
    (write32_enable _ channel enables).1
  have fill : executeChannel bus.logged regs channelBase (memory, []) =
      executeFill bus.logged regs channelBase (memory, []) := if_pos fills
  rw [moved, fill]
  exact written_executeFill reliable regs channelBase memory

theorem written_enable_copy (reliable : bus.Reliable) {regs : Image} {channelBase : Nat}
    (channel : IsChannel channelBase) (copies : ¬ Fills regs channelBase)
    (enough : (destXsize regs channelBase).toNat ≤ (sourceXsize regs channelBase).toNat)
    {value : BitVec 32} (enables : value &&& chCmdEnable ≠ 0) (memory : Memory) :
    Bus.written
        (write32 bus.logged ⟨regs, (memory, [])⟩ (channelBase + chCmd) value true).memory.2 =
      cells (channelAddress regs channelBase chDesaddr) (destIncrement regs channelBase).toInt
        (transferBytes regs channelBase) (destXsize regs channelBase).toNat := by
  have moved : (write32 bus.logged ⟨regs, (memory, [])⟩ (channelBase + chCmd) value true).memory =
      (executeChannel bus.logged regs channelBase (memory, [])).2 :=
    (write32_enable _ channel enables).1
  have copy : executeChannel bus.logged regs channelBase (memory, []) =
      executeCopy bus.logged regs channelBase (memory, []) := if_neg copies
  rw [moved, copy]
  exact written_executeCopy reliable memory enough

end QboxPlatform.Dma350
