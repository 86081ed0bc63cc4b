import QboxPlatform.Foundation.Run
import QboxPlatform.Mhu.Step

/-!
# The combined interrupt

In every state that a pair reaches from elaboration, the interrupt line of each frame and
its `CTRL_DBCH_INT_ST` words say exactly which decoded channels are pending.
-/

namespace QboxPlatform.Mhu

open Foundation Relation

universe u

/-- The pending condition of a channel: an unmasked status bit in the mailbox, an enabled
interrupt in the postbox. -/
def Side.pending (side : Side) (frame : Frame) (channel : Nat) : Prop :=
  match side with
  | .pbx => (frame.channels channel).intStatus &&& (frame.channels channel).intEnable ≠ 0
  | .mbx => (frame.channels channel).status &&& ~~~(frame.channels channel).mask ≠ 0

/-- The line is the disjunction of the pending conditions of the decoded channels, and the
combined status words have one bit for each of them and no other. -/
structure Side.InterruptExact (side : Side) (port : Port) : Prop where
  line : port.irq = true ↔
    ∃ channel < port.frame.channelCount.count, side.pending port.frame channel
  words : ∀ word < 4, ∀ bit < 32,
    (port.frame.read32 (ctrlDbchIntSt0 + 4 * word)).getLsbD bit = true ↔
      32 * word + bit < port.frame.channelCount.count ∧
        side.pending port.frame (32 * word + bit)

namespace Frame

/-- The loop of `combined_dbch_int_st`, bit by bit. -/
theorem getLsbD_foldl_setBit (test : Nat → Bool) {count : Nat} (fits : count ≤ 32) (bit : Nat) :
    ((List.range count).foldl
      (fun status position => if test position then status ||| 1#32 <<< position else status)
      0).getLsbD bit = (decide (bit < count) && test bit) := by
  induction count with
  | zero => simp
  | succ count inductionHypothesis =>
      have single : (1#32 <<< count).getLsbD bit = decide (bit = count) := by
        by_cases same : bit = count
        · subst same
          simp
          omega
        · by_cases above : bit < count
          · simp [above, same]
          · have apart : bit - count ≠ 0 := by omega
            simp [same, BitVec.getLsbD_one, apart]
      have earlier := inductionHypothesis (by omega)
      rw [List.range_succ, List.foldl_append, List.foldl_cons, List.foldl_nil]
      generalize (List.range count).foldl _ _ = status at earlier ⊢
      by_cases same : bit = count
      · subst same
        split_ifs with set <;> simp [earlier, single, set]
      · have below : (bit < count + 1) ↔ bit < count := by omega
        split_ifs <;> simp [earlier, single, same, below]

theorem getLsbD_combinedDbchIntSt (frame : Frame) {bit : Nat} (word : Nat) (low : bit < 32) :
    (frame.combinedDbchIntSt word).getLsbD bit =
      (decide (32 * word + bit < frame.channelCount.count) &&
        frame.asserted (32 * word + bit)) := by
  unfold combinedDbchIntSt
  dsimp only
  rw [getLsbD_foldl_setBit (fun position => frame.asserted (word * 32 + position)) (by omega),
    Nat.mul_comm word 32]
  congr 2
  simp only [eq_iff_iff]
  omega

theorem anyCombinedIrq_iff (frame : Frame) :
    frame.anyCombinedIrq = true ↔
      ∃ channel < frame.channelCount.count, frame.asserted channel = true := by
  have bounded := frame.channelCount.bounded
  simp only [dbchChannels] at bounded
  rw [anyCombinedIrq, List.any_eq_true]
  constructor
  · rintro ⟨word, -, nonzero⟩
    have some_bit : ∃ bit < 32, (frame.combinedDbchIntSt word).getLsbD bit = true := by
      by_contra none
      push Not at none
      apply (bne_iff_ne.mp nonzero)
      apply BitVec.eq_of_getLsbD_eq
      intro bit low
      simpa using none bit low
    obtain ⟨bit, low, set⟩ := some_bit
    rw [getLsbD_combinedDbchIntSt frame word low, Bool.and_eq_true, decide_eq_true_eq] at set
    exact ⟨32 * word + bit, set.1, set.2⟩
  · rintro ⟨channel, decoded, asserts⟩
    refine ⟨channel / 32, List.mem_range.mpr (by omega), bne_iff_ne.mpr fun zero => ?_⟩
    have set := getLsbD_combinedDbchIntSt frame (channel / 32) (Nat.mod_lt channel (by omega))
    rw [Nat.div_add_mod, zero] at set
    simp [decoded, asserts] at set

theorem asserted_iff (frame : Frame) (side : Side)
    (kind : frame.isMbx = decide (side = .mbx)) (channel : Nat) :
    frame.asserted channel = true ↔ side.pending frame channel := by
  cases side <;> simp [asserted, Side.pending, kind, channelMaskedStatus]

/-- A 4-byte read of a combined status word is served by `combined_dbch_int_st`. -/
theorem read32_combined (frame : Frame) {word : Nat} (inside : word < 4) :
    frame.read32 (ctrlDbchIntSt0 + 4 * word) = frame.combinedDbchIntSt word := by
  have combined : isCombinedOffset (ctrlDbchIntSt0 + 4 * word) = true :=
    isCombinedOffset_iff.mpr (by omega)
  rw [read32, if_pos combined, Nat.add_sub_cancel_left, Nat.mul_div_cancel_left _ (by omega)]

theorem isMbx_of_sets {before after : Frame} (sets : ReflTransGen Sets before after) :
    after.isMbx = before.isMbx := by
  induction sets with
  | refl => rfl
  | tail _ last inductionHypothesis =>
      obtain ⟨channel, change, rfl⟩ := last
      rw [updateChannel_isMbx, inductionHypothesis]

end Frame

/-- The invariant: the frame is of the side's kind, and its line is at the level the
interrupt update computes. -/
structure Port.LevelExact (side : Side) (port : Port) : Prop where
  kind : port.frame.isMbx = decide (side = .mbx)
  level : port.irq = port.frame.anyCombinedIrq

namespace Port

theorem LevelExact.updateCombinedIrq {side : Side} {port : Port}
    (kind : port.frame.isMbx = decide (side = .mbx)) :
    port.updateCombinedIrq.LevelExact side where
  kind := by rw [← kind]; exact Frame.refreshCombinedIrqRegs_isMbx _
  level := rfl

theorem LevelExact.evolves {side : Side} {before after : Port} (exact : before.LevelExact side)
    (evolves : before.Evolves after) : after.LevelExact side := by
  induction evolves with
  | refl => exact exact
  | tail _ last inductionHypothesis =>
      obtain ⟨frame, sets, rfl⟩ := last
      apply LevelExact.updateCombinedIrq
      rw [← inductionHypothesis.kind]
      exact Frame.isMbx_of_sets sets

theorem LevelExact.interruptExact {side : Side} {port : Port} (exact : port.LevelExact side) :
    side.InterruptExact port where
  line := by
    rw [exact.level, Frame.anyCombinedIrq_iff]
    simp only [Frame.asserted_iff _ side exact.kind]
  words word inside bit low := by
    rw [Frame.read32_combined _ inside, Frame.getLsbD_combinedDbchIntSt _ _ low,
      Bool.and_eq_true, decide_eq_true_eq, Frame.asserted_iff _ side exact.kind]

end Port

namespace MhuPair

variable {Memory : Type u} {config : Config} {bus : Bus Memory}

/-- The invariant of the pair. -/
def LevelsExact (mhu : MhuPair Memory) : Prop :=
  ∀ side, (mhu.port side).LevelExact side

theorem levelsExact_elaborated (pbx mbx : FrameParams) (memory : Memory) :
    (elaborated pbx mbx memory).LevelsExact := by
  rintro (_ | _)
  · exact Port.LevelExact.updateCombinedIrq (by simp)
  · exact Port.LevelExact.updateCombinedIrq (by simp)

/-- A copy into the register image moves neither the channels nor the line. -/
theorem levelsExact_setFrame {mhu : MhuPair Memory} (exact : mhu.LevelsExact) (side : Side)
    (offset : Nat) (data : List Byte) :
    (mhu.setFrame side ((mhu.port side).frame.copyWrite offset data)).LevelsExact := by
  intro other
  obtain ⟨kind, level⟩ := exact other
  cases side <;> cases other <;> exact ⟨kind, level⟩

theorem levelsExact_step {mhu next : MhuPair Memory} {event : Step} (exact : mhu.LevelsExact)
    (stepped : mhu.step config bus event = some next) : next.LevelsExact := by
  rcases step_cases stepped with ⟨evolves, -⟩ | ⟨side, offset, data, -, rfl⟩
  · exact fun side => (exact side).evolves (evolves.port side)
  · exact levelsExact_setFrame exact side offset data

/-- After any run from elaboration, whatever the channel counts and the protocol, the line
and the combined status words of both frames are exact. -/
theorem interruptExact_of_run (config : Config) (bus : Bus Memory) (pbx mbx : FrameParams)
    (memory : Memory) {events : List Step} {final : MhuPair Memory}
    (reached : run (step config bus) (elaborated pbx mbx memory) events = some final) :
    Side.pbx.InterruptExact final.pbx ∧ Side.mbx.InterruptExact final.mbx := by
  have exact : final.LevelsExact :=
    run_invariant (fun _ _ _ kept stepped => levelsExact_step kept stepped)
      (levelsExact_elaborated pbx mbx memory) reached
  exact ⟨(exact .pbx).interruptExact, (exact .mbx).interruptExact⟩

/-- Frames of four channels with the default identification. -/
def fourChannels : FrameParams where
  channelCount := ⟨4, by decide, by decide⟩

/-- Channel 0 of the mailbox is unmasked and then signalled through a bridge. -/
theorem interruptExact_of_run_signalled :
    let bridge : Config := { protocol := .bridge }
    let unmasked := (elaborated fourChannels fourChannels fun _ => 0).write32 bridge Bus.ram
      .mbx 0x1018 (ofBytes 32 [0xff, 0xff, 0xff, 0xff])
    let signalled := unmasked.write32 bridge Bus.ram .pbx 0x100c (ofBytes 32 [1, 0, 0, 0])
    Side.pbx.InterruptExact signalled.pbx ∧ Side.mbx.InterruptExact signalled.mbx := by
  intro bridge unmasked signalled
  have written (mhu : MhuPair (BitVec 64 → Byte)) (side : Side) (offset : BitVec 64)
      (data : List Byte) (word : data.length = 4) (inside : offset.toNat + 4 ≤ regSpaceSize) :
      step bridge Bus.ram mhu (.access side (.write offset data)) =
        some (mhu.write32 bridge Bus.ram side offset.toNat (ofBytes 32 data)) := by
    rw [step, bTransport_write_word bridge Bus.ram mhu side word inside, Option.map_some]
  exact interruptExact_of_run bridge Bus.ram fourChannels fourChannels (fun _ => 0)
    (run_cons_eq_some.mpr ⟨unmasked, written _ .mbx 0x1018 _ rfl (by decide),
      run_cons_eq_some.mpr ⟨signalled, written _ .pbx 0x100c _ rfl (by decide), run_nil signalled⟩⟩)

end MhuPair

end QboxPlatform.Mhu
