import QboxPlatform.Mhu.Interrupt

/-!
# The register image beside the channel state

Reads of 1, 2 and 8 bytes copy the register image, 4-byte reads decode the channels.  The
two agree as long as no raw write changes the image under a decoded register.
-/

namespace QboxPlatform.Mhu

open Foundation Relation

universe u

namespace Frame

/-- A word that 4-byte reads serve from the channel state. -/
def IsRegister (frame : Frame) (address : Nat) : Prop :=
  isCombinedOffset address = true ∨
    ∃ channel regOffset value, frame.decodeDbchOffset address = some (channel, regOffset) ∧
      frame.channelRegister channel regOffset = some value

/-- The image holds what 4-byte reads of the decoded registers return. -/
def Coherent (frame : Frame) : Prop :=
  ∀ address, frame.IsRegister address → ∀ index < 4,
    frame.regs (address + index) = byteOf (frame.read32 address) index

/-- Coherence of the registers of one channel. -/
def ChannelCoherent (frame : Frame) (channel : Nat) : Prop :=
  ∀ regOffset value, frame.channelRegister channel regOffset = some value → ∀ index < 4,
    frame.regs (dbcw0 + dbcwStride * channel + regOffset + index) = byteOf value index

/-- Coherence of the combined status words. -/
def CombinedCoherent (frame : Frame) : Prop :=
  ∀ word < 4, ∀ index < 4,
    frame.regs (ctrlDbchIntSt0 + word * 4 + index) = byteOf (frame.combinedDbchIntSt word) index

theorem channelRegister_cases {frame : Frame} {channel regOffset : Nat} {value : BitVec 32}
    (register : frame.channelRegister channel regOffset = some value) :
    (frame.isMbx = true ∧
      (regOffset = 0x00 ∧ value = (frame.channels channel).status ∨
        regOffset = 0x04 ∧ value = frame.channelMaskedStatus channel ∨
        regOffset = 0x10 ∧ value = (frame.channels channel).mask ∨
        regOffset = 0x1c ∧ value = (frame.channels channel).ctrl)) ∨
    (frame.isMbx = false ∧
      (regOffset = 0x00 ∧ value = (frame.channels channel).status ∨
        regOffset = 0x10 ∧ value = (frame.channels channel).intStatus ∨
        regOffset = 0x18 ∧ value = (frame.channels channel).intEnable ∨
        regOffset = 0x1c ∧ value = (frame.channels channel).ctrl)) := by
  unfold channelRegister at register
  dsimp only at register
  cases kind : frame.isMbx with
  | true =>
      rw [if_pos kind] at register
      refine .inl ⟨rfl, ?_⟩
      split_ifs at register with status masked mask ctrl
      · exact .inl ⟨status, (Option.some.inj register).symm⟩
      · exact .inr (.inl ⟨masked, (Option.some.inj register).symm⟩)
      · exact .inr (.inr (.inl ⟨mask, (Option.some.inj register).symm⟩))
      · exact .inr (.inr (.inr ⟨ctrl, (Option.some.inj register).symm⟩))
  | false =>
      rw [if_neg (by simp [kind])] at register
      refine .inr ⟨rfl, ?_⟩
      split_ifs at register with status intStatus intEnable ctrl
      · exact .inl ⟨status, (Option.some.inj register).symm⟩
      · exact .inr (.inl ⟨intStatus, (Option.some.inj register).symm⟩)
      · exact .inr (.inr (.inl ⟨intEnable, (Option.some.inj register).symm⟩))
      · exact .inr (.inr (.inr ⟨ctrl, (Option.some.inj register).symm⟩))

theorem channelRegister_offset {frame : Frame} {channel regOffset : Nat} {value : BitVec 32}
    (register : frame.channelRegister channel regOffset = some value) :
    regOffset + 4 ≤ dbcwStride := by
  have stride : dbcwStride = 0x20 := rfl
  rcases channelRegister_cases register with ⟨-, cases⟩ | ⟨-, cases⟩ <;> omega

theorem coherent_iff {frame : Frame} :
    frame.Coherent ↔ frame.CombinedCoherent ∧
      ∀ channel < frame.channelCount.count, frame.ChannelCoherent channel := by
  constructor
  · intro coherent
    constructor
    · intro word inside index low
      have combined : isCombinedOffset (ctrlDbchIntSt0 + word * 4) = true :=
        isCombinedOffset_iff.mpr (by omega)
      have served := coherent _ (.inl combined) index low
      rwa [read32, if_pos combined, Nat.add_sub_cancel_left,
        Nat.mul_div_cancel _ (by omega)] at served
    · intro channel decoded regOffset value register index low
      have position : frame.decodeDbchOffset (dbcw0 + dbcwStride * channel + regOffset) =
          some (channel, regOffset) :=
        decodeDbchOffset_eq_some.mpr ⟨rfl, by
          have := channelRegister_offset register
          omega, decoded⟩
      have served := coherent _ (.inr ⟨_, _, _, position, register⟩) index low
      have plain : ¬ isCombinedOffset (dbcw0 + dbcwStride * channel + regOffset) = true := by
        rw [isCombinedOffset_iff]
        simp only [ctrlDbchIntSt0, dbcw0]
        omega
      rw [read32, if_neg plain, position] at served
      simpa [register] using served
  · rintro ⟨combined, channels⟩ address register index low
    rcases register with special | ⟨channel, regOffset, value, position, register⟩
    · have aligned := isCombinedOffset_iff.mp special
      simp only [ctrlDbchIntSt0] at aligned
      have word : ctrlDbchIntSt0 + (address - ctrlDbchIntSt0) / 4 * 4 = address := by
        simp only [ctrlDbchIntSt0]
        omega
      have served := combined ((address - ctrlDbchIntSt0) / 4)
        (by simp only [ctrlDbchIntSt0]; omega) index low
      rw [read32, if_pos special, ← served, word]
    · obtain ⟨rfl, small, decoded⟩ := decodeDbchOffset_eq_some.mp position
      have plain : ¬ isCombinedOffset (dbcw0 + dbcwStride * channel + regOffset) = true := by
        rw [isCombinedOffset_iff]
        simp only [ctrlDbchIntSt0, dbcw0]
        omega
      rw [read32, if_neg plain, position]
      simpa [register] using channels channel decoded regOffset value register index low

section Stores

theorem store32_regs (frame : Frame) {offset : Nat} (value : BitVec 32)
    (inside : offset + 4 ≤ regSpaceSize) :
    (frame.store32 offset value).regs = frame.regs.store32 offset value := by
  rw [Frame.store32, if_pos inside]

theorem storeChannelRegs_regs (frame : Frame) {channel : Nat} (decoded : channel < dbchChannels) :
    (frame.storeChannelRegs channel).regs =
      let base := dbcw0 + dbcwStride * channel
      let record := frame.channels channel
      let stored := frame.regs.store32 base record.status
      let stored :=
        if frame.isMbx then
          (stored.store32 (base + 0x04) (frame.channelMaskedStatus channel)).store32 (base + 0x10)
            record.mask
        else
          (stored.store32 (base + 0x10) record.intStatus).store32 (base + 0x18)
            record.intEnable
      stored.store32 (base + 0x1c) record.ctrl := by
  have start : dbcw0 = 0x1000 := rfl
  have stride : dbcwStride = 0x20 := rfl
  have size : regSpaceSize = 0x30000 := rfl
  have count : dbchChannels = 128 := rfl
  unfold storeChannelRegs
  dsimp only [dbcwSt, dbcwStMsk, dbcwIntSt, dbcwIntEn, dbcwCtrl]
  rw [stride]
  cases frame.isMbx with
  | true =>
      simp only [if_true, Nat.add_zero]
      rw [store32_regs, store32_regs, store32_regs, store32_regs] <;> omega
  | false =>
      simp only [Bool.false_eq_true, if_false, Nat.add_zero]
      rw [store32_regs, store32_regs, store32_regs, store32_regs] <;> omega

theorem channelCoherent_storeChannelRegs (frame : Frame) {channel : Nat}
    (decoded : channel < dbchChannels) :
    (frame.storeChannelRegs channel).ChannelCoherent channel := by
  intro regOffset value register index low
  rw [storeChannelRegs_regs frame decoded]
  dsimp only
  have kept : (frame.storeChannelRegs channel).channelMaskedStatus channel =
      frame.channelMaskedStatus channel := by
    simp [channelMaskedStatus]
  have cases := channelRegister_cases register
  rw [storeChannelRegs_isMbx, storeChannelRegs_channels, kept] at cases
  rcases cases with ⟨kind, register⟩ | ⟨kind, register⟩
  · rw [kind, if_pos rfl]
    rcases register with ⟨rfl, rfl⟩ | ⟨rfl, rfl⟩ | ⟨rfl, rfl⟩ | ⟨rfl, rfl⟩
    · rw [Image.store32_outside _ _ _ (by omega), Image.store32_outside _ _ _ (by omega),
        Image.store32_outside _ _ _ (by omega)]
      exact Image.store32_inside _ _ _ low
    · rw [Image.store32_outside _ _ _ (by omega), Image.store32_outside _ _ _ (by omega),
        Image.store32_inside _ _ _ low]
    · rw [Image.store32_outside _ _ _ (by omega), Image.store32_inside _ _ _ low]
    · rw [Image.store32_inside _ _ _ low]
  · rw [kind, if_neg Bool.false_ne_true]
    rcases register with ⟨rfl, rfl⟩ | ⟨rfl, rfl⟩ | ⟨rfl, rfl⟩ | ⟨rfl, rfl⟩
    · rw [Image.store32_outside _ _ _ (by omega), Image.store32_outside _ _ _ (by omega),
        Image.store32_outside _ _ _ (by omega)]
      exact Image.store32_inside _ _ _ low
    · rw [Image.store32_outside _ _ _ (by omega), Image.store32_outside _ _ _ (by omega),
        Image.store32_inside _ _ _ low]
    · rw [Image.store32_outside _ _ _ (by omega), Image.store32_inside _ _ _ low]
    · rw [Image.store32_inside _ _ _ low]

theorem regs_store32_outside (frame : Frame) {offset address : Nat} (value : BitVec 32)
    (outside : address < offset ∨ offset + 4 ≤ address) :
    (frame.store32 offset value).regs address = frame.regs address := by
  unfold Frame.store32
  split_ifs
  · exact Image.store32_outside _ _ _ outside
  · rfl

theorem regs_storeChannelRegs_outside (frame : Frame) {channel address : Nat}
    (outside : address < dbcw0 + dbcwStride * channel ∨
      dbcw0 + dbcwStride * channel + dbcwStride ≤ address) :
    (frame.storeChannelRegs channel).regs address = frame.regs address := by
  have stride : dbcwStride = 0x20 := rfl
  unfold storeChannelRegs
  dsimp only [dbcwSt, dbcwStMsk, dbcwIntSt, dbcwIntEn, dbcwCtrl]
  cases frame.isMbx with
  | true =>
      rw [if_pos rfl, regs_store32_outside _ _ (by omega), regs_store32_outside _ _ (by omega),
        regs_store32_outside _ _ (by omega), regs_store32_outside _ _ (by omega)]
  | false =>
      rw [if_neg Bool.false_ne_true, regs_store32_outside _ _ (by omega),
        regs_store32_outside _ _ (by omega), regs_store32_outside _ _ (by omega),
        regs_store32_outside _ _ (by omega)]

theorem channelRegister_congr {first second : Frame} {channel : Nat}
    (records : first.channels channel = second.channels channel)
    (kinds : first.isMbx = second.isMbx) (regOffset : Nat) :
    first.channelRegister channel regOffset = second.channelRegister channel regOffset := by
  unfold channelRegister channelMaskedStatus
  rw [records, kinds]

theorem ChannelCoherent.of_same {before after : Frame} {channel : Nat}
    (coherent : before.ChannelCoherent channel)
    (records : after.channels channel = before.channels channel)
    (kinds : after.isMbx = before.isMbx)
    (image : ∀ index < dbcwStride, after.regs (dbcw0 + dbcwStride * channel + index) =
      before.regs (dbcw0 + dbcwStride * channel + index)) :
    after.ChannelCoherent channel := by
  intro regOffset value register index low
  have bound := channelRegister_offset register
  rw [channelRegister_congr records kinds] at register
  rw [Nat.add_assoc, image _ (by omega), ← Nat.add_assoc]
  exact coherent regOffset value register index low

theorem ChannelCoherent.storeChannelRegs {frame : Frame} {channel : Nat}
    (coherent : frame.ChannelCoherent channel) {stored : Nat} (apart : channel ≠ stored) :
    (frame.storeChannelRegs stored).ChannelCoherent channel := by
  refine coherent.of_same (by simp) (by simp) fun index low => ?_
  apply regs_storeChannelRegs_outside
  have stride : dbcwStride = 0x20 := rfl
  rw [stride] at low ⊢
  omega

theorem ChannelCoherent.sets {before after : Frame} {channel : Nat}
    (decoded : channel < dbchChannels) (coherent : before.ChannelCoherent channel)
    (sets : Sets before after) : after.ChannelCoherent channel := by
  obtain ⟨changed, change, rfl⟩ := sets
  unfold updateChannel
  by_cases same : channel = changed
  · subst same
    exact channelCoherent_storeChannelRegs _ decoded
  · refine ChannelCoherent.storeChannelRegs ?_ same
    exact coherent.of_same (Function.update_of_ne same _ _) rfl fun _ _ => rfl

theorem channelCoherent_foldl (frame : Frame) {count : Nat} (inside : count ≤ dbchChannels)
    {channel : Nat} (low : channel < count) :
    ((List.range count).foldl Frame.storeChannelRegs frame).ChannelCoherent channel := by
  induction count with
  | zero => omega
  | succ count inductionHypothesis =>
      rw [List.range_succ, List.foldl_append, List.foldl_cons, List.foldl_nil]
      by_cases last : channel = count
      · subst last
        exact channelCoherent_storeChannelRegs _ (by omega)
      · exact (inductionHypothesis (by omega) (by omega)).storeChannelRegs last

end Stores

section Refresh

theorem combinedDbchIntSt_store32 (frame : Frame) (offset word : Nat) (value : BitVec 32) :
    (frame.store32 offset value).combinedDbchIntSt word = frame.combinedDbchIntSt word := by
  unfold combinedDbchIntSt asserted channelMaskedStatus
  rw [store32_channels, store32_isMbx, store32_channelCount]

theorem combinedDbchIntSt_refreshCombinedIrqRegs (frame : Frame) (word : Nat) :
    frame.refreshCombinedIrqRegs.combinedDbchIntSt word = frame.combinedDbchIntSt word :=
  foldl_keeps (fun state : Frame => state.combinedDbchIntSt word)
    (fun _ _ => combinedDbchIntSt_store32 _ _ _ _) _ _

theorem refreshCombinedIrqRegs_regs (frame : Frame) :
    frame.refreshCombinedIrqRegs.regs =
      (((frame.regs.store32 0x400 (frame.combinedDbchIntSt 0)).store32
        0x404 (frame.combinedDbchIntSt 1)).store32
        0x408 (frame.combinedDbchIntSt 2)).store32
        0x40c (frame.combinedDbchIntSt 3) := by
  have size : regSpaceSize = 0x30000 := rfl
  have loop : List.range 4 = [0, 1, 2, 3] := rfl
  rw [refreshCombinedIrqRegs, loop]
  simp only [List.foldl_cons, List.foldl_nil, combinedDbchIntSt_store32]
  rw [store32_regs _ _ (by rw [ctrlDbchIntSt0]; omega),
    store32_regs _ _ (by rw [ctrlDbchIntSt0]; omega),
    store32_regs _ _ (by rw [ctrlDbchIntSt0]; omega),
    store32_regs _ _ (by rw [ctrlDbchIntSt0]; omega)]
  rfl

theorem combinedCoherent_refreshCombinedIrqRegs (frame : Frame) :
    frame.refreshCombinedIrqRegs.CombinedCoherent := by
  intro word inside index low
  rw [combinedDbchIntSt_refreshCombinedIrqRegs, refreshCombinedIrqRegs_regs]
  have base : ctrlDbchIntSt0 = 0x400 := rfl
  rw [base]
  obtain rfl | rfl | rfl | rfl : word = 0 ∨ word = 1 ∨ word = 2 ∨ word = 3 := by omega
  · rw [Image.store32_outside _ _ _ (by omega), Image.store32_outside _ _ _ (by omega),
      Image.store32_outside _ _ _ (by omega)]
    exact Image.store32_inside _ _ _ low
  · rw [Image.store32_outside _ _ _ (by omega), Image.store32_outside _ _ _ (by omega)]
    exact Image.store32_inside _ _ _ low
  · rw [Image.store32_outside _ _ _ (by omega)]
    exact Image.store32_inside _ _ _ low
  · exact Image.store32_inside _ _ _ low

theorem ChannelCoherent.refreshCombinedIrqRegs {frame : Frame} {channel : Nat}
    (coherent : frame.ChannelCoherent channel) :
    frame.refreshCombinedIrqRegs.ChannelCoherent channel := by
  refine coherent.of_same (by simp) (by simp) fun index low => ?_
  have start : dbcw0 = 0x1000 := rfl
  rw [refreshCombinedIrqRegs_regs, Image.store32_outside _ _ _ (by omega),
    Image.store32_outside _ _ _ (by omega), Image.store32_outside _ _ _ (by omega),
    Image.store32_outside _ _ _ (by omega)]

end Refresh

theorem isRegister_bound {frame : Frame} {word : Nat} (register : frame.IsRegister word) :
    word + 4 ≤ dbcwEnd := by
  have stop : dbcwEnd = 0x2000 := rfl
  rcases register with combined | ⟨channel, regOffset, value, position, register⟩
  · have aligned := isCombinedOffset_iff.mp combined
    have base : ctrlDbchIntSt0 = 0x400 := rfl
    omega
  · obtain ⟨rfl, small, decoded⟩ := decodeDbchOffset_eq_some.mp position
    have below := channelRegister_offset register
    have start : dbcw0 = 0x1000 := rfl
    have stride : dbcwStride = 0x20 := rfl
    have bounded := frame.channelCount.bounded
    have count : dbchChannels = 128 := rfl
    rw [stride] at below ⊢
    omega

section Copies

variable (frame : Frame) (offset : Nat) (data : List Byte)

theorem read32_copyWrite {word : Nat} (register : frame.IsRegister word) :
    (frame.copyWrite offset data).read32 word = frame.read32 word := by
  rcases register with combined | ⟨channel, regOffset, value, position, register⟩
  · rw [read32, read32, if_pos combined, if_pos combined]
    rfl
  · have position' : (frame.copyWrite offset data).decodeDbchOffset word =
        some (channel, regOffset) := position
    have register' : (frame.copyWrite offset data).channelRegister channel regOffset =
        some value := register
    unfold read32
    rw [position, position']
    dsimp only
    rw [register, register']
    rfl

/-- A copy into a coherent image keeps it coherent exactly when each byte that lands on a
decoded register is the byte the register already holds. -/
theorem coherent_copyWrite_iff (coherent : frame.Coherent) :
    (frame.copyWrite offset data).Coherent ↔
      ∀ word, frame.IsRegister word → ∀ index < 4, ∀ position, ∀ inside : position < data.length,
        offset + position = word + index →
          data[position] = byteOf (frame.read32 word) index := by
  constructor
  · intro kept word register index low position inside place
    have served := kept word register index low
    rw [read32_copyWrite frame offset data register, ← place] at served
    rw [← served]
    exact (Image.write_inside _ _ _ inside).symm
  · intro harmless word register index low
    rw [read32_copyWrite frame offset data register]
    by_cases covered : offset ≤ word + index ∧ word + index < offset + data.length
    · obtain ⟨position, place⟩ := Nat.exists_eq_add_of_le covered.1
      have inside : position < data.length := by omega
      rw [← harmless word register index low position inside place.symm, place]
      exact Image.write_inside _ _ _ inside
    · rw [← coherent word register index low]
      exact Image.write_outside _ _ _ (by omega)

end Copies

end Frame

namespace Port

section Elaborated

variable (isMbx : Bool) (params : FrameParams)

@[simp]
theorem elaborated_channels :
    (elaborated isMbx params).frame.channels =
      fun _ => { mask := if isMbx then 0xffffffff else 0 } := by
  simp [elaborated, updateCombinedIrq]

@[simp]
theorem elaborated_isMbx : (elaborated isMbx params).frame.isMbx = isMbx := by
  simp [elaborated, updateCombinedIrq]

@[simp]
theorem elaborated_channelCount :
    (elaborated isMbx params).frame.channelCount = params.channelCount := by
  simp [elaborated, updateCombinedIrq]

end Elaborated

theorem coherent_updateCombinedIrq {port : Port}
    (coherent : ∀ channel < port.frame.channelCount.count, port.frame.ChannelCoherent channel) :
    port.updateCombinedIrq.frame.Coherent :=
  Frame.coherent_iff.mpr ⟨Frame.combinedCoherent_refreshCombinedIrqRegs _, fun channel decoded =>
    (coherent channel (by simpa [updateCombinedIrq] using decoded)).refreshCombinedIrqRegs⟩

theorem coherent_elaborated (isMbx : Bool) (params : FrameParams) :
    (elaborated isMbx params).frame.Coherent := by
  apply coherent_updateCombinedIrq
  intro channel decoded
  have bounded := params.channelCount.bounded
  rw [Frame.configure_channelCount] at decoded
  exact (Frame.channelCoherent_foldl _ le_rfl (by omega)).refreshCombinedIrqRegs

theorem coherent_evolves {before after : Port} (coherent : before.frame.Coherent)
    (evolves : before.Evolves after) : after.frame.Coherent := by
  induction evolves with
  | refl => exact coherent
  | tail _ last inductionHypothesis =>
      obtain ⟨frame, sets, rfl⟩ := last
      apply coherent_updateCombinedIrq
      dsimp only
      have channels := (Frame.coherent_iff.mp inductionHypothesis).2
      clear inductionHypothesis
      induction sets with
      | refl => exact channels
      | tail _ set inductionHypothesis =>
          obtain ⟨changed, change, rfl⟩ := set
          intro channel decoded
          rw [Frame.updateChannel_channelCount] at decoded
          have inside := decoded.trans_le (Frame.channelCount _).bounded
          exact (inductionHypothesis channel decoded).sets inside ⟨changed, change, rfl⟩

end Port

namespace MhuPair

variable {Memory : Type u} {config : Config} {bus : Bus Memory}

/-- Reads of 1, 2 and 8 bytes return the bytes that 4-byte reads of the decoded registers
they cover return. -/
def ReadsAgree (config : Config) (bus : Bus Memory) (mhu : MhuPair Memory) : Prop :=
  ∀ side (offset word : BitVec 64) len copied decoded, len ≠ 4 →
    (mhu.port side).frame.IsRegister word.toNat →
    mhu.bTransport config bus side (.read offset len) = some (.ok copied, mhu) →
    mhu.bTransport config bus side (.read word 4) = some (.ok decoded, mhu) →
    ∀ position < len, ∀ index < 4, offset.toNat + position = word.toNat + index →
      copied[position]? = decoded[index]?

/-- No byte that the step copies into a register image lands on a decoded register that
holds another byte. -/
def Harmless (mhu : MhuPair Memory) (event : Step) : Prop :=
  ∀ side offset data, mhu.CopiesRaw event side offset data →
    ∀ word, (mhu.port side).frame.IsRegister word → ∀ index < 4, ∀ position,
      ∀ inside : position < data.length, offset + position = word + index →
        data[position] = byteOf ((mhu.port side).frame.read32 word) index

theorem bTransport_read_inside {mhu : MhuPair Memory} {side : Side} {offset : BitVec 64}
    {len : Nat} {data : List Byte}
    (answered : mhu.bTransport config bus side (.read offset len) = some (.ok data, mhu)) :
    (len = 1 ∨ len = 2 ∨ len = 4 ∨ len = 8) ∧ offset.toNat + len ≤ regSpaceSize := by
  unfold bTransport at answered
  split_ifs at answered with rejected beyond
  · cases answered
  · exact ⟨(rejected_eq_false.mp ((Bool.not_eq_true _).mp rejected)).2,
      Nat.not_lt.mp beyond⟩

theorem readsAgree_iff {mhu : MhuPair Memory} :
    mhu.ReadsAgree config bus ↔ ∀ side, (mhu.port side).frame.Coherent := by
  have size : regSpaceSize = 0x30000 := rfl
  have stop : dbcwEnd = 0x2000 := rfl
  constructor
  · intro agree side word register index low
    have below := Frame.isRegister_bound register
    have wordSmall : (BitVec.ofNat 64 word).toNat = word := by
      rw [BitVec.toNat_ofNat, Nat.mod_eq_of_lt (by omega)]
    have byteSmall : (BitVec.ofNat 64 (word + index)).toNat = word + index := by
      rw [BitVec.toNat_ofNat, Nat.mod_eq_of_lt (by omega)]
    have copied := bTransport_read config bus mhu side (.inl rfl)
      (show (BitVec.ofNat 64 (word + index)).toNat + 1 ≤ regSpaceSize by omega)
    have decoded := bTransport_read config bus mhu side (.inr (.inr (.inl rfl)))
      (show (BitVec.ofNat 64 word).toNat + 4 ≤ regSpaceSize by omega)
    have same := agree side _ _ 1 _ _ (by omega) (by rwa [wordSmall]) copied decoded 0
      (by omega) index low (by omega)
    rw [if_neg (by omega), if_pos rfl, wordSmall, byteSmall] at same
    simpa [Frame.copyRead, Image.read, toBytes, low] using same
  · intro coherent side offset word len copied decoded notWord register copy decode
    obtain ⟨copySupported, copyInside⟩ := bTransport_read_inside copy
    obtain ⟨-, decodeInside⟩ := bTransport_read_inside decode
    rw [bTransport_read config bus mhu side copySupported copyInside, if_neg notWord] at copy
    rw [bTransport_read config bus mhu side (.inr (.inr (.inl rfl))) decodeInside,
      if_pos rfl] at decode
    obtain rfl : _ = copied := Response.ok.inj (Prod.mk.inj (Option.some.inj copy)).1
    obtain rfl : _ = decoded := Response.ok.inj (Prod.mk.inj (Option.some.inj decode)).1
    intro position inside index low place
    have served := coherent side word.toNat register index low
    simpa [Frame.copyRead, Image.read, toBytes, low, inside, place] using served

theorem coherent_setFrame_iff {mhu : MhuPair Memory}
    (coherent : ∀ side, (mhu.port side).frame.Coherent) (side : Side) (frame : Frame) :
    (∀ other, ((mhu.setFrame side frame).port other).frame.Coherent) ↔ frame.Coherent := by
  constructor
  · intro kept
    have here := kept side
    cases side <;> exact here
  · intro kept other
    have there := coherent other
    cases side <;> cases other <;> first | exact kept | exact there

theorem CopiesRaw.unique {mhu : MhuPair Memory} {event : Step} {side side' : Side}
    {offset offset' : Nat} {data data' : List Byte}
    (copies : mhu.CopiesRaw event side offset data)
    (copies' : mhu.CopiesRaw event side' offset' data') :
    side' = side ∧ offset' = offset ∧ data' = data := by
  obtain ⟨address, rfl, rfl, -, -⟩ := copies
  obtain ⟨address', same, rfl, -, -⟩ := copies'
  obtain ⟨rfl, written⟩ := Step.access.inj same
  obtain ⟨rfl, rfl⟩ := Access.write.inj written
  exact ⟨rfl, rfl, rfl⟩

theorem coherent_step_iff {mhu next : MhuPair Memory} {event : Step}
    (coherent : ∀ side, (mhu.port side).frame.Coherent)
    (stepped : mhu.step config bus event = some next) :
    (∀ side, (next.port side).frame.Coherent) ↔ mhu.Harmless event := by
  rcases step_cases stepped with ⟨evolves, decoded⟩ | ⟨side, offset, data, copies, rfl⟩
  · refine iff_of_true (fun side => ?_) fun side offset data copies => ?_
    · exact Port.coherent_evolves (coherent side) (evolves.port side)
    · exact absurd copies (decoded side offset data)
  · rw [coherent_setFrame_iff coherent,
      Frame.coherent_copyWrite_iff _ offset data (coherent side)]
    constructor
    · intro harmless side' offset' data' copies'
      obtain ⟨rfl, rfl, rfl⟩ := copies.unique copies'
      exact harmless
    · exact fun harmless => harmless side offset data copies

theorem coherent_elaborated (pbx mbx : FrameParams) (memory : Memory) (side : Side) :
    ((elaborated pbx mbx memory).port side).frame.Coherent := by
  cases side <;> exact Port.coherent_elaborated _ _

/-- In a run from elaboration the reads of all lengths agree in every state exactly when no
write of the run copies a new byte over a decoded register. -/
theorem always_readsAgree_iff (config : Config) (bus : Bus Memory) (pbx mbx : FrameParams)
    (memory : Memory) (events : List Step) :
    Always (step config bus) (ReadsAgree config bus) (elaborated pbx mbx memory) events ↔
      Along (step config bus) Harmless (elaborated pbx mbx memory) events := by
  apply always_iff_along
  · intro mhu event next agree stepped
    rw [readsAgree_iff] at agree ⊢
    exact coherent_step_iff agree stepped
  · exact readsAgree_iff.mpr (coherent_elaborated pbx mbx memory)

/-- A 1-byte write to a mailbox status register changes what 1-byte reads return and not
what 4-byte reads return. -/
theorem not_readsAgree_of_byte_write :
    ¬ Always (step {} Bus.ram) (ReadsAgree {} Bus.ram)
      (elaborated fourChannels fourChannels fun _ => 0)
      [.access .mbx (.write 0x1000 [0xff])] := by
  generalize initially :
    elaborated fourChannels fourChannels (fun _ : BitVec 64 => (0 : Byte)) = mhu
  rintro ⟨-, later⟩
  have coherent : ∀ side, (mhu.port side).frame.Coherent := by
    rw [← initially]
    exact coherent_elaborated _ _ _
  have stepped : step {} Bus.ram mhu (.access .mbx (.write 0x1000 [0xff])) =
      some (mhu.setFrame .mbx (mhu.mbx.frame.copyWrite 0x1000 [0xff])) := rfl
  have harmless := (coherent_step_iff coherent stepped).mp (readsAgree_iff.mp (later _ stepped))
  have decoded : mhu.mbx.frame.decodeDbchOffset 0x1000 = some (0, 0) :=
    Frame.decodeDbchOffset_eq_some.mpr
      ⟨rfl, by decide, by simp [← initially, elaborated, fourChannels]⟩
  have register : mhu.mbx.frame.channelRegister 0 0 = some 0 := by
    simp [← initially, elaborated, Frame.channelRegister]
  have same := harmless .mbx 0x1000 [0xff]
    ⟨0x1000, rfl, rfl, by decide, fun word => absurd word (by decide)⟩ 0x1000
    (.inr ⟨0, 0, 0, decoded, register⟩) 0 (by omega) 0 (by decide) rfl
  have plain : ¬ Frame.isCombinedOffset 0x1000 = true := by decide
  dsimp only [port] at same
  rw [Frame.read32, if_neg plain, decoded] at same
  dsimp only at same
  rw [register, Option.getD_some] at same
  exact absurd same (by decide)

end MhuPair

end QboxPlatform.Mhu
