import QboxPlatform.Foundation.Handshake
import QboxPlatform.Mhu.Coherence

/-!
# Messages through a bridge

With any other protocol than the three known ones a pair is a plain bridge: what is set in
the postbox appears in the mailbox, and what is cleared in the mailbox is cleared in both.
That makes its channels doorbell registers shared by the two sides, and the messages that
go through them arrive in order.
-/

namespace QboxPlatform.Mhu

open Foundation

universe u

namespace MhuPair

variable {Memory : Type u} (config : Config) (bus : Bus Memory)

/-- The address of a register of a channel. -/
def registerAddress (channel regOffset : Nat) : BitVec 64 :=
  BitVec.ofNat 64 (dbcw0 + dbcwStride * channel + regOffset)

/-- A 4-byte read of a channel register. -/
def readRegister (mhu : MhuPair Memory) (side : Side) (channel regOffset : Nat) :
    Option (BitVec 32) :=
  match mhu.bTransport config bus side (.read (registerAddress channel regOffset) 4) with
  | some (.ok data, _) => some (ofBytes 32 data)
  | _ => none

/-- A 4-byte write of a channel register. -/
def writeRegister (mhu : MhuPair Memory) (side : Side) (channel regOffset : Nat)
    (value : BitVec 32) : Option (MhuPair Memory) :=
  (mhu.bTransport config bus side
    (.write (registerAddress channel regOffset) (toBytes 4 value))).map Prod.snd

/-- Whether an access is a decoded write of `DBCW_SET` in the postbox or of `DBCW_CLR` in
the mailbox. -/
def movesStatus (mhu : MhuPair Memory) (side : Side) : Access → Bool
  | .write offset data =>
      data.length == 4 &&
        match (mhu.port side).frame.decodeDbchOffset offset.toNat with
        | some (_, regOffset) =>
            regOffset == (match side with | .pbx => dbcwSet | .mbx => dbcwClr)
        | none => false
  | _ => false

/-- Both frames have this many channels and agree on their status. -/
structure Bridged (count : Nat) (mhu : MhuPair Memory) : Prop where
  pbxCount : mhu.pbx.frame.channelCount.count = count
  mbxCount : mhu.mbx.frame.channelCount.count = count
  same : ∀ channel < count, mhu.pbx.frame.status channel = mhu.mbx.frame.status channel

end MhuPair

namespace Port

@[simp]
theorem change_status (port : Port) (operation : Frame → Frame) (channel : Nat) :
    (port.change operation).frame.status channel = (operation port.frame).status channel := by
  simp [change, updateCombinedIrq, Frame.status]

@[simp]
theorem change_channelCount (port : Port) (operation : Frame → Frame) :
    (port.change operation).frame.channelCount = (operation port.frame).channelCount := by
  simp [change, updateCombinedIrq]

/-- A setter of another field keeps the status of every channel. -/
theorem status_change_updateChannel (port : Port) (channel other : Nat)
    {change : Channel → Channel} (keeps : ∀ record, (change record).status = record.status) :
    (port.change fun frame => frame.updateChannel channel change).frame.status other =
      port.frame.status other := by
  rw [change_status, Frame.status_updateChannel]
  split_ifs with same
  · rw [keeps, same]
    rfl
  · rfl

theorem clearPostboxDoorbellChannel_channelCount (config : Config) (port : Port)
    (channel : Nat) (mask : BitVec 32) :
    (port.clearPostboxDoorbellChannel config channel mask).frame.channelCount =
      port.frame.channelCount := by
  unfold clearPostboxDoorbellChannel
  split_ifs
  · rfl
  · rw [change_channelCount]
    dsimp only
    split_ifs <;> simp [Frame.clearStatusBits, Frame.setIntStatusBits]

theorem clearPostboxDoorbellChannel_status (config : Config) {port : Port} {channel : Nat}
    (decoded : channel < port.frame.channelCount.count) (mask : BitVec 32) (other : Nat) :
    (port.clearPostboxDoorbellChannel config channel mask).frame.status other =
      if other = channel then port.frame.status channel &&& ~~~mask
      else port.frame.status other := by
  unfold clearPostboxDoorbellChannel
  rw [if_neg (Nat.not_le.mpr decoded)]
  dsimp only
  rw [change_status]
  split_ifs with acknowledged same same
  · simp [Frame.clearStatusBits, Frame.setIntStatusBits, same, Frame.status]
  · simp [Frame.clearStatusBits, Frame.setIntStatusBits, Frame.status_updateChannel, same]
  · simp [Frame.clearStatusBits, same, Frame.status]
  · simp [Frame.clearStatusBits, Frame.status_updateChannel, same]

end Port

namespace MhuPair

variable {Memory : Type u} {config : Config} {bus : Bus Memory} {count : Nat}
  {mhu : MhuPair Memory}

section Registers

theorem toNat_registerAddress {channel regOffset : Nat} (decoded : channel < dbchChannels)
    (inside : regOffset < dbcwStride) :
    (registerAddress channel regOffset).toNat = dbcw0 + dbcwStride * channel + regOffset := by
  have channels : dbchChannels = 128 := rfl
  have stride : dbcwStride = 0x20 := rfl
  have start : dbcw0 = 0x1000 := rfl
  rw [registerAddress, BitVec.toNat_ofNat, Nat.mod_eq_of_lt]
  rw [stride] at inside ⊢
  omega

theorem registerAddress_inside {channel regOffset : Nat} (decoded : channel < dbchChannels)
    (inside : regOffset < dbcwStride) :
    (registerAddress channel regOffset).toNat + 4 ≤ regSpaceSize := by
  have channels : dbchChannels = 128 := rfl
  have stride : dbcwStride = 0x20 := rfl
  have start : dbcw0 = 0x1000 := rfl
  have size : regSpaceSize = 0x30000 := rfl
  rw [toNat_registerAddress decoded inside]
  rw [stride] at inside ⊢
  omega

theorem Bridged.count_le (bridged : Bridged count mhu) : count ≤ dbchChannels :=
  bridged.mbxCount ▸ mhu.mbx.frame.channelCount.bounded

theorem Bridged.portCount (bridged : Bridged count mhu) (side : Side) :
    (mhu.port side).frame.channelCount.count = count := by
  cases side
  · exact bridged.pbxCount
  · exact bridged.mbxCount

theorem Bridged.portStatus (bridged : Bridged count mhu) (side : Side) {channel : Nat}
    (decoded : channel < count) :
    (mhu.port side).frame.status channel = mhu.mbx.frame.status channel := by
  cases side
  · exact bridged.same channel decoded
  · rfl

/-- The status register of a decoded channel reads as its status in either frame. -/
theorem read32_status {frame : Frame} {channel : Nat}
    (decoded : channel < frame.channelCount.count) :
    frame.read32 (dbcw0 + dbcwStride * channel + dbcwSt) = frame.status channel := by
  have position := Frame.decodeDbchOffset_eq_some.mpr
    ⟨rfl, show dbcwSt < dbcwStride by decide, decoded⟩
  have plain : ¬ Frame.isCombinedOffset (dbcw0 + dbcwStride * channel + dbcwSt) = true := by
    rw [Frame.isCombinedOffset_iff]
    simp only [ctrlDbchIntSt0, dbcw0]
    omega
  have register : frame.channelRegister channel dbcwSt = some (frame.status channel) := by
    unfold Frame.channelRegister
    dsimp only
    rw [if_pos rfl, if_pos rfl, ite_self]
    rfl
  rw [Frame.read32, if_neg plain, position]
  dsimp only
  rw [register, Option.getD_some]

theorem readRegister_status (bridged : Bridged count mhu) (side : Side) {channel : Nat}
    (decoded : channel < count) :
    mhu.readRegister config bus side channel dbcwSt = some (mhu.mbx.frame.status channel) := by
  have inside := decoded.trans_le bridged.count_le
  have served := bTransport_read config bus mhu side (.inr (.inr (.inl rfl)))
    (registerAddress_inside inside (show dbcwSt < dbcwStride by decide))
  rw [if_pos rfl, toNat_registerAddress inside (by decide),
    read32_status ((bridged.portCount side).symm ▸ decoded),
    bridged.portStatus side decoded] at served
  rw [readRegister, served]
  dsimp only
  rw [ofBytes_toBytes _ (by omega)]

theorem writeRegister_eq (bridged : Bridged count mhu) (side : Side) {channel regOffset : Nat}
    (decoded : channel < count) (inside : regOffset < dbcwStride) (value : BitVec 32) :
    mhu.writeRegister config bus side channel regOffset value =
      some (mhu.write32 config bus side (dbcw0 + dbcwStride * channel + regOffset) value) := by
  have below := decoded.trans_le bridged.count_le
  rw [writeRegister, bTransport_write_word config bus mhu side (length_toBytes 4 value)
    (registerAddress_inside below inside), Option.map_some, toNat_registerAddress below inside,
    ofBytes_toBytes _ (by omega)]

/-- `DBCW_SET` in the postbox of a bridge sets the bits in both frames. -/
theorem writeRegister_set (isBridge : config.protocol = .bridge) (bridged : Bridged count mhu)
    {channel : Nat} (decoded : channel < count) (bits : BitVec 32) :
    ∃ next, mhu.writeRegister config bus .pbx channel dbcwSet bits = some next ∧
      Bridged count next ∧ ∀ index,
        next.mbx.frame.status index =
          if index = channel then mhu.mbx.frame.status channel ||| bits
          else mhu.mbx.frame.status index := by
  have position : mhu.pbx.frame.decodeDbchOffset (dbcw0 + dbcwStride * channel + dbcwSet) =
      some (channel, dbcwSet) :=
    Frame.decodeDbchOffset_eq_some.mpr ⟨rfl, by decide, bridged.pbxCount.symm ▸ decoded⟩
  refine ⟨_, writeRegister_eq bridged .pbx decoded (by decide) bits, ?_⟩
  have written : mhu.write32 config bus .pbx (dbcw0 + dbcwStride * channel + dbcwSet) bits =
      { mhu with
        pbx := mhu.pbx.change fun frame => frame.setStatusBits channel bits
        mbx := mhu.mbx.change fun frame => frame.setStatusBits channel bits } := by
    rw [write32, writePbx32, position]
    dsimp only
    rw [if_pos rfl, ringPostbox, if_neg (by simp [isBridge]), if_neg (by simp [isBridge]),
      writePostboxDoorbell, isBridge]
    dsimp only
    rw [Port.signalDoorbellChannel, if_neg (by rw [bridged.mbxCount]; omega)]
  rw [written]
  refine ⟨⟨?_, ?_, fun index low => ?_⟩, fun index => ?_⟩
  · simpa [Frame.setStatusBits] using bridged.pbxCount
  · simpa [Frame.setStatusBits] using bridged.mbxCount
  · simp only [Port.change_status, Frame.setStatusBits, Frame.status_updateChannel]
    split_ifs with same
    · exact congrArg (· ||| bits) (bridged.same channel decoded)
    · exact bridged.same index low
  · simp only [Port.change_status, Frame.setStatusBits, Frame.status_updateChannel]
    rfl

/-- `DBCW_CLR` in the mailbox clears the bits in both frames. -/
theorem writeRegister_clr (bridged : Bridged count mhu) {channel : Nat}
    (decoded : channel < count) (bits : BitVec 32) :
    ∃ next, mhu.writeRegister config bus .mbx channel dbcwClr bits = some next ∧
      Bridged count next ∧ ∀ index,
        next.mbx.frame.status index =
          if index = channel then mhu.mbx.frame.status channel &&& ~~~bits
          else mhu.mbx.frame.status index := by
  have position : mhu.mbx.frame.decodeDbchOffset (dbcw0 + dbcwStride * channel + dbcwClr) =
      some (channel, dbcwClr) :=
    Frame.decodeDbchOffset_eq_some.mpr ⟨rfl, by decide, bridged.mbxCount.symm ▸ decoded⟩
  refine ⟨_, writeRegister_eq bridged .mbx decoded (by decide) bits, ?_⟩
  have written : mhu.write32 config bus .mbx (dbcw0 + dbcwStride * channel + dbcwClr) bits =
      { mhu with
        mbx := mhu.mbx.change fun frame => frame.clearStatusBits channel bits
        pbx := mhu.pbx.clearPostboxDoorbellChannel config channel bits } := by
    rw [write32, writeMbx32, position]
    dsimp only
    rw [if_pos rfl, clearMbxDoorbellChannel, if_neg (by rw [bridged.mbxCount]; omega)]
  have pbxDecoded : channel < mhu.pbx.frame.channelCount.count := bridged.pbxCount.symm ▸ decoded
  rw [written]
  refine ⟨⟨?_, ?_, fun index low => ?_⟩, fun index => ?_⟩
  · simpa [Port.clearPostboxDoorbellChannel_channelCount] using bridged.pbxCount
  · simpa [Frame.clearStatusBits] using bridged.mbxCount
  · simp only [Port.clearPostboxDoorbellChannel_status config pbxDecoded, Port.change_status,
      Frame.clearStatusBits, Frame.status_updateChannel]
    split_ifs with same
    · exact congrArg (· &&& ~~~bits) (bridged.same channel decoded)
    · exact bridged.same index low
  · simp only [Port.change_status, Frame.clearStatusBits, Frame.status_updateChannel]
    rfl

end Registers

section OtherAccesses

/-- Both frames keep their channel count and every status. -/
structure SameStatus (before after : MhuPair Memory) : Prop where
  count : ∀ side, (after.port side).frame.channelCount = (before.port side).frame.channelCount
  status : ∀ side channel,
    (after.port side).frame.status channel = (before.port side).frame.status channel

theorem SameStatus.refl (mhu : MhuPair Memory) : mhu.SameStatus mhu :=
  ⟨fun _ => rfl, fun _ _ => rfl⟩

theorem sameStatus_setFrame (mhu : MhuPair Memory) (side : Side) {frame : Frame}
    (count : frame.channelCount = (mhu.port side).frame.channelCount)
    (status : ∀ channel, frame.status channel = (mhu.port side).frame.status channel) :
    mhu.SameStatus (mhu.setFrame side frame) where
  count other := by cases side <;> cases other <;> first | exact count | rfl
  status other channel := by cases side <;> cases other <;> first | exact status channel | rfl

theorem sameStatus_pbx (mhu : MhuPair Memory) (channel : Nat) {change : Channel → Channel}
    (keeps : ∀ record, (change record).status = record.status) :
    mhu.SameStatus
      { mhu with pbx := mhu.pbx.change fun frame => frame.updateChannel channel change } where
  count side := by cases side <;> simp [port]
  status side other := by
    cases side
    · exact mhu.pbx.status_change_updateChannel channel other keeps
    · rfl

theorem sameStatus_mbx (mhu : MhuPair Memory) (channel : Nat) {change : Channel → Channel}
    (keeps : ∀ record, (change record).status = record.status) :
    mhu.SameStatus
      { mhu with mbx := mhu.mbx.change fun frame => frame.updateChannel channel change } where
  count side := by cases side <;> simp [port]
  status side other := by
    cases side
    · rfl
    · exact mhu.mbx.status_change_updateChannel channel other keeps

theorem sameStatus_store32 (mhu : MhuPair Memory) (side : Side) (offset : Nat)
    (value : BitVec 32) :
    mhu.SameStatus (mhu.setFrame side ((mhu.port side).frame.store32 offset value)) :=
  mhu.sameStatus_setFrame side (by simp) fun channel => by simp [Frame.status]

/-- A 4-byte write of any register but `DBCW_SET` of the postbox. -/
theorem sameStatus_writePbx32 (mhu : MhuPair Memory) (offset : Nat) (value : BitVec 32)
    (plain : ∀ channel regOffset,
      mhu.pbx.frame.decodeDbchOffset offset = some (channel, regOffset) → regOffset ≠ dbcwSet) :
    mhu.SameStatus (mhu.writePbx32 config bus offset value) := by
  unfold writePbx32
  cases decoded : mhu.pbx.frame.decodeDbchOffset offset with
  | none => exact mhu.sameStatus_store32 .pbx offset value
  | some position =>
      obtain ⟨channel, regOffset⟩ := position
      dsimp only
      rw [if_neg (plain channel regOffset decoded)]
      split_ifs
      · exact mhu.sameStatus_pbx channel fun _ => rfl
      · exact mhu.sameStatus_pbx channel fun _ => rfl
      · exact mhu.sameStatus_pbx channel fun _ => rfl
      · exact mhu.sameStatus_store32 .pbx offset value

/-- A 4-byte write of any register but `DBCW_CLR` of the mailbox. -/
theorem sameStatus_writeMbx32 (mhu : MhuPair Memory) (offset : Nat) (value : BitVec 32)
    (plain : ∀ channel regOffset,
      mhu.mbx.frame.decodeDbchOffset offset = some (channel, regOffset) → regOffset ≠ dbcwClr) :
    mhu.SameStatus (mhu.writeMbx32 config offset value) := by
  unfold writeMbx32
  cases decoded : mhu.mbx.frame.decodeDbchOffset offset with
  | none => exact mhu.sameStatus_store32 .mbx offset value
  | some position =>
      obtain ⟨channel, regOffset⟩ := position
      dsimp only
      rw [if_neg (plain channel regOffset decoded)]
      split_ifs
      · exact mhu.sameStatus_mbx channel fun _ => rfl
      · exact mhu.sameStatus_mbx channel fun _ => rfl
      · exact mhu.sameStatus_mbx channel fun _ => rfl
      · exact mhu.sameStatus_store32 .mbx offset value

/-- No other access moves a status. -/
theorem sameStatus_of_not_movesStatus {next : MhuPair Memory} {side : Side} {access : Access}
    {response : Response} (still : mhu.movesStatus side access = false)
    (transported : mhu.bTransport config bus side access = some (response, next)) :
    mhu.SameStatus next := by
  rcases bTransport_write transported with ⟨rfl, -⟩ | ⟨offset, data, rfl, -, -, rfl⟩
  · exact .refl _
  · split_ifs with word
    · cases side with
      | pbx =>
          refine sameStatus_writePbx32 mhu _ _ fun channel regOffset decoded => ?_
          simpa [movesStatus, word, port, decoded] using still
      | mbx =>
          refine sameStatus_writeMbx32 mhu _ _ fun channel regOffset decoded => ?_
          simpa [movesStatus, word, port, decoded] using still
    · exact mhu.sameStatus_setFrame side rfl fun _ => rfl

theorem Bridged.of_sameStatus {next : MhuPair Memory} (bridged : Bridged count mhu)
    (same : mhu.SameStatus next) : Bridged count next where
  pbxCount := (congrArg ChannelCount.count (same.count .pbx)).trans bridged.pbxCount
  mbxCount := (congrArg ChannelCount.count (same.count .mbx)).trans bridged.mbxCount
  same channel decoded :=
    (same.status .pbx channel).trans
      ((bridged.same channel decoded).trans (same.status .mbx channel).symm)

variable (config bus) in
/-- An access that moves no status, by either party or by anyone else. -/
def accessOther (mhu : MhuPair Memory) (access : Side × Access) : Option (MhuPair Memory) :=
  if mhu.movesStatus access.1 access.2 then none
  else (mhu.bTransport config bus access.1 access.2).map Prod.snd

theorem sameStatus_accessOther {next : MhuPair Memory} {access : Side × Access}
    (accessed : mhu.accessOther config bus access = some next) : mhu.SameStatus next := by
  unfold accessOther at accessed
  split_ifs at accessed with moves
  obtain ⟨⟨response, after⟩, transported, rfl⟩ := Option.map_eq_some_iff.mp accessed
  exact sameStatus_of_not_movesStatus ((Bool.not_eq_true _).mp moves) transported

end OtherAccesses

/-- The channels of a bridge are doorbell registers: each party works through 4-byte
accesses of its own frame, and any other access that moves no status may come between. -/
def bridgeDoorbells (config : Config) (bus : Bus Memory) (isBridge : config.protocol = .bridge)
    (channelCount : ChannelCount) (enough : 3 ≤ channelCount.count) :
    Doorbells (MhuPair Memory) (Side × Access) where
  last := channelCount.count - 1
  enough := by omega
  bounded := by
    have bounded := channelCount.bounded
    rw [dbchChannels] at bounded
    omega
  notifyValue := mhuNotifyValue
  notifies := by decide
  Valid := Bridged channelCount.count
  status mhu channel := mhu.mbx.frame.status channel
  readSender mhu channel := mhu.readRegister config bus .pbx channel dbcwSt
  readReceiver mhu channel := mhu.readRegister config bus .mbx channel dbcwSt
  set mhu channel bits := mhu.writeRegister config bus .pbx channel dbcwSet bits
  clear mhu channel bits := mhu.writeRegister config bus .mbx channel dbcwClr bits
  other := accessOther config bus
  readSender_eq := fun bridged inside =>
    readRegister_status bridged .pbx (Nat.lt_of_le_pred (by omega) inside)
  readReceiver_eq := fun bridged inside =>
    readRegister_status bridged .mbx (Nat.lt_of_le_pred (by omega) inside)
  set_eq := fun bits bridged inside => by
    obtain ⟨next, written, kept, status⟩ :=
      @writeRegister_set _ _ bus _ _ isBridge bridged _
        (Nat.lt_of_le_pred (by omega) inside) bits
    exact ⟨next, written, kept, fun index _ => status index⟩
  clear_eq := fun bits bridged inside => by
    obtain ⟨next, written, kept, status⟩ :=
      writeRegister_clr bridged (Nat.lt_of_le_pred (by omega) inside) bits
    exact ⟨next, written, kept, fun index _ => status index⟩
  other_eq := fun bridged accessed =>
    have same := sameStatus_accessOther accessed
    ⟨bridged.of_sameStatus same, fun index _ => same.status .mbx index⟩

/-- The frames after elaboration agree on every status. -/
theorem bridged_elaborated (pbx mbx : FrameParams) (memory : Memory)
    (paired : pbx.channelCount.count = mbx.channelCount.count) :
    Bridged mbx.channelCount.count (elaborated pbx mbx memory) where
  pbxCount := by simpa [elaborated] using paired
  mbxCount := by simp [elaborated]
  same channel _ := by simp [elaborated, Frame.status]

/-- Over a bridge the received messages are a prefix of the sent ones, and the postbox and
the mailbox agree on every status, after any interleaving of the accesses of the two
parties and of any accesses that move no status. -/
theorem received_prefix_sent (config : Config) (bus : Bus Memory)
    (isBridge : config.protocol = .bridge) (pbx mbx : FrameParams) (memory : Memory)
    (paired : pbx.channelCount.count = mbx.channelCount.count)
    (enough : 3 ≤ mbx.channelCount.count) {events : List (HandshakeStep (Side × Access))}
    {final : Handshake (MhuPair Memory)}
    (reached : run (Handshake.step (bridgeDoorbells config bus isBridge mbx.channelCount enough))
      { registers := elaborated pbx mbx memory } events = some final) :
    final.received <+: final.sent ∧
      ∀ channel < mbx.channelCount.count,
        final.registers.pbx.frame.status channel = final.registers.mbx.frame.status channel := by
  have sound : Handshake.Sound
      (bridgeDoorbells config bus isBridge mbx.channelCount enough) final := Handshake.sound_run
    (bridged_elaborated pbx mbx memory paired)
    (fun channel _ => by simp [bridgeDoorbells, elaborated, Frame.status]) reached
  exact ⟨sound.phase.received_isPrefix, sound.valid.same⟩

/-- A message of one byte goes through four channels, with the mailbox unmasked meanwhile. -/
theorem received_prefix_sent_one_byte :
    ∃ final, run (Handshake.step
        (bridgeDoorbells { protocol := .bridge } Bus.ram rfl fourChannels.channelCount (by decide)))
        { registers := elaborated fourChannels fourChannels fun _ => 0 }
        [.start [7], .send, .receive, .send, .other (.mbx, .write 0x1078 [0xff, 0xff, 0xff, 0xff]),
          .send, .receive, .receive, .receive, .receive, .clear 2, .clear 0, .clear 1, .receive] =
        some final ∧
      final.received = [[7]] ∧ final.received <+: final.sent ∧
      ∀ channel < 4,
        final.registers.pbx.frame.status channel = final.registers.mbx.frame.status channel := by
  have delivered : (run (Handshake.step
      (bridgeDoorbells { protocol := .bridge } Bus.ram rfl fourChannels.channelCount (by decide)))
      { registers := elaborated fourChannels fourChannels fun _ => 0 }
      [.start [7], .send, .receive, .send, .other (.mbx, .write 0x1078 [0xff, 0xff, 0xff, 0xff]),
        .send, .receive, .receive, .receive, .receive, .clear 2, .clear 0, .clear 1,
        .receive]).map Handshake.received = some [[7]] := by decide +kernel
  obtain ⟨final, reached, received⟩ := Option.map_eq_some_iff.mp delivered
  exact ⟨final, reached, received,
    received_prefix_sent _ _ rfl fourChannels fourChannels _ rfl (by decide) reached⟩

end MhuPair

end QboxPlatform.Mhu
