import QboxPlatform.Mhu.Frame
import QboxPlatform.Mhu.Psa.Service

/-!
# Messages in doorbell channels

Channel 0 carries the length of a message, the channels below the notify channel
its words.  `read_doorbell_message` decodes this framing and `load_mbx_message`
produces it.
-/

namespace QboxPlatform.Mhu

open Foundation

universe u

namespace Frame

/-- `notify_channel()`: the last decoded channel. -/
def notifyChannel (frame : Frame) : Nat := frame.channelCount.count - 1

/-- The loop of `read_doorbell_message` over `remaining` channels. -/
def readMessageWords (frame : Frame) (length : Nat) :
    (remaining channel : Nat) → List Byte → List Byte
  | 0, _, message => message
  | remaining + 1, channel, message =>
      if message.length < length then
        frame.readMessageWords length remaining (channel + 1)
          (message ++ (toBytes 4 (frame.status channel)).take (length - message.length))
      else
        message

def readDoorbellMessage (frame : Frame) : List Byte :=
  frame.readMessageWords (frame.status 0).toNat (frame.notifyChannel - 1) 1 []

/-- The loop of `load_mbx_message` over `remaining` channels. -/
def loadMessageWords : (remaining channel : Nat) → List Byte → Frame → Frame
  | 0, _, _, frame => frame
  | remaining + 1, channel, message, frame =>
      if message = [] then frame
      else
        loadMessageWords remaining (channel + 1) (message.drop 4)
          (frame.setStatus channel (ofBytes 32 (message.take 4)))

/-- The channel contents `load_mbx_message` leaves; its interrupt update is the caller's. -/
def loadMessage (frame : Frame) (message : List Byte) : Frame :=
  let started := frame.clearAllStatus.setStatus 0 (BitVec.ofNat 32 message.length)
  (loadMessageWords (frame.notifyChannel - 1) 1 message started).setStatus frame.notifyChannel
    mhuNotifyValue

section Status

theorem status_setStatus (frame : Frame) (channel other : Nat) (value : BitVec 32) :
    (frame.setStatus channel value).status other =
      if other = channel then value else frame.status other :=
  frame.status_updateChannel channel other _

/-- Clearing reaches every channel the frame has. -/
theorem status_clearAllStatus (frame : Frame) {channel : Nat} (inside : channel < dbchChannels) :
    frame.clearAllStatus.status channel = 0 := by
  have cleared : ∀ count, channel < count →
      ((List.range count).foldl (fun cleared channel => cleared.setStatus channel 0) frame).status
        channel = 0 := by
    intro count
    induction count with
    | zero => exact fun below => absurd below (Nat.not_lt_zero _)
    | succ count inductionHypothesis =>
        intro below
        rw [List.range_succ, List.foldl_append]
        simp only [List.foldl_cons, List.foldl_nil, status_setStatus]
        split_ifs with last
        · rfl
        · exact inductionHypothesis (by omega)
  exact cleared dbchChannels inside

theorem status_loadMessageWords (remaining channel : Nat) (message : List Byte) (frame : Frame)
    (other : Nat) :
    (loadMessageWords remaining channel message frame).status other =
      if channel ≤ other ∧ other < channel + remaining ∧
          4 * (other - channel) < message.length then
        wordAt message (other - channel)
      else frame.status other := by
  induction remaining generalizing channel message frame with
  | zero => rw [loadMessageWords, if_neg (by omega)]
  | succ remaining inductionHypothesis =>
      unfold loadMessageWords
      split_ifs with empty inside inside
      · simp [empty] at inside
      · rfl
      · rw [inductionHypothesis, status_setStatus]
        by_cases here : other = channel
        · subst here
          rw [if_neg (by omega), if_pos rfl, Nat.sub_self, wordAt, Nat.mul_zero, List.drop_zero]
        · have later : other - channel = (other - (channel + 1)) + 1 := by omega
          rw [if_pos (by rw [List.length_drop]; omega), later, wordAt_succ]
      · have nonempty : 0 < message.length := List.length_pos_iff.mpr empty
        rw [inductionHypothesis, status_setStatus, if_neg (by rw [List.length_drop]; omega),
          if_neg (by rintro rfl; omega)]

theorem readMessageWords_eq (frame : Frame) (length remaining channel : Nat)
    (message : List Byte) (within : message.length ≤ length) :
    frame.readMessageWords length remaining channel message =
      (message ++ (List.range remaining).flatMap fun index =>
        toBytes 4 (frame.status (channel + index))).take length := by
  induction remaining generalizing channel message with
  | zero =>
      rw [readMessageWords, List.range_zero, List.flatMap_nil, List.append_nil,
        List.take_of_length_le within]
  | succ remaining inductionHypothesis =>
      unfold readMessageWords
      split_ifs with short
      · rw [inductionHypothesis]
        · have rest : ∀ index, channel + 1 + index = channel + (index + 1) := by omega
          have split : length - message.length - min (length - message.length) 4 =
              length - message.length - 4 := by omega
          simp only [List.range_succ_eq_map, List.flatMap_cons, List.flatMap_map, List.append_assoc,
            List.take_append, List.take_take, Nat.min_self, List.length_take, length_toBytes, rest,
            split, Nat.add_zero]
        · rw [List.length_append, List.length_take]
          omega
      · have full : message.length = length := by omega
        rw [← full, List.take_left]

/-- The receiver's view: as many bytes of the words below the notify channel as channel 0
announces. -/
theorem readDoorbellMessage_eq (frame : Frame) :
    frame.readDoorbellMessage =
      ((List.range (frame.notifyChannel - 1)).flatMap fun index =>
        toBytes 4 (frame.status (1 + index))).take (frame.status 0).toNat := by
  rw [readDoorbellMessage, readMessageWords_eq _ _ _ _ _ (Nat.zero_le _), List.nil_append]

theorem length_readDoorbellMessage_le (frame : Frame) :
    frame.readDoorbellMessage.length ≤ 4 * (frame.notifyChannel - 1) := by
  rw [readDoorbellMessage_eq, List.length_take, List.length_flatMap]
  simp
  omega

@[simp]
theorem setStatus_channelCount (frame : Frame) (channel : Nat) (value : BitVec 32) :
    (frame.setStatus channel value).channelCount = frame.channelCount :=
  updateChannel_channelCount frame channel _

theorem loadMessageWords_channelCount (remaining channel : Nat) (message : List Byte)
    (frame : Frame) :
    (loadMessageWords remaining channel message frame).channelCount = frame.channelCount := by
  induction remaining generalizing channel message frame with
  | zero => rfl
  | succ remaining inductionHypothesis =>
      unfold loadMessageWords
      split_ifs
      · rfl
      · rw [inductionHypothesis, setStatus_channelCount]

theorem loadMessage_channelCount (frame : Frame) (message : List Byte) :
    (frame.loadMessage message).channelCount = frame.channelCount := by
  rw [loadMessage, setStatus_channelCount, loadMessageWords_channelCount,
    setStatus_channelCount, clearAllStatus_channelCount]

/-- What the channels hold after a message is loaded. -/
theorem status_loadMessage {frame : Frame} (enough : 3 ≤ frame.channelCount.count)
    (message : List Byte) {channel : Nat} (inside : channel < frame.notifyChannel) :
    (frame.loadMessage message).status channel =
      if channel = 0 then BitVec.ofNat 32 message.length else wordAt message (channel - 1) := by
  have bounded := frame.channelCount.bounded
  have count : frame.notifyChannel + 1 = frame.channelCount.count := by
    rw [notifyChannel]
    omega
  simp only [loadMessage, notifyChannel, status_setStatus, status_loadMessageWords]
  rw [if_neg (by omega)]
  by_cases zero : channel = 0
  · rw [if_neg (by omega), if_pos zero, if_pos zero]
  · rw [if_neg zero, if_neg zero, status_clearAllStatus frame (by omega)]
    split_ifs with carried
    · rfl
    · rw [wordAt_of_length_le (by omega)]

end Status

/-- A message comes out of the channels as it went in exactly when it fits the words
below the notify channel. -/
theorem readDoorbellMessage_loadMessage {frame : Frame} (enough : 3 ≤ frame.channelCount.count)
    (message : List Byte) :
    (frame.loadMessage message).readDoorbellMessage = message ↔
      message.length ≤ 4 * (frame.channelCount.count - 2) := by
  have bounded := frame.channelCount.bounded
  have notify : (frame.loadMessage message).notifyChannel = frame.notifyChannel := by
    rw [notifyChannel, loadMessage_channelCount, notifyChannel]
  have words : frame.notifyChannel - 1 = frame.channelCount.count - 2 := by
    rw [notifyChannel]
    omega
  constructor
  · intro lossless
    have limited := length_readDoorbellMessage_le (frame.loadMessage message)
    rwa [lossless, notify, words] at limited
  · intro fits
    have length : ((frame.loadMessage message).status 0).toNat = message.length := by
      rw [status_loadMessage enough message (by rw [notifyChannel]; omega), if_pos rfl,
        BitVec.toNat_ofNat, Nat.mod_eq_of_lt]
      simp only [dbchChannels] at bounded
      omega
    have carried : ((List.range (frame.notifyChannel - 1)).flatMap fun index =>
          toBytes 4 ((frame.loadMessage message).status (1 + index))) =
        (List.range (frame.notifyChannel - 1)).flatMap fun index =>
          toBytes 4 (wordAt message index) := by
      apply List.flatMap_congr
      intro index member
      have below := List.mem_range.mp member
      rw [status_loadMessage enough message (by omega), if_neg (by omega),
        Nat.add_sub_cancel_left]
    rw [readDoorbellMessage_eq, notify, length, carried]
    exact take_flatMap_wordAt message (by omega)

end Frame

end QboxPlatform.Mhu
