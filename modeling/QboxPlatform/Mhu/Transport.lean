import QboxPlatform.Mhu.Mailbox
import QboxPlatform.Mhu.Psa.Framing

/-!
# Which replies the mailbox carries

Replies of the PSA service against the words a mailbox has below its notify channel.
-/

namespace QboxPlatform.Mhu

open Foundation Psa

universe u

namespace Frame

/-- A mailbox of at least three channels gives back the reply loaded into it exactly when
the reply fits the channels between the first and the notify channel. -/
theorem readDoorbellMessage_buildRsePsReply {Memory : Type u} (bus : Bus Memory)
    (request : List Byte) (services : Services) (memory : Memory) {frame : Frame}
    (enough : 3 ≤ frame.channelCount.count) :
    let reply := (buildRsePsReply bus request services memory).1
    (frame.loadMessage reply).readDoorbellMessage = reply ↔
      reply.length ≤ 4 * (frame.channelCount.count - 2) :=
  readDoorbellMessage_loadMessage enough _

/-- A refused request on a mailbox of all channels. -/
theorem readDoorbellMessage_buildRsePsReply_refused :
    let frame := Frame.blank true (ChannelCount.clamp 128)
    let reply := (buildRsePsReply Bus.ram [] {} fun _ => 0).1
    (frame.loadMessage reply).readDoorbellMessage = reply :=
  (readDoorbellMessage_buildRsePsReply Bus.ram [] {} (fun _ => 0) (by decide)).mpr (by decide)

/-- After a pointer-access `SET` of 500 bytes, the 516-byte reply to an embedded `GET` of
all of them does not fit 126 words. -/
theorem readDoorbellMessage_buildRsePsReply_truncates :
    let set : List Byte :=
      [1, 1, 1, 0] ++ toBytes 4 tfmProtectedStorageServiceHandle ++
        toBytes 4 (0x030003e9 : BitVec 32) ++
        (toBytes 4 8#32 ++ toBytes 4 500#32 ++ toBytes 4 4#32 ++ toBytes 4 0#32) ++
        (toBytes 8 0x100#64 ++ toBytes 8 0x1000#64 ++ toBytes 8 0x200#64 ++ toBytes 8 0#64)
    let get : List Byte :=
      [0, 2, 1, 0] ++ toBytes 4 tfmProtectedStorageServiceHandle ++
        toBytes 4 (0x020103ea : BitVec 32) ++
        (toBytes 2 8#16 ++ toBytes 2 4#16 ++ toBytes 2 500#16 ++ toBytes 2 0#16) ++
        List.replicate 12 0
    let (_, services, memory) := buildRsePsReply Bus.ram set {} fun _ => 0
    let reply := (buildRsePsReply Bus.ram get services memory).1
    let frame := Frame.configure true (ChannelCount.clamp 128) 1 0 0x43b 0x20
    (frame.loadMessage reply).readDoorbellMessage ≠ reply := by
  intro set get
  dsimp only
  intro lossless
  have limited := length_readDoorbellMessage_le
    ((Frame.configure true (ChannelCount.clamp 128) 1 0 0x43b 0x20).loadMessage
      (buildRsePsReply Bus.ram get (buildRsePsReply Bus.ram set {} fun _ => 0).2.1
        (buildRsePsReply Bus.ram set {} fun _ => 0).2.2).1)
  have length : (buildRsePsReply Bus.ram get (buildRsePsReply Bus.ram set {} fun _ => 0).2.1
      (buildRsePsReply Bus.ram set {} fun _ => 0).2.2).1.length = 516 := by decide +kernel
  rw [lossless, length, notifyChannel, loadMessage_channelCount, configure_channelCount]
    at limited
  revert limited
  decide

end Frame

end QboxPlatform.Mhu
