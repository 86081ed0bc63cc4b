import QboxPlatform.Foundation.Mailboxes
import QboxPlatform.Mhu.PowerReadBack

/-!
# SCMI messages in shared memory

Each channel has a slot of its own.  An agent posts its message there and reads the reply back
once the channel is free; what the device writes stays in the slot as long as it fits.
-/

namespace QboxPlatform.Mhu

open Foundation

universe u

structure ScmiMessage where
  header : BitVec 32
  payload : List Byte
  deriving DecidableEq

structure ScmiReply where
  header : BitVec 32
  status : BitVec 32
  payload : List Byte
  deriving DecidableEq

/-! ### Data at an address -/

/-- The data stands at the address. -/
def Holds (bytes : BitVec 64 → Byte) (address : BitVec 64) (data : List Byte) : Prop :=
  Bus.slice bytes address data.length = data

/-- Only bytes of the slot have changed. -/
def Confined (slot : BitVec 64) (size : Nat) (before after : BitVec 64 → Byte) : Prop :=
  ∀ target, size ≤ (target - slot).toNat → after target = before target

section Data

variable {Memory : Type u} {bus : Bus Memory} {content : Memory → BitVec 64 → Byte}
  {slot : BitVec 64} {size : Nat}

theorem Confined.trans {first second third : BitVec 64 → Byte}
    (before : Confined slot size first second) (after : Confined slot size second third) :
    Confined slot size first third :=
  fun target outside => (after target outside).trans (before target outside)

theorem confined_write (writable : bus.Writable content) (memory : Memory) {offset : Nat}
    {data : List Byte} (inside : offset + data.length ≤ size) (small : size ≤ 2 ^ 64) :
    Confined slot size (content memory)
      (content (bus.write memory (slot + BitVec.ofNat 64 offset) data).2) := by
  intro target outside
  apply writable.content_write_outside
  rcases Nat.eq_zero_or_pos data.length with empty | some
  · rw [empty]
    exact Nat.zero_le _
  have bound := (target - slot).isLt
  have distance : target - (slot + BitVec.ofNat 64 offset) =
      target - slot - BitVec.ofNat 64 offset := sub_add_eq_sub_sub _ _ _
  have start : offset < 2 ^ 64 := by omega
  rw [distance, BitVec.toNat_sub, BitVec.toNat_ofNat, Nat.mod_eq_of_lt start]
  omega

/-- Data outside the slot stays where it is. -/
theorem Holds.of_confined {before after : BitVec 64 → Byte}
    (confined : Confined slot size before after) {address : BitVec 64} {data : List Byte}
    (outside : ∀ index < data.length,
      size ≤ (address + BitVec.ofNat 64 index - slot).toNat)
    (held : Holds before address data) : Holds after address data := by
  refine Eq.trans ?_ held
  exact Bus.slice_congr fun index inside => confined _ (outside index inside)

theorem holds_write (writable : bus.Writable content) (memory : Memory) (address : BitVec 64)
    {data : List Byte} (fits : data.length ≤ 2 ^ 64) :
    Holds (content (bus.write memory address data).2) address data :=
  writable.slice_write memory address fits

/-- Data at another place of the slot is not overwritten. -/
theorem Holds.write (writable : bus.Writable content) {memory : Memory} {place offset : Nat}
    {data other : List Byte} (held : Holds (content memory) (slot + BitVec.ofNat 64 place) other)
    (apart : offset + data.length ≤ place ∨ place + other.length ≤ offset)
    (inside : offset + data.length ≤ 2 ^ 64) (otherInside : place + other.length ≤ 2 ^ 64) :
    Holds (content (bus.write memory (slot + BitVec.ofNat 64 offset) data).2)
      (slot + BitVec.ofNat 64 place) other := by
  refine Eq.trans ?_ held
  apply Bus.slice_congr
  intro index within
  apply writable.content_write_outside
  rw [add_assoc, add_sub_add_left_eq_sub, BitVec.toNat_sub, BitVec.toNat_add, BitVec.toNat_ofNat,
    BitVec.toNat_ofNat, BitVec.toNat_ofNat]
  omega

theorem content_memWrite_nil (writable : bus.Writable content) (memory : Memory)
    (address : BitVec 64) : content (memWrite bus memory address []) = content memory := by
  funext target
  exact writable.content_write_outside memory (List.length_nil.trans_le (Nat.zero_le _))

theorem content_memWrite_congr (writable : bus.Writable content) {first second : Memory}
    (same : content first = content second) (address : BitVec 64) (data : List Byte) :
    content (memWrite bus first address data) = content (memWrite bus second address data) := by
  funext target
  rw [memWrite, memWrite, writable.content_write, writable.content_write, same]

theorem read_of_holds (readable : bus.Readable content) {memory : Memory} {address : BitVec 64}
    {data : List Byte} (held : Holds (content memory) address data) (buffer : List Byte)
    (length : buffer.length = data.length) :
    bus.read memory address buffer = (true, data, memory) := by
  rw [readable.read_eq, length]
  exact congrArg (fun bytes => (true, bytes, memory)) held

theorem memRead_of_holds (readable : bus.Readable content) {memory : Memory}
    {address : BitVec 64} {value : BitVec 32}
    (held : Holds (content memory) address (toBytes 4 value)) :
    memRead 32 bus memory address = (value, memory) := by
  unfold memRead
  rw [read_of_holds readable held _ (by rw [List.length_replicate, length_toBytes])]
  exact congrArg (fun word => (word, memory)) (ofBytes_toBytes value (by decide))

end Data

/-! ### Slots -/

section Slots

variable {Memory : Type u} (bus : Bus Memory) (memory : Memory) (slot : BitVec 64)

/-- What an agent does before it rings the doorbell. -/
def postScmiMessage (message : ScmiMessage) : Memory :=
  let memory := memWrite32 bus memory (slot + scmiChanStatus) 0
  let memory := memWrite32 bus memory (slot + scmiLength)
    (BitVec.ofNat 32 (4 + message.payload.length))
  let memory := memWrite32 bus memory (slot + scmiHeader) message.header
  memWrite bus memory (slot + scmiPayload) message.payload

/-- What an agent reads from its slot; nothing while the channel is not free. -/
def collectScmiReply : Option ScmiReply × Memory :=
  let (status, memory) := memRead 32 bus memory (slot + scmiChanStatus)
  if status &&& scmiChanFree = 0 then (none, memory)
  else
    let (length, memory) := memRead 32 bus memory (slot + scmiLength)
    let (header, memory) := memRead 32 bus memory (slot + scmiHeader)
    let (result, memory) := memRead 32 bus memory (slot + scmiPayload)
    let (_, payload, memory) := bus.read memory (slot + scmiPayload + 4)
      (List.replicate (length.toNat - 8) 0)
    (some ⟨header, result, payload⟩, memory)

structure HoldsMessage (bytes : BitVec 64 → Byte) (message : ScmiMessage) : Prop where
  length : Holds bytes (slot + scmiLength)
    (toBytes 4 (BitVec.ofNat 32 (4 + message.payload.length)))
  header : Holds bytes (slot + scmiHeader) (toBytes 4 message.header)
  payload : Holds bytes (slot + scmiPayload) message.payload

structure HoldsReply (bytes : BitVec 64 → Byte) (reply : ScmiReply) : Prop where
  chanStatus : Holds bytes (slot + scmiChanStatus) (toBytes 4 scmiChanFree)
  length : Holds bytes (slot + scmiLength)
    (toBytes 4 (BitVec.ofNat 32 (8 + reply.payload.length)))
  header : Holds bytes (slot + scmiHeader) (toBytes 4 reply.header)
  status : Holds bytes (slot + scmiPayload) (toBytes 4 reply.status)
  payload : Holds bytes (slot + scmiPayload + 4) reply.payload

variable {bus memory slot} {content : Memory → BitVec 64 → Byte} {size : Nat}

theorem confined_postScmiMessage (writable : bus.Writable content) {message : ScmiMessage}
    (fits : 0x1c + message.payload.length ≤ size) (small : size ≤ 2 ^ 64) :
    Confined slot size (content memory)
      (content (postScmiMessage bus memory slot message)) := by
  have word (memory : Memory) (offset : Nat) (value : BitVec 32) (inside : offset + 4 ≤ 0x1c) :
      Confined slot size (content memory)
        (content (memWrite32 bus memory (slot + BitVec.ofNat 64 offset) value)) := by
    apply confined_write writable memory _ small
    rw [length_toBytes]
    omega
  exact (((word memory 0x04 _ (by decide)).trans (word _ 0x14 _ (by decide))).trans
    (word _ 0x18 _ (by decide))).trans (confined_write writable _ fits small)

theorem holdsMessage_postScmiMessage (writable : bus.Writable content) {message : ScmiMessage}
    (fits : 0x1c + message.payload.length ≤ 2 ^ 64) :
    HoldsMessage slot (content (postScmiMessage bus memory slot message)) message := by
  have four (value : BitVec 32) : (toBytes 4 value).length = 4 := length_toBytes 4 value
  constructor
  · have written := @holds_write _ bus content writable
      (memWrite32 bus memory (slot + scmiChanStatus) 0) (slot + scmiLength)
      (toBytes 4 (BitVec.ofNat 32 (4 + message.payload.length))) (by rw [four]; decide)
    have kept := @Holds.write _ bus content slot writable _ 0x14 0x18 (toBytes 4 message.header) _
      written (.inr (by rw [four])) (by rw [four]; decide) (by rw [four]; decide)
    exact @Holds.write _ bus content slot writable _ 0x14 0x1c message.payload _ kept
      (.inr (by rw [four]; decide)) fits (by rw [four]; decide)
  · have written := @holds_write _ bus content writable
      (memWrite32 bus (memWrite32 bus memory (slot + scmiChanStatus) 0) (slot + scmiLength)
        (BitVec.ofNat 32 (4 + message.payload.length))) (slot + scmiHeader)
      (toBytes 4 message.header) (by rw [four]; decide)
    exact @Holds.write _ bus content slot writable _ 0x18 0x1c message.payload _ written
      (.inr (by rw [four])) fits (by rw [four]; decide)
  · exact holds_write writable _ _ (by omega)

theorem collectScmiReply_of_holds (readable : bus.Readable content) {reply : ScmiReply}
    (fits : 8 + reply.payload.length < 2 ^ 32) (held : HoldsReply slot (content memory) reply) :
    collectScmiReply bus memory slot = (some reply, memory) := by
  have size : (BitVec.ofNat 32 (8 + reply.payload.length)).toNat - 8 = reply.payload.length := by
    rw [BitVec.toNat_ofNat, Nat.mod_eq_of_lt fits, Nat.add_sub_cancel_left]
  have read := read_of_holds readable held.payload
    (List.replicate ((BitVec.ofNat 32 (8 + reply.payload.length)).toNat - 8) 0)
    (by rw [List.length_replicate, size])
  unfold collectScmiReply
  rw [memRead_of_holds readable held.chanStatus]
  dsimp only
  rw [if_neg (by decide), memRead_of_holds readable held.length]
  dsimp only
  rw [memRead_of_holds readable held.header]
  dsimp only
  rw [memRead_of_holds readable held.status]
  exact congrArg (fun taken => (some (ScmiReply.mk reply.header reply.status taken.2.1),
    taken.2.2)) read

end Slots

/-! ### The device at a slot -/

namespace ScmiConfig

variable {Memory : Type u} {bus : Bus Memory} {content : Memory → BitVec 64 → Byte}
  {config : ScmiConfig} {memory : Memory} {channel size : Nat}

/-- The device reads the message that was posted. -/
theorem scmiRequest_of_holds (readable : bus.Readable content) {message : ScmiMessage}
    (fits : 4 + message.payload.length < 2 ^ 32)
    (held : HoldsMessage (config.scmiShmem channel) (content memory) message) :
    config.scmiRequest bus channel memory = ((message.header, message.payload), memory) := by
  have size : (BitVec.ofNat 32 (4 + message.payload.length)).toNat =
      4 + message.payload.length := by
    rw [BitVec.toNat_ofNat, Nat.mod_eq_of_lt fits]
  unfold scmiRequest
  dsimp only
  rw [memRead_of_holds readable held.length]
  dsimp only
  rw [memRead_of_holds readable held.header]
  dsimp only
  unfold readScmiRequestPayload
  rw [size]
  by_cases empty : message.payload = []
  · rw [if_pos (by rw [empty]; decide), empty]
  · have some := List.length_pos_iff.mpr empty
    rw [if_neg (by omega), read_of_holds readable held.payload _
      (by rw [List.length_replicate, Nat.add_sub_cancel_left])]

/-- An empty payload is not written, which makes no difference. -/
theorem writeScmiResponse_eq (writable : bus.Writable content) (header status : BitVec 32)
    (payload : List Byte) :
    content (config.writeScmiResponse bus memory channel header status payload) =
      content (memWrite32 bus
        (memWrite bus
          (memWrite32 bus
            (memWrite32 bus
              (memWrite32 bus memory (config.scmiShmem channel + scmiLength)
                (BitVec.ofNat 32 (8 + payload.length)))
              (config.scmiShmem channel + scmiHeader) header)
            (config.scmiShmem channel + scmiPayload) status)
          (config.scmiShmem channel + scmiPayload + 4) payload)
        (config.scmiShmem channel + scmiChanStatus) scmiChanFree) := by
  unfold writeScmiResponse
  dsimp only
  split_ifs with empty
  · apply content_memWrite_congr writable
    rw [empty, content_memWrite_nil writable]
  · rfl

theorem confined_writeScmiResponse (writable : bus.Writable content) {header status : BitVec 32}
    {payload : List Byte} (fits : 0x20 + payload.length ≤ size) (small : size ≤ 2 ^ 64) :
    Confined (config.scmiShmem channel) size (content memory)
      (content (config.writeScmiResponse bus memory channel header status payload)) := by
  have word (memory : Memory) (offset : Nat) (value : BitVec 32) (inside : offset + 4 ≤ 0x20) :
      Confined (config.scmiShmem channel) size (content memory)
        (content (memWrite32 bus memory (config.scmiShmem channel + BitVec.ofNat 64 offset)
          value)) := by
    apply confined_write writable memory _ small
    rw [length_toBytes]
    omega
  have data (memory : Memory) : Confined (config.scmiShmem channel) size (content memory)
      (content (memWrite bus memory (config.scmiShmem channel + scmiPayload + 4) payload)) := by
    rw [add_assoc]
    exact confined_write writable memory fits small
  rw [writeScmiResponse_eq writable]
  exact ((((word memory 0x14 _ (by decide)).trans (word _ 0x18 _ (by decide))).trans
    (word _ 0x1c _ (by decide))).trans (data _)).trans (word _ 0x04 _ (by decide))

theorem holdsReply_writeScmiResponse (writable : bus.Writable content) {reply : ScmiReply}
    (fits : 0x20 + reply.payload.length ≤ 2 ^ 64) :
    HoldsReply (config.scmiShmem channel)
      (content (config.writeScmiResponse bus memory channel reply.header reply.status
        reply.payload)) reply := by
  have four (value : BitVec 32) : (toBytes 4 value).length = 4 := length_toBytes 4 value
  have first (memory : Memory) (offset : Nat) (value : BitVec 32) :
      Holds (content (memWrite32 bus memory (config.scmiShmem channel + BitVec.ofNat 64 offset)
        value)) (config.scmiShmem channel + BitVec.ofNat 64 offset) (toBytes 4 value) :=
    holds_write writable memory _ (by rw [four]; decide)
  -- A word in front of the payload outlives the words written elsewhere.
  have later {memory : Memory} {place offset : Nat} {value other : BitVec 32}
      (held : Holds (content memory) (config.scmiShmem channel + BitVec.ofNat 64 place)
        (toBytes 4 value)) (apart : offset + 4 ≤ place ∨ place + 4 ≤ offset)
      (placed : place + 4 ≤ 0x20) (inside : offset + 4 ≤ 0x20) :
      Holds (content (memWrite32 bus memory (config.scmiShmem channel + BitVec.ofNat 64 offset)
        other)) (config.scmiShmem channel + BitVec.ofNat 64 place) (toBytes 4 value) :=
    held.write writable (by rwa [four, four]) (by rw [four]; omega) (by rw [four]; omega)
  have past {memory : Memory} {place : Nat} {value : BitVec 32}
      (held : Holds (content memory) (config.scmiShmem channel + BitVec.ofNat 64 place)
        (toBytes 4 value)) (placed : place + 4 ≤ 0x20) :
      Holds (content (memWrite bus memory (config.scmiShmem channel + scmiPayload + 4)
        reply.payload)) (config.scmiShmem channel + BitVec.ofNat 64 place) (toBytes 4 value) := by
    rw [add_assoc]
    exact held.write writable (.inr (by rwa [four])) fits (by rw [four]; omega)
  rw [writeScmiResponse_eq writable]
  constructor
  · exact first _ 0x04 scmiChanFree
  · refine later (past (later (later (first _ 0x14 _) ?_ ?_ ?_) ?_ ?_ ?_) ?_) ?_ ?_ ?_
    all_goals decide
  · refine later (past (later (first _ 0x18 _) ?_ ?_ ?_) ?_) ?_ ?_ ?_
    all_goals decide
  · refine later (past (first _ 0x1c _) ?_) ?_ ?_ ?_
    all_goals decide
  · rw [add_assoc]
    refine Holds.write writable (holds_write writable _ _ (by omega)) (.inl ?_) ?_ fits
    all_goals
      rw [four]
      decide

end ScmiConfig

end QboxPlatform.Mhu
