import QboxPlatform.Cc3xx.Access
import QboxPlatform.Cc3xx.Compression
import QboxPlatform.RseLmsAccel.Sha256

/-!
# The digests of both engines

A hash state holds a message when its chaining value and its partial block are what the complete
blocks of the message leave.  Updates extend the held message, whatever their size, and the
padding turns the chaining value into the hash of the message.
-/

namespace QboxPlatform.Cc3xx

open Foundation

/-- The chaining value, the partial block and the byte count after a message. -/
structure Holds (h : Sha256Words) (block : List Byte) (bytes : BitVec 64)
    (message : List Byte) : Prop where
  absorbed : (h.standard, block) =
    BlockStream.absorb Sha256.compress 64 Sha256.initial message
  counted : bytes = BitVec.ofNat 64 message.length

namespace Holds

variable {h : Sha256Words} {block : List Byte} {bytes : BitVec 64} {message : List Byte}

theorem length_block (holds : Holds h block bytes message) :
    block.length = message.length % 64 := by
  have pending : (BlockStream.absorb Sha256.compress 64 Sha256.initial message).2.length =
      message.length % 64 := BlockStream.length_absorb (by decide) Sha256.initial message
  rw [← holds.absorbed] at pending
  exact pending

theorem start : Holds .initial [] 0 [] where
  absorbed := by
    rw [BlockStream.absorb_short (by decide), Sha256Words.standard_initial]
  counted := rfl

/-- Absorbing more bytes from a state is absorbing the longer message. -/
theorem extend (holds : Holds h block bytes message) (data : List Byte) {next : Sha256Words}
    {rest : List Byte} {total : BitVec 64}
    (more : (next.standard, rest) =
      BlockStream.absorb Sha256.compress 64 h.standard (block ++ data))
    (counted : total = bytes + BitVec.ofNat 64 data.length) :
    Holds next rest total (message ++ data) where
  absorbed := by
    rw [BlockStream.absorb_append (by decide), ← holds.absorbed]
    exact more
  counted := by
    rw [counted, holds.counted, List.length_append, BitVec.ofNat_add]

/-- The two pieces that the engines append are the padding of the message. -/
theorem padding_eq (holds : Holds h block bytes message) :
    (0x80 :: List.replicate
        ((if block.length < 56 then 56 - block.length else 120 - block.length) - 1) 0) ++
      (toBytes 8 (bytes * 8)).reverse = Sha256.padding message.length := by
  have zeros : (if block.length < 56 then 56 - block.length else 120 - block.length) - 1 =
      (119 - message.length % 64) % 64 := by
    have partialBlock := holds.length_block
    split <;> omega
  have bits : bytes * 8 = BitVec.ofNat 64 (8 * message.length) := by
    rw [holds.counted, Nat.mul_comm, BitVec.ofNat_mul]
    rfl
  rw [zeros, bits, Sha256.padding, Sha256.bigEndian64]

/-- A state that holds the padded message has its hash for chaining value. -/
theorem hash_eq (holds : Holds h block bytes (Sha256.pad message)) :
    h.standard = Sha256.hash message :=
  congrArg Prod.fst holds.absorbed

end Holds

namespace Sha256State

theorem absorb_spec (state : Sha256State) (data : List Byte) (short : state.block.length < 64) :
    ((state.absorb data).h.standard, (state.absorb data).block) =
        BlockStream.absorb Sha256.compress 64 state.h.standard (state.block ++ data) ∧
      (state.absorb data).bytes = state.bytes ∧ (state.absorb data).active = state.active ∧
      (state.absorb data).finalized = state.finalized := by
  fun_induction absorb state data with
  | case1 state =>
      rw [List.append_nil, BlockStream.absorb_short short]
      exact ⟨rfl, rfl, rfl, rfl⟩
  | case2 state data _ full => omega
  | case3 state data nonempty _ copied block full inductionHypothesis =>
      obtain ⟨absorbed, kept⟩ := inductionHypothesis (Nat.zero_lt_succ 63)
      have dropped : data.drop copied.length = data.drop (64 - state.block.length) := by
        rw [List.length_take, ← List.drop_eq_drop_min]
      rw [BlockStream.absorb_filled (by decide) (Nat.le_of_lt short) full]
      refine ⟨?_, kept⟩
      rw [absorbed, standard_sha256Compress _ full, List.nil_append, dropped]
  | case4 state data nonempty _ copied block more inductionHypothesis =>
      have dropped : data.drop copied.length = data.drop (64 - state.block.length) := by
        rw [List.length_take, ← List.drop_eq_drop_min]
      have below : block.length < 64 := by
        apply Nat.lt_of_le_of_ne _ more
        rw [List.length_append, List.length_take]
        omega
      have joined : block ++ data.drop copied.length = state.block ++ data := by
        rw [dropped, List.append_assoc, List.take_append_drop]
      rw [joined] at inductionHypothesis
      exact inductionHypothesis below

theorem update_eq {state : Sha256State} (active : state.active = true)
    (unfinished : state.finalized = false) (data : List Byte) :
    state.update data =
      absorb { state with bytes := state.bytes + BitVec.ofNat 64 data.length } data := by
  rw [update, active, unfinished]
  rfl

end Sha256State

namespace Sha256State

/-- The state accepts data, and holds the message given so far. -/
structure Streams (state : Sha256State) (message : List Byte) : Prop where
  active : state.active = true
  unfinished : state.finalized = false
  holds : Holds state.h state.block state.bytes message

namespace Streams

variable {state : Sha256State} {message : List Byte}

theorem started : Streams started [] := ⟨rfl, rfl, .start⟩

theorem update (streams : Streams state message) (data : List Byte) :
    Streams (state.update data) (message ++ data) := by
  have short : state.block.length < 64 := by
    rw [streams.holds.length_block]
    exact Nat.mod_lt _ (by decide)
  obtain ⟨absorbed, bytes, active, unfinished⟩ :=
    absorb_spec { state with bytes := state.bytes + BitVec.ofNat 64 data.length } data short
  rw [update_eq streams.active streams.unfinished]
  exact ⟨active.trans streams.active, unfinished.trans streams.unfinished,
    streams.holds.extend data absorbed bytes⟩

theorem finish (streams : Streams state message) :
    state.finish.h.standard = Sha256.hash message := by
  have padded := (streams.update (0x80 :: List.replicate
    ((if state.block.length < 56 then 56 - state.block.length else 120 - state.block.length) - 1)
      0)).update (storeBe64 (state.bytes * 8))
  have padding := streams.holds.padding_eq
  rw [Sha256State.finish, streams.active, streams.unfinished]
  rw [List.append_assoc, storeBe64, padding] at padded
  exact padded.holds.hash_eq

end Streams

end Sha256State

end QboxPlatform.Cc3xx

namespace QboxPlatform.RseLmsAccel.Sha256

open Foundation
open Cc3xx (Holds standard_sha256Compress)

theorem fill_spec (sha : Sha256) (data : List Byte) (short : sha.block.length < 64) :
    ((sha.fill data).h.standard, (sha.fill data).block) =
        BlockStream.absorb Foundation.Sha256.compress 64 sha.h.standard (sha.block ++ data) ∧
      (sha.fill data).bytes = sha.bytes := by
  fun_induction fill sha data with
  | case1 sha =>
      rw [List.append_nil, BlockStream.absorb_short short]
      exact ⟨rfl, rfl⟩
  | case2 sha data _ full => omega
  | case3 sha data nonempty _ copyLen block full inductionHypothesis =>
      obtain ⟨absorbed, counted⟩ := inductionHypothesis (Nat.zero_lt_succ 63)
      have least : copyLen = min (64 - sha.block.length) data.length := Nat.min_comm _ _
      have dropped : data.drop copyLen = data.drop (64 - sha.block.length) := by
        rw [least, ← List.drop_eq_drop_min]
      have filled : block = sha.block ++ data.take (64 - sha.block.length) := by
        unfold block
        rw [least, ← List.take_eq_take_min]
      rw [filled] at full
      rw [BlockStream.absorb_filled (by decide) (Nat.le_of_lt short) full]
      refine ⟨?_, counted⟩
      rw [absorbed, transform, filled, standard_sha256Compress _ full, List.nil_append, dropped]
  | case4 sha data nonempty _ copyLen block more inductionHypothesis =>
      have below : block.length < 64 := by
        apply Nat.lt_of_le_of_ne _ more
        rw [List.length_append, List.length_take]
        omega
      have joined : block ++ data.drop copyLen = sha.block ++ data := by
        rw [List.append_assoc, List.take_append_drop]
      rw [joined] at inductionHypothesis
      exact inductionHypothesis below

/-- The state holds the message given so far. -/
def Streams (sha : Sha256) (message : List Byte) : Prop := Holds sha.h sha.block sha.bytes message

namespace Streams

variable {sha : Sha256} {message : List Byte}

theorem reset : Streams reset [] := Holds.start

theorem update (streams : Streams sha message) (data : List Byte) :
    Streams (sha.update data) (message ++ data) := by
  have short : sha.block.length < 64 := by
    rw [Holds.length_block streams]
    exact Nat.mod_lt _ (by decide)
  obtain ⟨absorbed, bytes⟩ :=
    fill_spec { sha with bytes := sha.bytes + BitVec.ofNat 64 data.length } data short
  exact Holds.extend streams data absorbed bytes

theorem updates (streams : Streams sha message) (pieces : List (List Byte)) :
    Streams (pieces.foldl Sha256.update sha) (message ++ pieces.flatten) := by
  induction pieces generalizing sha message with
  | nil =>
      rw [List.flatten_nil, List.append_nil]
      exact streams
  | cons piece rest inductionHypothesis =>
      rw [List.flatten_cons, ← List.append_assoc]
      exact inductionHypothesis (streams.update piece)

theorem finish (streams : Streams sha message) :
    sha.finish = Foundation.Sha256.digest message := by
  have padded := (streams.update (0x80 :: List.replicate
    ((if sha.block.length < 56 then 56 - sha.block.length else 120 - sha.block.length) - 1)
      0)).update (storeBe64 (sha.bytes * 8))
  have padding := Holds.padding_eq streams
  rw [List.append_assoc, storeBe64, padding] at padded
  have hashed := padded.hash_eq
  rw [Foundation.Sha256.digest, ← hashed]
  rfl

end Streams

end QboxPlatform.RseLmsAccel.Sha256
