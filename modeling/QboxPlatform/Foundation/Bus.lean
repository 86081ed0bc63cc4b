import QboxPlatform.Foundation.Bytes
import QboxPlatform.Foundation.Ranges

/-!
# Memory targets behind an initiator socket

A bus hands buffers to a target that may be a memory or a peripheral: an access
can fail, and either direction can change the target.
-/

namespace Foundation

universe u

structure Bus (Memory : Type u) where
  /-- Fill a buffer; its old contents are what a failing target may leave. -/
  read : Memory → BitVec 64 → List Byte → Bool × List Byte × Memory
  write : Memory → BitVec 64 → List Byte → Bool × Memory
  length_read : ∀ memory address buffer,
    (read memory address buffer).2.1.length = buffer.length

namespace Bus

variable {Memory : Type u}

/-- Every access succeeds. -/
def Reliable (bus : Bus Memory) : Prop :=
  (∀ memory address buffer, (bus.read memory address buffer).1 = true) ∧
    ∀ memory address data, (bus.write memory address data).1 = true

/-- The writes a target accepted, oldest first. -/
abbrev WriteLog := List (BitVec 64 × List Byte)

/-- The same bus, with the accepted writes recorded beside the target. -/
def logged (bus : Bus Memory) : Bus (Memory × WriteLog) where
  read := fun (memory, log) address buffer =>
    let (ok, data, next) := bus.read memory address buffer
    (ok, data, (next, log))
  write := fun (memory, log) address data =>
    let (ok, next) := bus.write memory address data
    (ok, (next, if ok then log ++ [(address, data)] else log))
  length_read := fun (memory, _) address buffer => bus.length_read memory address buffer

/-- One access and what came of it: the bytes a read delivered, and whether a write was
accepted. -/
inductive Transfer
  | read (address : BitVec 64) (data : List Byte)
  | write (address : BitVec 64) (data : List Byte) (accepted : Bool)
  deriving DecidableEq

/-- The same bus, with every access recorded beside the target. -/
def traced (bus : Bus Memory) : Bus (Memory × List Transfer) where
  read := fun (memory, trace) address buffer =>
    let (ok, data, next) := bus.read memory address buffer
    (ok, data, (next, trace ++ [.read address data]))
  write := fun (memory, trace) address data =>
    let (ok, next) := bus.write memory address data
    (ok, (next, trace ++ [.write address data ok]))
  length_read := fun (memory, _) address buffer => bus.length_read memory address buffer

/-- The addresses that the writes of a log have changed. -/
def written (log : WriteLog) : Set (BitVec 64) :=
  {target | ∃ entry ∈ log, target ∈ Ranges.block entry.1 entry.2.length}

@[simp]
theorem written_nil : written [] = ∅ := by
  ext target
  simp [written]

@[simp]
theorem written_concat (log : WriteLog) (address : BitVec 64) (data : List Byte) :
    written (log ++ [(address, data)]) = written log ∪ Ranges.block address data.length := by
  ext target
  simp [written, or_and_right, exists_or]

namespace Reliable

variable {bus : Bus Memory}

theorem logged (reliable : bus.Reliable) : bus.logged.Reliable :=
  ⟨fun _ _ _ => reliable.1 _ _ _, fun _ _ _ => reliable.2 _ _ _⟩

/-- A read is not in the log. -/
theorem logged_read (reliable : bus.Reliable) (state : Memory × WriteLog) (address : BitVec 64)
    (buffer : List Byte) :
    ∃ data next, bus.logged.read state address buffer = (true, data, next) ∧
      data.length = buffer.length ∧ next.2 = state.2 := by
  refine ⟨_, _, Prod.ext (reliable.logged.1 state address buffer) rfl, ?_, rfl⟩
  exact bus.logged.length_read state address buffer

/-- Every write is in the log. -/
theorem logged_write (reliable : bus.Reliable) (state : Memory × WriteLog) (address : BitVec 64)
    (data : List Byte) :
    ∃ next, bus.logged.write state address data = (true, next) ∧
      next.2 = state.2 ++ [(address, data)] :=
  ⟨_, Prod.ext (reliable.logged.2 state address data) rfl,
    if_pos (reliable.2 state.1 address data)⟩

end Reliable

/-- `count` bytes from an address on; addresses wrap. -/
def slice (bytes : BitVec 64 → Byte) (address : BitVec 64) (count : Nat) : List Byte :=
  (List.range count).map fun index => bytes (address + BitVec.ofNat 64 index)

@[simp]
theorem length_slice (bytes : BitVec 64 → Byte) (address : BitVec 64) (count : Nat) :
    (slice bytes address count).length = count := by
  simp [slice]

theorem slice_add (bytes : BitVec 64 → Byte) (address : BitVec 64) (first second : Nat) :
    slice bytes address (first + second) =
      slice bytes address first ++ slice bytes (address + BitVec.ofNat 64 first) second := by
  simp only [slice, List.range_add, List.map_append, List.map_map, Function.comp_def,
    BitVec.ofNat_add, BitVec.add_assoc]

/-- Reads succeed, deliver the contents of the target and leave it as it is. -/
structure Readable (bus : Bus Memory) (content : Memory → BitVec 64 → Byte) : Prop where
  read_eq : ∀ memory address buffer,
    bus.read memory address buffer =
      (true, slice (content memory) address buffer.length, memory)

/-- Writes succeed as well, and change the addressed bytes only. -/
structure Writable (bus : Bus Memory) (content : Memory → BitVec 64 → Byte) : Prop
    extends Readable bus content where
  write_ok : ∀ memory address data, (bus.write memory address data).1 = true
  content_write : ∀ memory address data target,
    content (bus.write memory address data).2 target =
      data.getD (target - address).toNat (content memory target)

theorem slice_congr {first second : BitVec 64 → Byte} {address : BitVec 64} {count : Nat}
    (same : ∀ index < count, first (address + BitVec.ofNat 64 index) =
      second (address + BitVec.ofNat 64 index)) :
    slice first address count = slice second address count := by
  apply List.map_congr_left
  intro index member
  exact same index (List.mem_range.mp member)

namespace Writable

variable {bus : Bus Memory} {content : Memory → BitVec 64 → Byte}

/-- Bytes at a distance of at least the length of the data keep their value. -/
theorem content_write_outside (writable : bus.Writable content) (memory : Memory)
    {address target : BitVec 64} {data : List Byte}
    (outside : data.length ≤ (target - address).toNat) :
    content (bus.write memory address data).2 target = content memory target := by
  rw [writable.content_write, List.getD_eq_default _ _ outside]

theorem slice_write (writable : bus.Writable content) (memory : Memory) (address : BitVec 64)
    {data : List Byte} (fits : data.length ≤ 2 ^ 64) :
    slice (content (bus.write memory address data).2) address data.length = data := by
  apply List.ext_getElem (length_slice _ _ _)
  intro index _ inside
  have small : index < 2 ^ 64 := Nat.lt_of_lt_of_le inside fits
  simp only [slice, List.getElem_map, List.getElem_range, writable.content_write]
  rw [add_sub_cancel_left, BitVec.toNat_ofNat, Nat.mod_eq_of_lt small,
    List.getD_eq_getElem _ _ inside]

/-- A write inside a range replaces its part of it. -/
theorem slice_write_within (writable : bus.Writable content) (memory : Memory)
    (address : BitVec 64) {data : List Byte} {before after : Nat}
    (fits : before + data.length + after ≤ 2 ^ 64) :
    slice (content (bus.write memory (address + BitVec.ofNat 64 before) data).2) address
        (before + data.length + after) =
      slice (content memory) address before ++ data ++
        slice (content memory) (address + BitVec.ofNat 64 (before + data.length)) after := by
  have front : slice (content (bus.write memory (address + BitVec.ofNat 64 before) data).2) address
      before = slice (content memory) address before := by
    apply slice_congr
    intro index inside
    apply writable.content_write_outside
    rw [add_sub_add_left_eq_sub, BitVec.toNat_sub, BitVec.toNat_ofNat, BitVec.toNat_ofNat]
    omega
  have back : slice (content (bus.write memory (address + BitVec.ofNat 64 before) data).2)
      (address + BitVec.ofNat 64 (before + data.length)) after =
      slice (content memory) (address + BitVec.ofNat 64 (before + data.length)) after := by
    apply slice_congr
    intro index inside
    apply writable.content_write_outside
    rw [add_assoc, add_sub_add_left_eq_sub, BitVec.toNat_sub, BitVec.toNat_add, BitVec.toNat_ofNat,
      BitVec.toNat_ofNat, BitVec.toNat_ofNat]
    omega
  rw [slice_add, slice_add, front, back, writable.slice_write _ _ (by omega)]

end Writable

/-- A memory of `2 ^ 64` bytes that accepts everything. -/
def ram : Bus (BitVec 64 → Byte) where
  read := fun memory address buffer =>
    (true, (List.range buffer.length).map (fun index => memory (address + BitVec.ofNat 64 index)),
      memory)
  write := fun memory address data =>
    (true, fun target =>
      data.getD (target - address).toNat (memory target))
  length_read := by simp

theorem ram_writable : ram.Writable id where
  read_eq _ _ _ := rfl
  write_ok _ _ _ := rfl
  content_write _ _ _ _ := rfl

theorem ram_reliable : ram.Reliable := ⟨fun _ _ _ => rfl, fun _ _ _ => rfl⟩

end Bus

end Foundation
