import QboxPlatform.Foundation.Bytes

/-!
# Transactions

The generic payload as the targets of the platform look at it: a command, an address and
the data, and the response that the target leaves in it.
-/

namespace QboxPlatform

open Foundation

inductive Access
  | read (offset : BitVec 64) (len : Nat)
  | write (offset : BitVec 64) (data : List Byte)
  | ignore (offset : BitVec 64) (len : Nat)
  deriving DecidableEq

inductive Response
  | ok (data : List Byte)
  | addressError
  | commandError
  deriving DecidableEq

def Access.offset : Access → BitVec 64
  | .read offset _ => offset
  | .write offset _ => offset
  | .ignore offset _ => offset

def Access.len : Access → Nat
  | .read _ len => len
  | .write _ data => data.length
  | .ignore _ len => len

/-- The data lengths that the register ports accept. -/
def isSupportedLength (len : Nat) : Bool :=
  len == 1 || len == 2 || len == 4 || len == 8

theorem isSupportedLength_iff {len : Nat} :
    isSupportedLength len = true ↔ len = 1 ∨ len = 2 ∨ len = 4 ∨ len = 8 := by
  simp only [isSupportedLength, Bool.or_eq_true, beq_iff_eq, or_assoc]

/-- The check at the head of the register ports: an unsupported length, or an end behind the
registers.  The sum is taken in 64 bits. -/
def Access.exceeds (size : Nat) (access : Access) : Bool :=
  !isSupportedLength access.len || size < (access.offset.toNat + access.len) % 2 ^ 64

theorem Access.exceeds_eq_false_iff {size : Nat} {access : Access} :
    access.exceeds size = false ↔ isSupportedLength access.len = true ∧
      (access.offset.toNat + access.len) % 2 ^ 64 ≤ size := by
  rw [exceeds, Bool.or_eq_false_iff, Bool.not_eq_false', decide_eq_false_iff_not, Nat.not_lt]

theorem Access.len_le_of_exceeds {size : Nat} {access : Access}
    (isAccepted : access.exceeds size = false) : access.len ≤ 8 := by
  have supported := isSupportedLength_iff.mp (exceeds_eq_false_iff.mp isAccepted).1
  omega

/-- The access writes to one of the offsets from `low` up to `high`. -/
def Access.writesTo (low high : Nat) : Access → Bool
  | .write offset data => decide (offset.toNat < high) && decide (low < offset.toNat + data.length)
  | _ => false

/-- A write that misses a range writes to no offset in it. -/
theorem Access.outside_of_writesTo {low high : Nat} {offset : BitVec 64} {data : List Byte}
    (misses : (Access.write offset data).writesTo low high = false) {index : Nat}
    (inside : low ≤ index ∧ index < high) :
    index < offset.toNat ∨ offset.toNat + data.length ≤ index := by
  rw [writesTo, Bool.and_eq_false_iff, decide_eq_false_iff_not, decide_eq_false_iff_not] at misses
  omega

end QboxPlatform
