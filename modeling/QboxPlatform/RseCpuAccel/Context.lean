import QboxPlatform.Foundation.Attempt
import QboxPlatform.Foundation.Bus

/-!
# The processor that the accelerator is attached to

The accelerator sees the guest through `QemuCpuSemanticContext`.  Every access may fail; one that
fails changes nothing, and one that succeeds does what it says.
-/

namespace QboxPlatform.RseCpuAccel

open Foundation

/-- The registers that the accelerator names. -/
inductive Field
  | r0
  | r1
  | r2
  | r3
  | r4
  | sp
  | lr
  | pc
  deriving DecidableEq

/-- What the guest's own code computes with. -/
@[ext]
structure Guest where
  register : Field → BitVec 32
  memory : BitVec 64 → Byte

namespace Guest

def setRegister (guest : Guest) (field : Field) (value : BitVec 32) : Guest :=
  { guest with register := Function.update guest.register field value }

def readBytes (guest : Guest) (address : BitVec 64) (size : Nat) : List Byte :=
  Bus.slice guest.memory address size

def writeBytes (guest : Guest) (address : BitVec 64) (data : List Byte) : Guest :=
  { guest with
    memory := fun target => data.getD (target - address).toNat (guest.memory target) }

def readU32 (guest : Guest) (address : BitVec 64) : BitVec 32 :=
  ofBytes 32 (guest.readBytes address 4)

def readU8 (guest : Guest) (address : BitVec 64) : BitVec 8 :=
  ofBytes 8 (guest.readBytes address 1)

@[simp]
theorem length_readBytes (guest : Guest) (address : BitVec 64) (size : Nat) :
    (guest.readBytes address size).length = size :=
  Bus.length_slice _ _ _

@[simp]
theorem setRegister_same (guest : Guest) (field : Field) (value : BitVec 32) :
    (guest.setRegister field value).register field = value :=
  Function.update_self ..

end Guest

/-- The calls into the processor, over the state of the machine around it. -/
structure Context (Machine : Type) where
  guest : Machine → Guest
  getPc : Machine → BitVec 64
  readBytes : Machine → BitVec 64 → Nat → Option (List Byte) × Machine
  writeBytes : Machine → BitVec 64 → List Byte → Bool × Machine
  setV7mState : Machine → Field → BitVec 32 → Bool × Machine
  /-- Ask for a host pointer to a range of the memory. -/
  dmiPtr : Machine → BitVec 64 → Nat → Bool × Machine
  /-- Store through a host pointer. -/
  storeBytes : Machine → BitVec 64 → List Byte → Machine
  guest_readBytes : ∀ machine address size,
    guest (readBytes machine address size).2 = guest machine
  readBytes_eq : ∀ machine address size bytes,
    (readBytes machine address size).1 = some bytes →
      bytes = (guest machine).readBytes address size
  guest_writeBytes : ∀ machine address data,
    guest (writeBytes machine address data).2 =
      if (writeBytes machine address data).1 then (guest machine).writeBytes address data
      else guest machine
  guest_setV7mState : ∀ machine field value,
    guest (setV7mState machine field value).2 =
      if (setV7mState machine field value).1 then (guest machine).setRegister field value
      else guest machine
  guest_dmiPtr : ∀ machine address size, guest (dmiPtr machine address size).2 = guest machine
  guest_storeBytes : ∀ machine address data,
    guest (storeBytes machine address data) = (guest machine).writeBytes address data

namespace Context

/-- Every call succeeds. -/
structure Reliable {Machine : Type} (context : Context Machine) : Prop where
  reads : ∀ machine address size, (context.readBytes machine address size).1 =
    some ((context.guest machine).readBytes address size)
  writes : ∀ machine address data, (context.writeBytes machine address data).1 = true
  sets : ∀ machine field value, (context.setV7mState machine field value).1 = true

/-- A guest beside a script that says which of the next calls fail. -/
def scripted : Context (Guest × List Bool) where
  guest := Prod.fst
  getPc := fun (guest, _) => (guest.register .pc).setWidth 64
  readBytes := fun (guest, script) address size =>
    (if script.headD true then some (guest.readBytes address size) else none,
      (guest, script.tail))
  writeBytes := fun (guest, script) address data =>
    (script.headD true,
      (if script.headD true then guest.writeBytes address data else guest, script.tail))
  setV7mState := fun (guest, script) field value =>
    (script.headD true,
      (if script.headD true then guest.setRegister field value else guest, script.tail))
  dmiPtr := fun (guest, script) _ _ => (script.headD true, (guest, script.tail))
  storeBytes := fun (guest, script) address data => (guest.writeBytes address data, script)
  guest_readBytes := fun _ _ _ => rfl
  readBytes_eq := by
    intro machine address size bytes succeeds
    dsimp only at succeeds
    split at succeeds
    · exact (Option.some.inj succeeds).symm
    · cases succeeds
  guest_writeBytes := fun _ _ _ => rfl
  guest_setV7mState := fun _ _ _ => rfl
  guest_dmiPtr := fun _ _ _ => rfl
  guest_storeBytes := fun _ _ _ => rfl

/-- A guest all of whose calls succeed. -/
def steady : Context Guest where
  guest := id
  getPc := fun guest => (guest.register .pc).setWidth 64
  readBytes := fun guest address size => (some (guest.readBytes address size), guest)
  writeBytes := fun guest address data => (true, guest.writeBytes address data)
  setV7mState := fun guest field value => (true, guest.setRegister field value)
  dmiPtr := fun guest _ _ => (true, guest)
  storeBytes := fun guest address data => guest.writeBytes address data
  guest_readBytes := fun _ _ _ => rfl
  readBytes_eq := fun _ _ _ _ succeeds => (Option.some.inj succeeds).symm
  guest_writeBytes := fun _ _ _ => rfl
  guest_setV7mState := fun _ _ _ => rfl
  guest_dmiPtr := fun _ _ _ => rfl
  guest_storeBytes := fun _ _ _ => rfl

theorem steady_reliable : steady.Reliable :=
  ⟨fun _ _ _ => rfl, fun _ _ _ => rfl, fun _ _ _ => rfl⟩

end Context

end QboxPlatform.RseCpuAccel
