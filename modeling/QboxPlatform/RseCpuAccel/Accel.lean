import QboxPlatform.Cc3xx.Aes
import QboxPlatform.RseCpuAccel.Context
import QboxPlatform.RseCpuAccel.McubootImage

/-!
# The state of the accelerator

The parameters with their defaults, what the accelerator remembers from call to call, and the
steps that its handlers are made of.  A handler prepares its changes first: it only reads the
guest until the first of the actions it returns.
-/

namespace QboxPlatform.RseCpuAccel

open Foundation

/-- The parameters that `load_config` reads. -/
structure Config where
  hotpathAccel : Bool := false
  hotpathMemcpyAddr : BitVec 64 := 0
  hotpathMemsetAddr : BitVec 64 := 0
  hotpathMaxBytes : BitVec 64 := 16 * 1024 * 1024
  lmsAccel : Bool := false
  lmsVerifyAddr : BitVec 64 := 0
  lmsMaxDataBytes : BitVec 64 := 4096
  bl2LoadProfile : Bool := false
  bl2BootGoForImageIdAddr : BitVec 64 := 0
  bl2BootLoadImageToSramAddr : BitVec 64 := 0
  bl2BootEncLoadAddr : BitVec 64 := 0
  bl2BootEncDecryptAddr : BitVec 64 := 0
  bl2BootutilImgValidateAddr : BitVec 64 := 0
  bl2BootutilImgHashAddr : BitVec 64 := 0
  bl2BootutilVerifySigAddr : BitVec 64 := 0
  bl2BootImageCount : BitVec 64 := 5
  bl2BootStateCurrImgOffset : BitVec 64 := 0x10c8
  bl2BootStateImgsOffset : BitVec 64 := 0
  bl2BootStateImageStride : BitVec 64 := 88
  bl2BootStateSlotStride : BitVec 64 := 44
  bl2BootStateSlotUsageOffset : BitVec 64 := 0x10d0
  bl2BootStateSlotUsageStride : BitVec 64 := 16
  bl2BootSlotUsageImgDstOffset : BitVec 64 := 8
  bl2BootSlotUsageImgSzOffset : BitVec 64 := 12
  bl2LoadAccel : Bool := false
  bl2LoadAccelMaxBytes : BitVec 64 := 16 * 1024 * 1024
  bl2BootEncAccel : Bool := false
  bl2BootEncSetKeyAddr : BitVec 64 := 0
  bl2BootStatusEnckeyOffset : BitVec 64 := 0x0c
  bl2BootEncKeyBytes : BitVec 64 := 16
  bl2BootEncKeyStride : BitVec 64 := 16
  bl2BootEncSlots : BitVec 64 := 2
  bl2BootEncMaxBytes : BitVec 64 := 4096
  bl2ImgHashAccel : Bool := false
  bl2ImgHashMaxBytes : BitVec 64 := 16 * 1024 * 1024
  bl2ImgHashMaxSeedBytes : BitVec 64 := 4096
  bl2VerifySigAccel : Bool := false
  bl2VerifySigSkip : Bool := false
  bl2BootutilKeysAddr : BitVec 64 := 0
  bl2BootutilKeyCntAddr : BitVec 64 := 0
  bl2FihSuccessAddr : BitVec 64 := 0
  bl2VerifySigMaxKeyBytes : BitVec 64 := 512
  bl2VerifySigMaxSigBytes : BitVec 64 := 128
  bl2DelayAccel : Bool := false
  bl2DelayCyclesAddr : BitVec 64 := 0
  bl2DelayMaxCycles : BitVec 64 := 50 * 1000 * 1000
  bl2DelayExpectedHits : BitVec 64 := 3

/-- The entry address of a routine, without the Thumb bit. -/
def entryOf (addr : BitVec 64) : BitVec 32 := (addr &&& ~~~1).setWidth 32

/-- The program counter is at the entry of a configured routine. -/
abbrev AtEntry (addr : BitVec 64) (pc : BitVec 32) : Prop :=
  entryOf addr ≠ 0 ∧ pc = entryOf addr

/-- `Bl2RamLoadSnapshot`, without the fields that only the profile shows. -/
structure Bl2RamLoadSnapshot where
  hits : BitVec 64 := 0
  lastLoadAddr : BitVec 32 := 0
  lastHdrSize : BitVec 32 := 0
  lastImgSize : BitVec 32 := 0
  lastFlags : BitVec 32 := 0
  lastUnsupportedMask : BitVec 32 := 0
  deriving DecidableEq

structure Bl2VerifySigCacheEntry where
  publicKey : List Byte
  hash : List Byte
  signature : List Byte
  verified : Bool
  deriving DecidableEq

/-- What the accelerator remembers. -/
structure Accel where
  /-- The snapshots by image. -/
  snapshots : Nat → Bl2RamLoadSnapshot := fun _ => {}
  /-- The images that the load handler has decrypted. -/
  imageDecrypted : Nat → Bool := fun _ => false
  /-- The captured keys by cache index. -/
  bootEncKeys : BitVec 64 → Option (List Byte) := fun _ => none
  verifySigCache : List Bl2VerifySigCacheEntry := []
  lmsAccelDone : Bool := false
  delayHits : BitVec 64 := 0
  delayWatchActive : Bool := false
  pcEntryRegistered : Bool := false

def bl2RamLoadSnapshotImageSlots : Nat := 64

/-- The checks of signatures that the handlers rely on. -/
structure Verifiers where
  p256Verify : (publicKey hash signature : List Byte) → Bool
  lmsVerify : (key data sig : List Byte) → Bool

/-- The accelerator, the machine, and the local variable that the end of a copy routine reads from
the stack. -/
structure World (Machine : Type) where
  accel : Accel
  machine : Machine
  loaded : BitVec 32 := 0

/-- A change that a handler makes once it has prepared everything. -/
inductive Action
  | setV7mState (field : Field) (value : BitVec 32)
  /-- Set a register to the word that was read last. -/
  | setLoaded (field : Field)
  | readU32 (address : BitVec 64)
  | writeBytes (address : BitVec 64) (data : List Byte)
  | storeBytes (address : BitVec 64) (data : List Byte)
  | update (change : Accel → Accel)

section Steps

variable {Machine : Type} (context : Context Machine)

/-- `get_v7m_state`. -/
def getV7mState (field : Field) : Attempt (World Machine) (BitVec 32) :=
  Attempt.ofStep fun world => (some ((context.guest world.machine).register field), world)

/-- `hotpath_read_bytes`. -/
def hotpathReadBytes (address : BitVec 64) (size : Nat) : Attempt (World Machine) (List Byte) :=
  Attempt.ofStep fun world =>
    ((context.readBytes world.machine address size).1,
      { world with machine := (context.readBytes world.machine address size).2 })

def hotpathReadU32 (address : BitVec 64) : Attempt (World Machine) (BitVec 32) := do
  let bytes ← hotpathReadBytes context address 4
  return ofBytes 32 bytes

def hotpathReadU8 (address : BitVec 64) : Attempt (World Machine) (BitVec 8) := do
  let bytes ← hotpathReadBytes context address 1
  return ofBytes 8 bytes

/-- `hotpath_dmi_ptr`, and the bytes that the pointer leads to. -/
def hotpathDmiBytes (address : BitVec 64) (size : Nat) : Attempt (World Machine) (List Byte) :=
  Attempt.ofStep fun world =>
    (if (context.dmiPtr world.machine address size).1 then
        some ((context.guest world.machine).readBytes address size)
      else none,
      { world with machine := (context.dmiPtr world.machine address size).2 })

def getAccel : Attempt (World Machine) Accel :=
  Attempt.ofStep fun world => (some world.accel, world)

def modifyAccel (change : Accel → Accel) : Attempt (World Machine) Unit :=
  modify fun world => { world with accel := change world.accel }

def act : Action → Attempt (World Machine) Unit
  | .setV7mState field value => Attempt.ofStep fun world =>
      (if (context.setV7mState world.machine field value).1 then some () else none,
        { world with machine := (context.setV7mState world.machine field value).2 })
  | .setLoaded field => Attempt.ofStep fun world =>
      (if (context.setV7mState world.machine field world.loaded).1 then some () else none,
        { world with machine := (context.setV7mState world.machine field world.loaded).2 })
  | .readU32 address => do
      let word ← hotpathReadU32 context address
      modify fun world => { world with loaded := word }
  | .writeBytes address data => Attempt.ofStep fun world =>
      (if (context.writeBytes world.machine address data).1 then some () else none,
        { world with machine := (context.writeBytes world.machine address data).2 })
  | .storeBytes address data => modify fun world =>
      { world with machine := context.storeBytes world.machine address data }
  | .update change => modifyAccel change

/-- What the guest can see. -/
def World.guest (world : World Machine) : Guest := context.guest world.machine

end Steps

/-! ### Steps that only read -/

section Reading

open Foundation.Attempt (Keeps)

variable {Machine : Type} (context : Context Machine)

instance keeps_getV7mState (field : Field) :
    Keeps (World.guest context) (getV7mState context field) :=
  ⟨fun _ => rfl⟩

instance keeps_getAccel : Keeps (World.guest context) getAccel := ⟨fun _ => rfl⟩

instance keeps_modifyAccel (change : Accel → Accel) :
    Keeps (World.guest context) (modifyAccel change) :=
  ⟨fun _ => rfl⟩

instance keeps_hotpathReadBytes (address : BitVec 64) (size : Nat) :
    Keeps (World.guest context) (hotpathReadBytes context address size) :=
  ⟨fun world => context.guest_readBytes world.machine address size⟩

instance keeps_hotpathReadU32 (address : BitVec 64) :
    Keeps (World.guest context) (hotpathReadU32 context address) := by
  unfold hotpathReadU32
  infer_instance

instance keeps_hotpathReadU8 (address : BitVec 64) :
    Keeps (World.guest context) (hotpathReadU8 context address) := by
  unfold hotpathReadU8
  infer_instance

instance keeps_hotpathDmiBytes (address : BitVec 64) (size : Nat) :
    Keeps (World.guest context) (hotpathDmiBytes context address size) :=
  ⟨fun world => context.guest_dmiPtr world.machine address size⟩

instance getV7mState_keeps_accel (field : Field) :
    Keeps World.accel (getV7mState context field) :=
  ⟨fun _ => rfl⟩

instance getAccel_keeps_accel : Keeps World.accel (getAccel : Attempt (World Machine) Accel) :=
  ⟨fun _ => rfl⟩

instance hotpathReadBytes_keeps_accel (address : BitVec 64) (size : Nat) :
    Keeps World.accel (hotpathReadBytes context address size) :=
  ⟨fun _ => rfl⟩

instance hotpathReadU32_keeps_accel (address : BitVec 64) :
    Keeps World.accel (hotpathReadU32 context address) := by
  unfold hotpathReadU32
  infer_instance

instance hotpathReadU8_keeps_accel (address : BitVec 64) :
    Keeps World.accel (hotpathReadU8 context address) := by
  unfold hotpathReadU8
  infer_instance

section Outcomes

variable {context} {world next : World Machine}

@[simp]
theorem World.guest_mk (accel : Accel) (machine : Machine) (loaded : BitVec 32) :
    World.guest context ⟨accel, machine, loaded⟩ = context.guest machine := rfl

@[simp]
theorem outcome_getV7mState (field : Field) (world : World Machine) :
    (getV7mState context field).outcome world =
      (some ((world.guest context).register field), world) := rfl

@[simp]
theorem outcome_getAccel (world : World Machine) :
    getAccel.outcome world = (some world.accel, world) := rfl

@[simp]
theorem getV7mState_bind {Result : Type} (field : Field)
    (rest : BitVec 32 → Attempt (World Machine) Result) (world : World Machine) :
    (getV7mState context field >>= rest).outcome world =
      (rest ((world.guest context).register field)).outcome world :=
  Attempt.outcome_bind_of_some rfl rest

@[simp]
theorem getAccel_bind {Result : Type} (rest : Accel → Attempt (World Machine) Result)
    (world : World Machine) :
    (getAccel >>= rest).outcome world = (rest world.accel).outcome world :=
  Attempt.outcome_bind_of_some rfl rest

@[simp]
theorem outcome_modifyAccel (change : Accel → Accel) (world : World Machine) :
    (modifyAccel change).outcome world = (some (), { world with accel := change world.accel }) :=
  rfl

/-- A read that goes through gives what the guest has there. -/
theorem hotpathReadBytes_eq_some {address : BitVec 64} {size : Nat} {bytes : List Byte}
    (read : (hotpathReadBytes context address size).outcome world = (some bytes, next)) :
    bytes = (world.guest context).readBytes address size ∧
      next.guest context = world.guest context ∧ next.accel = world.accel := by
  have kept := context.guest_readBytes world.machine address size
  obtain ⟨succeeds, rfl⟩ := Prod.mk.inj read
  exact ⟨context.readBytes_eq world.machine address size bytes succeeds, kept, rfl⟩

/-- What is made of a read. -/
theorem hotpathReadBytes_map_eq_some {α : Type} {make : List Byte → α} {address : BitVec 64}
    {size : Nat} {value : α}
    (read : (hotpathReadBytes context address size >>= fun bytes => pure (make bytes)).outcome
      world = (some value, next)) :
    value = make ((world.guest context).readBytes address size) ∧
      next.guest context = world.guest context ∧ next.accel = world.accel := by
  obtain ⟨bytes, middle, taken, rest⟩ := Attempt.outcome_bind_eq_some.mp read
  obtain ⟨rfl, guestKept, accelKept⟩ := hotpathReadBytes_eq_some taken
  cases rest
  exact ⟨rfl, guestKept, accelKept⟩

theorem hotpathReadU32_eq_some {address : BitVec 64} {word : BitVec 32}
    (read : (hotpathReadU32 context address).outcome world = (some word, next)) :
    word = (world.guest context).readU32 address ∧ next.guest context = world.guest context ∧
      next.accel = world.accel :=
  hotpathReadBytes_map_eq_some read

theorem hotpathReadU8_eq_some {address : BitVec 64} {byte : BitVec 8}
    (read : (hotpathReadU8 context address).outcome world = (some byte, next)) :
    byte = (world.guest context).readU8 address ∧ next.guest context = world.guest context ∧
      next.accel = world.accel :=
  hotpathReadBytes_map_eq_some read

end Outcomes

/-- An action that fails changes nothing that the guest can see. -/
theorem act_failsClean : Attempt.FailsClean (act context) (World.guest context) := by
  intro action world next fails
  cases action with
  | setV7mState field value =>
      have kept := context.guest_setV7mState world.machine field value
      simp only [act, Attempt.outcome_ofStep, Prod.mk.injEq, ite_eq_right_iff,
        reduceCtorEq, imp_false, Bool.not_eq_true] at fails
      obtain ⟨refused, rfl⟩ := fails
      rwa [refused, if_neg Bool.false_ne_true] at kept
  | setLoaded field =>
      have kept := context.guest_setV7mState world.machine field world.loaded
      simp only [act, Attempt.outcome_ofStep, Prod.mk.injEq, ite_eq_right_iff,
        reduceCtorEq, imp_false, Bool.not_eq_true] at fails
      obtain ⟨refused, rfl⟩ := fails
      rwa [refused, if_neg Bool.false_ne_true] at kept
  | readU32 address =>
      have kept := (keeps_hotpathReadU32 context address).unchanged world
      rcases ended : (hotpathReadU32 context address).outcome world with ⟨_ | word, reached⟩
      · rw [act, Attempt.outcome_bind_of_none ended] at fails
        rw [ended] at kept
        cases fails
        exact kept
      · rw [act, Attempt.outcome_bind_of_some ended] at fails
        cases fails
  | writeBytes address data =>
      have kept := context.guest_writeBytes world.machine address data
      simp only [act, Attempt.outcome_ofStep, Prod.mk.injEq, ite_eq_right_iff,
        reduceCtorEq, imp_false, Bool.not_eq_true] at fails
      obtain ⟨refused, rfl⟩ := fails
      rwa [refused, if_neg Bool.false_ne_true] at kept
  | storeBytes address data => cases fails
  | update change => cases fails

end Reading

end QboxPlatform.RseCpuAccel
