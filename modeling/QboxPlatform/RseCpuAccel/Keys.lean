import QboxPlatform.Foundation.Run
import QboxPlatform.RseCpuAccel.Calls

/-!
# The keys of the decryption

The set-key entry leaves the captured key under a compressed index, and both decrypt handlers take
it from there.  Beside the accelerator stands the history of the set-key calls, with the key that
each of them was made for.
-/

namespace QboxPlatform.RseCpuAccel

open Foundation
open Foundation.Attempt (Keeps outcome_bind_of_some outcome_bind_of_none outcome_guard_bind
  outcome_guard_bind_of_not)

/-- The guest calls one of the routines. -/
inductive GuestCall (Machine : Type)
  | setKey (machine : Machine)
  | load (machine : Machine)
  | loadDecrypt (machine : Machine)
  | encDecrypt (machine : Machine)

/-- A call of the set-key entry. -/
structure SetKeyCall where
  encState : BitVec 32
  slot : BitVec 32
  /-- The key that the boot status holds. -/
  key : List Byte
  captured : Bool
  deriving DecidableEq

namespace SetKeyCall

/-- The call is for exactly this slot. -/
def isFor (encState slot : BitVec 32) (call : SetKeyCall) : Bool :=
  call.encState = encState ∧ call.slot = slot

/-- The key of the call went under this cache index. -/
def storedUnder (index : BitVec 64) (call : SetKeyCall) : Bool :=
  call.captured && decide (bl2BootEncCacheKey call.encState call.slot = index)

end SetKeyCall

/-- The accelerator and the set-key calls so far, the newest first. -/
structure KeyHistory where
  accel : Accel
  calls : List SetKeyCall

section Histories

variable {Machine : Type} (context : Context Machine) (config : Config)

abbrev Guest.encKeyAddr (config : Config) (guest : Guest) : BitVec 64 :=
  config.encKeyAddr (guest.register .r2) (guest.register .r1)

/-- The accelerator captures a key if it is enabled, the slot is accepted and the key can be
read. -/
def setKeyCall (machine : Machine) : SetKeyCall where
  encState := (context.guest machine).register .r0
  slot := (context.guest machine).register .r1
  key := (context.guest machine).readBytes ((context.guest machine).encKeyAddr config)
    config.encKeySize.toNat
  captured := ((config.bl2BootEncAccel ∨ config.bl2LoadAccel) ∧
      entryOf config.bl2BootEncSetKeyAddr ≠ 0 ∧
      config.acceptsKey ((context.guest machine).register .r1) : Bool) &&
    (context.readBytes machine ((context.guest machine).encKeyAddr config)
      config.encKeySize.toNat).1.isSome

namespace KeyHistory

/-- Nothing has been captured yet. -/
def initial : KeyHistory := ⟨{}, []⟩

def step (history : KeyHistory) : GuestCall Machine → Option KeyHistory
  | .setKey machine => some
      { accel := history.accel.afterSetKey context config machine
        calls := setKeyCall context config machine :: history.calls }
  | .load machine => some { history with accel := history.accel.afterLoad context config machine }
  | .loadDecrypt machine => some
      { history with accel := history.accel.afterLoadDecrypt context config machine }
  | .encDecrypt machine => some
      { history with accel := history.accel.afterEncDecrypt context config machine }

/-- The data that a decrypt handler transforms in a call. -/
def transforms (history : KeyHistory) : GuestCall Machine → Option (DecryptCall × Decryption)
  | .setKey _ => none
  | .load _ => none
  | .loadDecrypt machine =>
      (loadTransforms context config (entryOf config.bl2BootEncDecryptAddr)
        ⟨history.accel, machine, 0⟩).map fun transformed => (transformed.1, transformed.2.2)
  | .encDecrypt machine =>
      encTransforms context config (entryOf config.bl2BootEncDecryptAddr)
        ⟨history.accel, machine, 0⟩

/-- Data is transformed with the key of the last set-key call for exactly its slot, which was
captured. -/
def UsesCurrentKey (history : KeyHistory) (event : GuestCall Machine) : Prop :=
  ∀ call decryption, history.transforms context config event = some (call, decryption) →
    ∃ last, history.calls.find? (SetKeyCall.isFor call.encState call.slot) = some last ∧
      last.captured = true ∧ decryption.key = last.key

/-- Data is transformed only while the last set-key call for exactly its slot was captured, and the
last one captured under the same cache index holds the same key. -/
def KeyStillCached (history : KeyHistory) (event : GuestCall Machine) : Prop :=
  ∀ call decryption, history.transforms context config event = some (call, decryption) →
    ∃ last, history.calls.find? (SetKeyCall.isFor call.encState call.slot) = some last ∧
      last.captured = true ∧
      ∀ stored, history.calls.find?
          (SetKeyCall.storedUnder (bl2BootEncCacheKey call.encState call.slot)) = some stored →
        stored.key = last.key

/-- Under every index lies the key of the last call that was captured under it. -/
def CacheHoldsLast (history : KeyHistory) : Prop :=
  ∀ index, history.accel.bootEncKeys index =
    (history.calls.find? (SetKeyCall.storedUnder index)).map SetKeyCall.key

end KeyHistory

variable {context config}

theorem afterSetKey_of_captured (accel : Accel) {machine : Machine}
    (captured : (setKeyCall context config machine).captured = true) :
    accel.afterSetKey context config machine =
      storeKey (setKeyCall context config machine).encState
        (setKeyCall context config machine).slot (setKeyCall context config machine).key accel := by
  simp only [setKeyCall, Bool.and_eq_true, decide_eq_true_eq] at captured
  obtain ⟨⟨enabled, entered, accepted⟩, read⟩ := captured
  obtain ⟨key, succeeds⟩ := Option.isSome_iff_exists.mp read
  have readKey : (hotpathReadBytes context
      ((World.guest context ⟨accel, machine, 0⟩).encKeyAddr config)
      config.encKeySize.toNat).outcome ⟨accel, machine, 0⟩ =
      (some key, ⟨accel, (context.readBytes machine ((context.guest machine).encKeyAddr config)
        config.encKeySize.toNat).2, 0⟩) := by
    rw [← succeeds]
    rfl
  have held := (hotpathReadBytes_eq_some readKey).1
  rw [← World.guest_mk accel machine 0] at accepted
  rw [Accel.afterSetKey, tryBl2BootEncCaptureKeyAtPc, outcome_guard_bind enabled,
    outcome_guard_bind ⟨entered, rfl⟩]
  simp only [getV7mState_bind]
  rw [outcome_guard_bind accepted, outcome_bind_of_some readKey, held]
  rfl

theorem afterSetKey_of_not_captured (accel : Accel) {machine : Machine}
    (missed : (setKeyCall context config machine).captured = false) :
    accel.afterSetKey context config machine = accel := by
  simp only [setKeyCall, Bool.and_eq_false_iff, decide_eq_false_iff_not] at missed
  rw [Accel.afterSetKey, tryBl2BootEncCaptureKeyAtPc]
  by_cases enabled : config.bl2BootEncAccel = true ∨ config.bl2LoadAccel = true
  swap
  · rw [outcome_guard_bind_of_not enabled]
  by_cases entered : entryOf config.bl2BootEncSetKeyAddr ≠ 0
  swap
  · rw [outcome_guard_bind enabled, outcome_guard_bind_of_not fun there => entered there.1]
  rw [outcome_guard_bind enabled, outcome_guard_bind ⟨entered, rfl⟩]
  simp only [getV7mState_bind]
  by_cases accepted : config.acceptsKey
    ((World.guest context ⟨accel, machine, 0⟩).register .r1)
  swap
  · rw [outcome_guard_bind_of_not accepted]
  rw [outcome_guard_bind accepted]
  have unread := missed.resolve_left (not_not_intro ⟨enabled, entered, accepted⟩)
  have stops : (hotpathReadBytes context
      ((World.guest context ⟨accel, machine, 0⟩).encKeyAddr config)
      config.encKeySize.toNat).outcome ⟨accel, machine, 0⟩ =
      (none, ⟨accel, (context.readBytes machine ((context.guest machine).encKeyAddr config)
        config.encKeySize.toNat).2, 0⟩) := by
    rw [← Option.not_isSome_iff_eq_none.mp (Bool.eq_false_iff.mp unread)]
    rfl
  rw [outcome_bind_of_none stops]

theorem afterLoad_bootEncKeys (accel : Accel) (machine : Machine) :
    (accel.afterLoad context config machine).bootEncKeys = accel.bootEncKeys := by
  have ends := @captureBl2RamLoadSnapshot_ends _ context config ⟨accel, machine, 0⟩
  rw [Accel.afterLoad]
  generalize (captureBl2RamLoadSnapshot context config).outcome ⟨accel, machine, 0⟩ = ended at ends
  cases ends with
  | stopped same => rw [same]
  | unsupported currImg header mask flagged recorded =>
      rw [recorded, recordBl2RamLoadSnapshot]
      split
      · rfl
      · rfl
  | supported inside few recorded =>
      rw [recorded, accountBl2RamLoadSnapshot, recordBl2RamLoadSnapshot]
      split_ifs
      all_goals rfl

theorem afterLoadDecrypt_bootEncKeys (accel : Accel) (machine : Machine) :
    (accel.afterLoadDecrypt context config machine).bootEncKeys = accel.bootEncKeys := by
  rcases transforms : loadTransforms context config (entryOf config.bl2BootEncDecryptAddr)
    ⟨accel, machine, 0⟩ with _ | ⟨call, image, decryption⟩
  · rw [Accel.afterLoadDecrypt, tryBl2LoadDecrypt_accel_of_none transforms]
  · rw [Accel.afterLoadDecrypt, tryBl2LoadDecrypt_accel_of_transforms transforms]
    rfl

theorem afterEncDecrypt_eq (accel : Accel) (machine : Machine) :
    accel.afterEncDecrypt context config machine = accel :=
  (tryBl2BootEncDecrypt_keeps_accel _).unchanged _

namespace KeyHistory

theorem key_of_transforms {history : KeyHistory} {event : GuestCall Machine} {call : DecryptCall}
    {decryption : Decryption}
    (transformed : history.transforms context config event = some (call, decryption)) :
    history.accel.bootEncKeys (bl2BootEncCacheKey call.encState call.slot) =
      some decryption.key := by
  cases event with
  | setKey machine => cases transformed
  | load machine => cases transformed
  | loadDecrypt machine =>
      obtain ⟨⟨taken, image, decrypted⟩, wrote, same⟩ := Option.map_eq_some_iff.mp transformed
      cases same
      rw [loadTransforms] at wrote
      split at wrote
      · rename_i other found done next took
        split at wrote
        · cases wrote
          obtain ⟨-, image, -, skips | ⟨-, -, decryption, same, stored⟩⟩ :=
            takeBl2LoadDecrypt_eq_some took
          · cases skips.2
          · cases same
            exact stored
        · cases wrote
      · cases wrote
  | encDecrypt machine =>
      rw [transforms, encTransforms] at transformed
      split at transformed
      · rename_i other done next took
        split at transformed
        · cases transformed
          exact (takeBl2BootEncDecrypt_eq_some took).2
        · cases transformed
      · cases transformed

theorem cacheHoldsLast_initial : initial.CacheHoldsLast := fun _ => rfl

theorem cacheHoldsLast_step {history next : KeyHistory} {event : GuestCall Machine}
    (holds : history.CacheHoldsLast)
    (stepped : history.step context config event = some next) : next.CacheHoldsLast := by
  intro index
  cases event with
  | setKey machine =>
      cases stepped
      by_cases captured : (setKeyCall context config machine).captured = true
      · simp only [afterSetKey_of_captured history.accel captured, storeKey, List.find?_cons]
        by_cases here : bl2BootEncCacheKey (setKeyCall context config machine).encState
            (setKeyCall context config machine).slot = index
        · have stored :
              SetKeyCall.storedUnder index (setKeyCall context config machine) = true := by
            simp [SetKeyCall.storedUnder, captured, here]
          rw [stored, here, Function.update_self]
          rfl
        · have other :
              SetKeyCall.storedUnder index (setKeyCall context config machine) = false := by
            simp [SetKeyCall.storedUnder, here]
          rw [other, Function.update_of_ne (Ne.symm here)]
          exact holds index
      · have missed := Bool.eq_false_iff.mpr captured
        have other : SetKeyCall.storedUnder index (setKeyCall context config machine) = false := by
          simp [SetKeyCall.storedUnder, missed]
        simp only [afterSetKey_of_not_captured history.accel missed, List.find?_cons, other]
        exact holds index
  | load machine =>
      cases stepped
      exact (congrFun (afterLoad_bootEncKeys history.accel machine) index).trans (holds index)
  | loadDecrypt machine =>
      cases stepped
      exact (congrFun (afterLoadDecrypt_bootEncKeys history.accel machine) index).trans
        (holds index)
  | encDecrypt machine =>
      cases stepped
      simp only [afterEncDecrypt_eq]
      exact holds index

/-- As long as the cache holds the last captured keys, data is transformed with the current key
exactly if the key is still cached. -/
theorem usesCurrentKey_iff {history : KeyHistory} (holds : history.CacheHoldsLast)
    (event : GuestCall Machine) :
    history.UsesCurrentKey context config event ↔ history.KeyStillCached context config event := by
  refine forall₃_congr fun call decryption transformed => exists_congr fun last =>
    and_congr Iff.rfl (and_congr Iff.rfl ?_)
  have cached := (holds _).symm.trans (key_of_transforms transformed)
  obtain ⟨stored, found, same⟩ := Option.map_eq_some_iff.mp cached
  rw [found, ← same]
  constructor
  · intro current other found
    cases found
    exact current
  · intro current
    exact current stored rfl

end KeyHistory

/-- Over any sequence of calls, data is always transformed with the current key if and only if its
key is still cached whenever data is transformed. -/
theorem along_usesCurrentKey_iff (calls : List (GuestCall Machine)) :
    Along (KeyHistory.step context config) (KeyHistory.UsesCurrentKey context config) .initial
        calls ↔
      Along (KeyHistory.step context config) (KeyHistory.KeyStillCached context config) .initial
        calls :=
  along_congr_of_invariant (fun _ _ _ => KeyHistory.cacheHoldsLast_step)
    (fun _ event holds => KeyHistory.usesCurrentKey_iff holds event)
    KeyHistory.cacheHoldsLast_initial

/-- The chunk handler alone, with its two entries. -/
def chunkConfig : Config :=
  { bl2BootEncAccel := true, bl2BootEncSetKeyAddr := 0x1000, bl2BootEncDecryptAddr := 0x2000 }

/-- The set-key entry, with a boot status full of one byte. -/
def settingKey (byte : Byte) : Guest where
  register := Function.update (Function.update (fun _ => 0) .r0 0x100) .r2 0x4000
  memory := fun _ => byte

/-- The decrypt entry, with a buffer of one block. -/
def decryptingBlock : Guest where
  register := Function.update (Function.update (Function.update (fun _ => 0) .r0 0x100) .r3 16)
    .sp 0x8000
  memory := fun address => if address = 0x8005 then 0x90 else 0

/-- A key is captured, a second one for the same slot cannot be read, and a block is decrypted with
the first. -/
def staleKeyCalls : List (GuestCall (Guest × List Bool)) :=
  [.setKey (settingKey 0, []), .setKey (settingKey 1, [false]), .encDecrypt (decryptingBlock, [])]

theorem decryptingBlock_transforms {accel : Accel} {key : List Byte} (whole : key.length = 16)
    (stored : accel.bootEncKeys (bl2BootEncCacheKey 0x100 0) = some key) :
    ∃ decryption, encTransforms Context.scripted chunkConfig
        (entryOf chunkConfig.bl2BootEncDecryptAddr) ⟨accel, (decryptingBlock, []), 0⟩ =
      some (decryptingBlock.decryptCall, decryption) := by
  have crypts : Cc3xx.aesCtrXcryptBuffer key (chunkCounter 0)
      (decryptingBlock.readBytes 0x9000 16) 0 =
      some (Cc3xx.ctrOutput key (chunkCounter 0) (decryptingBlock.readBytes 0x9000 16)) := by
    rw [Cc3xx.aesCtrXcryptBuffer, if_neg (by omega), dif_pos (by decide)]
    exact Cc3xx.ctrBufferLoop_eq (Or.inl whole) _ _
  have buffer : decryptingBlock.decryptCall.buf = 0x9000 := by decide
  have blkOff : decryptingBlock.decryptCall.blkOff = 0 := by decide
  have took := @takeBl2BootEncDecrypt_of_reads _ Context.scripted chunkConfig
    (entryOf chunkConfig.bl2BootEncDecryptAddr) ⟨accel, (decryptingBlock, []), 0⟩ _
    decryptingBlock.decryptCall _ key _ _ rfl (by decide) rfl (by decide) (by decide) stored
    (Or.inl whole) rfl (by rw [buffer, blkOff]; exact crypts)
  refine ⟨⟨key, decryptingBlock.decryptCall.buf.setWidth 64, Cc3xx.ctrOutput key (chunkCounter 0)
    (decryptingBlock.readBytes 0x9000 16)⟩, ?_⟩
  rw [encTransforms, took]
  rfl

/-- The last set-key call for the slot could not be captured. -/
theorem not_along_usesCurrentKey_stale :
    ¬ Along (KeyHistory.step Context.scripted chunkConfig)
      (KeyHistory.UsesCurrentKey Context.scripted chunkConfig) .initial staleKeyCalls := by
  intro current
  obtain ⟨used, -⟩ := ((current _ rfl).2 _ rfl).2 _ rfl
  have stored : ((Accel.afterSetKey Context.scripted chunkConfig
      (Accel.afterSetKey Context.scripted chunkConfig {} (settingKey 0, []))
      (settingKey 1, [false])).bootEncKeys (bl2BootEncCacheKey 0x100 0)) =
      some (List.replicate 16 0) := by
    rw [afterSetKey_of_not_captured _ (by decide), afterSetKey_of_captured _ (by decide)]
    decide
  obtain ⟨decryption, transforms⟩ := decryptingBlock_transforms rfl stored
  obtain ⟨last, found, captured, -⟩ := used _ _ transforms
  have newest : last = setKeyCall Context.scripted chunkConfig (settingKey 1, [false]) := by
    refine Option.some.inj (found.symm.trans ?_)
    decide
  rw [newest] at captured
  revert captured
  decide

end Histories

end QboxPlatform.RseCpuAccel
