import QboxPlatform.Foundation.Run
import QboxPlatform.RseCpuAccel.Fallback

/-!
# Signatures

A verdict that the accelerator has cached is the one that the check gives, whatever has happened to
the memory since.  So nothing that the guest sees tells a full cache from one that is empty before
every call.
-/

namespace QboxPlatform.RseCpuAccel

open Foundation
open Foundation.Attempt (Respects handle perform firstOf outcome_bind_eq_some
  outcome_bind_of_some outcome_guard_bind_eq_some)

namespace Accel

/-- Every entry of the cache holds the verdict of the check, and the entries are few enough. -/
structure CacheSound (accel : Accel) (verifiers : Verifiers) : Prop where
  verdicts : ∀ entry ∈ accel.verifySigCache,
    entry.verified = verifiers.p256Verify entry.publicKey entry.hash entry.signature
  bounded : accel.verifySigCache.length ≤ maxVerifySigCacheEntries

def withoutCache (accel : Accel) : Accel := { accel with verifySigCache := [] }

@[simp]
theorem withoutCache_withoutCache (accel : Accel) :
    accel.withoutCache.withoutCache = accel.withoutCache := rfl

variable {verifiers : Verifiers} {accel : Accel}

theorem cacheSound_withoutCache (accel : Accel) : accel.withoutCache.CacheSound verifiers :=
  ⟨fun _ member => (List.not_mem_nil member).elim, Nat.zero_le _⟩

theorem CacheSound.verifySigCached (sound : accel.CacheSound verifiers)
    (publicKey hash signature : List Byte) :
    (verifySigCached verifiers publicKey hash signature accel).1 =
        verifiers.p256Verify publicKey hash signature ∧
      (RseCpuAccel.verifySigCached verifiers publicKey hash signature accel).2.withoutCache =
        accel.withoutCache ∧
      (RseCpuAccel.verifySigCached verifiers publicKey hash signature accel).2.CacheSound
        verifiers := by
  rw [RseCpuAccel.verifySigCached]
  split
  · rename_i entry found
    obtain ⟨samePublicKey, sameHash, sameSignature⟩ :
        entry.publicKey = publicKey ∧ entry.hash = hash ∧ entry.signature = signature := by
      simpa using List.find?_some found
    have verdict := sound.verdicts entry (List.mem_of_find?_eq_some found)
    rw [samePublicKey, sameHash, sameSignature] at verdict
    exact ⟨verdict, rfl, sound⟩
  · refine ⟨rfl, rfl, ?_, ?_⟩
    · intro entry member
      rcases List.mem_append.mp member with old | new
      · apply sound.verdicts
        split at old
        · exact List.mem_of_mem_tail old
        · exact old
      · rw [List.mem_singleton.mp new]
    · have bounded := sound.bounded
      have positive : 0 < maxVerifySigCacheEntries := by decide
      rw [List.length_append, List.length_singleton]
      split
      · rw [List.length_tail]
        omega
      · omega

end Accel

/-- Two worlds that differ in what is cached only, and in both of which the cache is sound. -/
structure Alike {Machine : Type} (verifiers : Verifiers) (first second : World Machine) :
    Prop where
  machine : first.machine = second.machine
  loaded : first.loaded = second.loaded
  accel : first.accel.withoutCache = second.accel.withoutCache
  firstSound : first.accel.CacheSound verifiers
  secondSound : second.accel.CacheSound verifiers

/-- A change of what the accelerator remembers that has nothing to do with the cache. -/
class BesidesCache (change : Accel → Accel) : Prop where
  cache : ∀ accel, (change accel).verifySigCache = accel.verifySigCache
  others : ∀ accel, (change accel).withoutCache = (change accel.withoutCache).withoutCache

instance besidesCache_storeKey (encState slot : BitVec 32) (key : List Byte) :
    BesidesCache (storeKey encState slot key) := ⟨fun _ => rfl, fun _ => rfl⟩

instance besidesCache_markDecrypted (image : Nat) : BesidesCache (markDecrypted image) :=
  ⟨fun _ => rfl, fun _ => rfl⟩

instance besidesCache_finishLms (config : Config) : BesidesCache (finishLms config) :=
  ⟨fun _ => rfl, fun _ => rfl⟩

instance besidesCache_recordBl2RamLoadSnapshot (currImg : Nat) (header : ImageHeader)
    (unsupportedMask : BitVec 32) :
    BesidesCache (recordBl2RamLoadSnapshot currImg header unsupportedMask) := by
  constructor
  all_goals
    intro accel
    simp only [recordBl2RamLoadSnapshot]
    split
    · rfl
    · rfl

instance besidesCache_accountBl2RamLoadSnapshot (currImg : Nat) (unsupportedMask : BitVec 32) :
    BesidesCache (accountBl2RamLoadSnapshot currImg unsupportedMask) := by
  constructor
  all_goals
    intro accel
    simp only [accountBl2RamLoadSnapshot]
    split
    · rfl
    · rfl

instance besidesCache_countDelay (config : Config) : BesidesCache (countDelay config) := by
  constructor
  · intro accel
    simp only [countDelay]
    split
    · rfl
    · rfl
  · intro accel
    by_cases last : config.bl2DelayExpectedHits ≠ 0 ∧
        config.bl2DelayExpectedHits ≤ accel.delayHits + 1 ∧ accel.delayWatchActive
    · have here : countDelay config accel = _ := if_pos last
      have there : countDelay config accel.withoutCache = _ := if_pos last
      rw [here, there]
      rfl
    · have here : countDelay config accel = _ := if_neg last
      have there : countDelay config accel.withoutCache = _ := if_neg last
      rw [here, there]
      rfl

section Steps

variable {Machine : Type} (context : Context Machine) {verifiers : Verifiers}

instance alike_getV7mState (field : Field) :
    Respects (Alike verifiers) (getV7mState context field) := by
  constructor
  intro first second alike
  refine ⟨?_, alike⟩
  simp only [outcome_getV7mState, World.guest, alike.machine]

instance alike_modifyAccel (change : Accel → Accel) [besides : BesidesCache change] :
    Respects (Alike verifiers : World Machine → World Machine → Prop) (modifyAccel change) := by
  constructor
  intro first second alike
  refine ⟨rfl, alike.machine, alike.loaded, ?_, ⟨?_, ?_⟩, ⟨?_, ?_⟩⟩
  · simp only [outcome_modifyAccel]
    rw [besides.others, alike.accel, ← besides.others]
  · simpa only [outcome_modifyAccel, besides.cache] using alike.firstSound.verdicts
  · simpa only [outcome_modifyAccel, besides.cache] using alike.firstSound.bounded
  · simpa only [outcome_modifyAccel, besides.cache] using alike.secondSound.verdicts
  · simpa only [outcome_modifyAccel, besides.cache] using alike.secondSound.bounded

theorem Alike.withMachine {first second : World Machine} (alike : Alike verifiers first second)
    (machine : Machine) :
    Alike verifiers { first with machine := machine } { second with machine := machine } :=
  ⟨rfl, alike.loaded, alike.accel, alike.firstSound, alike.secondSound⟩

instance alike_hotpathReadBytes (address : BitVec 64) (size : Nat) :
    Respects (Alike verifiers) (hotpathReadBytes context address size) := by
  constructor
  intro first second alike
  simp only [hotpathReadBytes, Attempt.outcome_ofStep, alike.machine, true_and]
  exact alike.withMachine _

instance alike_hotpathReadU32 (address : BitVec 64) :
    Respects (Alike verifiers) (hotpathReadU32 context address) := by
  unfold hotpathReadU32
  infer_instance

instance alike_hotpathReadU8 (address : BitVec 64) :
    Respects (Alike verifiers) (hotpathReadU8 context address) := by
  unfold hotpathReadU8
  infer_instance

instance alike_setV7mState (field : Field) (value : BitVec 32) :
    Respects (Alike verifiers) (act context (.setV7mState field value)) := by
  constructor
  intro first second alike
  simp only [act, Attempt.outcome_ofStep, alike.machine, true_and]
  exact alike.withMachine _

instance alike_writeBytes (address : BitVec 64) (data : List Byte) :
    Respects (Alike verifiers) (act context (.writeBytes address data)) := by
  constructor
  intro first second alike
  simp only [act, Attempt.outcome_ofStep, alike.machine, true_and]
  exact alike.withMachine _

instance alike_update (change : Accel → Accel) [BesidesCache change] :
    Respects (Alike verifiers) (act context (.update change)) :=
  alike_modifyAccel change

theorem respects_getAccel_bind {Result : Type} (rest : Accel → Attempt (World Machine) Result)
    (blind : ∀ accel, rest accel = rest accel.withoutCache)
    [respects : ∀ accel, Respects (Alike verifiers) (rest accel)] :
    Respects (Alike verifiers) (getAccel >>= rest) := by
  constructor
  intro first second alike
  rw [getAccel_bind, getAccel_bind, blind first.accel, blind second.accel, alike.accel]
  exact (respects _).agrees first second alike

instance alike_captureBl2ProfileSample :
    Respects (Alike verifiers) (captureBl2ProfileSample context) := by
  unfold captureBl2ProfileSample
  infer_instance

variable (config : Config)

set_option synthInstance.maxSize 4000

instance alike_recordBl2ProfileSite (pc : BitVec 32) (addr : BitVec 64) :
    Respects (Alike verifiers) (recordBl2ProfileSite context pc addr) := by
  unfold recordBl2ProfileSite
  infer_instance

instance alike_finishBl2RamLoadSnapshot (currImg : Nat) (header : ImageHeader)
    (unsupportedMask : BitVec 32) :
    Respects (Alike verifiers : World Machine → World Machine → Prop)
      (finishBl2RamLoadSnapshot currImg header unsupportedMask) := by
  unfold finishBl2RamLoadSnapshot
  infer_instance

instance alike_captureBl2RamLoadSnapshot :
    Respects (Alike verifiers) (captureBl2RamLoadSnapshot context config) := by
  dsimp only [captureBl2RamLoadSnapshot]
  infer_instance

instance alike_tryBl2LoadProfileAtPc (pc : BitVec 32) :
    Respects (Alike verifiers) (tryBl2LoadProfileAtPc context config pc) := by
  dsimp only [tryBl2LoadProfileAtPc]
  infer_instance

instance alike_tryBl2BootEncCaptureKeyAtPc (pc : BitVec 32) :
    Respects (Alike verifiers) (tryBl2BootEncCaptureKeyAtPc context config pc) := by
  dsimp only [tryBl2BootEncCaptureKeyAtPc]
  infer_instance

instance alike_bl2BootEncKey (encState slot : BitVec 32) :
    Respects (Alike verifiers : World Machine → World Machine → Prop)
      (bl2BootEncKey encState slot) :=
  respects_getAccel_bind _ fun _ => rfl

instance alike_readDecryptCall : Respects (Alike verifiers) (readDecryptCall context) := by
  unfold readDecryptCall
  infer_instance

instance alike_decryptBytes (key : List Byte) (address : BitVec 64) (size : Nat)
    (counter : Cc3xx.Block) (blkOff : Nat) :
    Respects (Alike verifiers) (decryptBytes context key address size counter blkOff) := by
  unfold decryptBytes
  infer_instance

instance alike_decideBl2LoadDecrypt (call : DecryptCall) :
    Respects (Alike verifiers) (decideBl2LoadDecrypt context config call) :=
  respects_getAccel_bind _ fun _ => rfl

instance alike_decideBl2BootEncDecrypt (call : DecryptCall) :
    Respects (Alike verifiers) (decideBl2BootEncDecrypt context config call) := by
  unfold decideBl2BootEncDecrypt
  infer_instance

instance alike_takeBl2LoadDecrypt (pc : BitVec 32) :
    Respects (Alike verifiers) (takeBl2LoadDecrypt context config pc) := by
  unfold takeBl2LoadDecrypt
  infer_instance

instance alike_takeBl2BootEncDecrypt (pc : BitVec 32) :
    Respects (Alike verifiers) (takeBl2BootEncDecrypt context config pc) := by
  unfold takeBl2BootEncDecrypt
  infer_instance

instance alike_loadDecrypt_actions (returnPc : BitVec 32) (decision : LoadDecrypt) :
    Respects (Alike verifiers) (perform (act context) (decision.actions returnPc)) := by
  cases decision with
  | skip image =>
      simp only [LoadDecrypt.actions, perform]
      infer_instance
  | decrypt image decryption =>
      simp only [LoadDecrypt.actions, perform]
      infer_instance

instance alike_encDecrypt_actions (returnPc : BitVec 32) (decision : EncDecrypt) :
    Respects (Alike verifiers) (perform (act context) (decision.actions returnPc)) := by
  cases decision with
  | finish =>
      simp only [EncDecrypt.actions, perform]
      infer_instance
  | decrypt decryption =>
      simp only [EncDecrypt.actions, perform]
      infer_instance

instance alike_tryBl2LoadDecrypt (pc : BitVec 32) :
    Respects (Alike verifiers) (tryBl2LoadDecryptAccelAtPc context config pc) := by
  simp only [tryBl2LoadDecryptAccelAtPc, handle, prepareBl2LoadDecrypt, bind_assoc, pure_bind]
  infer_instance

instance alike_tryBl2BootEncDecrypt (pc : BitVec 32) :
    Respects (Alike verifiers) (tryBl2BootEncDecryptAccelAtPc context config pc) := by
  simp only [tryBl2BootEncDecryptAccelAtPc, handle, prepareBl2BootEncDecrypt, bind_assoc,
    pure_bind]
  infer_instance

instance alike_tryBl2Delay (pc : BitVec 32) :
    Respects (Alike verifiers) (tryBl2DelayAccelAtPc context config pc) := by
  simp only [tryBl2DelayAccelAtPc, handle, prepareBl2Delay, bind_assoc, pure_bind, perform]
  infer_instance

instance alike_returnWith (returnPc value : BitVec 32) :
    Respects (Alike verifiers)
      (perform (act context) [.setV7mState .r0 value, .setV7mState .pc returnPc]) := by
  simp only [perform]
  infer_instance

instance alike_perform_writeBytes (address : BitVec 64) (data : List Byte) (rest : List Action)
    [Respects (Alike verifiers) (perform (act context) rest)] :
    Respects (Alike verifiers) (perform (act context) (.writeBytes address data :: rest)) := by
  rw [perform]
  infer_instance

instance alike_tryBl2ImgHash (pc : BitVec 32) :
    Respects (Alike verifiers) (tryBl2ImgHashAccelAtPc context config pc) := by
  simp only [tryBl2ImgHashAccelAtPc, handle, prepareBl2ImgHash, bind_assoc, pure_bind]
  infer_instance

instance alike_readLmsInput : Respects (Alike verifiers) (readLmsInput context config) := by
  unfold readLmsInput
  infer_instance

instance alike_tryLms (pc : BitVec 32) :
    Respects (Alike verifiers) (tryLmsAccelAtPc context config verifiers pc) := by
  simp only [tryLmsAccelAtPc, handle, prepareLms, bind_assoc, pure_bind, perform]
  exact respects_getAccel_bind _ fun _ => rfl

instance alike_readBl2VerifySigKey (keyId : BitVec 32) :
    Respects (Alike verifiers) (readBl2VerifySigKey context config keyId) := by
  dsimp only [readBl2VerifySigKey]
  infer_instance

instance alike_checkBl2VerifySigKeyId (keyId : BitVec 32) :
    Respects (Alike verifiers) (checkBl2VerifySigKeyId context config keyId) := by
  dsimp only [checkBl2VerifySigKeyId]
  infer_instance

instance alike_readBl2VerifySigInput :
    Respects (Alike verifiers) (readBl2VerifySigInput context config) := by
  unfold readBl2VerifySigInput
  infer_instance

/-- The verdict on a signature, and what the cache becomes by it. -/
def takeVerdict (verifiers : Verifiers) (input : Bl2VerifySigInput) :
    Attempt (World Machine) Bool := do
  let accel ← getAccel
  let verdict := verifySigCached verifiers input.publicKey input.hash input.signature accel
  modifyAccel fun _ => verdict.2
  return verdict.1

theorem outcome_takeVerdict (input : Bl2VerifySigInput) {world : World Machine}
    (sound : world.accel.CacheSound verifiers) :
    ((takeVerdict verifiers input).outcome world).1 =
      some (verifiers.p256Verify input.publicKey input.hash input.signature) := by
  rw [takeVerdict, getAccel_bind, ← (sound.verifySigCached _ _ _).1]
  rfl

instance alike_takeVerdict (input : Bl2VerifySigInput) :
    Respects (Alike verifiers : World Machine → World Machine → Prop)
      (takeVerdict verifiers input) := by
  constructor
  intro first second alike
  obtain ⟨-, firstOthers, firstSound⟩ := alike.firstSound.verifySigCached input.publicKey
    input.hash input.signature
  obtain ⟨-, secondOthers, secondSound⟩ := alike.secondSound.verifySigCached input.publicKey
    input.hash input.signature
  refine ⟨?_, alike.machine, alike.loaded, ?_, firstSound, secondSound⟩
  · rw [outcome_takeVerdict input alike.firstSound, outcome_takeVerdict input alike.secondSound]
  · exact firstOthers.trans (alike.accel.trans secondOthers.symm)

/-- What the handler of signatures does once it has a verdict. -/
def resumeVerified (verdict : Bool) : Attempt (World Machine) Unit := do
  guard (verdict ∧ config.bl2VerifySigSkip)
  let fihSuccessAddr : BitVec 32 := config.bl2FihSuccessAddr.setWidth 32
  guard (fihSuccessAddr ≠ 0)
  let fihSuccess ← hotpathReadU32 context (fihSuccessAddr.setWidth 64)
  let returnPc ← getV7mState context .lr
  perform (act context) [.setV7mState .r0 fihSuccess, .setV7mState .pc returnPc]

instance alike_resumeVerified (verdict : Bool) :
    Respects (Alike verifiers) (resumeVerified context config verdict) := by
  simp only [resumeVerified, perform]
  infer_instance

theorem tryBl2VerifySig_eq (pc : BitVec 32) :
    tryBl2VerifySigAccelAtPc context config verifiers pc = (do
      guard config.bl2VerifySigAccel
      guard (AtEntry config.bl2BootutilVerifySigAddr pc)
      let input ← readBl2VerifySigInput context config
      let verdict ← takeVerdict verifiers input
      resumeVerified context config verdict) := by
  simp only [tryBl2VerifySigAccelAtPc, handle, prepareBl2VerifySig, takeVerdict, resumeVerified,
    bind_assoc, pure_bind]

instance alike_tryBl2VerifySig (pc : BitVec 32) :
    Respects (Alike verifiers) (tryBl2VerifySigAccelAtPc context config verifiers pc) := by
  rw [tryBl2VerifySig_eq]
  infer_instance

end Steps

section Handled

set_option synthInstance.maxSize 4000

variable {Machine : Type} {context : Context Machine} {config : Config} {verifiers : Verifiers}
  {world next : World Machine}

theorem act_setV7mState_eq_some {field : Field} {value : BitVec 32}
    (acted : (act context (.setV7mState field value)).outcome world = (some (), next)) :
    next.guest context = (world.guest context).setRegister field value := by
  have guest := context.guest_setV7mState world.machine field value
  simp only [act, Attempt.outcome_ofStep, Prod.mk.injEq] at acted
  obtain ⟨accepted, rfl⟩ := acted
  split at accepted
  · rename_i holds
    rwa [if_pos holds] at guest
  · cases accepted

/-- The routine has returned with a value. -/
def World.ReturnedWith (context : Context Machine) (world next : World Machine)
    (value : BitVec 32) : Prop :=
  (next.guest context).register .r0 = value ∧
    (next.guest context).register .pc = (world.guest context).register .lr

theorem returnedWith_of_perform {value : BitVec 32} {middle : World Machine}
    (kept : middle.guest context = world.guest context)
    (performed : (perform (act context) [.setV7mState .r0 value,
      .setV7mState .pc ((middle.guest context).register .lr)]).outcome middle = (some (), next)) :
    World.ReturnedWith context world next value := by
  simp only [perform] at performed
  obtain ⟨⟨⟩, between, first, performed⟩ := outcome_bind_eq_some.mp performed
  obtain ⟨⟨⟩, last, second, ended⟩ := outcome_bind_eq_some.mp performed
  cases ended
  rw [World.ReturnedWith, act_setV7mState_eq_some second, act_setV7mState_eq_some first, kept]
  exact ⟨by simp [Guest.setRegister], Guest.setRegister_same _ _ _⟩

instance readBl2VerifySigKey_keeps_accel (keyId : BitVec 32) :
    Attempt.Keeps World.accel (readBl2VerifySigKey context config keyId) := by
  dsimp only [readBl2VerifySigKey]
  infer_instance

instance checkBl2VerifySigKeyId_keeps_accel (keyId : BitVec 32) :
    Attempt.Keeps World.accel (checkBl2VerifySigKeyId context config keyId) := by
  dsimp only [checkBl2VerifySigKeyId]
  infer_instance

instance readBl2VerifySigInput_keeps_accel :
    Attempt.Keeps World.accel (readBl2VerifySigInput context config) := by
  unfold readBl2VerifySigInput
  infer_instance

theorem tryBl2VerifySig_verified {pc : BitVec 32} (sound : world.accel.CacheSound verifiers)
    (handled : (tryBl2VerifySigAccelAtPc context config verifiers pc).outcome world =
      (some (), next)) :
    ∃ input read, (readBl2VerifySigInput context config).outcome world = (some input, read) ∧
      verifiers.p256Verify input.publicKey input.hash input.signature = true ∧
      World.ReturnedWith context world next ((world.guest context).readU32
        ((config.bl2FihSuccessAddr.setWidth 32 : BitVec 32).setWidth 64)) := by
  have keptGuest := (keeps_readBl2VerifySigInput context config).unchanged world
  have keptAccel : ((readBl2VerifySigInput context config).outcome world).2.accel = world.accel :=
    readBl2VerifySigInput_keeps_accel.unchanged world
  simp only [tryBl2VerifySig_eq, outcome_guard_bind_eq_some] at handled
  obtain ⟨-, -, handled⟩ := handled
  obtain ⟨input, read, taken, handled⟩ := outcome_bind_eq_some.mp handled
  obtain ⟨verdict, judged, verdictTaken, handled⟩ := outcome_bind_eq_some.mp handled
  rw [taken] at keptGuest keptAccel
  have isVerdict := outcome_takeVerdict input (keptAccel ▸ sound : read.accel.CacheSound verifiers)
  rw [verdictTaken] at isVerdict
  cases isVerdict
  have judgedGuest : judged.guest context = read.guest context := by
    rw [takeVerdict, getAccel_bind] at verdictTaken
    rw [← (Prod.mk.inj verdictTaken).2]
    rfl
  simp only [resumeVerified, outcome_guard_bind_eq_some] at handled
  obtain ⟨⟨verified, -⟩, -, handled⟩ := handled
  obtain ⟨fihSuccess, after, loaded, handled⟩ := outcome_bind_eq_some.mp handled
  obtain ⟨isLoaded, keptAfter, -⟩ := hotpathReadU32_eq_some loaded
  have kept : after.guest context = world.guest context :=
    keptAfter.trans (judgedGuest.trans keptGuest)
  rw [judgedGuest, keptGuest] at isLoaded
  refine ⟨input, read, taken, verified, ?_⟩
  rw [getV7mState_bind, isLoaded] at handled
  exact returnedWith_of_perform kept handled

theorem tryLms_verified {pc : BitVec 32}
    (handled : (tryLmsAccelAtPc context config verifiers pc).outcome world = (some (), next)) :
    ∃ input read, (readLmsInput context config).outcome world = (some input, read) ∧
      verifiers.lmsVerify input.key input.data input.sig = true ∧
      World.ReturnedWith context world next fihSuccessValue := by
  have kept := (keeps_readLmsInput context config).unchanged world
  simp only [tryLmsAccelAtPc, handle, prepareLms, bind_assoc, pure_bind, getAccel_bind,
    outcome_guard_bind_eq_some] at handled
  obtain ⟨-, -, handled⟩ := handled
  obtain ⟨input, read, taken, handled⟩ := outcome_bind_eq_some.mp handled
  obtain ⟨verified, handled⟩ := outcome_guard_bind_eq_some.mp handled
  rw [taken] at kept
  rw [getV7mState_bind] at handled
  refine ⟨input, read, taken, verified, ?_⟩
  simp only [perform] at handled
  obtain ⟨⟨⟩, between, first, handled⟩ := outcome_bind_eq_some.mp handled
  obtain ⟨⟨⟩, last, second, handled⟩ := outcome_bind_eq_some.mp handled
  have returned : (perform (act context) [.setV7mState .r0 fihSuccessValue,
      .setV7mState .pc ((read.guest context).register .lr)]).outcome read = (some (), last) := by
    simp only [perform]
    exact (outcome_bind_of_some first _).trans (outcome_bind_of_some second _)
  have reached := returnedWith_of_perform kept returned
  have sameGuest : next.guest context = last.guest context := by
    obtain ⟨⟨⟩, final, finished, ended⟩ := outcome_bind_eq_some.mp handled
    cases ended
    cases finished
    rfl
  rwa [World.ReturnedWith, sameGuest]

end Handled

/-- The functions that `try_rse_pc_entry` calls. -/
inductive Handler
  | loadProfile
  | captureKey
  | delay
  | loadDecrypt
  | encDecrypt
  | imgHash
  | verifySig
  | lms
  deriving DecidableEq

/-- The guest enters a routine, and a handler is tried on the machine as it is then. -/
structure Entry (Machine : Type) where
  handler : Handler
  pc : BitVec 32
  machine : Machine
  loaded : BitVec 32 := 0

section Entries

variable {Machine : Type} (context : Context Machine) (config : Config) (verifiers : Verifiers)

def Handler.attempt (pc : BitVec 32) : Handler → Attempt (World Machine) Unit
  | .loadProfile => tryBl2LoadProfileAtPc context config pc
  | .captureKey => tryBl2BootEncCaptureKeyAtPc context config pc
  | .delay => tryBl2DelayAccelAtPc context config pc
  | .loadDecrypt => tryBl2LoadDecryptAccelAtPc context config pc
  | .encDecrypt => tryBl2BootEncDecryptAccelAtPc context config pc
  | .imgHash => tryBl2ImgHashAccelAtPc context config pc
  | .verifySig => tryBl2VerifySigAccelAtPc context config verifiers pc
  | .lms => tryLmsAccelAtPc context config verifiers pc

def Entry.world (entry : Entry Machine) (accel : Accel) : World Machine :=
  ⟨accel, entry.machine, entry.loaded⟩

def Entry.outcome (entry : Entry Machine) (accel : Accel) : Option Unit × World Machine :=
  (entry.handler.attempt context config verifiers entry.pc).outcome (entry.world accel)

/-- Whether a call goes through and the machine that it leaves, with the cache as it is. -/
def enter (accel : Accel) (entry : Entry Machine) : (Option Unit × Machine) × Accel :=
  (((entry.outcome context config verifiers accel).1,
    (entry.outcome context config verifiers accel).2.machine),
    (entry.outcome context config verifiers accel).2.accel)

/-- The same with a cache that is empty before every call. -/
def enterUncached (accel : Accel) (entry : Entry Machine) : (Option Unit × Machine) × Accel :=
  enter context config verifiers accel.withoutCache entry

/-- The calls of a sequence, one after the other. -/
def afterEntry (accel : Accel) (entry : Entry Machine) : Option Accel :=
  some (enter context config verifiers accel entry).2

/-- A call that lets a signature pass has read one that passes the check. -/
def LetsPassVerified (accel : Accel) (entry : Entry Machine) : Prop :=
  match entry.handler with
  | .verifySig => ∀ next, entry.outcome context config verifiers accel = (some (), next) →
      ∃ input read,
        (readBl2VerifySigInput context config).outcome (entry.world accel) = (some input, read) ∧
        verifiers.p256Verify input.publicKey input.hash input.signature = true ∧
        World.ReturnedWith context (entry.world accel) next
          (((entry.world accel).guest context).readU32
            ((config.bl2FihSuccessAddr.setWidth 32 : BitVec 32).setWidth 64))
  | .lms => ∀ next, entry.outcome context config verifiers accel = (some (), next) →
      ∃ input read, (readLmsInput context config).outcome (entry.world accel) = (some input, read) ∧
        verifiers.lmsVerify input.key input.data input.sig = true ∧
        World.ReturnedWith context (entry.world accel) next fihSuccessValue
  | _ => True

instance alike_attempt (handler : Handler) (pc : BitVec 32) :
    Respects (Alike verifiers) (handler.attempt context config verifiers pc) := by
  cases handler with
  | loadProfile => exact alike_tryBl2LoadProfileAtPc context config pc
  | captureKey => exact alike_tryBl2BootEncCaptureKeyAtPc context config pc
  | delay => exact alike_tryBl2Delay context config pc
  | loadDecrypt => exact alike_tryBl2LoadDecrypt context config pc
  | encDecrypt => exact alike_tryBl2BootEncDecrypt context config pc
  | imgHash => exact alike_tryBl2ImgHash context config pc
  | verifySig => exact alike_tryBl2VerifySig context config pc
  | lms => exact alike_tryLms context config pc

variable {context config verifiers}

theorem alike_enter {first second : Accel} (entry : Entry Machine)
    (others : first.withoutCache = second.withoutCache)
    (firstSound : first.CacheSound verifiers) (secondSound : second.CacheSound verifiers) :
    (enter context config verifiers first entry).1 =
        (enter context config verifiers second entry).1 ∧
      (enter context config verifiers first entry).2.withoutCache =
        (enter context config verifiers second entry).2.withoutCache ∧
      (enter context config verifiers first entry).2.CacheSound verifiers := by
  obtain ⟨sameResult, alike⟩ := (alike_attempt context config verifiers entry.handler
    entry.pc).agrees (entry.world first) (entry.world second)
      ⟨rfl, rfl, others, firstSound, secondSound⟩
  exact ⟨Prod.ext sameResult alike.machine, alike.accel, alike.firstSound⟩

theorem cacheSound_afterEntry {accel next : Accel} {entry : Entry Machine}
    (sound : accel.CacheSound verifiers)
    (stepped : afterEntry context config verifiers accel entry = some next) :
    next.CacheSound verifiers := by
  cases stepped
  exact (alike_enter entry rfl sound sound).2.2

theorem letsPassVerified_of_cacheSound {accel : Accel} (sound : accel.CacheSound verifiers)
    (entry : Entry Machine) : LetsPassVerified context config verifiers accel entry := by
  obtain ⟨handler, pc, machine, loaded⟩ := entry
  cases handler with
  | verifySig => exact fun next handled => tryBl2VerifySig_verified sound handled
  | lms => exact fun next handled => tryLms_verified handled
  | loadProfile => trivial
  | captureKey => trivial
  | delay => trivial
  | loadDecrypt => trivial
  | encDecrypt => trivial
  | imgHash => trivial

/-- The same service with a sound cache and without one. -/
def SameService (verifiers : Verifiers) (uncached cached : Accel) : Prop :=
  cached.withoutCache = uncached.withoutCache ∧ cached.CacheSound verifiers

theorem sameService_enter {uncached cached : Accel} (entry : Entry Machine)
    (same : SameService verifiers uncached cached) :
    (enter context config verifiers cached entry).1 =
        (enterUncached context config verifiers uncached entry).1 ∧
      SameService verifiers (enterUncached context config verifiers uncached entry).2
        (enter context config verifiers cached entry).2 := by
  obtain ⟨others, sound⟩ := same
  obtain ⟨sameReply, sameOthers, stillSound⟩ := alike_enter entry
    (others.trans uncached.withoutCache_withoutCache.symm) sound
    (Accel.cacheSound_withoutCache uncached)
  exact ⟨sameReply, sameOthers, stillSound⟩

/-- Over every sequence of calls, each on a machine of its own: what is let pass passes the check;
all calls end as with a cache that is always empty; and the cache stays small. -/
theorem signatures_sound (entries : List (Entry Machine)) :
    Along (afterEntry context config verifiers) (LetsPassVerified context config verifiers) {}
        entries ∧
      (serve (enter context config verifiers) {} entries).1 =
        (serve (enterUncached context config verifiers) {} entries).1 ∧
      Always (afterEntry context config verifiers)
        (fun accel => accel.verifySigCache.length ≤ maxVerifySigCacheEntries) {} entries := by
  have initially : Accel.CacheSound {} verifiers := Accel.cacheSound_withoutCache {}
  refine ⟨?_, ?_, ?_⟩
  · have everywhere : Along (afterEntry context config verifiers) (fun _ _ => True) {} entries :=
      along_of_forall (fun _ _ _ => trivial) _
    exact along_of_invariant (fun _ _ _ sound _ stepped => cacheSound_afterEntry sound stepped)
      (fun _ entry _ sound _ _ => letsPassVerified_of_cacheSound sound entry) initially everywhere
  · exact (serve_simulates (fun _ _ entry alike => sameService_enter entry alike)
      (⟨rfl, initially⟩ : SameService verifiers {} {}) entries).1
  · exact always_of_invariant (fun _ _ _ sound stepped => cacheSound_afterEntry sound stepped)
      (fun _ sound => sound.bounded) initially

end Entries

end QboxPlatform.RseCpuAccel
