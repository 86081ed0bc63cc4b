import QboxPlatform.RseCpuAccel.Hotpath
import QboxPlatform.RseCpuAccel.PcEntry

/-!
# Falling back to the guest's own code

A handler that declines leaves the call to the guest.  It has then changed nothing that the guest
can see, unless one of its writes was refused after others had gone through.
-/

namespace QboxPlatform.RseCpuAccel

open Foundation
open Foundation.Attempt (Keeps CutShort NoneCutShort OneCutShort firstOf)

section Preparing

variable {Machine : Type} (context : Context Machine) (config : Config) (verifiers : Verifiers)

set_option synthInstance.maxSize 4000

instance keeps_captureBl2ProfileSample :
    Keeps (World.guest context) (captureBl2ProfileSample context) := by
  unfold captureBl2ProfileSample
  infer_instance

instance keeps_recordBl2ProfileSite (pc : BitVec 32) (addr : BitVec 64) :
    Keeps (World.guest context) (recordBl2ProfileSite context pc addr) := by
  unfold recordBl2ProfileSite
  infer_instance

instance keeps_finishBl2RamLoadSnapshot (currImg : Nat) (header : ImageHeader)
    (unsupportedMask : BitVec 32) :
    Keeps (World.guest context) (finishBl2RamLoadSnapshot currImg header unsupportedMask) := by
  unfold finishBl2RamLoadSnapshot
  infer_instance

instance keeps_captureBl2RamLoadSnapshot :
    Keeps (World.guest context) (captureBl2RamLoadSnapshot context config) := by
  dsimp only [captureBl2RamLoadSnapshot]
  infer_instance

instance keeps_tryBl2LoadProfileAtPc (pc : BitVec 32) :
    Keeps (World.guest context) (tryBl2LoadProfileAtPc context config pc) := by
  dsimp only [tryBl2LoadProfileAtPc]
  infer_instance

instance keeps_tryBl2BootEncCaptureKeyAtPc (pc : BitVec 32) :
    Keeps (World.guest context) (tryBl2BootEncCaptureKeyAtPc context config pc) := by
  dsimp only [tryBl2BootEncCaptureKeyAtPc]
  infer_instance

instance keeps_bl2BootEncKey (encState slot : BitVec 32) :
    Keeps (World.guest context) (bl2BootEncKey encState slot) := by
  unfold bl2BootEncKey
  infer_instance

instance keeps_readDecryptCall : Keeps (World.guest context) (readDecryptCall context) := by
  unfold readDecryptCall
  infer_instance

instance keeps_decryptBytes (key : List Byte) (address : BitVec 64) (size : Nat)
    (counter : Cc3xx.Block) (blkOff : Nat) :
    Keeps (World.guest context) (decryptBytes context key address size counter blkOff) := by
  unfold decryptBytes
  infer_instance

instance keeps_decideBl2LoadDecrypt (call : DecryptCall) :
    Keeps (World.guest context) (decideBl2LoadDecrypt context config call) := by
  unfold decideBl2LoadDecrypt
  infer_instance

instance keeps_decideBl2BootEncDecrypt (call : DecryptCall) :
    Keeps (World.guest context) (decideBl2BootEncDecrypt context config call) := by
  unfold decideBl2BootEncDecrypt
  infer_instance

instance keeps_takeBl2LoadDecrypt (pc : BitVec 32) :
    Keeps (World.guest context) (takeBl2LoadDecrypt context config pc) := by
  unfold takeBl2LoadDecrypt
  infer_instance

instance keeps_takeBl2BootEncDecrypt (pc : BitVec 32) :
    Keeps (World.guest context) (takeBl2BootEncDecrypt context config pc) := by
  unfold takeBl2BootEncDecrypt
  infer_instance

instance keeps_prepareBl2LoadDecrypt (pc : BitVec 32) :
    Keeps (World.guest context) (prepareBl2LoadDecrypt context config pc) := by
  unfold prepareBl2LoadDecrypt
  infer_instance

instance keeps_prepareBl2BootEncDecrypt (pc : BitVec 32) :
    Keeps (World.guest context) (prepareBl2BootEncDecrypt context config pc) := by
  unfold prepareBl2BootEncDecrypt
  infer_instance

instance keeps_prepareBl2Delay (pc : BitVec 32) :
    Keeps (World.guest context) (prepareBl2Delay context config pc) := by
  unfold prepareBl2Delay
  infer_instance

instance keeps_prepareBl2ImgHash (pc : BitVec 32) :
    Keeps (World.guest context) (prepareBl2ImgHash context config pc) := by
  dsimp only [prepareBl2ImgHash]
  infer_instance

instance keeps_readBl2VerifySigKey (keyId : BitVec 32) :
    Keeps (World.guest context) (readBl2VerifySigKey context config keyId) := by
  dsimp only [readBl2VerifySigKey]
  infer_instance

instance keeps_checkBl2VerifySigKeyId (keyId : BitVec 32) :
    Keeps (World.guest context) (checkBl2VerifySigKeyId context config keyId) := by
  dsimp only [checkBl2VerifySigKeyId]
  infer_instance

instance keeps_readBl2VerifySigInput :
    Keeps (World.guest context) (readBl2VerifySigInput context config) := by
  unfold readBl2VerifySigInput
  infer_instance

instance keeps_prepareBl2VerifySig (pc : BitVec 32) :
    Keeps (World.guest context) (prepareBl2VerifySig context config verifiers pc) := by
  dsimp only [prepareBl2VerifySig]
  infer_instance

instance keeps_readLmsInput : Keeps (World.guest context) (readLmsInput context config) := by
  unfold readLmsInput
  infer_instance

instance keeps_prepareLms (pc : BitVec 32) :
    Keeps (World.guest context) (prepareLms context config verifiers pc) := by
  unfold prepareLms
  infer_instance

instance keeps_hotpathMemcpy (pc base : BitVec 32) :
    Keeps (World.guest context) (hotpathMemcpy context config pc base) := by
  dsimp only [hotpathMemcpy]
  infer_instance

instance keeps_hotpathMemset (pc base : BitVec 32) :
    Keeps (World.guest context) (hotpathMemset context config pc base) := by
  dsimp only [hotpathMemset]
  infer_instance

end Preparing

section Falling

variable {Machine : Type} (context : Context Machine) (config : Config) (verifiers : Verifiers)

/-- A call that is not handled leaves the registers and the memory of the guest. -/
def FallsBackClean (before : World Machine) (ended : Bool × World Machine) : Prop :=
  ended.1 = false → ended.2.guest context = before.guest context

/-- Capturing the profile and the key changes nothing that the guest can see. -/
theorem captured_guest (pc : BitVec 32) (world : World Machine) :
    (captured context config pc world).guest context = world.guest context := by
  rw [captured, (keeps_tryBl2BootEncCaptureKeyAtPc context config pc).unchanged,
    (keeps_tryBl2LoadProfileAtPc context config pc).unchanged]

theorem rseHandlers_keep (pc : BitVec 32) :
    ∀ prepare ∈ rseHandlers context config verifiers pc, Keeps (World.guest context) prepare := by
  intro prepare member
  simp only [rseHandlers, List.mem_cons, List.not_mem_nil, or_false] at member
  rcases member with rfl | rfl | rfl | rfl | rfl | rfl
  all_goals infer_instance

theorem hotpathHandlers_keep (pc : BitVec 32) :
    ∀ prepare ∈ hotpathHandlers context config pc, Keeps (World.guest context) prepare := by
  intro prepare member
  simp only [hotpathHandlers] at member
  split_ifs at member
  · cases member
  · rw [List.mem_singleton.mp member]
    infer_instance
  · rw [List.mem_singleton.mp member]
    infer_instance
  · cases member

/-- At most one copy routine is tried. -/
theorem hotpathHandlers_cases (pc : BitVec 32) :
    hotpathHandlers context config pc = [] ∨
      ∃ prepare, hotpathHandlers context config pc = [prepare] := by
  simp only [hotpathHandlers]
  split_ifs
  · exact Or.inl rfl
  · exact Or.inr ⟨_, rfl⟩
  · exact Or.inr ⟨_, rfl⟩
  · exact Or.inl rfl

/-- The fallback is clean if no handler is cut short: none has an access refused after others have
changed what the guest can see.  If exactly one handler is, the fallback is clean only when there
is none, because a later handler goes through.  For the copy routines, of which one is tried, the
condition is exact. -/
theorem fallsBackClean (pc : BitVec 32) (world : World Machine) :
    (NoneCutShort (act context) (World.guest context) (rseHandlers context config verifiers pc)
        (captured context config pc world) →
      FallsBackClean context world (tryRsePcEntry context config verifiers pc world)) ∧
    (OneCutShort (act context) (World.guest context) (rseHandlers context config verifiers pc)
        (captured context config pc world) →
      (FallsBackClean context world (tryRsePcEntry context config verifiers pc world) ↔
        (tryRsePcEntry context config verifiers pc world).1 = true)) ∧
    (FallsBackClean context world (tryHotpathAccel context config world) ↔
      NoneCutShort (act context) (World.guest context)
        (hotpathHandlers context config ((context.getPc world.machine).setWidth 32)) world) := by
  have kept := captured_guest context config pc world
  have rseKeep := rseHandlers_keep context config verifiers pc
  have hotpathKeep := hotpathHandlers_keep context config
    ((context.getPc world.machine).setWidth 32)
  refine ⟨?_, ?_, ?_⟩
  · intro noneCut declined
    rw [← kept]
    exact Attempt.firstOf_clean (act_failsClean context) rseKeep noneCut (Prod.ext declined rfl)
  · intro oneCut
    constructor
    · intro clean
      by_contra declined
      have refused := Bool.eq_false_iff.mpr declined
      have same := clean refused
      rw [← kept] at same
      exact Attempt.firstOf_changed (act_failsClean context) rseKeep oneCut
        (Prod.ext refused rfl) same
    · intro handled declined
      rw [handled] at declined
      cases declined
  · rw [tryHotpathAccel, FallsBackClean]
    rcases hotpathHandlers_cases context config ((context.getPc world.machine).setWidth 32) with
      none | ⟨prepare, one⟩
    · rw [none]
      exact iff_of_true (fun _ => rfl) trivial
    · have keeps := hotpathKeep prepare (one ▸ List.mem_singleton_self prepare)
      have single := Attempt.firstOf_single_iff (act_failsClean context) prepare world
      rw [one]
      exact single.trans ⟨fun notCut => ⟨notCut, fun _ _ => trivial⟩, fun noneCut => noneCut.1⟩

/-- The delay loop at its entry, to return to another address. -/
def delaying : Guest where
  register := Function.update (Function.update (fun _ => 0) .r0 5) .lr 0x2000
  memory := fun _ => 0

/-- Checks that reject everything. -/
def rejecting : Verifiers where
  p256Verify := fun _ _ _ => false
  lmsVerify := fun _ _ _ => false

/-- The first write of a register goes through, and the second is refused. -/
theorem not_fallsBackClean_delay :
    ¬ FallsBackClean Context.scripted ⟨{}, (delaying, [true, false]), 0⟩
      (tryRsePcEntry Context.scripted { bl2DelayAccel := true, bl2DelayCyclesAddr := 0x1000 }
        rejecting 0x1000 ⟨{}, (delaying, [true, false]), 0⟩) := by
  intro clean
  have changed := congrArg (fun guest => guest.register .r0) (clean rfl)
  revert changed
  decide

end Falling

end QboxPlatform.RseCpuAccel
