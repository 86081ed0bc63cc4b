import QboxPlatform.RseCpuAccel.Bl2

/-!
# What a call does

The calls of the boot loader's routines as the guest makes them, what the handlers take from the
guest, and what each handler leaves of what the accelerator remembers.
-/

namespace QboxPlatform.RseCpuAccel

open Foundation
open Foundation.Attempt (Keeps handle perform outcome_bind_eq_some outcome_bind_of_some
  outcome_bind_of_none outcome_guard_bind_eq_some outcome_ofOption_bind_eq_some)

/-- The arguments of `boot_enc_decrypt`. -/
def Guest.decryptCall (guest : Guest) : DecryptCall where
  encState := guest.register .r0
  slot := guest.register .r1
  off := guest.register .r2
  size := guest.register .r3
  blkOff := guest.readU32 ((guest.register .sp).setWidth 64)
  buf := guest.readU32 ((guest.register .sp).setWidth 64 + 4)

/-- The image that the boot loader is about to load, from its `boot_loader_state`. -/
def Guest.currImg (config : Config) (guest : Guest) : BitVec 8 :=
  guest.readU8 ((guest.register .r0).setWidth 64 + config.bl2BootStateCurrImgOffset)

def Guest.activeSlot (config : Config) (guest : Guest) : BitVec 32 :=
  guest.readU32 (config.slotUsageAddr (guest.register .r0) (guest.currImg config))

def Guest.loadedHeader (config : Config) (guest : Guest) : ImageHeader :=
  (parseHeader (guest.readBytes (config.hdrAddr (guest.register .r0) (guest.currImg config)
    (guest.activeSlot config)) imageHeaderSize)).2

section Calls

variable {Machine : Type} (context : Context Machine) (config : Config)

/-- The write of a decryption goes through. -/
def Decryption.written (decryption : Decryption) (world : World Machine) : Bool :=
  (context.writeBytes world.machine decryption.address decryption.output).1

/-- The whole image that the load handler decrypts in place. -/
def loadTransforms (pc : BitVec 32) (world : World Machine) :
    Option (DecryptCall × FoundImage × Decryption) :=
  match (takeBl2LoadDecrypt context config pc).outcome world with
  | (some (call, .decrypt image decryption), next) =>
      if decryption.written context next then some (call, image, decryption) else none
  | _ => none

/-- The image that the load handler takes to be decrypted already. -/
def loadSkips (pc : BitVec 32) (world : World Machine) : Option (DecryptCall × FoundImage) :=
  match (takeBl2LoadDecrypt context config pc).outcome world with
  | (some (call, .skip image), next) =>
      if (context.setV7mState next.machine .pc ((next.guest context).register .lr)).1 then
        some (call, image)
      else none
  | _ => none

/-- The chunk that the chunk handler decrypts in place. -/
def encTransforms (pc : BitVec 32) (world : World Machine) : Option (DecryptCall × Decryption) :=
  match (takeBl2BootEncDecrypt context config pc).outcome world with
  | (some (call, .decrypt decryption), next) =>
      if decryption.written context next then some (call, decryption) else none
  | _ => none

instance readDecryptCall_keeps_accel : Keeps World.accel (readDecryptCall context) := by
  unfold readDecryptCall
  infer_instance

instance bl2BootEncKey_keeps_accel (encState slot : BitVec 32) :
    Keeps World.accel (bl2BootEncKey encState slot : Attempt (World Machine) (List Byte)) := by
  unfold bl2BootEncKey
  infer_instance

instance decryptBytes_keeps_accel (key : List Byte) (address : BitVec 64) (size : Nat)
    (counter : Cc3xx.Block) (blkOff : Nat) :
    Keeps World.accel (decryptBytes context key address size counter blkOff) := by
  unfold decryptBytes
  infer_instance

instance decideBl2LoadDecrypt_keeps_accel (call : DecryptCall) :
    Keeps World.accel (decideBl2LoadDecrypt context config call) := by
  unfold decideBl2LoadDecrypt
  infer_instance

instance decideBl2BootEncDecrypt_keeps_accel (call : DecryptCall) :
    Keeps World.accel (decideBl2BootEncDecrypt context config call) := by
  unfold decideBl2BootEncDecrypt
  infer_instance

instance takeBl2LoadDecrypt_keeps_accel (pc : BitVec 32) :
    Keeps World.accel (takeBl2LoadDecrypt context config pc) := by
  unfold takeBl2LoadDecrypt
  infer_instance

instance takeBl2BootEncDecrypt_keeps_accel (pc : BitVec 32) :
    Keeps World.accel (takeBl2BootEncDecrypt context config pc) := by
  unfold takeBl2BootEncDecrypt
  infer_instance

section Takes

variable {context config} {pc : BitVec 32} {world next : World Machine}

theorem readDecryptCall_eq_some {call : DecryptCall}
    (read : (readDecryptCall context).outcome world = (some call, next)) :
    call = (world.guest context).decryptCall ∧ next.guest context = world.guest context ∧
      next.accel = world.accel := by
  simp only [readDecryptCall, getV7mState_bind] at read
  obtain ⟨blkOff, middle, readBlkOff, read⟩ := outcome_bind_eq_some.mp read
  obtain ⟨buf, after, readBuf, rest⟩ := outcome_bind_eq_some.mp read
  obtain ⟨rfl, guestKept, accelKept⟩ := hotpathReadU32_eq_some readBlkOff
  obtain ⟨rfl, guestStill, accelStill⟩ := hotpathReadU32_eq_some readBuf
  cases rest
  rw [guestKept] at guestStill ⊢
  exact ⟨rfl, guestStill, accelStill.trans accelKept⟩

theorem bl2BootEncKey_eq_some {encState slot : BitVec 32} {key : List Byte}
    (found : (bl2BootEncKey encState slot).outcome world = (some key, next)) :
    world.accel.bootEncKeys (bl2BootEncCacheKey encState slot) = some key ∧ next = world := by
  simp only [bl2BootEncKey, getAccel_bind] at found
  obtain ⟨stored, isStored, found⟩ := outcome_ofOption_bind_eq_some.mp found
  obtain ⟨-, rest⟩ := outcome_guard_bind_eq_some.mp found
  cases rest
  exact ⟨isStored, rfl⟩

theorem decryptBytes_eq_some {key : List Byte} {address : BitVec 64} {size : Nat}
    {counter : Cc3xx.Block} {blkOff : Nat} {decryption : Decryption}
    (decrypted : (decryptBytes context key address size counter blkOff).outcome world =
      (some decryption, next)) :
    decryption.key = key ∧ decryption.address = address := by
  obtain ⟨input, middle, -, decrypted⟩ := outcome_bind_eq_some.mp decrypted
  obtain ⟨output, -, rest⟩ := outcome_ofOption_bind_eq_some.mp decrypted
  cases rest
  exact ⟨rfl, rfl⟩

theorem decided_call_eq_some {Decision : Type}
    {decide : DecryptCall → Attempt (World Machine) Decision} {call : DecryptCall}
    {decision : Decision}
    (taken : (readDecryptCall context >>= fun read => decide read >>= fun decided =>
      pure (read, decided)).outcome world = (some (call, decision), next)) :
    call = (world.guest context).decryptCall ∧
      ∃ middle, middle.accel = world.accel ∧
        (decide call).outcome middle = (some decision, next) := by
  obtain ⟨read, middle, readCall, taken⟩ := outcome_bind_eq_some.mp taken
  obtain ⟨decided, after, deciding, rest⟩ := outcome_bind_eq_some.mp taken
  obtain ⟨rfl, -, accelKept⟩ := readDecryptCall_eq_some readCall
  cases rest
  exact ⟨rfl, middle, accelKept, deciding⟩

/-- A call that the load handler takes is for an image whose snapshot fits, and it is skipped
exactly if that image is marked. -/
theorem takeBl2LoadDecrypt_eq_some {call : DecryptCall} {decision : LoadDecrypt}
    (taken : (takeBl2LoadDecrypt context config pc).outcome world =
      (some (call, decision), next)) :
    call = (world.guest context).decryptCall ∧
    ∃ image, loadDecryptImage config world.accel call = some image ∧
      ((world.accel.imageDecrypted image.currImg = true ∧ decision = .skip image) ∨
        (world.accel.imageDecrypted image.currImg = false ∧ call.off = 0 ∧
          ∃ decryption, decision = .decrypt image decryption ∧
            world.accel.bootEncKeys (bl2BootEncCacheKey call.encState call.slot) =
              some decryption.key)) := by
  simp only [takeBl2LoadDecrypt, outcome_guard_bind_eq_some] at taken
  obtain ⟨-, -, taken⟩ := taken
  obtain ⟨rfl, middle, accelKept, deciding⟩ := decided_call_eq_some taken
  refine ⟨rfl, ?_⟩
  simp only [decideBl2LoadDecrypt, getAccel_bind, accelKept] at deciding
  obtain ⟨image, found, deciding⟩ := outcome_ofOption_bind_eq_some.mp deciding
  refine ⟨image, found, ?_⟩
  by_cases marked : world.accel.imageDecrypted image.currImg = true
  · rw [if_pos marked] at deciding
    cases deciding
    exact Or.inl ⟨marked, rfl⟩
  · rw [if_neg marked] at deciding
    obtain ⟨start, deciding⟩ := outcome_guard_bind_eq_some.mp deciding
    obtain ⟨key, keyed, foundKey, deciding⟩ := outcome_bind_eq_some.mp deciding
    obtain ⟨decryption, last, decrypted, rest⟩ := outcome_bind_eq_some.mp deciding
    obtain ⟨stored, rfl⟩ := bl2BootEncKey_eq_some foundKey
    cases rest
    rw [accelKept] at stored
    refine Or.inr ⟨Bool.eq_false_iff.mpr marked, start.1, decryption, rfl, ?_⟩
    rw [stored, (decryptBytes_eq_some decrypted).1]

theorem takeBl2BootEncDecrypt_eq_some {call : DecryptCall} {decryption : Decryption}
    (taken : (takeBl2BootEncDecrypt context config pc).outcome world =
      (some (call, .decrypt decryption), next)) :
    call = (world.guest context).decryptCall ∧
      world.accel.bootEncKeys (bl2BootEncCacheKey call.encState call.slot) =
        some decryption.key := by
  simp only [takeBl2BootEncDecrypt, outcome_guard_bind_eq_some] at taken
  obtain ⟨-, -, taken⟩ := taken
  obtain ⟨rfl, middle, accelKept, deciding⟩ := decided_call_eq_some taken
  refine ⟨rfl, ?_⟩
  rw [decideBl2BootEncDecrypt, outcome_guard_bind_eq_some] at deciding
  obtain ⟨-, deciding⟩ := deciding
  split at deciding
  · cases deciding
  · obtain ⟨key, keyed, foundKey, deciding⟩ := outcome_bind_eq_some.mp deciding
    obtain ⟨other, last, decrypted, rest⟩ := outcome_bind_eq_some.mp deciding
    obtain ⟨stored, rfl⟩ := bl2BootEncKey_eq_some foundKey
    cases rest
    rw [accelKept] at stored
    rw [stored, (decryptBytes_eq_some decrypted).1]

/-- What a capture may end in: a read fails, or a snapshot is recorded; a supported one is that of
the image that the boot loader loads. -/
inductive CaptureEnds (context : Context Machine) (config : Config) (world : World Machine) :
    Option Bool × World Machine → Prop
  | stopped {next : World Machine} (same : next.accel = world.accel) :
      CaptureEnds context config world (none, next)
  | unsupported {next : World Machine} (currImg : Nat) (header : ImageHeader)
      (mask : BitVec 32) (flagged : mask ≠ 0)
      (recorded : next.accel = recordBl2RamLoadSnapshot currImg header mask world.accel) :
      CaptureEnds context config world (some false, next)
  | supported {next : World Machine}
      (inside : ((world.guest context).currImg config).toNat < config.bl2BootImageCount.toNat)
      (few : config.bl2BootImageCount.toNat ≤ bl2RamLoadSnapshotImageSlots)
      (recorded : next.accel =
        accountBl2RamLoadSnapshot ((world.guest context).currImg config).toNat 0
          (recordBl2RamLoadSnapshot ((world.guest context).currImg config).toNat
            ((world.guest context).loadedHeader config) 0 world.accel)) :
      CaptureEnds context config world (some true, next)

theorem captureEnds_unsupported {reached : World Machine} (same : reached.accel = world.accel)
    (currImg : Nat) (header : ImageHeader) {mask : BitVec 32} (flagged : mask ≠ 0) :
    CaptureEnds context config world
      ((finishBl2RamLoadSnapshot currImg header mask).outcome reached) := by
  have ended : (finishBl2RamLoadSnapshot currImg header mask).outcome reached =
      (some false, { reached with
        accel := recordBl2RamLoadSnapshot currImg header mask reached.accel }) := by
    change (some (decide (mask = 0)), { reached with
      accel := accountBl2RamLoadSnapshot currImg mask
        (recordBl2RamLoadSnapshot currImg header mask reached.accel) }) = _
    rw [accountBl2RamLoadSnapshot, if_neg fun supported => flagged supported.1,
      decide_eq_false flagged]
  rw [ended]
  exact .unsupported currImg header mask flagged (by rw [same])

theorem captureEnds_read {Result : Type} {read : Attempt (World Machine) Result}
    {rest : Result → Attempt (World Machine) Bool} (value : Guest → Result)
    {reached : World Machine} [keepsAccel : Keeps World.accel read]
    (exact : ∀ result after, read.outcome reached = (some result, after) →
      result = value (reached.guest context) ∧ after.guest context = reached.guest context ∧
        after.accel = reached.accel)
    (sameGuest : reached.guest context = world.guest context)
    (sameAccel : reached.accel = world.accel)
    (onwards : ∀ after, after.guest context = world.guest context →
      after.accel = world.accel →
      CaptureEnds context config world ((rest (value (world.guest context))).outcome after)) :
    CaptureEnds context config world ((read >>= rest).outcome reached) := by
  have kept := keepsAccel.unchanged reached
  rcases ended : read.outcome reached with ⟨_ | result, after⟩
  · rw [ended] at kept
    rw [outcome_bind_of_none ended]
    exact .stopped (kept.trans sameAccel)
  · obtain ⟨rfl, guestKept, accelKept⟩ := exact result after ended
    rw [outcome_bind_of_some ended, sameGuest]
    exact onwards after (guestKept.trans sameGuest) (accelKept.trans sameAccel)

theorem captureBl2RamLoadSnapshot_ends (world : World Machine) :
    CaptureEnds context config world
      ((captureBl2RamLoadSnapshot context config).outcome world) := by
  rw [captureBl2RamLoadSnapshot, getV7mState_bind]
  dsimp only
  split
  · rename_i flagged
    exact captureEnds_unsupported rfl 0 {} flagged
  rename_i unflagged
  have few : config.bl2BootImageCount.toNat ≤ bl2RamLoadSnapshotImageSlots := by
    by_contra many
    apply unflagged
    have above : 64 < config.bl2BootImageCount := by
      rw [bl2RamLoadSnapshotImageSlots] at many
      bv_omega
    intro clear
    have bit := (BitVec.or_eq_zero_iff.mp clear).2
    rw [flagIf, if_pos (Or.inr above)] at bit
    revert bit
    decide
  refine captureEnds_read (fun guest => guest.readU8 _) (fun _ _ => hotpathReadU8_eq_some) rfl rfl
    fun first guestFirst accelFirst => ?_
  split
  · exact captureEnds_unsupported accelFirst _ _ (by decide)
  rename_i inside
  refine captureEnds_read (fun guest => guest.readU32 _) (fun _ _ => hotpathReadU32_eq_some)
    guestFirst accelFirst fun second guestSecond accelSecond => ?_
  split
  · exact captureEnds_unsupported accelSecond _ _ (by decide)
  refine captureEnds_read (fun guest => guest.readBytes _ _) (fun _ _ => hotpathReadBytes_eq_some)
    guestSecond accelSecond fun third guestThird accelThird => ?_
  split
  · exact captureEnds_unsupported accelThird _ _ (by decide)
  split
  · exact captureEnds_unsupported accelThird _ _ (by decide)
  refine captureEnds_read (fun guest => guest.readU32 _) (fun _ _ => hotpathReadU32_eq_some)
    guestThird accelThird fun fourth guestFourth accelFourth => ?_
  refine captureEnds_read (fun guest => guest.readU32 _) (fun _ _ => hotpathReadU32_eq_some)
    guestFourth accelFourth fun fifth guestFifth accelFifth => ?_
  refine .supported ?_ few ?_
  · have below := BitVec.not_le.mp inside
    rw [BitVec.lt_def, BitVec.toNat_setWidth_of_le (by decide)] at below
    exact below
  · rw [← accelFifth]
    rfl

theorem takeBl2BootEncDecrypt_of_reads {call : DecryptCall} {middle : World Machine}
    {key input output : List Byte} (enabled : config.bl2BootEncAccel = true)
    (entered : AtEntry config.bl2BootEncDecryptAddr pc)
    (readCall : (readDecryptCall context).outcome world = (some call, middle))
    (supported : call.Supported config) (nonempty : call.size ≠ 0)
    (stored : middle.accel.bootEncKeys (bl2BootEncCacheKey call.encState call.slot) = some key)
    (valid : bl2BootEncValidKeySize key.length)
    (readInput : (hotpathReadBytes context (call.buf.setWidth 64) call.size.toNat).outcome middle =
      (some input, next))
    (crypts : Cc3xx.aesCtrXcryptBuffer key (chunkCounter call.off) input call.blkOff.toNat =
      some output) :
    (takeBl2BootEncDecrypt context config pc).outcome world =
      (some (call, .decrypt ⟨key, call.buf.setWidth 64, output⟩), next) := by
  have keyed : (bl2BootEncKey call.encState call.slot).outcome middle = (some key, middle) := by
    rw [bl2BootEncKey, getAccel_bind]
    refine outcome_ofOption_bind_eq_some.mpr ⟨key, stored, ?_⟩
    exact outcome_guard_bind_eq_some.mpr ⟨valid, rfl⟩
  have decrypted : (decryptBytes context key (call.buf.setWidth 64) call.size.toNat
      (chunkCounter call.off) call.blkOff.toNat).outcome middle =
      (some ⟨key, call.buf.setWidth 64, output⟩, next) := by
    rw [decryptBytes, outcome_bind_of_some readInput]
    exact outcome_ofOption_bind_eq_some.mpr ⟨output, crypts, rfl⟩
  have decided : (decideBl2BootEncDecrypt context config call).outcome middle =
      (some (.decrypt ⟨key, call.buf.setWidth 64, output⟩), next) := by
    refine outcome_guard_bind_eq_some.mpr ⟨supported, ?_⟩
    rw [if_neg nonempty, outcome_bind_of_some keyed, outcome_bind_of_some decrypted]
    rfl
  simp only [takeBl2BootEncDecrypt, outcome_guard_bind_eq_some]
  refine ⟨enabled, entered, ?_⟩
  rw [outcome_bind_of_some readCall, outcome_bind_of_some decided]
  rfl

theorem takeBl2LoadDecrypt_of_reads {call : DecryptCall} {middle : World Machine}
    {image : FoundImage} {key input output : List Byte} (enabled : config.bl2LoadAccel = true)
    (entered : AtEntry config.bl2BootEncDecryptAddr pc)
    (readCall : (readDecryptCall context).outcome world = (some call, middle))
    (found : loadDecryptImage config middle.accel call = some image)
    (fresh : middle.accel.imageDecrypted image.currImg = false)
    (start : call.off = 0 ∧ call.blkOff = 0)
    (stored : middle.accel.bootEncKeys (bl2BootEncCacheKey call.encState call.slot) = some key)
    (valid : bl2BootEncValidKeySize key.length)
    (readInput : (hotpathReadBytes context (image.loadAddr.setWidth 64 + image.hdrSize.setWidth 64)
      image.imgSize.toNat).outcome middle = (some input, next))
    (crypts : Cc3xx.aesCtrXcryptBuffer key .zero input 0 = some output) :
    (takeBl2LoadDecrypt context config pc).outcome world =
      (some (call, .decrypt image
        ⟨key, image.loadAddr.setWidth 64 + image.hdrSize.setWidth 64, output⟩), next) := by
  have keyed : (bl2BootEncKey call.encState call.slot).outcome middle = (some key, middle) := by
    rw [bl2BootEncKey, getAccel_bind]
    refine outcome_ofOption_bind_eq_some.mpr ⟨key, stored, ?_⟩
    exact outcome_guard_bind_eq_some.mpr ⟨valid, rfl⟩
  have decrypted : (decryptBytes context key
      (image.loadAddr.setWidth 64 + image.hdrSize.setWidth 64) image.imgSize.toNat .zero
      0).outcome middle =
      (some ⟨key, image.loadAddr.setWidth 64 + image.hdrSize.setWidth 64, output⟩, next) := by
    rw [decryptBytes, outcome_bind_of_some readInput]
    exact outcome_ofOption_bind_eq_some.mpr ⟨output, crypts, rfl⟩
  have decided : (decideBl2LoadDecrypt context config call).outcome middle =
      (some (.decrypt image
        ⟨key, image.loadAddr.setWidth 64 + image.hdrSize.setWidth 64, output⟩), next) := by
    rw [decideBl2LoadDecrypt, getAccel_bind]
    refine outcome_ofOption_bind_eq_some.mpr ⟨image, found, ?_⟩
    rw [if_neg (Bool.eq_false_iff.mp fresh)]
    refine outcome_guard_bind_eq_some.mpr ⟨start, ?_⟩
    rw [outcome_bind_of_some keyed, outcome_bind_of_some decrypted]
    rfl
  simp only [takeBl2LoadDecrypt, outcome_guard_bind_eq_some]
  refine ⟨enabled, entered, ?_⟩
  rw [outcome_bind_of_some readCall, outcome_bind_of_some decided]
  rfl

end Takes

/-- What the calls of the boot loader leave, each at its own entry. -/
def Accel.afterSetKey (accel : Accel) (machine : Machine) : Accel :=
  ((tryBl2BootEncCaptureKeyAtPc context config (entryOf config.bl2BootEncSetKeyAddr)).outcome
    ⟨accel, machine, 0⟩).2.accel

def Accel.afterLoad (accel : Accel) (machine : Machine) : Accel :=
  ((captureBl2RamLoadSnapshot context config).outcome ⟨accel, machine, 0⟩).2.accel

def Accel.afterLoadDecrypt (accel : Accel) (machine : Machine) : Accel :=
  ((tryBl2LoadDecryptAccelAtPc context config (entryOf config.bl2BootEncDecryptAddr)).outcome
    ⟨accel, machine, 0⟩).2.accel

def Accel.afterEncDecrypt (accel : Accel) (machine : Machine) : Accel :=
  ((tryBl2BootEncDecryptAccelAtPc context config (entryOf config.bl2BootEncDecryptAddr)).outcome
    ⟨accel, machine, 0⟩).2.accel

section Afterwards

variable {context config} {pc : BitVec 32} {world next : World Machine}

theorem prepareBl2LoadDecrypt_of_taken {call : DecryptCall} {decision : LoadDecrypt}
    (taken : (takeBl2LoadDecrypt context config pc).outcome world =
      (some (call, decision), next)) :
    (prepareBl2LoadDecrypt context config pc).outcome world =
      (some (decision.actions ((next.guest context).register .lr)), next) := by
  rw [prepareBl2LoadDecrypt, outcome_bind_of_some taken]
  rfl

theorem prepareBl2BootEncDecrypt_of_taken {call : DecryptCall} {decision : EncDecrypt}
    (taken : (takeBl2BootEncDecrypt context config pc).outcome world =
      (some (call, decision), next)) :
    (prepareBl2BootEncDecrypt context config pc).outcome world =
      (some (decision.actions ((next.guest context).register .lr)), next) := by
  rw [prepareBl2BootEncDecrypt, outcome_bind_of_some taken]
  rfl

theorem act_writeBytes_of_true {address : BitVec 64} {data : List Byte}
    (accepted : (context.writeBytes world.machine address data).1 = true) :
    (act context (.writeBytes address data)).outcome world =
      (some (), { world with machine := (context.writeBytes world.machine address data).2 }) := by
  rw [act, Attempt.outcome_ofStep, if_pos accepted]

theorem act_writeBytes_of_false {address : BitVec 64} {data : List Byte}
    (refused : (context.writeBytes world.machine address data).1 = false) :
    (act context (.writeBytes address data)).outcome world =
      (none, { world with machine := (context.writeBytes world.machine address data).2 }) := by
  rw [act, Attempt.outcome_ofStep, if_neg (Bool.eq_false_iff.mp refused)]

instance act_setV7mState_keeps_accel (field : Field) (value : BitVec 32) :
    Keeps World.accel (act context (.setV7mState field value)) :=
  ⟨fun _ => rfl⟩

instance act_writeBytes_keeps_accel (address : BitVec 64) (data : List Byte) :
    Keeps World.accel (act context (.writeBytes address data)) :=
  ⟨fun _ => rfl⟩

instance perform_setV7mState_keeps_accel (field : Field) (value : BitVec 32) :
    Keeps World.accel (perform (act context) [.setV7mState field value]) := by
  simp only [perform]
  infer_instance

theorem tryBl2LoadDecrypt_accel_of_transforms {call : DecryptCall} {image : FoundImage}
    {decryption : Decryption}
    (transforms : loadTransforms context config pc world = some (call, image, decryption)) :
    ((tryBl2LoadDecryptAccelAtPc context config pc).outcome world).2.accel =
      markDecrypted image.currImg world.accel := by
  have kept := (takeBl2LoadDecrypt_keeps_accel context config pc).unchanged world
  rw [loadTransforms] at transforms
  split at transforms
  · rename_i taken other decided next took
    split at transforms
    · rename_i accepted
      cases transforms
      rw [took] at kept
      rw [tryBl2LoadDecryptAccelAtPc, handle,
        outcome_bind_of_some (prepareBl2LoadDecrypt_of_taken took), LoadDecrypt.actions, perform,
        outcome_bind_of_some (act_writeBytes_of_true accepted), perform]
      refine ((perform_setV7mState_keeps_accel _ _).unchanged _).trans ?_
      exact congrArg (markDecrypted _) kept
    · cases transforms
  · cases transforms

theorem tryBl2LoadDecrypt_accel_of_none
    (idle : loadTransforms context config pc world = none) :
    ((tryBl2LoadDecryptAccelAtPc context config pc).outcome world).2.accel = world.accel := by
  have kept := (takeBl2LoadDecrypt_keeps_accel context config pc).unchanged world
  rw [tryBl2LoadDecryptAccelAtPc, handle]
  rcases took : (takeBl2LoadDecrypt context config pc).outcome world with
    ⟨_ | ⟨call, decision⟩, next⟩
  · rw [took] at kept
    rw [outcome_bind_of_none (by rw [prepareBl2LoadDecrypt, outcome_bind_of_none took])]
    exact kept
  · rw [took] at kept
    rw [outcome_bind_of_some (prepareBl2LoadDecrypt_of_taken took)]
    cases decision with
    | skip image => exact ((perform_setV7mState_keeps_accel _ _).unchanged _).trans kept
    | decrypt image decryption =>
        rw [loadTransforms, took] at idle
        have refused : decryption.written context next = false := by
          by_contra accepted
          simp [accepted] at idle
        rw [LoadDecrypt.actions, perform, outcome_bind_of_none (act_writeBytes_of_false refused)]
        exact kept

instance encDecrypt_actions_keep_accel (returnPc : BitVec 32) (decision : EncDecrypt) :
    Keeps World.accel (perform (act context) (decision.actions returnPc)) := by
  cases decision with
  | finish => exact perform_setV7mState_keeps_accel _ _
  | decrypt decryption =>
      simp only [EncDecrypt.actions, perform]
      infer_instance

/-- The chunk handler remembers nothing. -/
instance tryBl2BootEncDecrypt_keeps_accel (pc : BitVec 32) :
    Keeps World.accel (tryBl2BootEncDecryptAccelAtPc context config pc) := by
  simp only [tryBl2BootEncDecryptAccelAtPc, handle, prepareBl2BootEncDecrypt, bind_assoc,
    pure_bind]
  infer_instance

end Afterwards

end Calls

end QboxPlatform.RseCpuAccel
