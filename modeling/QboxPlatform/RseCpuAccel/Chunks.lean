import QboxPlatform.RseCpuAccel.Loads

/-!
# Decryption in chunks

The chunk handler rebuilds the counter from the offset of each chunk and starts inside its first
block.  Chunk by chunk the guest gets the same bytes as from the load handler, which decrypts the
image whole.
-/

namespace QboxPlatform.RseCpuAccel

open Foundation
open Foundation.Attempt (handle perform outcome_bind_of_some outcome_bind_eq_some
  outcome_guard_bind_eq_some)

/-! ### The key stream -/

/-- Counter mode from a position of the stream on. -/
def ctrFrom (key : List Byte) (position : Nat) (input : List Byte) : List Byte :=
  CounterMode.cryptFrom (fun counter => (Cc3xx.encrypted key counter).toBytes)
    Cc3xx.aesIncrementCounter (· ^^^ ·) 16 0 .zero position input

@[simp]
theorem length_ctrFrom (key : List Byte) (position : Nat) (input : List Byte) :
    (ctrFrom key position input).length = input.length :=
  CounterMode.length_cryptFrom _ _ _

theorem ctrFrom_append (key : List Byte) (position : Nat) (front back : List Byte) :
    ctrFrom key position (front ++ back) =
      ctrFrom key position front ++ ctrFrom key (position + front.length) back :=
  CounterMode.cryptFrom_append _ _ _ _

@[simp]
theorem ctrFrom_nil (key : List Byte) (position : Nat) : ctrFrom key position [] = [] :=
  List.eq_nil_of_length_eq_zero (length_ctrFrom key position [])

theorem ctrBufferLoop_of_rest {key : List Byte}
    (supported : key.length = 16 ∨ key.length = 24 ∨ key.length = 32) {counter : Cc3xx.Block}
    {input rest : List Byte} {offset : Fin 16} (nonempty : input ≠ [])
    (later : Cc3xx.ctrBufferLoop key (Cc3xx.aesIncrementCounter counter)
      (input.drop (min (16 - offset.val) input.length)) 0 = some rest) :
    Cc3xx.ctrBufferLoop key counter input offset =
      some (List.zipWith (· ^^^ ·) (input.take (min (16 - offset.val) input.length))
        ((Cc3xx.encrypted key counter).toBytes.drop offset) ++ rest) := by
  rw [Cc3xx.ctrBufferLoop, if_neg nonempty, Cc3xx.aesEncryptBlock_eq supported]
  simp only [Option.bind_eq_bind, Option.bind_some, later, Option.pure_def]

/-- The loop combines its input with the stream from the position that its counter and its offset
stand for. -/
theorem ctrBufferLoop_eq_ctrFrom {key : List Byte}
    (supported : key.length = 16 ∨ key.length = 24 ∨ key.length = 32) (block : Nat)
    (input : List Byte) (offset : Fin 16) :
    Cc3xx.ctrBufferLoop key (Cc3xx.aesIncrementCounter^[block] .zero) input offset =
      some (ctrFrom key (16 * block + offset) input) := by
  generalize counted : Cc3xx.aesIncrementCounter^[block] Cc3xx.Block.zero = counter
  induction counter, input, offset using Cc3xx.ctrBufferLoop.induct generalizing block with
  | case1 counter offset =>
      rw [Cc3xx.ctrBufferLoop, if_pos rfl, ctrFrom_nil]
  | case2 counter input offset nonempty inductionHypothesis =>
      have inside : offset.val < 16 := offset.isLt
      have later : Cc3xx.aesIncrementCounter^[block + 1] Cc3xx.Block.zero =
          Cc3xx.aesIncrementCounter counter := by
        rw [Function.iterate_succ_apply', counted]
      have within : offset.val + (input.take (min (16 - offset.val) input.length)).length ≤ 16 := by
        rw [List.length_take]
        omega
      have first : List.zipWith (· ^^^ ·) (input.take (min (16 - offset.val) input.length))
          ((Cc3xx.encrypted key counter).toBytes.drop offset) =
          ctrFrom key (16 * block + offset.val)
            (input.take (min (16 - offset.val) input.length)) := by
        rw [← counted]
        exact CounterMode.zipWith_eq_cryptFrom (fun _ => Cc3xx.Block.length_toBytes _) _ _ within
      rw [ctrBufferLoop_of_rest supported nonempty (inductionHypothesis (block + 1) later), first]
      have split := ctrFrom_append key (16 * block + offset.val)
        (input.take (min (16 - offset.val) input.length))
        (input.drop (min (16 - offset.val) input.length))
      rw [List.take_append_drop] at split
      rw [split]
      rcases Nat.le_total (16 - offset.val) input.length with enough | few
      · have position : 16 * (block + 1) + (0 : Fin 16).val = 16 * block + offset.val +
            (input.take (min (16 - offset.val) input.length)).length := by
          rw [List.length_take, Fin.val_zero]
          omega
        rw [position]
      · have exhausted : input.drop (min (16 - offset.val) input.length) = [] :=
          List.drop_of_length_le (by omega)
        rw [exhausted, ctrFrom_nil, ctrFrom_nil]

/-! ### The counter of a chunk -/

theorem toNat_injective {first second : Cc3xx.Block} (same : first.toNat = second.toNat) :
    first = second := by
  have digits : ∀ block : Cc3xx.Block, ∀ digit ∈ block.toBytes.reverse.map BitVec.toNat,
      digit < 256 := by
    intro block digit member
    obtain ⟨byte, -, rfl⟩ := List.mem_map.mp member
    exact byte.isLt
  have lengths : (first.toBytes.reverse.map BitVec.toNat).length =
      (second.toBytes.reverse.map BitVec.toNat).length := by
    simp only [List.length_map, List.length_reverse, Cc3xx.Block.length_toBytes]
  have bytes := Nat.ofDigits_inj_of_len_eq (by decide : 1 < 256) lengths (digits first)
    (digits second) same
  have same := List.reverse_injective (List.map_injective_iff.mpr BitVec.toNat_injective bytes)
  rw [← Cc3xx.Block.ofBytes_toBytes first, ← Cc3xx.Block.ofBytes_toBytes second, same]

theorem toNat_byteOf {width : Nat} (word : BitVec width) (index : Nat) :
    (byteOf word index).toNat = word.toNat / 256 ^ index % 256 := by
  rw [byteOf, BitVec.extractLsb'_toNat, Nat.shiftRight_eq_div_pow, Nat.pow_mul]

theorem chunkCounter_eq (off : BitVec 32) :
    chunkCounter off = Cc3xx.aesIncrementCounter^[off.toNat / 16] .zero := by
  apply toNat_injective
  have below : off.toNat / 16 < 2 ^ 28 := by omega
  have block : (off >>> 4).toNat = off.toNat / 16 := by
    rw [BitVec.toNat_ushiftRight, Nat.shiftRight_eq_div_pow]
  have zero : Cc3xx.Block.zero.toNat = 0 := by decide
  rw [Cc3xx.toNat_iterate_aesIncrementCounter, zero, Nat.zero_add, Nat.mod_eq_of_lt (by omega),
    chunkCounter, Cc3xx.Block.toNat, BigEndian.number, Cc3xx.Block.toBytes_ofBytes (by simp)]
  simp [toNat_byteOf, block, Nat.ofDigits_cons]
  omega

theorem aesCtrXcryptBuffer_chunk {key : List Byte} (valid : bl2BootEncValidKeySize key.length)
    (off : BitVec 32) (input : List Byte) :
    Cc3xx.aesCtrXcryptBuffer key (chunkCounter off) input (off % 16).toNat =
      some (ctrFrom key off.toNat input) := by
  have low : (off % 16).toNat = off.toNat % 16 := by
    rw [BitVec.toNat_umod]
    rfl
  have below : (off % 16).toNat < 16 := by omega
  have position : 16 * (off.toNat / 16) + (off % 16).toNat = off.toNat := by omega
  have supported : ¬ (key.length ≠ 16 ∧ key.length ≠ 24 ∧ key.length ≠ 32) := by
    rcases valid with size | size | size <;> simp [size]
  rw [Cc3xx.aesCtrXcryptBuffer, if_neg supported, dif_pos below, chunkCounter_eq,
    ctrBufferLoop_eq_ctrFrom valid, position]

/-! ### Calls of the routine -/

theorem loadDecryptImage_supported {config : Config} {accel : Accel} {call : DecryptCall}
    {image : FoundImage} (found : loadDecryptImage config accel call = some image) :
    call.Supported config :=
  (of_decide_eq_true (Option.filter_eq_some_iff.mp found).2).1

section Calling

variable {Machine : Type} (context : Context Machine) (config : Config)

/-- Call the routine: the guest sets up the arguments, and a handler stands in for the body. -/
def callDecrypt (handler : Attempt (World Machine) Unit)
    (setUp : DecryptCall → Machine → Machine) (call : DecryptCall) (world : World Machine) :
    Option (World Machine) :=
  let ended := handler.outcome { world with machine := setUp call world.machine }
  ended.1.map fun _ => ended.2

/-- The guest passes the arguments and leaves the bytes of an image alone. -/
structure SetsUp (setUp : DecryptCall → Machine → Machine) (payload : BitVec 64) (size : Nat) :
    Prop where
  passes : ∀ call machine, (context.guest (setUp call machine)).decryptCall = call
  leaves : ∀ call machine, (context.guest (setUp call machine)).readBytes payload size =
    (context.guest machine).readBytes payload size

/-- The call for the chunk at an offset of an image. -/
def chunkCall (encState slot buf off size : BitVec 32) : DecryptCall where
  encState := encState
  slot := slot
  off := off
  size := size
  blkOff := off % 16
  buf := buf + off

/-- One call for each chunk, from an offset on. -/
def decryptChunks (setUp : DecryptCall → Machine → Machine) (encState slot buf : BitVec 32) :
    BitVec 32 → List (BitVec 32) → World Machine → Option (World Machine)
  | _, [], world => some world
  | off, size :: rest, world =>
      (callDecrypt (tryBl2BootEncDecryptAccelAtPc context config
        (entryOf config.bl2BootEncDecryptAddr)) setUp (chunkCall encState slot buf off size)
          world).bind (decryptChunks setUp encState slot buf (off + size) rest)

/-- One call for the whole image. -/
def decryptWhole (setUp : DecryptCall → Machine → Machine) (encState slot buf size : BitVec 32)
    (world : World Machine) : Option (World Machine) :=
  callDecrypt (tryBl2LoadDecryptAccelAtPc context config (entryOf config.bl2BootEncDecryptAddr))
    setUp { encState, slot, off := 0, size, blkOff := 0, buf } world

variable {context config} {world : World Machine} (reliable : context.Reliable)

include reliable

theorem hotpathReadBytes_of_reliable (address : BitVec 64) (size : Nat) (world : World Machine) :
    ∃ next, (hotpathReadBytes context address size).outcome world =
        (some ((world.guest context).readBytes address size), next) ∧
      next.guest context = world.guest context ∧ next.accel = world.accel :=
  ⟨_, Prod.ext (reliable.reads world.machine address size) rfl,
    context.guest_readBytes world.machine address size, rfl⟩

theorem readDecryptCall_of_reliable (world : World Machine) :
    ∃ next, (readDecryptCall context).outcome world =
        (some (world.guest context).decryptCall, next) ∧
      next.guest context = world.guest context ∧ next.accel = world.accel := by
  obtain ⟨middle, readBlkOff, guestMiddle, accelMiddle⟩ := hotpathReadBytes_of_reliable reliable
    (((world.guest context).register .sp).setWidth 64) 4 world
  obtain ⟨next, readBuf, guestNext, accelNext⟩ := hotpathReadBytes_of_reliable reliable
    (((world.guest context).register .sp).setWidth 64 + 4) 4 middle
  refine ⟨next, ?_, guestNext.trans guestMiddle, accelNext.trans accelMiddle⟩
  simp only [readDecryptCall, getV7mState_bind, hotpathReadU32, bind_assoc, pure_bind]
  rw [outcome_bind_of_some readBlkOff, outcome_bind_of_some readBuf, guestMiddle]
  rfl

theorem readDecryptCall_of_setUp {call : DecryptCall} {setUp : DecryptCall → Machine → Machine}
    {guest : Guest} (calling : context.guest (setUp call world.machine) = guest)
    (passes : guest.decryptCall = call) :
    ∃ next, (readDecryptCall context).outcome
        { world with machine := setUp call world.machine } = (some call, next) ∧
      next.guest context = guest ∧ next.accel = world.accel := by
  obtain ⟨next, readCall, guestNext, accelNext⟩ := readDecryptCall_of_reliable reliable
    { world with machine := setUp call world.machine }
  have called : World.guest context { world with machine := setUp call world.machine } = guest :=
    calling
  rw [called] at guestNext readCall
  rw [passes] at readCall
  exact ⟨next, readCall, guestNext, accelNext⟩

theorem perform_return_of_reliable (returnPc : BitVec 32) (world : World Machine) :
    ∃ final, (perform (act context) [.setV7mState .pc returnPc]).outcome world =
        (some (), final) ∧
      (final.guest context).memory = (world.guest context).memory ∧ final.accel = world.accel := by
  have accepted := reliable.sets world.machine .pc returnPc
  have guest := context.guest_setV7mState world.machine .pc returnPc
  rw [if_pos accepted] at guest
  have acted : (act context (.setV7mState .pc returnPc)).outcome world =
      (some (), { world with machine := (context.setV7mState world.machine .pc returnPc).2 }) := by
    rw [act, Attempt.outcome_ofStep, if_pos accepted]
  exact ⟨_, (outcome_bind_of_some acted _).trans rfl, (congrArg Guest.memory guest).trans rfl, rfl⟩

theorem act_writeBytes_of_reliable (address : BitVec 64) (data : List Byte)
    (world : World Machine) :
    ∃ next, (act context (.writeBytes address data)).outcome world = (some (), next) ∧
      next.guest context = (world.guest context).writeBytes address data ∧
        next.accel = world.accel := by
  have accepted := reliable.writes world.machine address data
  have guest := context.guest_writeBytes world.machine address data
  rw [if_pos accepted] at guest
  exact ⟨_, act_writeBytes_of_true accepted, guest, rfl⟩

theorem callDecrypt_chunk (enabled : config.bl2BootEncAccel = true)
    (watched : entryOf config.bl2BootEncDecryptAddr ≠ 0) {key : List Byte}
    (valid : bl2BootEncValidKeySize key.length) {encState slot buf off size : BitVec 32}
    (supported : (chunkCall encState slot buf off size).Supported config) (nonempty : size ≠ 0)
    (stored : world.accel.bootEncKeys (bl2BootEncCacheKey encState slot) = some key)
    {setUp : DecryptCall → Machine → Machine} {guest : Guest}
    (calling : context.guest (setUp (chunkCall encState slot buf off size) world.machine) = guest)
    (passes : guest.decryptCall = chunkCall encState slot buf off size) :
    ∃ next, callDecrypt (tryBl2BootEncDecryptAccelAtPc context config
        (entryOf config.bl2BootEncDecryptAddr)) setUp (chunkCall encState slot buf off size) world =
        some next ∧ next.accel = world.accel ∧
      (next.guest context).memory =
        (guest.writeBytes ((buf + off).setWidth 64) (ctrFrom key off.toNat
          (guest.readBytes ((buf + off).setWidth 64) size.toNat))).memory := by
  obtain ⟨middle, readCall, guestMiddle, accelMiddle⟩ :=
    readDecryptCall_of_setUp reliable calling passes
  obtain ⟨prepared, readInput, guestPrepared, accelPrepared⟩ :=
    hotpathReadBytes_of_reliable reliable ((buf + off).setWidth 64) size.toNat middle
  rw [guestMiddle] at readInput guestPrepared
  rw [← accelMiddle] at stored
  have taken := takeBl2BootEncDecrypt_of_reads enabled ⟨watched, rfl⟩ readCall supported nonempty
    stored valid readInput
    (aesCtrXcryptBuffer_chunk valid off _)
  obtain ⟨written, wrote, guestWritten, accelWritten⟩ := act_writeBytes_of_reliable reliable
    ((buf + off).setWidth 64)
    (ctrFrom key off.toNat (guest.readBytes ((buf + off).setWidth 64) size.toNat)) prepared
  obtain ⟨final, returned, memory, accelFinal⟩ := perform_return_of_reliable reliable
    ((prepared.guest context).register .lr) written
  have handled : (tryBl2BootEncDecryptAccelAtPc context config
      (entryOf config.bl2BootEncDecryptAddr)).outcome
      { world with machine := setUp (chunkCall encState slot buf off size) world.machine } =
      (some (), final) := by
    rw [tryBl2BootEncDecryptAccelAtPc, handle,
      outcome_bind_of_some (prepareBl2BootEncDecrypt_of_taken taken), EncDecrypt.actions, perform]
    exact (outcome_bind_of_some wrote _).trans returned
  refine ⟨final, ?_, ?_, ?_⟩
  · rw [callDecrypt, handled]
    rfl
  · rw [accelFinal, accelWritten, accelPrepared, accelMiddle]
  · rw [memory, guestWritten, guestPrepared]

theorem callDecrypt_empty (enabled : config.bl2BootEncAccel = true)
    (watched : entryOf config.bl2BootEncDecryptAddr ≠ 0) {call : DecryptCall}
    (supported : call.Supported config) (empty : call.size = 0)
    {setUp : DecryptCall → Machine → Machine} {guest : Guest}
    (calling : context.guest (setUp call world.machine) = guest)
    (passes : guest.decryptCall = call) :
    ∃ next, callDecrypt (tryBl2BootEncDecryptAccelAtPc context config
        (entryOf config.bl2BootEncDecryptAddr)) setUp call world = some next ∧
      next.accel = world.accel ∧ (next.guest context).memory = guest.memory := by
  obtain ⟨middle, readCall, guestMiddle, accelMiddle⟩ :=
    readDecryptCall_of_setUp reliable calling passes
  have taken : (takeBl2BootEncDecrypt context config (entryOf config.bl2BootEncDecryptAddr)).outcome
      { world with machine := setUp call world.machine } = (some (call, .finish), middle) := by
    simp only [takeBl2BootEncDecrypt, outcome_guard_bind_eq_some]
    refine ⟨enabled, ⟨watched, rfl⟩, ?_⟩
    rw [outcome_bind_of_some readCall]
    refine outcome_bind_eq_some.mpr ⟨.finish, middle, ?_, rfl⟩
    refine outcome_guard_bind_eq_some.mpr ⟨supported, ?_⟩
    rw [if_pos empty]
    rfl
  obtain ⟨final, returned, memory, accelFinal⟩ := perform_return_of_reliable reliable
    ((middle.guest context).register .lr) middle
  have handled : (tryBl2BootEncDecryptAccelAtPc context config
      (entryOf config.bl2BootEncDecryptAddr)).outcome
      { world with machine := setUp call world.machine } = (some (), final) := by
    rw [tryBl2BootEncDecryptAccelAtPc, handle,
      outcome_bind_of_some (prepareBl2BootEncDecrypt_of_taken taken), EncDecrypt.actions]
    exact returned
  refine ⟨final, ?_, ?_, ?_⟩
  · rw [callDecrypt, handled]
    rfl
  · rw [accelFinal, accelMiddle]
  · rw [memory, guestMiddle]

theorem callDecrypt_whole (enabled : config.bl2LoadAccel = true)
    (watched : entryOf config.bl2BootEncDecryptAddr ≠ 0) {key : List Byte}
    (valid : bl2BootEncValidKeySize key.length) {call : DecryptCall}
    (start : call.off = 0 ∧ call.blkOff = 0) {image : FoundImage}
    (found : loadDecryptImage config world.accel call = some image)
    (fresh : world.accel.imageDecrypted image.currImg = false)
    (stored : world.accel.bootEncKeys (bl2BootEncCacheKey call.encState call.slot) = some key)
    {setUp : DecryptCall → Machine → Machine} {guest : Guest}
    (calling : context.guest (setUp call world.machine) = guest)
    (passes : guest.decryptCall = call) {payload : BitVec 64}
    (placed : payload = image.loadAddr.setWidth 64 + image.hdrSize.setWidth 64) :
    ∃ next, callDecrypt (tryBl2LoadDecryptAccelAtPc context config
        (entryOf config.bl2BootEncDecryptAddr)) setUp call world = some next ∧
      (next.guest context).memory = (guest.writeBytes payload (ctrFrom key 0
        (guest.readBytes payload image.imgSize.toNat))).memory := by
  subst placed
  obtain ⟨middle, readCall, guestMiddle, accelMiddle⟩ :=
    readDecryptCall_of_setUp reliable calling passes
  obtain ⟨prepared, readInput, guestPrepared, -⟩ :=
    hotpathReadBytes_of_reliable reliable
      (image.loadAddr.setWidth 64 + image.hdrSize.setWidth 64) image.imgSize.toNat middle
  rw [guestMiddle] at readInput guestPrepared
  have crypts := aesCtrXcryptBuffer_chunk valid 0 (guest.readBytes
    (image.loadAddr.setWidth 64 + image.hdrSize.setWidth 64) image.imgSize.toNat)
  rw [chunkCounter_eq] at crypts
  rw [← accelMiddle] at found fresh stored
  have taken := takeBl2LoadDecrypt_of_reads enabled ⟨watched, rfl⟩ readCall found fresh start
    stored valid readInput crypts
  obtain ⟨written, wrote, guestWritten, -⟩ := act_writeBytes_of_reliable reliable
    (image.loadAddr.setWidth 64 + image.hdrSize.setWidth 64) (ctrFrom key 0 (guest.readBytes
      (image.loadAddr.setWidth 64 + image.hdrSize.setWidth 64) image.imgSize.toNat)) prepared
  obtain ⟨final, returned, memory, -⟩ := perform_return_of_reliable reliable
    ((prepared.guest context).register .lr)
    { written with accel := markDecrypted image.currImg written.accel }
  have handled : (tryBl2LoadDecryptAccelAtPc context config
      (entryOf config.bl2BootEncDecryptAddr)).outcome
      { world with machine := setUp call world.machine } = (some (), final) := by
    rw [tryBl2LoadDecryptAccelAtPc, handle,
      outcome_bind_of_some (prepareBl2LoadDecrypt_of_taken taken), LoadDecrypt.actions, perform]
    refine (outcome_bind_of_some wrote _).trans ?_
    rw [perform, act]
    exact (outcome_bind_of_some (outcome_modifyAccel _ _) _).trans returned
  refine ⟨final, ?_, ?_⟩
  · rw [callDecrypt, handled]
    rfl
  · rw [← guestPrepared]
    exact memory.trans (congrArg Guest.memory (guestWritten.trans (by rw [guestPrepared])))

section Images

variable {setUp : DecryptCall → Machine → Machine} {encState slot buf : BitVec 32} {length : Nat}
  {key : List Byte}

theorem callDecrypt_readBytes (enabled : config.bl2BootEncAccel = true)
    (watched : entryOf config.bl2BootEncDecryptAddr ≠ 0)
    (valid : bl2BootEncValidKeySize key.length) (accepts : config.acceptsSlot slot)
    (sets : SetsUp context setUp (buf.setWidth 64) length) (placed : buf ≠ 0)
    (within : buf.toNat + length ≤ 2 ^ 32) {off size : BitVec 32}
    (small : size.setWidth 64 ≤ config.bl2BootEncMaxBytes) {front chunk later : List Byte}
    (offset : front.length = off.toNat) (chunkSize : chunk.length = size.toNat)
    (lengths : front.length + chunk.length + later.length = length)
    (stored : world.accel.bootEncKeys (bl2BootEncCacheKey encState slot) = some key)
    (reads : (world.guest context).readBytes (buf.setWidth 64) length =
      ctrFrom key 0 front ++ chunk ++ later) :
    ∃ next, callDecrypt (tryBl2BootEncDecryptAccelAtPc context config
        (entryOf config.bl2BootEncDecryptAddr)) setUp (chunkCall encState slot buf off size) world =
        some next ∧ next.accel = world.accel ∧
      (next.guest context).readBytes (buf.setWidth 64) length =
        ctrFrom key 0 (front ++ chunk) ++ later := by
  have setsUp := sets.leaves (chunkCall encState slot buf off size) world.machine
  have passes := sets.passes (chunkCall encState slot buf off size) world.machine
  generalize calling : context.guest (setUp (chunkCall encState slot buf off size)
    world.machine) = guest at setsUp passes
  have before := setsUp.trans reads
  have start : (off % 16).toNat < 16 := by
    rw [BitVec.toNat_umod]
    exact Nat.mod_lt _ (by decide)
  by_cases empty : size = 0
  · have nothing : chunk = [] := by
      apply List.eq_nil_of_length_eq_zero
      rw [chunkSize, empty]
      rfl
    obtain ⟨next, handled, accelNext, memory⟩ := callDecrypt_empty reliable enabled watched
      ⟨accepts, small, start, fun absent => absent.2 empty⟩ empty calling passes
    refine ⟨next, handled, accelNext, ?_⟩
    rw [Guest.readBytes, memory, nothing, List.append_nil]
    rwa [nothing, List.append_nil] at before
  · have positive : 0 < size.toNat := by bv_omega
    have sum : (buf + off).toNat = buf.toNat + off.toNat := by
      rw [BitVec.toNat_add, Nat.mod_eq_of_lt (by omega)]
    have nonzero : buf + off ≠ 0 := by bv_omega
    have address : (buf + off).setWidth 64 =
        buf.setWidth 64 + BitVec.ofNat 64 (ctrFrom key 0 front).length := by
      apply BitVec.eq_of_toNat_eq
      rw [BitVec.toNat_setWidth_of_le (by decide), sum, length_ctrFrom, offset]
      rw [BitVec.toNat_add, BitVec.toNat_setWidth_of_le (by decide), BitVec.toNat_ofNat]
      omega
    obtain ⟨next, handled, accelNext, memory⟩ := callDecrypt_chunk reliable enabled watched valid
      ⟨accepts, small, start, fun absent => nonzero absent.1⟩ empty stored calling passes
    -- The handler reads and writes the part of the image that the chunk stands for.
    have whole : Bus.slice guest.memory (buf.setWidth 64) length = _ := before
    rw [← lengths, ← length_ctrFrom key 0 front, Bus.slice_add, Bus.slice_add] at whole
    obtain ⟨parts, after⟩ := List.append_inj whole (by simp)
    obtain ⟨untouched, read⟩ := List.append_inj parts (by simp)
    have input : guest.readBytes ((buf + off).setWidth 64) size.toNat = chunk := by
      rw [address, ← chunkSize]
      exact read
    have lengthsKept : (ctrFrom key 0 front).length + (ctrFrom key off.toNat chunk).length +
        later.length = length := by
      rw [length_ctrFrom, length_ctrFrom, lengths]
    have fits : (ctrFrom key 0 front).length + (ctrFrom key off.toNat chunk).length +
        later.length ≤ 2 ^ 64 := by omega
    have kept := Bus.ram_writable.slice_write_within guest.memory (buf.setWidth 64) fits
    simp only [id_eq] at kept
    rw [lengthsKept, length_ctrFrom key off.toNat, untouched, after] at kept
    refine ⟨next, handled, accelNext, ?_⟩
    rw [Guest.readBytes, memory, input, address, ctrFrom_append, Nat.zero_add, offset]
    exact kept

theorem decryptChunks_readBytes (enabled : config.bl2BootEncAccel = true)
    (watched : entryOf config.bl2BootEncDecryptAddr ≠ 0)
    (valid : bl2BootEncValidKeySize key.length) (accepts : config.acceptsSlot slot)
    (sets : SetsUp context setUp (buf.setWidth 64) length) (placed : buf ≠ 0)
    (within : buf.toNat + length ≤ 2 ^ 32) (short : length < 2 ^ 32) {sizes : List (BitVec 32)}
    (small : ∀ size ∈ sizes, size.setWidth 64 ≤ config.bl2BootEncMaxBytes)
    {off : BitVec 32} {front back : List Byte} (offset : front.length = off.toNat)
    (lengths : front.length + back.length = length)
    (partition : (sizes.map BitVec.toNat).sum = back.length)
    (stored : world.accel.bootEncKeys (bl2BootEncCacheKey encState slot) = some key)
    (reads : (world.guest context).readBytes (buf.setWidth 64) length =
      ctrFrom key 0 front ++ back) :
    ∃ final, decryptChunks context config setUp encState slot buf off sizes world = some final ∧
      (final.guest context).readBytes (buf.setWidth 64) length =
        ctrFrom key 0 (front ++ back) := by
  induction sizes generalizing off front back world with
  | nil =>
      have exhausted : back = [] := List.eq_nil_of_length_eq_zero partition.symm
      rw [exhausted, List.append_nil] at reads ⊢
      exact ⟨world, rfl, reads⟩
  | cons size rest inductionHypothesis =>
      rw [List.map_cons, List.sum_cons] at partition
      have cut := List.take_append_drop size.toNat back
      have chunkSize : (back.take size.toNat).length = size.toNat := by
        rw [List.length_take]
        omega
      have remaining : (back.drop size.toNat).length = back.length - size.toNat :=
        List.length_drop
      rw [← cut, ← List.append_assoc] at reads
      obtain ⟨next, handled, accelNext, readsNext⟩ := callDecrypt_readBytes reliable enabled watched
        valid accepts sets placed within (small size List.mem_cons_self) offset chunkSize
        (by omega) stored reads
      have offsetNext : (front ++ back.take size.toNat).length = (off + size).toNat := by
        rw [List.length_append, BitVec.toNat_add]
        omega
      obtain ⟨final, later, readsFinal⟩ := inductionHypothesis
        (fun other member => small other (List.mem_cons_of_mem size member)) offsetNext
        (by rw [List.length_append]; omega) (by omega) (accelNext ▸ stored) readsNext
      refine ⟨final, ?_, ?_⟩
      · rw [decryptChunks, handled, Option.bind_some, later]
      · rw [readsFinal, List.append_assoc, cut]

/-- However an image is cut into chunks, the chunk handler leaves the plaintext that the load
handler leaves. -/
theorem decryptChunks_eq_whole (chunksEnabled : config.bl2BootEncAccel = true)
    (wholeEnabled : config.bl2LoadAccel = true)
    (watched : entryOf config.bl2BootEncDecryptAddr ≠ 0)
    (valid : bl2BootEncValidKeySize key.length) {size : BitVec 32} {image : FoundImage}
    (found : loadDecryptImage config world.accel
      { encState, slot, off := 0, size, blkOff := 0, buf } = some image)
    (fresh : world.accel.imageDecrypted image.currImg = false)
    (stored : world.accel.bootEncKeys (bl2BootEncCacheKey encState slot) = some key)
    (sets : SetsUp context setUp (buf.setWidth 64) image.imgSize.toNat)
    (within : buf.toNat + image.imgSize.toNat ≤ 2 ^ 32) {sizes : List (BitVec 32)}
    (partition : (sizes.map BitVec.toNat).sum = image.imgSize.toNat)
    (small : ∀ size ∈ sizes, size.setWidth 64 ≤ config.bl2BootEncMaxBytes) :
    ∃ chunked whole,
      decryptChunks context config setUp encState slot buf 0 sizes world = some chunked ∧
      decryptWhole context config setUp encState slot buf size world = some whole ∧
      (chunked.guest context).readBytes (buf.setWidth 64) image.imgSize.toNat =
        (whole.guest context).readBytes (buf.setWidth 64) image.imgSize.toNat := by
  obtain ⟨⟨-, -, header, -, -, start⟩, loadAddr, hdrSize, -⟩ := loadDecryptImage_eq_some found
  rw [← loadAddr, ← hdrSize] at start
  rw [← hdrSize] at header
  have payload : buf.setWidth 64 = image.loadAddr.setWidth 64 + image.hdrSize.setWidth 64 := by
    rw [← start]
    exact BitVec.add_zero _
  have placed : buf ≠ 0 := by
    rintro rfl
    apply header
    have sum := congrArg BitVec.toNat payload
    rw [BitVec.toNat_add, BitVec.toNat_setWidth, BitVec.toNat_setWidth,
      BitVec.toNat_setWidth] at sum
    apply BitVec.eq_of_toNat_eq
    simp at sum ⊢
    omega
  have short : image.imgSize.toNat < 2 ^ 32 := image.imgSize.isLt
  generalize isOriginal : (world.guest context).readBytes (buf.setWidth 64)
    image.imgSize.toNat = original
  have originalSize : original.length = image.imgSize.toNat := by
    rw [← isOriginal, Guest.length_readBytes]
  have nothing : ([] : List Byte).length = (0 : BitVec 32).toNat := rfl
  obtain ⟨chunked, handled, chunkedReads⟩ := decryptChunks_readBytes reliable chunksEnabled watched
    valid (loadDecryptImage_supported found).1 sets placed within short small nothing
    ((Nat.zero_add _).trans originalSize) (partition.trans originalSize.symm) stored
    (by rw [isOriginal, ctrFrom_nil, List.nil_append])
  have passes := sets.passes { encState, slot, off := 0, size, blkOff := 0, buf } world.machine
  have leaves := sets.leaves { encState, slot, off := 0, size, blkOff := 0, buf } world.machine
  obtain ⟨whole, wholeHandled, memory⟩ := callDecrypt_whole reliable wholeEnabled watched valid
    ⟨rfl, rfl⟩ found fresh stored rfl passes payload
  have fits : (ctrFrom key 0 original).length ≤ 2 ^ 64 := by
    rw [length_ctrFrom]
    omega
  have written : ∀ memory, _ := fun memory =>
    Bus.ram_writable.slice_write memory (buf.setWidth 64) fits
  rw [length_ctrFrom, originalSize] at written
  refine ⟨chunked, whole, handled, wholeHandled, ?_⟩
  rw [chunkedReads, List.nil_append, Guest.readBytes, memory, leaves]
  have same : (context.guest world.machine).readBytes (buf.setWidth 64) image.imgSize.toNat =
      original := isOriginal
  rw [same]
  exact (written _).symm

end Images

end Calling

/-- Both handlers, with the entries that they watch. -/
def bothConfig : Config := { wholeConfig with bl2BootEncAccel := true }

/-- The arguments in the registers and on a stack at `0x8000`. -/
def passArguments (call : DecryptCall) (guest : Guest) : Guest where
  register
    | .r0 => call.encState
    | .r1 => call.slot
    | .r2 => call.off
    | .r3 => call.size
    | .sp => 0x8000
    | other => guest.register other
  memory := (guest.writeBytes 0x8000 (toBytes 4 call.blkOff ++ toBytes 4 call.buf)).memory

theorem passArguments_setsUp : SetsUp Context.steady passArguments 0x200020 16 where
  passes := by
    intro call guest
    have stack : (passArguments call guest).readBytes 0x8000 8 =
        toBytes 4 call.blkOff ++ toBytes 4 call.buf := by
      have fits : (toBytes 4 call.blkOff ++ toBytes 4 call.buf).length ≤ 2 ^ 64 := by simp
      have written := Bus.ram_writable.slice_write guest.memory 0x8000 fits
      rw [List.length_append, length_toBytes, length_toBytes] at written
      exact written
    rw [Guest.readBytes, show 8 = 4 + 4 by rfl, Bus.slice_add] at stack
    obtain ⟨blkOff, buf⟩ := List.append_inj stack (by simp)
    have decoded : ∀ word : BitVec 32, ofBytes 32 (toBytes 4 word) = word := fun word =>
      ofBytes_toBytes word (by decide)
    have readBlkOff : (passArguments call guest).readU32 0x8000 = call.blkOff := by
      rw [Guest.readU32, Guest.readBytes, blkOff, decoded]
    have readBuf : (passArguments call guest).readU32 (0x8000 + 4) = call.buf := by
      rw [Guest.readU32, Guest.readBytes, ← decoded call.buf, ← buf]
      rfl
    cases call
    exact congrArg₂ (DecryptCall.mk _ _ _ _) readBlkOff readBuf
  leaves := by
    intro call guest
    apply Bus.slice_congr
    intro index inside
    apply Bus.ram_writable.content_write_outside guest.memory
    rw [List.length_append, length_toBytes, length_toBytes]
    bv_omega

/-- A block is loaded and its key is known. -/
def blockLoaded : World Guest := ⟨loadedOnce, decryptingImage, 0⟩

/-- The block in three chunks, one of which is empty, and whole. -/
theorem decryptChunks_eq_whole_block :
    ∃ chunked whole,
      decryptChunks Context.steady bothConfig passArguments 0x100 0 0x200020 0 [5, 0, 11]
        blockLoaded = some chunked ∧
      decryptWhole Context.steady bothConfig passArguments 0x100 0 0x200020 16 blockLoaded =
        some whole ∧
      (chunked.guest Context.steady).readBytes 0x200020 16 =
        (whole.guest Context.steady).readBytes 0x200020 16 := by
  have found : loadDecryptImage bothConfig blockLoaded.accel
      { encState := 0x100, slot := 0, off := 0, size := 16, blkOff := 0, buf := 0x200020 } =
      some firstBlock := by decide
  have stored : blockLoaded.accel.bootEncKeys (bl2BootEncCacheKey 0x100 0) =
      some (List.replicate 16 0) := by decide
  have partition : (([5, 0, 11] : List (BitVec 32)).map BitVec.toNat).sum =
      firstBlock.imgSize.toNat := by decide
  have small : ∀ size ∈ ([5, 0, 11] : List (BitVec 32)),
      size.setWidth 64 ≤ bothConfig.bl2BootEncMaxBytes := by
    simp only [List.forall_mem_cons, List.not_mem_nil, false_implies, implies_true]
    decide
  exact decryptChunks_eq_whole Context.steady_reliable rfl rfl (by decide) (Or.inl rfl) found
    (by decide) stored passArguments_setsUp (by decide) partition small

end QboxPlatform.RseCpuAccel
