import QboxPlatform.Cc3xx.Digest
import QboxPlatform.Foundation.ChunkedCopy
import QboxPlatform.RseCpuAccel.PcEntry
import QboxPlatform.RseCpuAccel.Hotpath

/-!
# The routines behind the handlers

A call that has been handled leaves the guest where its own routine would have returned: the copy
routines, which are taken over at their entries or inside their loops, and the hash of an image.
-/

namespace QboxPlatform.RseCpuAccel

open Foundation
open Foundation.Attempt (perform handle firstOf outcome_bind_eq_some outcome_guard_bind_eq_some)

/-! ### What the actions do -/

/-- What an action does to the guest and to the word that was read last. -/
def Action.effect (state : Guest × BitVec 32) : Action → Guest × BitVec 32
  | .setV7mState field value => (state.1.setRegister field value, state.2)
  | .setLoaded field => (state.1.setRegister field state.2, state.2)
  | .readU32 address => (state.1, state.1.readU32 address)
  | .writeBytes address data => (state.1.writeBytes address data, state.2)
  | .storeBytes address data => (state.1.writeBytes address data, state.2)
  | .update _ => state

section Effects

variable {Machine : Type} {context : Context Machine} {config : Config}
  {world next : World Machine}

theorem act_effect {action : Action}
    (acted : (act context action).outcome world = (some (), next)) :
    (next.guest context, next.loaded) =
      Action.effect (world.guest context, world.loaded) action := by
  cases action with
  | setV7mState field value =>
      have guest := context.guest_setV7mState world.machine field value
      simp only [act, Attempt.outcome_ofStep, Prod.mk.injEq] at acted
      obtain ⟨accepted, rfl⟩ := acted
      split at accepted
      · rename_i holds
        rw [if_pos holds] at guest
        exact congrArg (·, world.loaded) guest
      · cases accepted
  | setLoaded field =>
      have guest := context.guest_setV7mState world.machine field world.loaded
      simp only [act, Attempt.outcome_ofStep, Prod.mk.injEq] at acted
      obtain ⟨accepted, rfl⟩ := acted
      split at accepted
      · rename_i holds
        rw [if_pos holds] at guest
        exact congrArg (·, world.loaded) guest
      · cases accepted
  | readU32 address =>
      rw [act] at acted
      obtain ⟨word, middle, read, rest⟩ := outcome_bind_eq_some.mp acted
      obtain ⟨rfl, guestKept, -⟩ := hotpathReadU32_eq_some read
      cases rest
      exact congrArg (·, (world.guest context).readU32 address) guestKept
  | writeBytes address data =>
      have guest := context.guest_writeBytes world.machine address data
      simp only [act, Attempt.outcome_ofStep, Prod.mk.injEq] at acted
      obtain ⟨accepted, rfl⟩ := acted
      split at accepted
      · rename_i holds
        rw [if_pos holds] at guest
        exact congrArg (·, world.loaded) guest
      · cases accepted
  | storeBytes address data =>
      cases acted
      exact congrArg (·, world.loaded) (context.guest_storeBytes world.machine address data)
  | update change =>
      cases acted
      rfl

/-- Actions that go through do one after the other what each of them does. -/
theorem perform_effect {actions : List Action}
    (performed : (perform (act context) actions).outcome world = (some (), next)) :
    (next.guest context, next.loaded) =
      actions.foldl Action.effect (world.guest context, world.loaded) := by
  induction actions generalizing world with
  | nil =>
      cases performed
      rfl
  | cons action rest inductionHypothesis =>
      obtain ⟨⟨⟩, middle, acted, onwards⟩ := outcome_bind_eq_some.mp performed
      rw [List.foldl_cons, ← act_effect acted]
      exact inductionHypothesis onwards

/-- A single handler that goes through prepares its actions and carries them out. -/
theorem firstOf_single_eq_true {prepare : Attempt (World Machine) (List Action)}
    (handled : firstOf (act context) [prepare] world = (true, next)) :
    ∃ actions prepared, prepare.outcome world = (some actions, prepared) ∧
      (perform (act context) actions).outcome prepared = (some (), next) := by
  rw [firstOf] at handled
  split at handled
  · rename_i through
    obtain ⟨rfl⟩ := (Prod.mk.inj handled).2
    exact outcome_bind_eq_some.mp through
  · cases handled

theorem hotpathDmiBytes_eq_some {address : BitVec 64} {size : Nat} {bytes : List Byte}
    (asked : (hotpathDmiBytes context address size).outcome world = (some bytes, next)) :
    bytes = (world.guest context).readBytes address size ∧
      next.guest context = world.guest context := by
  have kept := context.guest_dmiPtr world.machine address size
  obtain ⟨granted, rfl⟩ := Prod.mk.inj asked
  split at granted
  · exact ⟨(Option.some.inj granted).symm, kept⟩
  · cases granted

end Effects

/-! ### The copy routines of the guest -/

namespace Guest

/-- The end of a routine that has pushed `LR` before its loop. -/
def returnStackedLr (guest : Guest) : Guest :=
  (guest.setRegister .sp (guest.register .sp + 4)).setRegister .pc
    (guest.readU32 ((guest.register .sp).setWidth 64))

/-- The end of a routine that has pushed `R4` before its loop. -/
def returnStackedR4 (guest : Guest) : Guest :=
  ((guest.setRegister .r4 (guest.readU32 ((guest.register .sp).setWidth 64))).setRegister .sp
    (guest.register .sp + 4)).setRegister .pc (guest.register .lr)

def returnLr (guest : Guest) : Guest := guest.setRegister .pc (guest.register .lr)

/-- Where the routine goes on writing: `R3` counts inside the loop. -/
def copyDest (guest : Guest) (pc base : BitVec 32) : BitVec 64 :=
  (if pc = base then guest.register .r0 else guest.register .r3).setWidth 64

/-- `memcpy` from here to its return: `R2` more bytes from `R1` on, one after the other. -/
def memcpy (guest : Guest) (pc base : BitVec 32) : Guest :=
  let copied := { guest with
    memory := ChunkedCopy.copy 1 ((guest.register .r1).setWidth 64) (guest.copyDest pc base)
      (guest.register .r2).toNat guest.memory }
  if pc = base then copied.returnLr else copied.returnStackedLr

/-- One byte stored. -/
def storeByte (memory : BitVec 64 → Byte) (address : BitVec 64) (value : Byte) :
    BitVec 64 → Byte :=
  Function.update memory address value

/-- `memset` from here to its return: the low byte of `R1`, `R2` more times. -/
def memset (guest : Guest) (pc base : BitVec 32) : Guest :=
  let filled := { guest with
    memory := (List.range (guest.register .r2).toNat).foldl
      (fun memory index => storeByte memory (guest.copyDest pc base + BitVec.ofNat 64 index)
        ((guest.register .r1).setWidth 8)) guest.memory }
  if pc = base then filled.returnLr else filled.returnStackedR4

/-- The bytes that the loop of `memcpy` copies do not come from bytes that it has written. -/
def CopiesApart (guest : Guest) (pc base : BitVec 32) : Prop :=
  ChunkedCopy.Apart ((guest.register .r1).setWidth 64) (guest.copyDest pc base)
    (guest.register .r2).toNat

/-- `memmove` from here to the return of the routine. -/
def memmove (guest : Guest) (pc base : BitVec 32) : Guest :=
  let moved := { guest with
    memory := ChunkedCopy.move ((guest.register .r1).setWidth 64) (guest.copyDest pc base)
      (guest.register .r2).toNat guest.memory }
  if pc = base then moved.returnLr else moved.returnStackedLr

theorem memmove_eq_memcpy {guest : Guest} {pc base : BitVec 32}
    (apart : guest.CopiesApart pc base) : guest.memmove pc base = guest.memcpy pc base := by
  have small : (guest.register .r2).toNat ≤ 2 ^ 64 := by
    have bound := (guest.register .r2).isLt
    omega
  rw [memmove, memcpy, ChunkedCopy.copy_eq_move Nat.one_pos small apart]

/-- The bytes at the source, stored at the destination. -/
theorem writeBytes_readBytes (guest : Guest) (source dest : BitVec 64) (count : Nat) :
    guest.writeBytes dest (guest.readBytes source count) =
      { guest with memory := ChunkedCopy.move source dest count guest.memory } := by
  rw [writeBytes]
  congr 1
  funext target
  rw [ChunkedCopy.move]
  by_cases inside : (target - dest).toNat < count
  · rw [if_pos inside, List.getD_eq_getElem _ _ (by rwa [length_readBytes])]
    simp only [readBytes, Bus.slice, List.getElem_map, List.getElem_range]
    rw [BitVec.ofNat_toNat, BitVec.setWidth_eq]
  · rw [if_neg inside, List.getD_eq_default _ _ (by rw [length_readBytes]; omega)]

theorem foldl_storeByte (memory : BitVec 64 → Byte) (dest : BitVec 64) (value : Byte)
    {count : Nat} (small : count ≤ 2 ^ 64) (target : BitVec 64) :
    (List.range count).foldl
        (fun memory index => storeByte memory (dest + BitVec.ofNat 64 index) value) memory target =
      (List.replicate count value).getD (target - dest).toNat (memory target) := by
  induction count with
  | zero => rfl
  | succ count inductionHypothesis =>
      have before := inductionHypothesis (Nat.le_of_succ_le small)
      rw [List.range_succ, List.foldl_append, List.foldl_cons, List.foldl_nil, storeByte]
      by_cases here : target = dest + BitVec.ofNat 64 count
      · have place : (target - dest).toNat = count := by
          rw [here, add_sub_cancel_left, BitVec.toNat_ofNat, Nat.mod_eq_of_lt small]
        rw [here, Function.update_self, ← here, place, List.getD_eq_getElem _ _
          (by rw [List.length_replicate]; exact Nat.lt_succ_self count), List.getElem_replicate]
      · have elsewhere : (target - dest).toNat ≠ count := by
          intro same
          apply here
          rw [← same, BitVec.ofNat_toNat, BitVec.setWidth_eq, add_comm, sub_add_cancel]
        rw [Function.update_of_ne here, before]
        by_cases inside : (target - dest).toNat < count
        · rw [List.getD_eq_getElem _ _ (by rwa [List.length_replicate]),
            List.getD_eq_getElem _ _ (by rw [List.length_replicate]; omega),
            List.getElem_replicate, List.getElem_replicate]
        · rw [List.getD_eq_default _ _ (by rw [List.length_replicate]; omega),
            List.getD_eq_default _ _ (by rw [List.length_replicate]; omega)]

theorem memset_eq_writeBytes (guest : Guest) (pc base : BitVec 32) :
    guest.memset pc base =
      let filled := guest.writeBytes (guest.copyDest pc base)
        (List.replicate (guest.register .r2).toNat ((guest.register .r1).setWidth 8))
      if pc = base then filled.returnLr else filled.returnStackedR4 := by
  have small : (guest.register .r2).toNat ≤ 2 ^ 64 := by
    have bound := (guest.register .r2).isLt
    omega
  have filled : (List.range (guest.register .r2).toNat).foldl
      (fun memory index => storeByte memory (guest.copyDest pc base + BitVec.ofNat 64 index)
        ((guest.register .r1).setWidth 8)) guest.memory =
      (guest.writeBytes (guest.copyDest pc base)
        (List.replicate (guest.register .r2).toNat ((guest.register .r1).setWidth 8))).memory := by
    funext target
    exact foldl_storeByte guest.memory _ _ small target
  rw [memset, filled]
  rfl

/-- `bootutil_img_hash`: the hash of the seed and of the image where it is loaded. -/
def bootutilImgHash (guest : Guest) : Guest :=
  let sp := (guest.register .sp).setWidth 64
  let hashResult := guest.readU32 (sp + 4)
  let seed := guest.readBytes ((guest.readU32 (sp + 8)).setWidth 64)
    (guest.readU32 (sp + 12)).toNat
  let header := (parseHeader
    (guest.readBytes ((guest.register .r1).setWidth 64) imageHeaderSize)).2
  let image := guest.readBytes (header.loadAddr.setWidth 64) (hashRegionSize header)
  ((guest.writeBytes (hashResult.setWidth 64) (Sha256.digest (seed ++ image))).setRegister
    .r0 0).returnLr

end Guest

/-! ### The handlers -/

section Handlers

variable {Machine : Type} {context : Context Machine} {config : Config}
  {world next prepared : World Machine} {pc base : BitVec 32} {actions : List Action}

/-- The address that a handler goes on with. -/
theorem copyDest_eq_some {dest currentDest : BitVec 32}
    (isDest : dest = (world.guest context).register .r0)
    (taken : (if pc = base then pure dest else getV7mState context .r3 :
      Attempt (World Machine) (BitVec 32)).outcome world = (some currentDest, next)) :
    currentDest.setWidth 64 = (world.guest context).copyDest pc base ∧ next = world := by
  unfold Guest.copyDest
  split_ifs at taken ⊢
  · cases taken
    exact ⟨by rw [isDest], rfl⟩
  · cases taken
    exact ⟨rfl, rfl⟩

theorem finishMemcpy_effect (guest : Guest) (loaded : BitVec 32) :
    ((if pc = base then [Action.setV7mState .pc (guest.register .lr)]
      else hotpathFinishStackedLr (guest.register .sp)).foldl Action.effect (guest, loaded)).1 =
      if pc = base then guest.returnLr else guest.returnStackedLr := by
  split_ifs
  · rfl
  · rfl

theorem finishMemset_effect (guest : Guest) (loaded : BitVec 32) :
    ((if pc = base then [Action.setV7mState .pc (guest.register .lr)]
      else hotpathFinishMemset (guest.register .sp) (guest.register .lr)).foldl Action.effect
        (guest, loaded)).1 =
      if pc = base then guest.returnLr else guest.returnStackedR4 := by
  split_ifs
  · rfl
  · rfl

/-- What `memcpy` has prepared is a `memmove`. -/
theorem hotpathMemcpy_effect
    (prepares : (hotpathMemcpy context config pc base).outcome world = (some actions, prepared)) :
    (actions.foldl Action.effect (prepared.guest context, prepared.loaded)).1 =
      (world.guest context).memmove pc base := by
  simp only [hotpathMemcpy, outcome_guard_bind_eq_some, getV7mState_bind] at prepares
  obtain ⟨-, prepares⟩ := prepares
  obtain ⟨currentDest, after, taken, prepares⟩ := outcome_bind_eq_some.mp prepares
  obtain ⟨isDest, same⟩ := copyDest_eq_some rfl taken
  rw [same] at prepares
  simp only [getV7mState_bind] at prepares
  by_cases empty : (world.guest context).register .r2 = 0
  · rw [if_pos empty] at prepares
    obtain ⟨finishes, rfl⟩ := Prod.mk.inj prepares
    rw [← Option.some.inj finishes, finishMemcpy_effect, Guest.memmove, empty]
    have nothing (source dest : BitVec 64) (memory : BitVec 64 → Byte) :
        ChunkedCopy.move source dest (0 : BitVec 32).toNat memory = memory := by
      funext target
      exact if_neg (Nat.not_lt_zero _)
    rw [nothing]
  · rw [if_neg empty] at prepares
    obtain ⟨-, prepares⟩ := outcome_guard_bind_eq_some.mp prepares
    obtain ⟨data, between, read, prepares⟩ := outcome_bind_eq_some.mp prepares
    obtain ⟨_, last, written, prepares⟩ := outcome_bind_eq_some.mp prepares
    obtain ⟨rfl, kept⟩ := hotpathDmiBytes_eq_some read
    obtain ⟨-, stillKept⟩ := hotpathDmiBytes_eq_some written
    obtain ⟨finishes, rfl⟩ := Prod.mk.inj prepares
    rw [← Option.some.inj finishes, List.foldl_cons, stillKept, kept, isDest]
    dsimp only [Action.effect]
    rw [Guest.writeBytes_readBytes]
    exact finishMemcpy_effect _ _

theorem hotpathMemset_effect
    (prepares : (hotpathMemset context config pc base).outcome world = (some actions, prepared)) :
    (actions.foldl Action.effect (prepared.guest context, prepared.loaded)).1 =
      (world.guest context).memset pc base := by
  rw [Guest.memset_eq_writeBytes]
  simp only [hotpathMemset, outcome_guard_bind_eq_some, getV7mState_bind] at prepares
  obtain ⟨-, prepares⟩ := prepares
  obtain ⟨currentDest, after, taken, prepares⟩ := outcome_bind_eq_some.mp prepares
  obtain ⟨isDest, same⟩ := copyDest_eq_some rfl taken
  rw [same] at prepares
  simp only [getV7mState_bind, outcome_guard_bind_eq_some] at prepares
  obtain ⟨-, prepares⟩ := prepares
  by_cases empty : (world.guest context).register .r2 = 0
  · rw [if_pos empty] at prepares
    obtain ⟨finishes, rfl⟩ := Prod.mk.inj prepares
    rw [← Option.some.inj finishes, finishMemset_effect, empty]
    rfl
  · rw [if_neg empty] at prepares
    obtain ⟨_, last, written, prepares⟩ := outcome_bind_eq_some.mp prepares
    obtain ⟨-, kept⟩ := hotpathDmiBytes_eq_some written
    obtain ⟨finishes, rfl⟩ := Prod.mk.inj prepares
    rw [← Option.some.inj finishes, List.foldl_cons, kept, isDest]
    exact finishMemset_effect _ _

theorem sha256_eq_digest (seed image : List Byte) :
    sha256 seed image = Sha256.digest (seed ++ image) := by
  rw [sha256]
  by_cases empty : seed = []
  · rw [if_pos empty, empty]
    exact (RseLmsAccel.Sha256.Streams.reset.update image).finish
  · rw [if_neg empty]
    exact ((RseLmsAccel.Sha256.Streams.reset.update seed).update image).finish

theorem readSeed_eq_some {address : BitVec 64} {count : BitVec 32} {bytes : List Byte}
    (taken : (if count = 0 then pure [] else hotpathReadBytes context address count.toNat :
      Attempt (World Machine) (List Byte)).outcome world = (some bytes, next)) :
    bytes = (world.guest context).readBytes address count.toNat ∧
      next.guest context = world.guest context := by
  split_ifs at taken with empty
  · cases taken
    rw [empty]
    exact ⟨rfl, rfl⟩
  · obtain ⟨isRead, kept, -⟩ := hotpathReadBytes_eq_some taken
    exact ⟨isRead, kept⟩

theorem prepareBl2ImgHash_effect
    (prepares : (prepareBl2ImgHash context config pc).outcome world = (some actions, prepared)) :
    (actions.foldl Action.effect (prepared.guest context, prepared.loaded)).1 =
      (world.guest context).bootutilImgHash := by
  simp only [prepareBl2ImgHash, outcome_guard_bind_eq_some, getV7mState_bind] at prepares
  obtain ⟨-, -, prepares⟩ := prepares
  obtain ⟨hashResult, first, read, prepares⟩ := outcome_bind_eq_some.mp prepares
  obtain ⟨rfl, firstKept, -⟩ := hotpathReadU32_eq_some read
  obtain ⟨seed, second, read, prepares⟩ := outcome_bind_eq_some.mp prepares
  obtain ⟨rfl, secondKept, -⟩ := hotpathReadU32_eq_some read
  obtain ⟨seedLen, third, read, prepares⟩ := outcome_bind_eq_some.mp prepares
  obtain ⟨rfl, thirdKept, -⟩ := hotpathReadU32_eq_some read
  obtain ⟨-, prepares⟩ := outcome_guard_bind_eq_some.mp prepares
  obtain ⟨hdrBytes, fourth, read, prepares⟩ := outcome_bind_eq_some.mp prepares
  obtain ⟨rfl, fourthKept, -⟩ := hotpathReadBytes_eq_some read
  obtain ⟨-, prepares⟩ := outcome_guard_bind_eq_some.mp prepares
  obtain ⟨image, fifth, read, prepares⟩ := outcome_bind_eq_some.mp prepares
  obtain ⟨rfl, fifthKept, -⟩ := hotpathReadBytes_eq_some read
  obtain ⟨seedBytes, sixth, taken, prepares⟩ := outcome_bind_eq_some.mp prepares
  obtain ⟨rfl, sixthKept⟩ := readSeed_eq_some taken
  have kept₂ := secondKept.trans firstKept
  have kept₃ := thirdKept.trans kept₂
  have kept₄ := fourthKept.trans kept₃
  have kept₅ := fifthKept.trans kept₄
  have kept₆ := sixthKept.trans kept₅
  rw [getV7mState_bind] at prepares
  obtain ⟨finishes, rfl⟩ := Prod.mk.inj prepares
  rw [← Option.some.inj finishes, sha256_eq_digest, firstKept, kept₂, kept₃, kept₄, kept₅, kept₆]
  rfl

end Handlers

/-- A copy routine that is taken over leaves the guest as its own loop would, unless it copies
bytes that it has written itself: then it moves what was there before. -/
theorem hotpath_handled {Machine : Type} (context : Context Machine) (config : Config)
    {world next : World Machine} {pc : BitVec 32}
    (isPc : (context.getPc world.machine).setWidth 32 = pc)
    (handled : tryHotpathAccel context config world = (true, next)) :
    (HotpathMemcpySafePc pc (entryOf config.hotpathMemcpyAddr) ∧
        next.guest context =
          (world.guest context).memmove pc (entryOf config.hotpathMemcpyAddr) ∧
        ((world.guest context).CopiesApart pc (entryOf config.hotpathMemcpyAddr) →
          next.guest context =
            (world.guest context).memcpy pc (entryOf config.hotpathMemcpyAddr))) ∨
      (HotpathMemsetSafePc pc (entryOf config.hotpathMemsetAddr) ∧
        next.guest context =
          (world.guest context).memset pc (entryOf config.hotpathMemsetAddr)) := by
  rw [tryHotpathAccel, isPc, hotpathHandlers] at handled
  split_ifs at handled with off copies sets
  · cases handled
  · obtain ⟨actions, prepared, prepares, performed⟩ := firstOf_single_eq_true handled
    have guest := congrArg Prod.fst (perform_effect performed)
    rw [hotpathMemcpy_effect prepares] at guest
    exact .inl ⟨copies.2, guest, fun apart => guest.trans (Guest.memmove_eq_memcpy apart)⟩
  · obtain ⟨actions, prepared, prepares, performed⟩ := firstOf_single_eq_true handled
    have guest := congrArg Prod.fst (perform_effect performed)
    rw [hotpathMemset_effect prepares] at guest
    exact .inr ⟨sets.2, guest⟩
  · cases handled

/-- Two bytes from inside the loop of `memcpy`. -/
def copyingGuest : Guest where
  register
    | .r1 => 0x20
    | .r2 => 2
    | .r3 => 0x30
    | .sp => 0x40
    | .pc => 0x114
    | _ => 0
  memory address := address.setWidth 8

theorem hotpath_handled_loop :
    let config : Config := { hotpathAccel := true, hotpathMemcpyAddr := 0x101 }
    let world : World Guest := { accel := {}, machine := copyingGuest }
    let next := (tryHotpathAccel Context.steady config world).2
    (HotpathMemcpySafePc 0x114 (entryOf 0x101) ∧
        next.guest Context.steady = copyingGuest.memmove 0x114 (entryOf 0x101) ∧
        (copyingGuest.CopiesApart 0x114 (entryOf 0x101) →
          next.guest Context.steady = copyingGuest.memcpy 0x114 (entryOf 0x101))) ∨
      (HotpathMemsetSafePc 0x114 (entryOf config.hotpathMemsetAddr) ∧
        next.guest Context.steady =
          copyingGuest.memset 0x114 (entryOf config.hotpathMemsetAddr)) := by
  intro config world next
  have handled : (tryHotpathAccel Context.steady config world).1 = true := by decide +kernel
  exact @hotpath_handled _ Context.steady config world next 0x114 rfl (Prod.ext handled rfl)

/-- A call of `bootutil_img_hash` that is taken over leaves the hash of the seed and the image,
and success, for the caller. -/
theorem bl2ImgHash_handled {Machine : Type} (context : Context Machine) (config : Config)
    {world next : World Machine} {pc : BitVec 32}
    (handled : (tryBl2ImgHashAccelAtPc context config pc).outcome world = (some (), next)) :
    next.guest context = (world.guest context).bootutilImgHash := by
  obtain ⟨actions, prepared, prepares, performed⟩ := outcome_bind_eq_some.mp handled
  exact (congrArg Prod.fst (perform_effect performed)).trans (prepareBl2ImgHash_effect prepares)

/-- A seed of four bytes and an image of eight past its header, which is loaded where the header
stands. -/
def hashingGuest : Guest :=
  let guest : Guest :=
    { register := fun
        | .r1 => 0x200
        | .sp => 0x100
        | _ => 0
      memory := fun address => address.setWidth 8 }
  let called := guest.writeBytes 0x104 (toBytes 4 0x400#32 ++ toBytes 4 0x300#32 ++ toBytes 4 4#32)
  called.writeBytes 0x200 (toBytes 4 imageMagic ++ toBytes 4 0x200#32 ++ toBytes 2 32#16 ++
    toBytes 2 0#16 ++ toBytes 4 8#32 ++ toBytes 4 0#32)

theorem bl2ImgHash_handled_seeded :
    let config : Config := { bl2ImgHashAccel := true, bl2BootutilImgHashAddr := 0x100 }
    let world : World Guest := { accel := {}, machine := hashingGuest }
    ((tryBl2ImgHashAccelAtPc Context.steady config 0x100).outcome world).2.guest Context.steady =
      hashingGuest.bootutilImgHash := by
  intro config world
  have handled : ((tryBl2ImgHashAccelAtPc Context.steady config 0x100).outcome world).1 =
      some () := by
    decide +kernel
  exact @bl2ImgHash_handled _ Context.steady config world _ 0x100 (Prod.ext handled rfl)

end QboxPlatform.RseCpuAccel
