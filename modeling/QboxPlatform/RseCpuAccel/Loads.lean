import QboxPlatform.RseCpuAccel.Keys

/-!
# Loads and whole-image decryption

The load handler decides by the snapshot that the lookup finds for a buffer, and by the mark of its
image.  Beside the accelerator stand, byte by byte, the last load that covered the byte and whether
the accelerator has decrypted it since.
-/

namespace QboxPlatform.RseCpuAccel

open Foundation

/-- The addresses of the payload of an image. -/
def InPayload (loadAddr hdrSize imgSize : BitVec 32) (address : Nat) : Prop :=
  loadAddr.toNat + hdrSize.toNat ≤ address ∧
    address < loadAddr.toNat + hdrSize.toNat + imgSize.toNat
  deriving Decidable

namespace FoundImage

abbrev InPayload (image : FoundImage) (address : Nat) : Prop :=
  RseCpuAccel.InPayload image.loadAddr image.hdrSize image.imgSize address

end FoundImage

namespace Bl2RamLoadSnapshot

abbrev InPayload (snapshot : Bl2RamLoadSnapshot) (address : Nat) : Prop :=
  RseCpuAccel.InPayload snapshot.lastLoadAddr snapshot.lastHdrSize snapshot.lastImgSize address

end Bl2RamLoadSnapshot

namespace ImageHeader

abbrev InPayload (header : ImageHeader) (address : Nat) : Prop :=
  RseCpuAccel.InPayload header.loadAddr (header.hdrSize.setWidth 32) header.imgSize address

end ImageHeader

/-- The bytes of the buffer of a call, the one it starts at included in any case. -/
def DecryptCall.InBuffer (call : DecryptCall) (address : Nat) : Prop :=
  call.buf.toNat ≤ address ∧ address < call.buf.toNat + max call.size.toNat 1
  deriving Decidable

/-- The guest loads an image, or calls the routines around the decryption; the load handler is the
one that runs at a decryption, not the handler of the chunks. -/
inductive LoadCall (Machine : Type)
  | setKey (machine : Machine)
  | load (machine : Machine)
  | decrypt (machine : Machine)

structure LoadHistory where
  accel : Accel
  /-- The loads so far; they are numbered from one on. -/
  loads : Nat
  /-- The last load that covered a byte. -/
  owner : Nat → Nat
  /-- The accelerator has decrypted the byte since. -/
  plain : Nat → Bool
  /-- The load that the snapshot of an image was captured from. -/
  snapshotOf : Nat → Nat

section Histories

variable {Machine : Type} (context : Context Machine) (config : Config)

namespace LoadHistory

def initial : LoadHistory := ⟨{}, 0, fun _ => 0, fun _ => false, fun _ => 0⟩

/-- The snapshot of a load is captured and supported. -/
def captures (history : LoadHistory) (machine : Machine) : Bool :=
  ((captureBl2RamLoadSnapshot context config).outcome ⟨history.accel, machine, 0⟩).1 = some true

/-- Fresh ciphertext at the payload of the image that the guest loads. -/
def load (history : LoadHistory) (machine : Machine) : LoadHistory where
  accel := history.accel.afterLoad context config machine
  loads := history.loads + 1
  owner := fun address =>
    if ((context.guest machine).loadedHeader config).InPayload address then history.loads + 1
    else history.owner address
  plain := fun address =>
    if ((context.guest machine).loadedHeader config).InPayload address then false
    else history.plain address
  snapshotOf :=
    if history.captures context config machine then
      Function.update history.snapshotOf ((context.guest machine).currImg config).toNat
        (history.loads + 1)
    else history.snapshotOf

/-- The image that the load handler transforms in a call. -/
def transforms (history : LoadHistory) (machine : Machine) :
    Option (DecryptCall × FoundImage × Decryption) :=
  loadTransforms context config (entryOf config.bl2BootEncDecryptAddr)
    ⟨history.accel, machine, 0⟩

/-- The image that the load handler skips in a call. -/
def skips (history : LoadHistory) (machine : Machine) : Option (DecryptCall × FoundImage) :=
  loadSkips context config (entryOf config.bl2BootEncDecryptAddr) ⟨history.accel, machine, 0⟩

def decrypt (history : LoadHistory) (machine : Machine) : LoadHistory :=
  { history with
    accel := history.accel.afterLoadDecrypt context config machine
    plain := fun address =>
      (history.transforms context config machine).any
          (fun transformed => transformed.2.1.InPayload address) ||
        history.plain address }

def step (history : LoadHistory) : LoadCall Machine → Option LoadHistory
  | .setKey machine => some
      { history with accel := history.accel.afterSetKey context config machine }
  | .load machine =>
      if ((context.guest machine).currImg config).toNat < config.bl2BootImageCount.toNat then
        some (history.load context config machine)
      else none
  | .decrypt machine => some (history.decrypt context config machine)

/-- The bytes at the buffer of a call belong to one load, the last that covers them, and the
accelerator has decrypted them since. -/
def Decrypted (history : LoadHistory) (call : DecryptCall) : Prop :=
  ∃ load, load ≠ 0 ∧ ∀ address, call.InBuffer address →
    history.owner address = load ∧ history.plain address = true

/-- A call is skipped only if its buffer is decrypted, and an image is transformed only if it is
not: no byte of its payload has been decrypted since its last load. -/
def DecryptsOnce (history : LoadHistory) : LoadCall Machine → Prop
  | .setKey _ => True
  | .load _ => True
  | .decrypt machine =>
      (∀ call image, history.skips context config machine = some (call, image) →
        history.Decrypted call) ∧
      ∀ call image decryption,
        history.transforms context config machine = some (call, image, decryption) →
          ¬ history.Decrypted call ∧
            ∀ address, image.InPayload address → history.plain address = false

/-- No later load has covered the buffer of a call that is skipped, nor the payload of an image
that is transformed, since the snapshot that the lookup finds was captured. -/
def SnapshotIsLast (history : LoadHistory) : LoadCall Machine → Prop
  | .setKey _ => True
  | .load _ => True
  | .decrypt machine =>
      (∀ call image, history.skips context config machine = some (call, image) →
        ∀ address, call.InBuffer address →
          history.owner address = history.snapshotOf image.currImg) ∧
      ∀ call image decryption,
        history.transforms context config machine = some (call, image, decryption) →
          ∀ address, image.InPayload address →
            history.owner address = history.snapshotOf image.currImg

/-- What the marks of the images say about the bytes. -/
structure Tracked (history : LoadHistory) : Prop where
  bounded : ∀ address, history.owner address ≤ history.loads
  numbered : ∀ image, history.snapshotOf image ≤ history.loads
  distinct : ∀ first second, history.snapshotOf first = history.snapshotOf second →
    history.snapshotOf first ≠ 0 → first = second
  known : ∀ image, (history.accel.snapshots image).hits ≠ 0 → history.snapshotOf image ≠ 0
  inside : ∀ image address, history.snapshotOf image ≠ 0 →
    (history.accel.snapshots image).lastUnsupportedMask = 0 →
    history.owner address = history.snapshotOf image →
    (history.accel.snapshots image).InPayload address
  marked : ∀ image address, history.snapshotOf image ≠ 0 →
    history.owner address = history.snapshotOf image →
    history.plain address = history.accel.imageDecrypted image

end LoadHistory

variable {context config}

theorem loadDecryptImage_eq_some {accel : Accel} {call : DecryptCall} {image : FoundImage}
    (found : loadDecryptImage config accel call = some image) :
    (accel.snapshots image.currImg).Matches call.off call.buf ∧
      image.loadAddr = (accel.snapshots image.currImg).lastLoadAddr ∧
      image.hdrSize = (accel.snapshots image.currImg).lastHdrSize ∧
      image.imgSize = (accel.snapshots image.currImg).lastImgSize := by
  obtain ⟨found, -⟩ := Option.filter_eq_some_iff.mp found
  obtain ⟨index, searched, rfl⟩ := Option.map_eq_some_iff.mp found
  have matching := List.find?_some searched
  exact ⟨of_decide_eq_true matching, rfl, rfl, rfl⟩

theorem account_record {currImg : Nat} (few : currImg < bl2RamLoadSnapshotImageSlots)
    (header : ImageHeader) (accel : Accel) :
    accountBl2RamLoadSnapshot currImg 0 (recordBl2RamLoadSnapshot currImg header 0 accel) =
      { accel with
        snapshots := Function.update accel.snapshots currImg
          { hits := (accel.snapshots currImg).hits + 1
            lastLoadAddr := header.loadAddr
            lastHdrSize := header.hdrSize.setWidth 32
            lastImgSize := header.imgSize
            lastFlags := header.flags
            lastUnsupportedMask := 0 }
        imageDecrypted := Function.update accel.imageDecrypted currImg false } := by
  rw [accountBl2RamLoadSnapshot, if_pos ⟨rfl, few⟩, recordBl2RamLoadSnapshot, if_pos few]
  simp only [Function.update_self, Function.update_idem]

theorem afterSetKey_images (accel : Accel) (machine : Machine) :
    (accel.afterSetKey context config machine).snapshots = accel.snapshots ∧
      (accel.afterSetKey context config machine).imageDecrypted = accel.imageDecrypted := by
  by_cases captured : (setKeyCall context config machine).captured = true
  · rw [afterSetKey_of_captured accel captured]
    exact ⟨rfl, rfl⟩
  · rw [afterSetKey_of_not_captured accel (Bool.eq_false_iff.mpr captured)]
    exact ⟨rfl, rfl⟩

namespace LoadHistory

variable {history next : LoadHistory}

theorem tracked_initial : initial.Tracked where
  bounded := fun _ => Nat.le_refl 0
  numbered := fun _ => Nat.le_refl 0
  distinct := fun _ _ _ nonzero => (nonzero rfl).elim
  known := fun _ hits => (hits rfl).elim
  inside := fun _ _ nonzero => (nonzero rfl).elim
  marked := fun _ _ nonzero => (nonzero rfl).elim

theorem Tracked.not_covered (tracked : history.Tracked) (machine : Machine) {image address : Nat}
    (owned : (history.load context config machine).owner address = history.snapshotOf image) :
    ¬ ((context.guest machine).loadedHeader config).InPayload address ∧
      history.owner address = history.snapshotOf image := by
  have before := tracked.numbered image
  by_cases covered : ((context.guest machine).loadedHeader config).InPayload address
  · simp only [load, if_pos covered] at owned
    omega
  · simp only [load, if_neg covered] at owned
    exact ⟨covered, owned⟩

theorem Tracked.bounded_load (tracked : history.Tracked) (machine : Machine) (address : Nat) :
    (history.load context config machine).owner address ≤ history.loads + 1 := by
  simp only [load]
  split
  · exact Nat.le_refl _
  · exact Nat.le_succ_of_le (tracked.bounded address)

theorem Tracked.load_of_not_captured (tracked : history.Tracked) (machine : Machine)
    (missed : history.captures context config machine = false)
    (snapshots : ∀ image, ((history.accel.afterLoad context config machine).snapshots image).hits =
        (history.accel.snapshots image).hits ∧
      (((history.accel.afterLoad context config machine).snapshots image).lastUnsupportedMask = 0 →
        (history.accel.afterLoad context config machine).snapshots image =
          history.accel.snapshots image))
    (marks : (history.accel.afterLoad context config machine).imageDecrypted =
      history.accel.imageDecrypted) :
    (history.load context config machine).Tracked := by
  have same : (history.load context config machine).snapshotOf = history.snapshotOf := by
    simp only [load, missed, Bool.false_eq_true, if_false]
  constructor
  · exact tracked.bounded_load machine
  · intro image
    rw [same]
    exact Nat.le_succ_of_le (tracked.numbered image)
  · rw [same]
    exact tracked.distinct
  · intro image hits
    rw [same]
    apply tracked.known
    rwa [← (snapshots image).1]
  · intro image address nonzero supported owned
    rw [same] at nonzero owned
    have kept := (snapshots image).2 supported
    have before := (tracked.not_covered machine owned).2
    simp only [load, kept] at supported ⊢
    exact tracked.inside image address nonzero supported before
  · intro image address nonzero owned
    rw [same] at nonzero owned
    obtain ⟨uncovered, before⟩ := tracked.not_covered machine owned
    simp only [load, if_neg uncovered, marks]
    exact tracked.marked image address nonzero before

theorem Tracked.covered_iff (tracked : history.Tracked) (machine : Machine) (address : Nat) :
    (history.load context config machine).owner address = history.loads + 1 ↔
      ((context.guest machine).loadedHeader config).InPayload address := by
  have before := tracked.bounded address
  simp only [load]
  split
  · rename_i covered
    exact iff_of_true rfl covered
  · rename_i uncovered
    exact iff_of_false (by omega) uncovered

theorem Tracked.load_of_captured (tracked : history.Tracked) (machine : Machine)
    (captured : history.captures context config machine = true)
    (few : ((context.guest machine).currImg config).toNat < bl2RamLoadSnapshotImageSlots)
    (recorded : history.accel.afterLoad context config machine =
      accountBl2RamLoadSnapshot ((context.guest machine).currImg config).toNat 0
        (recordBl2RamLoadSnapshot ((context.guest machine).currImg config).toNat
          ((context.guest machine).loadedHeader config) 0 history.accel)) :
    (history.load context config machine).Tracked := by
  rw [account_record few] at recorded
  have newest : (history.load context config machine).snapshotOf =
      Function.update history.snapshotOf ((context.guest machine).currImg config).toNat
        (history.loads + 1) := by
    simp only [load, captured, if_true]
  have after : (history.load context config machine).accel = _ := recorded
  constructor
  · exact tracked.bounded_load machine
  · intro image
    rw [newest]
    have before := tracked.numbered image
    by_cases same : image = ((context.guest machine).currImg config).toNat
    · rw [same, Function.update_self]
      exact Nat.le_refl _
    · rw [Function.update_of_ne same]
      exact Nat.le_succ_of_le before
  · intro first second
    rw [newest]
    have firstBefore := tracked.numbered first
    have secondBefore := tracked.numbered second
    by_cases isFirst : first = ((context.guest machine).currImg config).toNat
    · by_cases isSecond : second = ((context.guest machine).currImg config).toNat
      · exact fun _ _ => isFirst.trans isSecond.symm
      · rw [isFirst, Function.update_self, Function.update_of_ne isSecond]
        omega
    · by_cases isSecond : second = ((context.guest machine).currImg config).toNat
      · rw [isSecond, Function.update_self, Function.update_of_ne isFirst]
        omega
      · rw [Function.update_of_ne isFirst, Function.update_of_ne isSecond]
        exact tracked.distinct first second
  · intro image
    rw [newest, after]
    dsimp only
    by_cases same : image = ((context.guest machine).currImg config).toNat
    · rw [same, Function.update_self, Function.update_self]
      exact fun _ => Nat.succ_ne_zero _
    · rw [Function.update_of_ne same, Function.update_of_ne same]
      exact tracked.known image
  · intro image address
    rw [newest, after]
    dsimp only
    by_cases same : image = ((context.guest machine).currImg config).toNat
    · rw [same, Function.update_self, Function.update_self]
      exact fun _ _ owned => (tracked.covered_iff machine address).mp owned
    · rw [Function.update_of_ne same, Function.update_of_ne same]
      intro nonzero supported owned
      exact tracked.inside image address nonzero supported (tracked.not_covered machine owned).2
  · intro image address
    rw [newest, after]
    dsimp only
    by_cases same : image = ((context.guest machine).currImg config).toNat
    · rw [same, Function.update_self, Function.update_self]
      intro _ owned
      simp only [load, if_pos ((tracked.covered_iff machine address).mp owned)]
    · rw [Function.update_of_ne same, Function.update_of_ne same]
      intro nonzero owned
      obtain ⟨uncovered, before⟩ := tracked.not_covered machine owned
      simp only [load, if_neg uncovered]
      exact tracked.marked image address nonzero before

theorem Tracked.load (tracked : history.Tracked) (machine : Machine) :
    (history.load context config machine).Tracked := by
  have ends := @captureBl2RamLoadSnapshot_ends _ context config ⟨history.accel, machine, 0⟩
  generalize ended : (captureBl2RamLoadSnapshot context config).outcome
    ⟨history.accel, machine, 0⟩ = outcome at ends
  have captures : history.captures context config machine = decide (outcome.1 = some true) := by
    rw [LoadHistory.captures, ended]
  have after : history.accel.afterLoad context config machine = outcome.2.accel := by
    rw [Accel.afterLoad, ended]
  cases ends with
  | stopped same =>
      apply tracked.load_of_not_captured machine captures
      · intro image
        rw [after, same]
        exact ⟨rfl, fun _ => rfl⟩
      · rw [after, same]
  | unsupported currImg header mask flagged recorded =>
      apply tracked.load_of_not_captured machine captures
      · intro image
        rw [after, recorded, recordBl2RamLoadSnapshot]
        split
        · dsimp only
          by_cases same : image = currImg
          · rw [same, Function.update_self]
            exact ⟨rfl, fun supported => (flagged supported).elim⟩
          · rw [Function.update_of_ne same]
            exact ⟨rfl, fun _ => rfl⟩
        · exact ⟨rfl, fun _ => rfl⟩
      · rw [after, recorded, recordBl2RamLoadSnapshot]
        split
        · rfl
        · rfl
  | supported inside few recorded =>
      exact tracked.load_of_captured machine captures (Nat.lt_of_lt_of_le inside few)
        (after.trans recorded)

theorem transforms_eq_some {machine : Machine} {call : DecryptCall} {image : FoundImage}
    {decryption : Decryption}
    (transforms : history.transforms context config machine = some (call, image, decryption)) :
    loadDecryptImage config history.accel call = some image ∧ call.off = 0 ∧
      history.accel.imageDecrypted image.currImg = false := by
  rw [LoadHistory.transforms, loadTransforms] at transforms
  split at transforms
  · rename_i other found done next took
    split at transforms
    · cases transforms
      obtain ⟨-, image, found, skips | ⟨unmarked, start, decryption, same, -⟩⟩ :=
        takeBl2LoadDecrypt_eq_some took
      · cases skips.2
      · cases same
        exact ⟨found, start, unmarked⟩
    · cases transforms
  · cases transforms

theorem skips_eq_some {machine : Machine} {call : DecryptCall} {image : FoundImage}
    (skips : history.skips context config machine = some (call, image)) :
    loadDecryptImage config history.accel call = some image ∧
      history.accel.imageDecrypted image.currImg = true := by
  rw [LoadHistory.skips, loadSkips] at skips
  split at skips
  · rename_i other found next took
    split at skips
    · cases skips
      obtain ⟨-, image, found, ⟨marked, same⟩ | ⟨-, -, decryption, same, -⟩⟩ :=
        takeBl2LoadDecrypt_eq_some took
      · cases same
        exact ⟨found, marked⟩
      · cases same
    · cases skips
  · cases skips

/-- The image that the lookup finds has a load behind its snapshot, and its payload is what the
snapshot says. -/
theorem Tracked.found (tracked : history.Tracked) {call : DecryptCall} {image : FoundImage}
    (found : loadDecryptImage config history.accel call = some image) :
    history.snapshotOf image.currImg ≠ 0 ∧
      (history.accel.snapshots image.currImg).lastUnsupportedMask = 0 ∧
      (∀ address, image.InPayload address ↔
        (history.accel.snapshots image.currImg).InPayload address) ∧
      (call.off = 0 → image.InPayload call.buf.toNat) := by
  obtain ⟨matching, loadAddr, hdrSize, imgSize⟩ := loadDecryptImage_eq_some found
  obtain ⟨hits, supported, -, -, inside, start⟩ := matching
  refine ⟨tracked.known _ hits, supported, fun address => ?_, fun atStart => ?_⟩
  · rw [FoundImage.InPayload, Bl2RamLoadSnapshot.InPayload, loadAddr, hdrSize, imgSize]
  · rw [FoundImage.InPayload, InPayload, loadAddr, hdrSize, imgSize]
    rw [atStart] at inside start
    have positive : 0 < (history.accel.snapshots image.currImg).lastImgSize.toNat := inside
    have sum := congrArg BitVec.toNat start
    rw [BitVec.toNat_add, BitVec.toNat_add, BitVec.toNat_setWidth, BitVec.toNat_setWidth,
      BitVec.toNat_setWidth, BitVec.toNat_setWidth] at sum
    simp at sum
    omega

theorem Tracked.decrypt (tracked : history.Tracked) {machine : Machine}
    (last : history.SnapshotIsLast context config (.decrypt machine)) :
    (history.decrypt context config machine).Tracked := by
  rcases transforms : history.transforms context config machine with
    _ | ⟨call, image, decryption⟩
  · have same : history.decrypt context config machine = history := by
      rw [LoadHistory.decrypt, transforms, Accel.afterLoadDecrypt,
        tryBl2LoadDecrypt_accel_of_none transforms]
      rfl
    rwa [same]
  · obtain ⟨found, -, -⟩ := transforms_eq_some transforms
    obtain ⟨nonzero, supported, payload, -⟩ := tracked.found found
    have owned := last.2 call image decryption transforms
    have accel : (history.decrypt context config machine).accel =
        markDecrypted image.currImg history.accel := by
      rw [LoadHistory.decrypt, Accel.afterLoadDecrypt,
        tryBl2LoadDecrypt_accel_of_transforms transforms]
    refine ⟨tracked.bounded, tracked.numbered, tracked.distinct, ?_, ?_, ?_⟩
    · rw [accel]
      exact tracked.known
    · rw [accel]
      exact tracked.inside
    · intro other address otherNonzero otherOwned
      rw [accel]
      simp only [LoadHistory.decrypt, transforms, Option.any_some, markDecrypted]
      by_cases covered : image.InPayload address
      · have same : other = image.currImg := by
          apply tracked.distinct other image.currImg _ otherNonzero
          exact otherOwned.symm.trans (owned address covered)
        rw [same, Function.update_self, decide_eq_true covered, Bool.true_or]
      · have different : other ≠ image.currImg := by
          rintro rfl
          exact covered ((payload address).mpr
            (tracked.inside _ address nonzero supported otherOwned))
        rw [Function.update_of_ne different, decide_eq_false covered, Bool.false_or]
        exact tracked.marked other address otherNonzero otherOwned

/-- While no later load covers what the snapshots speak of, nothing is skipped that is not
decrypted, and nothing is decrypted twice. -/
theorem Tracked.decryptsOnce (tracked : history.Tracked) {event : LoadCall Machine}
    (last : history.SnapshotIsLast context config event) :
    history.DecryptsOnce context config event := by
  cases event with
  | setKey machine => trivial
  | load machine => trivial
  | decrypt machine =>
      constructor
      · intro call image skips
        obtain ⟨found, marked⟩ := skips_eq_some skips
        obtain ⟨nonzero, -⟩ := tracked.found found
        refine ⟨history.snapshotOf image.currImg, nonzero, fun address inside => ?_⟩
        have owned := last.1 call image skips address inside
        exact ⟨owned, (tracked.marked _ address nonzero owned).trans marked⟩
      · intro call image decryption transforms
        obtain ⟨found, atStart, unmarked⟩ := transforms_eq_some transforms
        obtain ⟨nonzero, -, -, start⟩ := tracked.found found
        have encrypted : ∀ address, image.InPayload address → history.plain address = false := by
          intro address inside
          have owned := last.2 call image decryption transforms address inside
          exact (tracked.marked _ address nonzero owned).trans unmarked
        refine ⟨?_, encrypted⟩
        rintro ⟨load, -, decrypted⟩
        have plain := (decrypted call.buf.toNat ⟨Nat.le_refl _, by omega⟩).2
        rw [encrypted _ (start atStart)] at plain
        cases plain

theorem tracked_step {event : LoadCall Machine} (tracked : history.Tracked)
    (last : history.SnapshotIsLast context config event)
    (stepped : history.step context config event = some next) : next.Tracked := by
  cases event with
  | setKey machine =>
      cases stepped
      obtain ⟨snapshots, marks⟩ := @afterSetKey_images _ context config history.accel machine
      refine ⟨tracked.bounded, tracked.numbered, tracked.distinct, ?_, ?_, ?_⟩
      · rw [snapshots]
        exact tracked.known
      · rw [snapshots]
        exact tracked.inside
      · rw [marks]
        exact tracked.marked
  | load machine =>
      rw [step] at stepped
      split at stepped
      · cases stepped
        exact tracked.load machine
      · cases stepped
  | decrypt machine =>
      cases stepped
      exact tracked.decrypt last

end LoadHistory

/-- In every run in which no later load covers the buffers that are skipped and the images that are
transformed, calls are skipped and images are transformed as they should be. -/
theorem along_decryptsOnce (calls : List (LoadCall Machine))
    (last : Along (LoadHistory.step context config) (LoadHistory.SnapshotIsLast context config)
      .initial calls) :
    Along (LoadHistory.step context config) (LoadHistory.DecryptsOnce context config) .initial
      calls :=
  along_of_invariant (fun _ _ _ tracked here => LoadHistory.tracked_step tracked here)
    (fun _ _ _ tracked here _ => tracked.decryptsOnce here) LoadHistory.tracked_initial last

/-- The load handler alone, with the entries that it watches. -/
def wholeConfig : Config :=
  { bl2LoadAccel := true, bl2BootEncSetKeyAddr := 0x1000, bl2BootEncDecryptAddr := 0x2000 }

/-- An image of one block at `0x200000`, encrypted and to be loaded to RAM. -/
def blockHeader : List Byte :=
  [0x3d, 0xb8, 0xf3, 0x96, 0, 0, 0x20, 0, 0x20, 0, 0, 0, 16, 0, 0, 0, 0x24, 0, 0, 0] ++
    List.replicate 12 0

/-- The load entry, with the block as the image of a number. -/
def loadingBlock (image : Byte) : Guest where
  register := Function.update (fun _ => 0) .r0 0x10000
  memory := fun address =>
    if address = 0x110c8 then image
    else blockHeader.getD (address - 0x10000 - image.setWidth 64 * 88).toNat 0

/-- The decrypt entry, for the block. -/
def decryptingImage : Guest where
  register := Function.update (Function.update (Function.update (fun _ => 0) .r0 0x100) .r3 16)
    .sp 0x8000
  memory := fun address => if address = 0x8004 ∨ address = 0x8006 then 0x20 else 0

/-- The accelerator after a key is set and the first image is loaded. -/
def loadedOnce : Accel :=
  (Accel.afterSetKey Context.steady wholeConfig {} (settingKey 0)).afterLoad Context.steady
    wholeConfig (loadingBlock 0)

/-- The image that the lookup finds at first. -/
def firstBlock : FoundImage := ⟨0, 0x200000, 0x20, 16, 0x24⟩

theorem loadedOnce_taken :
    ∃ decryption next, (takeBl2LoadDecrypt Context.steady wholeConfig
        (entryOf wholeConfig.bl2BootEncDecryptAddr)).outcome ⟨loadedOnce, decryptingImage, 0⟩ =
      (some (decryptingImage.decryptCall, .decrypt firstBlock decryption), next) := by
  have crypts : Cc3xx.aesCtrXcryptBuffer (List.replicate 16 0) .zero
      (decryptingImage.readBytes 0x200020 16) 0 =
      some (Cc3xx.ctrOutput (List.replicate 16 0) .zero
        (decryptingImage.readBytes 0x200020 16)) := by
    rw [Cc3xx.aesCtrXcryptBuffer, if_neg (by decide), dif_pos (by decide)]
    exact Cc3xx.ctrBufferLoop_eq (Or.inl rfl) _ _
  exact ⟨_, _, takeBl2LoadDecrypt_of_reads rfl (by decide) rfl (by decide) (by decide) (by decide)
    (by decide) (Or.inl rfl) rfl crypts⟩

theorem loadedOnce_transforms :
    ∃ decryption, loadTransforms Context.steady wholeConfig
        (entryOf wholeConfig.bl2BootEncDecryptAddr) ⟨loadedOnce, decryptingImage, 0⟩ =
      some (decryptingImage.decryptCall, firstBlock, decryption) := by
  obtain ⟨decryption, next, took⟩ := loadedOnce_taken
  refine ⟨decryption, ?_⟩
  rw [loadTransforms, took]
  rfl

theorem loadedOnce_skips :
    loadSkips Context.steady wholeConfig (entryOf wholeConfig.bl2BootEncDecryptAddr)
      ⟨loadedOnce, decryptingImage, 0⟩ = none := by
  obtain ⟨decryption, next, took⟩ := loadedOnce_taken
  rw [loadSkips, took]

theorem loadedOnce_marked :
    loadedOnce.afterLoadDecrypt Context.steady wholeConfig decryptingImage =
      markDecrypted 0 loadedOnce := by
  obtain ⟨decryption, transforms⟩ := loadedOnce_transforms
  exact tryBl2LoadDecrypt_accel_of_transforms transforms

/-- One image is loaded, and its decryption is called for twice. -/
def repeatedCalls : List (LoadCall Guest) :=
  [.setKey (settingKey 0), .load (loadingBlock 0), .decrypt decryptingImage,
    .decrypt decryptingImage]

theorem along_decryptsOnce_repeated :
    Along (LoadHistory.step Context.steady wholeConfig)
      (LoadHistory.DecryptsOnce Context.steady wholeConfig) .initial repeatedCalls := by
  apply along_decryptsOnce
  obtain ⟨output, only⟩ := loadedOnce_transforms
  rintro first ⟨⟩
  refine ⟨trivial, ?_⟩
  rintro second ⟨⟩
  refine ⟨trivial, ?_⟩
  rintro third ⟨⟩
  refine ⟨⟨?_, ?_⟩, ?_⟩
  · intro call image skips
    cases skips.symm.trans loadedOnce_skips
  · intro call image decryption transforms address inside
    cases transforms.symm.trans only
    have covered : ((Context.steady.guest (loadingBlock 0)).loadedHeader wholeConfig).InPayload
        address := inside
    simp only [LoadHistory.load, if_pos covered]
    rfl
  rintro fourth ⟨⟩
  have skipped : loadSkips Context.steady wholeConfig (entryOf wholeConfig.bl2BootEncDecryptAddr)
      ⟨loadedOnce.afterLoadDecrypt Context.steady wholeConfig decryptingImage, decryptingImage,
        0⟩ = some (decryptingImage.decryptCall, firstBlock) := by
    rw [loadedOnce_marked]
    decide
  have kept : loadTransforms Context.steady wholeConfig
      (entryOf wholeConfig.bl2BootEncDecryptAddr)
      ⟨loadedOnce.afterLoadDecrypt Context.steady wholeConfig decryptingImage, decryptingImage,
        0⟩ = none := by
    rw [loadedOnce_marked]
    decide
  refine ⟨⟨?_, ?_⟩, trivial⟩
  · intro call image skips address inside
    cases skips.symm.trans skipped
    have covered : ((Context.steady.guest (loadingBlock 0)).loadedHeader wholeConfig).InPayload
        address := inside
    simp only [LoadHistory.decrypt, LoadHistory.load, if_pos covered]
    rfl
  · intro call image decryption transforms
    cases transforms.symm.trans kept

/-- Two images are loaded to one address, one after the other, and each is to be decrypted. -/
def overlaidCalls : List (LoadCall Guest) :=
  [.setKey (settingKey 0), .load (loadingBlock 0), .decrypt decryptingImage,
    .load (loadingBlock 1), .decrypt decryptingImage]

/-- The second image is skipped, as if it were the first. -/
theorem not_along_decryptsOnce_overlaid :
    ¬ Along (LoadHistory.step Context.steady wholeConfig)
      (LoadHistory.DecryptsOnce Context.steady wholeConfig) .initial overlaidCalls := by
  intro exact
  obtain ⟨⟨skipped, -⟩, -⟩ := ((((exact _ rfl).2 _ rfl).2 _ rfl).2 _ rfl).2 _ rfl
  have skips : loadSkips Context.steady wholeConfig (entryOf wholeConfig.bl2BootEncDecryptAddr)
      ⟨(markDecrypted 0 loadedOnce).afterLoad Context.steady wholeConfig (loadingBlock 1),
        decryptingImage, 0⟩ = some (decryptingImage.decryptCall, firstBlock) := by
    decide
  rw [← loadedOnce_marked] at skips
  obtain ⟨load, -, decrypted⟩ := skipped _ _ skips
  have plain := (decrypted 0x200020 (by decide)).2
  revert plain
  decide

end Histories

end QboxPlatform.RseCpuAccel
