import QboxPlatform.Tlm

/-!
# The key management unit of the RSE

`rse_kmu`: a register image with 32 key slots in it.  The hardware slots are filled from the OTP
image at reset, and a command bit of a slot's configuration register sends the key of the slot over
the bus.
-/

namespace QboxPlatform.RseKmu

open Foundation

def regBytes : Nat := 0x1000
def kmuBc : Nat := 0x000
def kmuIs : Nat := 0x004
def kmuIe : Nat := 0x008
def kmuIc : Nat := 0x00c
def kmuPrbgsi : Nat := 0x010
def kmuKscBase : Nat := 0x030
def kmuDkpaBase : Nat := 0x0b0
def kmuKskBase : Nat := 0x130
def kmuRd8 : Nat := 0x530
def kmuRd16 : Nat := 0x534
def kmuRd32 : Nat := 0x538
def pidr4 : Nat := 0xfd0
def pidr0 : Nat := 0xfe0
def pidr1 : Nat := 0xfe4
def pidr2 : Nat := 0xfe8
def pidr3 : Nat := 0xfec
def cidr0 : Nat := 0xff0
def cidr1 : Nat := 0xff4
def cidr2 : Nat := 0xff8
def cidr3 : Nat := 0xffc

def slotCount : Nat := 32
def hwSlotCount : Nat := 7
def slotWords : Nat := 8
def otpHwKeyBytes : Nat := slotWords * 4
def kmuKskStride : Nat := slotWords * 4

def kmuIsKec : BitVec 32 := 1 <<< 0
def kmuKscVks : BitVec 32 := 1 <<< 24
def kmuKscKsr : BitVec 32 := 1 <<< 25
def kmuKscIks : BitVec 32 := 1 <<< 26
def kmuKscKsip : BitVec 32 := 1 <<< 27
def kmuKscEk : BitVec 32 := 1 <<< 28

structure Params where
  otpImage : String := ""
  buildConfig : BitVec 32 := 0x003d0005
  hwSlotConfig : BitVec 32 := 0x00d60100
  hwSlotExportAddress : BitVec 32 := 0x50154400

structure Kmu where
  regs : Image

/-- The hardware slots with a key in the OTP image and where it lies there: HUK, GUK, KP_CM,
KCE_CM, KP_DM and KCE_DM. -/
def otpOffsets : List (Nat × Nat) :=
  [(1, 0x00), (2, 0x20), (3, 0x40), (4, 0x60), (5, 0x80), (6, 0xa0)]

/-- The registers that word writes do not change. -/
def ignoredRegisters : List Nat :=
  [kmuBc, kmuIs, kmuRd8, kmuRd16, kmuRd32, pidr4, pidr0, pidr1, pidr2, pidr3, cidr0, cidr1, cidr2,
    cidr3]

def isSlotReg (offset base : Nat) : Bool :=
  decide (base ≤ offset) && decide (offset < base + slotCount * 4) && (offset - base) % 4 == 0

/-- The key registers of a slot. -/
def keyReg (slot : Nat) : Nat := kmuKskBase + slot * kmuKskStride

/-- A word that goes out over the bus. -/
structure Export where
  address : BitVec 64
  word : BitVec 32
  deriving DecidableEq

namespace Kmu

variable (params : Params) (kmu : Kmu)

def load32 (offset : Nat) : BitVec 32 := kmu.regs.load32 offset

def store32 (offset : Nat) (value : BitVec 32) : Kmu :=
  { kmu with regs := kmu.regs.store32 offset value }

def storeAll (stores : List (Nat × BitVec 32)) : Kmu :=
  stores.foldl (fun current store => current.store32 store.1 store.2) kmu

/-- Fill the slots from the image.  A key that the image has only a part of is the last one. -/
def loadKeys (contents : List Byte) : List (Nat × Nat) → Kmu → Kmu
  | [], kmu => kmu
  | (slot, offset) :: rest, kmu =>
      let key := (contents.drop offset).take otpHwKeyBytes
      let loaded : Kmu := { kmu with regs := kmu.regs.write (keyReg slot) key }
      if key.length = otpHwKeyBytes then loadKeys contents rest loaded else loaded

def loadOtpHardwareKeys (imageFile : Option (List Byte)) : Kmu :=
  match imageFile with
  | some contents =>
      if params.otpImage == "" then kmu else loadKeys contents otpOffsets kmu
  | none => kmu

/-- `reset_registers`, in front of the file at `otp_image`. -/
def resetRegisters (imageFile : Option (List Byte)) : Kmu :=
  let cleared : Kmu := { regs := fun _ => 0 }
  let described := cleared.storeAll
    [(kmuBc, params.buildConfig), (kmuIs, 0), (kmuIe, 0), (kmuIc, 0), (kmuPrbgsi, 0)]
  let configured := (List.range hwSlotCount).foldl
    (fun current slot => (current.store32 (kmuKscBase + slot * 4) params.hwSlotConfig).store32
      (kmuDkpaBase + slot * 4) params.hwSlotExportAddress) described
  (configured.loadOtpHardwareKeys params imageFile).storeAll
    [(kmuRd8, 0), (kmuRd16, 0), (kmuRd32, 0), (pidr4, 0x00000004), (pidr0, 0x000000f3),
      (pidr1, 0x000000b0), (pidr2, 0x0000001b), (pidr3, 0), (cidr0, 0x0000000d),
      (cidr1, 0x000000f0), (cidr2, 0x00000005), (cidr3, 0x000000b1)]

/-- Where the key of a slot goes: the register of the slot, or the parameter if it is zero. -/
def exportAddress (slot : Nat) : BitVec 64 :=
  let address := (kmu.load32 (kmuDkpaBase + slot * 4)).setWidth 64
  if address = 0 then params.hwSlotExportAddress.setWidth 64 else address

def exportKey (slot : Nat) : List Export :=
  (List.range slotWords).map fun word =>
    { address := kmu.exportAddress params slot + BitVec.ofNat 64 (word * 4)
      word := kmu.load32 (keyReg slot + word * 4) }

/-- Turn a command bit of a slot's configuration into its status bit. -/
def acknowledge (command status value : BitVec 32) : BitVec 32 :=
  if value &&& command ≠ 0 then value &&& ~~~command ||| status else value

def writeKmuksc (offset : Nat) (value : BitVec 32) : Kmu × List Export :=
  let slot := (offset - kmuKscBase) / 4
  let verified := acknowledge kmuKscVks kmuKscKsr (acknowledge kmuKscIks kmuKscKsip value)
  if verified &&& kmuKscEk ≠ 0 then
    ((kmu.store32 kmuIs (kmu.load32 kmuIs ||| kmuIsKec)).store32 offset
      (verified &&& ~~~kmuKscEk ||| kmuKscKsr), kmu.exportKey params slot)
  else (kmu.store32 offset verified, [])

def write32 (offset : Nat) (value : BitVec 32) : Kmu × List Export :=
  if offset ∈ ignoredRegisters then (kmu, [])
  else if offset = kmuIc then
    ((kmu.store32 kmuIs (kmu.load32 kmuIs &&& ~~~value)).store32 kmuIc value, [])
  else if isSlotReg offset kmuKscBase then kmu.writeKmuksc params offset value
  else (kmu.store32 offset value, [])

/-- `access`, with the words it sends.  An access that wraps around the address space leaves the
register array, which the language does not define. -/
def access (access : Access) : Option (Response × Kmu × List Export) :=
  if access.exceeds regBytes then some (.addressError, kmu, [])
  else
    match access with
    | .read offset len =>
        if regBytes < offset.toNat + len then none
        else some (.ok (kmu.regs.read offset.toNat len), kmu, [])
    | .write offset data =>
        if regBytes < offset.toNat + data.length then none
        else if data.length = 4 ∧ offset.toNat % 4 = 0 then
          some (.ok [], kmu.write32 params offset.toNat (ofBytes 32 data))
        else some (.ok [], { kmu with regs := kmu.regs.write offset.toNat data }, [])
    | .ignore _ _ => some (.commandError, kmu, [])

/-- `doreset`. -/
def doreset (value : Bool) (imageFile : Option (List Byte)) : Kmu :=
  if value then resetRegisters params imageFile else kmu

/-! ### The keys -/

/-- The key in a slot. -/
def key (slot : Nat) : List Byte := kmu.regs.read (keyReg slot) kmuKskStride

variable {params : Params} {kmu next : Kmu} {sent : List Export}

theorem store32_regs_outside (offset : Nat) (value : BitVec 32) {index : Nat}
    (outside : index < offset ∨ offset + 4 ≤ index) :
    (kmu.store32 offset value).regs index = kmu.regs index :=
  kmu.regs.store32_outside offset value outside

theorem storeAll_regs_outside (kmu : Kmu) {stores : List (Nat × BitVec 32)} {index : Nat}
    (outside : ∀ store ∈ stores, index < store.1 ∨ store.1 + 4 ≤ index) :
    (kmu.storeAll stores).regs index = kmu.regs index := by
  induction stores generalizing kmu with
  | nil => rfl
  | cons store rest inductionHypothesis =>
      have later := inductionHypothesis (kmu.store32 store.1 store.2) fun other member =>
        outside other (List.mem_cons_of_mem _ member)
      rw [storeAll, List.foldl_cons, ← storeAll, later]
      exact store32_regs_outside store.1 store.2 (outside store List.mem_cons_self)

/-- A word write changes its own word and the interrupt status. -/
theorem write32_regs_outside (params : Params) (kmu : Kmu) {offset : Nat} (value : BitVec 32)
    {index : Nat}
    (apart : index < offset ∨ offset + 4 ≤ index) (above : kmuIs + 4 ≤ index) :
    (kmu.write32 params offset value).1.regs index = kmu.regs index := by
  have status (value : BitVec 32) : (kmu.store32 kmuIs value).regs index = kmu.regs index :=
    store32_regs_outside kmuIs value (Or.inr above)
  unfold write32
  split_ifs with isIgnored isClear isSlot
  · rfl
  · rw [← isClear, store32_regs_outside offset value apart, status]
  · dsimp only [writeKmuksc]
    split_ifs
    · rw [store32_regs_outside offset _ apart, status]
    · exact store32_regs_outside offset _ apart
  · exact store32_regs_outside offset value apart

/-- An access that writes to no byte of a range above the interrupt status keeps the range. -/
theorem access_regs_outside {access : Access} {response : Response}
    (accessed : kmu.access params access = some (response, next, sent)) {low high index : Nat}
    (above : kmuIs + 4 ≤ low) (quiet : access.writesTo low high = false)
    (inside : low ≤ index ∧ index < high) : next.regs index = kmu.regs index := by
  unfold Kmu.access at accessed
  split_ifs at accessed
  · cases accessed
    rfl
  · cases access with
    | read offset len =>
        simp only [Option.ite_none_left_eq_some, Option.some.injEq, Prod.mk.injEq] at accessed
        rw [accessed.2.2.1]
    | ignore offset len =>
        cases accessed
        rfl
    | write offset data =>
        have apart := Access.outside_of_writesTo quiet inside
        rw [Option.ite_none_left_eq_some] at accessed
        by_cases isWord : data.length = 4 ∧ offset.toNat % 4 = 0
        · rw [if_pos isWord, Option.some.injEq, Prod.mk.injEq] at accessed
          have stored := write32_regs_outside params kmu (ofBytes 32 data) (isWord.1 ▸ apart)
            (above.trans inside.1)
          rwa [accessed.2.2] at stored
        · rw [if_neg isWord] at accessed
          cases accessed.2
          exact kmu.regs.write_outside offset.toNat data apart

end Kmu

end QboxPlatform.RseKmu
