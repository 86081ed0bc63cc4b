import QboxPlatform.Foundation.Run
import QboxPlatform.Tlm

/-!
# The life-cycle manager of the RSE

`rse_lcm`: a register image with the one-time programmable memory in it, and the life-cycle state
that provisioning writes move on.
-/

namespace QboxPlatform.RseLcm

open Foundation

def regBytes : Nat := 0x11000
def lcsValue : Nat := 0x000
def keyErr : Nat := 0x004
def tpMode : Nat := 0x008
def fatalErr : Nat := 0x00c
def spEnable : Nat := 0x014
def otpAddrWidth : Nat := 0x018
def otpSize : Nat := 0x01c
def gppc : Nat := 0x020
def dcuEn : Nat := 0x100
def dcuLock : Nat := 0x110
def otpWindow : Nat := 0x1000
def lcsCm : BitVec 32 := 0xcccc3c3c
def lcsDm : BitVec 32 := 0xdddd5a5a
def lcsSe : BitVec 32 := 0xeeeea5a5
def lcmTrue : BitVec 32 := 0xffffffff
def spEnableMagic : BitVec 32 := 0x5ec10e1e
def otpCmConfig2 : Nat := 0x0e8
def otpDmConfig : Nat := 0x0ec

structure Params where
  otpImage : String := ""
  lcs : BitVec 32 := 0xeeeea5a5
  tpMode : BitVec 32 := 0x2222aa55
  spEnable : BitVec 32 := 0x00000000
  otpSize : BitVec 32 := 0x00010000
  gppc : BitVec 32 := 0x00000000
  otpWriteback : Bool := false
  otpLockAfterProvision : Bool := true

/-- The end of the one-time programmable memory. -/
def Params.otpLimit (params : Params) : Nat :=
  otpWindow + min params.otpSize.toNat (regBytes - otpWindow)

structure Lcm where
  regs : Image
  otpLocked : Bool
  /-- The contents of the file at `otp_image`, if there is one. -/
  imageFile : Option (List Byte)

/-- The registers that word writes do not change. -/
def ignoredRegisters : List Nat := [lcsValue, keyErr, tpMode, otpAddrWidth, otpSize, gppc]

namespace Lcm

variable (params : Params) (lcm : Lcm)

def load32 (offset : Nat) : BitVec 32 := lcm.regs.load32 offset

def store32 (offset : Nat) (value : BitVec 32) : Lcm :=
  { lcm with regs := lcm.regs.store32 offset value }

/-- The sum is taken in 64 bits. -/
def isOtpAccess (offset : BitVec 64) (len : Nat) : Bool :=
  decide (otpWindow ≤ offset.toNat) && decide ((offset.toNat + len) % 2 ^ 64 ≤ params.otpLimit)

def rangeIncludes (offset len wordOffset : Nat) : Bool :=
  decide (offset ≤ wordOffset) && decide (wordOffset + 4 ≤ offset + len)

def updateLcsFromOtpWrite (offset len : Nat) : Lcm :=
  let configured :=
    if rangeIncludes offset len otpCmConfig2 && lcm.load32 lcsValue == lcsCm then
      lcm.store32 lcsValue lcsDm
    else lcm
  if rangeIncludes offset len otpDmConfig && configured.load32 lcsValue == lcsDm then
    let secured := configured.store32 lcsValue lcsSe
    if params.otpLockAfterProvision then { secured with otpLocked := true } else secured
  else configured

/-- The memory goes to the front of the file, which is created if it is missing. -/
def flushOtpImage : Lcm :=
  if !params.otpWriteback || params.otpImage == "" then lcm
  else
    let bytes := lcm.regs.read otpWindow (params.otpLimit - otpWindow)
    { lcm with imageFile := some (bytes ++ (lcm.imageFile.getD []).drop bytes.length) }

/-- Set the bits of the data. -/
def orBytes (regs : Image) (offset : Nat) (data : List Byte) : Image := fun index =>
  if offset ≤ index then regs index ||| data.getD (index - offset) 0 else regs index

/-- A write to the one-time programmable memory; `none` if the access is no such write.  A write
that wraps around the address space leaves the register array unless the memory is locked. -/
def writeOtp (offset : BitVec 64) (data : List Byte) : Option (Option Lcm) :=
  if !isOtpAccess params offset data.length then some none
  else if lcm.otpLocked then some (some lcm)
  else if regBytes < offset.toNat + data.length then none
  else
    let written := { lcm with regs := orBytes lcm.regs offset.toNat data }
    some (some ((written.updateLcsFromOtpWrite params (offset.toNat - otpWindow)
      data.length).flushOtpImage params))

def loadOtpImage : Lcm :=
  match lcm.imageFile with
  | some contents =>
      if params.otpImage == "" then lcm
      else { lcm with regs := lcm.regs.write otpWindow (contents.take (regBytes - otpWindow)) }
  | none => lcm

/-- The module after its construction, in front of the file at `otp_image`. -/
def resetRegisters (imageFile : Option (List Byte)) : Lcm :=
  let cleared : Lcm := { regs := fun _ => 0, otpLocked := false, imageFile := imageFile }
  let described :=
    ((((cleared.store32 lcsValue params.lcs).store32 keyErr 0).store32 RseLcm.tpMode
      params.tpMode).store32 fatalErr 0).store32 RseLcm.spEnable params.spEnable
  let sized :=
    ((described.store32 otpAddrWidth 0x00000010).store32 RseLcm.otpSize params.otpSize).store32
      RseLcm.gppc params.gppc
  let debugged := (List.range 4).foldl
    (fun current index => (current.store32 (dcuEn + index * 4) 0xffffffff).store32
      (dcuLock + index * 4) 0x00000000) sized
  debugged.loadOtpImage params

def write32 (offset : Nat) (value : BitVec 32) : Lcm :=
  if offset ∈ ignoredRegisters then lcm
  else if offset = spEnable then
    if value = spEnableMagic then
      let completed := lcm.store32 spEnable lcmTrue
      if params.otpLockAfterProvision then { completed with otpLocked := true } else completed
    else lcm.store32 spEnable value
  else lcm.store32 offset value

def rejected (access : Access) : Bool := access.exceeds regBytes

/-- `access`.  Apart from locked writes, an access that wraps around the address space leaves the
register array, which the language does not define. -/
def access (access : Access) : Option (Response × Lcm) :=
  if rejected access then some (.addressError, lcm)
  else
    match access with
    | .read offset len =>
        if regBytes < offset.toNat + len then none
        else some (.ok (lcm.regs.read offset.toNat len), lcm)
    | .write offset data =>
        (lcm.writeOtp params offset data).bind fun
          | some handled => some (.ok [], handled)
          | none =>
              if regBytes < offset.toNat + data.length then none
              else if data.length = 4 ∧ offset.toNat % 4 = 0 then
                some (.ok [], lcm.write32 params offset.toNat (ofBytes 32 data))
              else some (.ok [], { lcm with regs := lcm.regs.write offset.toNat data })
    | .ignore _ _ => some (.commandError, lcm)

def step (access : Access) : Option Lcm := (lcm.access params access).map Prod.snd

/-- The memory after data has been programmed into it. -/
def program (offset : Nat) (data : List Byte) : Lcm :=
  ((({ lcm with regs := orBytes lcm.regs offset data } : Lcm).updateLcsFromOtpWrite params
    (offset - otpWindow) data.length).flushOtpImage params)

/-- What an access can do. -/
inductive Effect : Access → Lcm → Prop
  | refused (access : Access) (isRejected : rejected access = true) : Effect access lcm
  | read (offset : BitVec 64) (len : Nat) : Effect (.read offset len) lcm
  | ignore (offset : BitVec 64) (len : Nat) : Effect (.ignore offset len) lcm
  | locked (offset : BitVec 64) (data : List Byte)
      (isProgramming : isOtpAccess params offset data.length = true)
      (isLocked : lcm.otpLocked = true) : Effect (.write offset data) lcm
  | programmed (offset : BitVec 64) (data : List Byte)
      (isProgramming : isOtpAccess params offset data.length = true)
      (isOpen : lcm.otpLocked = false) :
      Effect (.write offset data) (lcm.program params offset.toNat data)
  | word (offset : BitVec 64) (data : List Byte)
      (isAccepted : rejected (.write offset data) = false)
      (isPlain : isOtpAccess params offset data.length = false)
      (isWord : data.length = 4 ∧ offset.toNat % 4 = 0) :
      Effect (.write offset data) (lcm.write32 params offset.toNat (ofBytes 32 data))
  | bytes (offset : BitVec 64) (data : List Byte)
      (isAccepted : rejected (.write offset data) = false)
      (isPlain : isOtpAccess params offset data.length = false)
      (isNoWord : ¬ (data.length = 4 ∧ offset.toNat % 4 = 0)) :
      Effect (.write offset data) { lcm with regs := lcm.regs.write offset.toNat data }

variable {params lcm}

theorem writeOtp_of_plain {offset : BitVec 64} {data : List Byte}
    (isPlain : isOtpAccess params offset data.length = false) :
    lcm.writeOtp params offset data = some none := by
  simp [writeOtp, isPlain]

theorem writeOtp_of_locked {offset : BitVec 64} {data : List Byte}
    (isProgramming : isOtpAccess params offset data.length = true)
    (isLocked : lcm.otpLocked = true) :
    lcm.writeOtp params offset data = some (some lcm) := by
  simp [writeOtp, isProgramming, isLocked]

theorem writeOtp_of_open {offset : BitVec 64} {data : List Byte}
    (isProgramming : isOtpAccess params offset data.length = true)
    (isOpen : lcm.otpLocked = false) (fits : ¬ regBytes < offset.toNat + data.length) :
    lcm.writeOtp params offset data = some (some (lcm.program params offset.toNat data)) := by
  simp [writeOtp, program, isProgramming, isOpen, fits]

theorem step_effect {event : Access} {next : Lcm} (stepped : lcm.step params event = some next) :
    Effect params lcm event next := by
  simp only [step, Option.map_eq_some_iff, Prod.exists, exists_eq_right] at stepped
  obtain ⟨response, accessed⟩ := stepped
  unfold access at accessed
  by_cases isRejected : rejected event = true
  · simp only [isRejected, if_true, Option.some.injEq, Prod.mk.injEq] at accessed
    obtain ⟨-, rfl⟩ := accessed
    exact Effect.refused event isRejected
  · simp only [isRejected, if_false, Bool.false_eq_true] at accessed
    cases event with
    | read offset len =>
        simp only [Option.ite_none_left_eq_some, Option.some.injEq, Prod.mk.injEq] at accessed
        obtain ⟨-, -, rfl⟩ := accessed
        exact Effect.read offset len
    | ignore offset len =>
        simp only [Option.some.injEq, Prod.mk.injEq] at accessed
        obtain ⟨-, rfl⟩ := accessed
        exact Effect.ignore offset len
    | write offset data =>
        have isAccepted : rejected (.write offset data) = false := by simpa using isRejected
        dsimp only at accessed
        cases isProgramming : isOtpAccess params offset data.length with
        | true =>
            cases isLocked : lcm.otpLocked with
            | true =>
                rw [writeOtp_of_locked isProgramming isLocked] at accessed
                cases accessed
                exact Effect.locked offset data isProgramming isLocked
            | false =>
                by_cases beyond : regBytes < offset.toNat + data.length
                · simp [writeOtp, isProgramming, isLocked, beyond] at accessed
                · rw [writeOtp_of_open isProgramming isLocked beyond] at accessed
                  cases accessed
                  exact Effect.programmed offset data isProgramming isLocked
        | false =>
            rw [writeOtp_of_plain isProgramming, Option.bind_some,
              Option.ite_none_left_eq_some] at accessed
            by_cases isWord : data.length = 4 ∧ offset.toNat % 4 = 0
            · rw [if_pos isWord] at accessed
              cases accessed.2
              exact Effect.word offset data isAccepted isProgramming isWord
            · rw [if_neg isWord] at accessed
              cases accessed.2
              exact Effect.bytes offset data isAccepted isProgramming isWord

end Lcm

end QboxPlatform.RseLcm
