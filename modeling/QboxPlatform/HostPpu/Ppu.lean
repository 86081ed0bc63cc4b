import QboxPlatform.Tlm

/-!
# The host PPU

`host_ppu`: a power policy written to `PWPR` is taken over into `PWSR` at once, and a thread
answers a transition to ON with a pulse on the load line and, after a delay, the release of the
reset line.
-/

namespace QboxPlatform.HostPpu

open Foundation

def regBytes : Nat := 0x1000
def ppuPwpr : Nat := 0x000
def ppuPmer : Nat := 0x004
def ppuPwsr : Nat := 0x008
def ppuPowerMask : BitVec 32 := 0x0000000f
def ppuPowerDynEnable : BitVec 32 := 0x00000100
def ppuPowerDynStatus : BitVec 32 := 0x00000100
def ppuOffLockEnable : BitVec 32 := 0x00001000
def ppuOffLockStatus : BitVec 32 := 0x00001000
def ppuOpPolicyMask : BitVec 32 := 0x000f0000
def ppuOpDynEnable : BitVec 32 := 0x01000000
def ppuOpDynStatus : BitVec 32 := 0x01000000
def ppuPowerStatusOff : BitVec 32 := 0x0
def ppuPowerStatusOn : BitVec 32 := 0x8

structure Params where
  initialPowerStatus : BitVec 32 := 0x00000000
  assertPowerOnReset : Bool := false
  powerOnResetAssertOnPowerOff : Bool := true
  assertPowerOnLoad : Bool := false

/-- Where the thread `emit_power_on_sequence` stands. -/
inductive SequenceThread
  | waiting
  | woken
  | loadPulse
  | resetDelay
  deriving DecidableEq

structure Ppu where
  regs : Image
  /-- A notification of the event of the sequence is outstanding. -/
  powerOnSequencePending : Bool
  thread : SequenceThread
  /-- The levels last written to the lines. -/
  powerOnReset : Bool
  powerOnLoad : Bool

def resetRegisters (params : Params) : Image :=
  let zero : Image := fun _ => 0
  zero.store32 ppuPwsr (params.initialPowerStatus &&& ppuPowerMask)

def powerStatusIsOn (status : BitVec 32) : Bool := status &&& ppuPowerMask == ppuPowerStatusOn

def powerStatusIsOff (status : BitVec 32) : Bool := status &&& ppuPowerMask == ppuPowerStatusOff

/-- The status that follows a policy. -/
def policyStatus (status value : BitVec 32) : BitVec 32 :=
  let cleared := status &&& ~~~(ppuPowerMask ||| ppuPowerDynStatus ||| ppuOffLockStatus |||
    ppuOpPolicyMask ||| ppuOpDynStatus)
  let policy := cleared ||| (value &&& (ppuPowerMask ||| ppuOpPolicyMask))
  let powerDyn := policy ||| if value &&& ppuPowerDynEnable ≠ 0 then ppuPowerDynStatus else 0
  let offLock := powerDyn ||| if value &&& ppuOffLockEnable ≠ 0 then ppuOffLockStatus else 0
  offLock ||| if value &&& ppuOpDynEnable ≠ 0 then ppuOpDynStatus else 0

namespace Ppu

variable (params : Params) (ppu : Ppu)

def pwsr : BitVec 32 := ppu.regs.load32 ppuPwsr

def store32 (offset : Nat) (value : BitVec 32) : Ppu :=
  { ppu with regs := ppu.regs.store32 offset value }

def writePowerOnReset (asserted : Bool) : Ppu := { ppu with powerOnReset := asserted }

def writePowerOnLoad (asserted : Bool) : Ppu := { ppu with powerOnLoad := asserted }

def observePowerTransition (previousStatus status : BitVec 32) : Ppu :=
  if !powerStatusIsOn previousStatus && powerStatusIsOn status then
    { ppu with powerOnSequencePending := true }
  else if powerStatusIsOn previousStatus && powerStatusIsOff status &&
      params.powerOnResetAssertOnPowerOff then
    ppu.writePowerOnReset true
  else ppu

def write32 (offset : Nat) (value : BitVec 32) : Ppu :=
  if offset = ppuPwpr then
    let previousStatus := ppu.pwsr
    let status := policyStatus previousStatus value
    ((ppu.store32 ppuPwpr value).store32 ppuPwsr status).observePowerTransition params
      previousStatus status
  else if offset = ppuPmer then ppu.store32 ppuPmer value
  else if offset = ppuPwsr then ppu
  else ppu.store32 offset value

/-- `none` if the access leaves the register array, which one that wraps around the address
space does. -/
def access (access : Access) : Option (Response × Ppu) :=
  if access.exceeds regBytes then some (.addressError, ppu)
  else
    match access with
    | .read offset len =>
        if regBytes < offset.toNat + len then none
        else some (.ok (ppu.regs.read offset.toNat len), ppu)
    | .write offset data =>
        if regBytes < offset.toNat + data.length then none
        else if data.length = 4 ∧ offset.toNat % 4 = 0 then
          some (.ok [], ppu.write32 params offset.toNat (ofBytes 32 data))
        else some (.ok [], { ppu with regs := ppu.regs.write offset.toNat data })
    | .ignore _ _ => some (.commandError, ppu)

/-! ### The thread of the sequence -/

/-- The event fires.  A thread that does not wait for it does not notice. -/
def firePowerOnSequence : Option Ppu :=
  if ppu.powerOnSequencePending then
    some { ppu with
      powerOnSequencePending := false
      thread := if ppu.thread = .waiting then .woken else ppu.thread }
  else none

/-- The part of the loop behind the load pulse, up to the next wait. -/
def beginResetDelay : Ppu :=
  { ppu with thread := if params.assertPowerOnReset then .resetDelay else .waiting }

/-- The thread runs from one wait of `emit_power_on_sequence` to the next one: woken by the event,
or once the time of a wait is over. -/
def runPowerOnSequence : Option Ppu :=
  match ppu.thread with
  | .waiting => none
  | .woken =>
      if params.assertPowerOnLoad then
        some { ppu.writePowerOnLoad true with thread := .loadPulse }
      else some (ppu.beginResetDelay params)
  | .loadPulse => some ((ppu.writePowerOnLoad false).beginResetDelay params)
  | .resetDelay => some { ppu.writePowerOnReset false with thread := .waiting }

end Ppu

/-! ### The power field of the status -/

theorem or_and_of_apart {word flag mask : BitVec 32} (apart : flag &&& mask = 0) :
    (word ||| flag) &&& mask = word &&& mask := by
  rw [BitVec.and_or_distrib_right, apart]
  exact BitVec.or_zero

theorem flag_and_of_apart {set : Prop} [Decidable set] {flag mask : BitVec 32}
    (apart : flag &&& mask = 0) : (if set then flag else 0) &&& mask = 0 := by
  by_cases holds : set
  · rwa [if_pos holds]
  · rw [if_neg holds]
    exact BitVec.zero_and

theorem policyStatus_power (status value : BitVec 32) :
    policyStatus status value &&& ppuPowerMask = value &&& ppuPowerMask := by
  have cleared : ∀ word : BitVec 32, word &&& ~~~(ppuPowerMask ||| ppuPowerDynStatus |||
      ppuOffLockStatus ||| ppuOpPolicyMask ||| ppuOpDynStatus) &&& ppuPowerMask = 0 := by
    intro word
    have apart : ~~~(ppuPowerMask ||| ppuPowerDynStatus ||| ppuOffLockStatus |||
      ppuOpPolicyMask ||| ppuOpDynStatus) &&& ppuPowerMask = 0 := by decide
    rw [BitVec.and_assoc, apart]
    exact BitVec.and_zero
  have within : (ppuPowerMask ||| ppuOpPolicyMask) &&& ppuPowerMask = ppuPowerMask := by decide
  simp only [policyStatus]
  rw [or_and_of_apart (flag_and_of_apart (by decide)),
    or_and_of_apart (flag_and_of_apart (by decide)),
    or_and_of_apart (flag_and_of_apart (by decide)),
    BitVec.or_comm, or_and_of_apart (cleared status), BitVec.and_assoc, within]

@[simp]
theorem powerStatusIsOn_policyStatus (status value : BitVec 32) :
    powerStatusIsOn (policyStatus status value) = powerStatusIsOn value := by
  rw [powerStatusIsOn, policyStatus_power, powerStatusIsOn]

@[simp]
theorem powerStatusIsOff_policyStatus (status value : BitVec 32) :
    powerStatusIsOff (policyStatus status value) = powerStatusIsOff value := by
  rw [powerStatusIsOff, policyStatus_power, powerStatusIsOff]

theorem not_off_of_on {status : BitVec 32} (on : powerStatusIsOn status = true) :
    powerStatusIsOff status = false := by
  rw [powerStatusIsOn, beq_iff_eq] at on
  rw [powerStatusIsOff, on]
  rfl

end QboxPlatform.HostPpu
