import QboxPlatform.Foundation.Bytes
import QboxPlatform.Foundation.Event

/-!
# Power domains and their resets

What the SCMI power messages drive: the recorded state of each domain, the one
pending reset request with its delayed event, and the reset lines that the thread
`emit_power_domain_reset` writes.  System power has a request and a thread of its own.
-/

namespace QboxPlatform.Mhu

open Foundation

/-- The parameters of the reset logic; delays are in nanoseconds. -/
structure PowerConfig where
  powerDomainResetCount : Nat := 0
  powerDomainResetDelay : Nat := 1
  powerDomainResetAssertOnPowerOff : Bool := true
  powerDomainResetPulseOnPowerOn : Bool := false
  systemPowerResetDelay : Nat := 1
  systemPowerResetPulseWidth : Nat := 1

def powerDomainStateCount : Nat := 256

/-- Where the thread `emit_system_power_reset` stands. -/
inductive SystemResetThread
  | waiting
  | woken
  | pulsing (due : Nat)
  deriving DecidableEq

structure PowerControl where
  powerDomainStates : Nat → BitVec 32 := fun _ => 0#32
  powerDomainState : BitVec 32 := 0#32
  pendingPowerDomainResetValid : Bool := false
  pendingPowerDomainResetId : BitVec 32 := 0#32
  pendingPowerDomainResetState : BitVec 32 := 0#32
  powerDomainResetEvent : Event := {}
  /-- The event has fired and `emit_power_domain_reset` has not run since. -/
  powerDomainResetWoken : Bool := false
  pendingSystemPowerResetValid : Bool := false
  pendingSystemPowerState : BitVec 32 := 0#32
  systemPowerResetEvent : Event := {}
  systemPowerResetThread : SystemResetThread := .waiting
  /-- The levels last written to the lines. -/
  powerDomainReset : Nat → Bool := fun _ => false
  powerOnReset : Bool := false
  systemReset : Bool := false

def powerStateIsOn (powerState : BitVec 32) : Bool := powerState &&& 0xf == 1
def powerStateIsOff (powerState : BitVec 32) : Bool := powerState &&& 0xf == 0

def scmiSysPowerColdReset : BitVec 32 := 1
def scmiSysPowerWarmReset : BitVec 32 := 2

def sysPowerStateIsReset (systemState : BitVec 32) : Bool :=
  systemState == scmiSysPowerColdReset || systemState == scmiSysPowerWarmReset

namespace PowerControl

variable (config : PowerConfig)

def writePowerOnReset (control : PowerControl) (asserted : Bool) : PowerControl :=
  { control with powerOnReset := asserted }

/-- A domain without a port has no line to write. -/
def writePowerDomainReset (control : PowerControl) (domainId : Nat) (asserted : Bool) :
    PowerControl :=
  if domainId < config.powerDomainResetCount then
    { control with
      powerDomainReset := Function.update control.powerDomainReset domainId asserted }
  else control

def drivePowerDomainReset (control : PowerControl) (domainId : Nat) (powerState : BitVec 32) :
    PowerControl :=
  if powerStateIsOn powerState then
    let pulsed :=
      if config.powerDomainResetPulseOnPowerOn then
        control.writePowerDomainReset config domainId true
      else control
    (pulsed.writePowerDomainReset config domainId false).writePowerOnReset false
  else if powerStateIsOff powerState then
    if config.powerDomainResetAssertOnPowerOff then
      (control.writePowerDomainReset config domainId true).writePowerOnReset true
    else control
  else control

/-- Record a domain's state and ask for its reset line: the request replaces the
pending one, while the event keeps its earlier notification. -/
def applyPowerDomainState (now : Nat) (control : PowerControl)
    (domainId powerState : BitVec 32) : PowerControl :=
  { control with
    powerDomainStates :=
      if domainId.toNat < powerDomainStateCount then
        Function.update control.powerDomainStates domainId.toNat powerState
      else control.powerDomainStates
    powerDomainState := powerState
    pendingPowerDomainResetId := domainId
    pendingPowerDomainResetState := powerState
    pendingPowerDomainResetValid := true
    powerDomainResetEvent :=
      control.powerDomainResetEvent.notify (now + config.powerDomainResetDelay) }

def readPowerDomainState (control : PowerControl) (domainId : BitVec 32) : BitVec 32 :=
  if domainId.toNat < powerDomainStateCount then control.powerDomainStates domainId.toNat
  else control.powerDomainState

/-- One pass of `emit_power_domain_reset`, from its wake-up to its next wait. -/
def emitPowerDomainReset (control : PowerControl) : PowerControl :=
  let waiting := { control with powerDomainResetWoken := false }
  if control.pendingPowerDomainResetValid then
    { waiting with pendingPowerDomainResetValid := false }.drivePowerDomainReset config
      control.pendingPowerDomainResetId.toNat control.pendingPowerDomainResetState
  else waiting

/-- The reset event fires; the thread has not run yet. -/
def firePowerDomainReset (now : Nat) (control : PowerControl) : Option PowerControl :=
  if control.powerDomainResetEvent.ready now then
    some { control with powerDomainResetEvent := {}, powerDomainResetWoken := true }
  else none

/-- The woken thread runs. -/
def runPowerDomainReset (control : PowerControl) : Option PowerControl :=
  if control.powerDomainResetWoken then some (control.emitPowerDomainReset config) else none

def scheduleSystemPowerReset (now : Nat) (control : PowerControl) (systemState : BitVec 32) :
    PowerControl :=
  if sysPowerStateIsReset systemState then
    { control with
      pendingSystemPowerState := systemState
      pendingSystemPowerResetValid := true
      systemPowerResetEvent :=
        control.systemPowerResetEvent.notify (now + config.systemPowerResetDelay) }
  else control

/-- One stretch of `emit_system_power_reset`: the start of the pulse, or its end. -/
def emitSystemPowerReset (now : Nat) (control : PowerControl) : PowerControl :=
  match control.systemPowerResetThread with
  | .waiting => control
  | .woken =>
      if control.pendingSystemPowerResetValid then
        { control with
          pendingSystemPowerResetValid := false
          systemReset := true
          systemPowerResetThread := .pulsing (now + config.systemPowerResetPulseWidth) }
      else { control with systemPowerResetThread := .waiting }
  | .pulsing _ => { control with systemReset := false, systemPowerResetThread := .waiting }

end PowerControl

end QboxPlatform.Mhu
