import QboxPlatform.Tlm

/-!
# The host generic timer

`host_gtimer`: a frame of registers in which, once the counter base is enabled, the two words of
the count and the frequency are computed.  The counter advances when its low word is read.
-/

namespace QboxPlatform.HostGtimer

open Foundation

def regBytes : Nat := 0x1000
def pctl : Nat := 0x000
def pcth : Nat := 0x004
def frq : Nat := 0x010

structure Params where
  counterBase : Bool := false
  frequency : BitVec 32 := 125000000
  counterIncrement : BitVec 64 := 4096

structure Gtimer where
  regs : Image
  counter : BitVec 64

namespace Gtimer

variable (params : Params) (gtimer : Gtimer)

def load32 (offset : Nat) : BitVec 32 := gtimer.regs.load32 offset

def nextCounterValue : BitVec 64 × Gtimer :=
  let counter := gtimer.counter + params.counterIncrement
  (counter, { gtimer with counter := counter })

def read32 (offset : Nat) : BitVec 32 × Gtimer :=
  if params.counterBase ∧ offset = pctl then
    let (counter, next) := gtimer.nextCounterValue params
    (counter.setWidth 32, next)
  else if params.counterBase ∧ offset = pcth then
    ((gtimer.counter >>> 32).setWidth 32, gtimer)
  else if params.counterBase ∧ offset = frq then (params.frequency, gtimer)
  else (gtimer.load32 offset, gtimer)

def resetRegisters : Gtimer where
  regs := Image.store32 (fun _ => 0) frq params.frequency
  counter := 0

/-- The accesses of both transports.  `none` if one leaves the register array, which one that
wraps around the address space does. -/
def access (access : Access) : Option (Response × Gtimer) :=
  if access.exceeds regBytes then some (.addressError, gtimer)
  else
    match access with
    | .read offset len =>
        if regBytes < offset.toNat + len then none
        else if len = 4 ∧ offset.toNat % 4 = 0 then
          let (value, next) := gtimer.read32 params (offset.setWidth 32).toNat
          some (.ok (toBytes 4 value), next)
        else some (.ok (gtimer.regs.read offset.toNat len), gtimer)
    | .write offset data =>
        if regBytes < offset.toNat + data.length then none
        else some (.ok [], { gtimer with regs := gtimer.regs.write offset.toNat data })
    | .ignore _ _ => some (.commandError, gtimer)

end Gtimer

/-! ### The count registers -/

/-- A read of the low word of the count. -/
def readPctl : Access := .read (BitVec.ofNat 64 pctl) 4

/-- A read of the high word of the count. -/
def readPcth : Access := .read (BitVec.ofNat 64 pcth) 4

namespace Gtimer

variable {params : Params} {gtimer next : Gtimer} {response : Response}

/-- The low word is that of the counter after it has advanced. -/
theorem access_readPctl (counting : params.counterBase = true) :
    gtimer.access params readPctl =
      some (.ok (toBytes 4 ((gtimer.counter + params.counterIncrement).setWidth 32)),
        { gtimer with counter := gtimer.counter + params.counterIncrement }) := by
  simp [access, readPctl, pctl, Access.exceeds, Access.len, Access.offset, isSupportedLength,
    regBytes, read32, nextCounterValue, counting]

/-- The high word is that of the counter as it stands. -/
theorem access_readPcth (counting : params.counterBase = true) :
    gtimer.access params readPcth =
      some (.ok (toBytes 4 ((gtimer.counter >>> 32).setWidth 32)), gtimer) := by
  simp [access, readPcth, pctl, pcth, Access.exceeds, Access.len, Access.offset,
    isSupportedLength, regBytes, read32, counting]

theorem read32_counter {offset : Nat} (other : offset ≠ pctl) :
    (gtimer.read32 params offset).2.counter = gtimer.counter := by
  unfold read32
  split_ifs with low
  · exact absurd low.2 other
  · rfl
  · rfl
  · rfl

/-- Only a read of the low word advances the counter. -/
theorem access_counter {access : Access} (other : access ≠ readPctl)
    (served : gtimer.access params access = some (response, next)) :
    next.counter = gtimer.counter := by
  unfold Gtimer.access at served
  split_ifs at served with exceeds
  · cases served
    rfl
  · cases access with
    | read offset len =>
        dsimp only at served
        split_ifs at served with outside aligned
        · cases served
          apply read32_counter
          intro low
          apply other
          obtain ⟨rfl, -⟩ := aligned
          have inside : offset.toNat < 2 ^ 32 := by
            have bound : regBytes = 0x1000 := rfl
            omega
          have zero : offset.toNat = 0 := by
            rwa [BitVec.toNat_setWidth, Nat.mod_eq_of_lt inside] at low
          rw [readPctl, pctl, BitVec.eq_of_toNat_eq (x := offset) (y := BitVec.ofNat 64 0) zero]
        · cases served
          rfl
    | write offset data =>
        dsimp only at served
        split_ifs at served
        cases served
        rfl
    | ignore offset len =>
        cases served
        rfl

end Gtimer

end QboxPlatform.HostGtimer
