import QboxPlatform.RseLcm.Otp

/-!
# The life-cycle state

Provisioning moves the state from CM to DM and from DM to SE.  The state lies in the register
array, so stores that are no word writes reach it too; the law of the life cycle holds exactly in
the runs where such stores put the value there that is there already.
-/

namespace QboxPlatform.RseLcm

open Foundation

namespace Lcm

def lifecycle (lcm : Lcm) : BitVec 32 := lcm.load32 lcsValue

end Lcm

/-- The order of the life-cycle states. -/
def Forward (earlier later : Lcm) : Prop :=
  later.lifecycle = earlier.lifecycle ∨
  (earlier.lifecycle = lcsCm ∧ (later.lifecycle = lcsDm ∨ later.lifecycle = lcsSe)) ∨
  (earlier.lifecycle = lcsDm ∧ later.lifecycle = lcsSe)

/-- The write covers a word of the one-time programmable memory. -/
def Covers (word : Nat) : Access → Prop
  | .write offset data =>
      offset.toNat ≤ otpWindow + word ∧ otpWindow + word + 4 ≤ offset.toNat + data.length
  | _ => False

/-- What an access may do to the life-cycle state. -/
inductive Moves (before : Lcm) (event : Access) (after : Lcm) : Prop
  | stays (same : after.lifecycle = before.lifecycle)
  | provisions (isOpen : before.otpLocked = false) (covers : Covers otpCmConfig2 event)
      (isCm : before.lifecycle = lcsCm) (isDm : after.lifecycle = lcsDm)
  | secures (isOpen : before.otpLocked = false) (covers : Covers otpDmConfig event)
      (isDm : before.lifecycle = lcsDm) (isSe : after.lifecycle = lcsSe)
  | both (isOpen : before.otpLocked = false) (coversFirst : Covers otpCmConfig2 event)
      (coversSecond : Covers otpDmConfig event) (isCm : before.lifecycle = lcsCm)
      (isSe : after.lifecycle = lcsSe)

/-- The law of the life cycle over a run. -/
structure LifecycleLaw (params : Params) (start : Lcm) (events : List Access) : Prop where
  moves : Along (Lcm.step params) (fun before event => ∀ after,
    before.step params event = some after → Moves before event after) start events
  forward : Evolves (Lcm.step params) Forward start events

namespace Forward

theorem refl (lcm : Lcm) : Forward lcm lcm := Or.inl rfl

theorem trans {first second third : Lcm} (lower : Forward first second)
    (upper : Forward second third) : Forward first third := by
  have distinct : lcsCm ≠ lcsDm ∧ lcsCm ≠ lcsSe ∧ lcsDm ≠ lcsSe := by decide
  unfold Forward at *
  grind

end Forward

theorem Moves.forward {before after : Lcm} {event : Access} (moves : Moves before event after) :
    Forward before after := by
  cases moves with
  | stays same => exact Or.inl same
  | provisions _ _ isCm isDm => exact Or.inr (Or.inl ⟨isCm, Or.inl isDm⟩)
  | secures _ _ isDm isSe => exact Or.inr (Or.inr ⟨isDm, isSe⟩)
  | both _ _ _ isCm isSe => exact Or.inr (Or.inl ⟨isCm, Or.inr isSe⟩)

theorem rangeIncludes_covers {offset : BitVec 64} {data : List Byte} {word : Nat}
    (inWindow : otpWindow ≤ offset.toNat)
    (includes : Lcm.rangeIncludes (offset.toNat - otpWindow) data.length word = true) :
    Covers word (.write offset data) := by
  simp only [Lcm.rangeIncludes, Bool.and_eq_true, decide_eq_true_eq] at includes
  constructor <;> omega

namespace Lcm

variable {params : Params} {lcm : Lcm}

/-- A store that is no word write puts the bytes of the life-cycle state there again. -/
def KeepsLifecycle (lcm : Lcm) : Access → Prop
  | .write offset data =>
      rejected (.write offset data) = false → ¬ (data.length = 4 ∧ offset.toNat % 4 = 0) →
        ∀ position, (inside : position < data.length) →
          offset.toNat + position < lcsValue + 4 →
          data[position] = lcm.regs (offset.toNat + position)
  | _ => True

theorem lifecycle_eq_iff {first second : Lcm} :
    first.lifecycle = second.lifecycle ↔
      ∀ index, index < lcsValue + 4 → first.regs index = second.regs index := by
  constructor
  · intro same index inside
    have byte := congrArg (fun word => byteOf word index) same
    simpa [lifecycle, load32, Image.byteOf_load32 _ _ inside, lcsValue] using byte
  · intro same
    exact Image.load32_congr fun index _ inside => same index inside

@[simp]
theorem lifecycle_store32 (value : BitVec 32) :
    (lcm.store32 lcsValue value).lifecycle = value :=
  Image.load32_store32 lcm.regs lcsValue value

/-- Programming leaves the registers below the memory alone. -/
theorem lifecycle_orBytes {offset : Nat} (data : List Byte) (inMemory : otpWindow ≤ offset) :
    ({ lcm with regs := orBytes lcm.regs offset data } : Lcm).lifecycle = lcm.lifecycle := by
  apply lifecycle_eq_iff.mpr
  intro index inside
  have below : ¬ offset ≤ index := by
    have separate : lcsValue + 4 ≤ otpWindow := by decide
    omega
  simp [orBytes, below]

theorem flushOtpImage_lifecycle : (lcm.flushOtpImage params).lifecycle = lcm.lifecycle := by
  simp [lifecycle, load32]

theorem program_moves {offset : BitVec 64} {data : List Byte} (isOpen : lcm.otpLocked = false)
    (inMemory : otpWindow ≤ offset.toNat) :
    Moves lcm (.write offset data) (lcm.program params offset.toNat data) := by
  have kept := lcm.lifecycle_orBytes data inMemory
  have covers {word : Nat} := @rangeIncludes_covers offset data word inMemory
  rcases updateLcsFromOtpWrite_cases params { lcm with regs := orBytes lcm.regs offset.toNat data }
    (offset.toNat - otpWindow) data.length with
    same | ⟨coversCm, isCm, same⟩ | ⟨coversDm, came, same⟩
  · apply Moves.stays
    rw [program, flushOtpImage_lifecycle, same, kept]
  · apply Moves.provisions isOpen (covers coversCm) (kept.symm.trans isCm)
    rw [program, flushOtpImage_lifecycle, same, lifecycle_store32]
  · have isSe : (lcm.program params offset.toNat data).lifecycle = lcsSe := by
      rw [program, flushOtpImage_lifecycle, same]
      exact lifecycle_store32 lcsSe
    rcases came with isDm | ⟨coversCm, isCm⟩
    · exact Moves.secures isOpen (covers coversDm) (kept.symm.trans isDm) isSe
    · exact Moves.both isOpen (covers coversCm) (covers coversDm) (kept.symm.trans isCm) isSe

theorem write32_lifecycle {offset : Nat} (value : BitVec 32) (aligned : offset % 4 = 0) :
    (lcm.write32 params offset value).lifecycle = lcm.lifecycle := by
  by_cases isState : offset = lcsValue
  · simp [write32, ignoredRegisters, isState]
  · have disjoint : lcsValue + 4 ≤ offset ∨ offset + 4 ≤ lcsValue := by
      have low : lcsValue = 0 := rfl
      omega
    have elsewhere (stored : BitVec 32) :
        (lcm.regs.store32 offset stored).load32 lcsValue = lcm.regs.load32 lcsValue :=
      lcm.regs.load32_store32_of_disjoint stored disjoint
    unfold write32
    split_ifs with isIgnored isEnable isMagic
    · rfl
    all_goals
      try subst isEnable
      exact elsewhere _

/-- A store that is no word write obeys the law exactly if it puts the state there again. -/
theorem write_moves_iff {offset : BitVec 64} {data : List Byte}
    (isAccepted : rejected (.write offset data) = false)
    (isNoWord : ¬ (data.length = 4 ∧ offset.toNat % 4 = 0)) :
    Moves lcm (.write offset data) { lcm with regs := lcm.regs.write offset.toNat data } ↔
      KeepsLifecycle lcm (.write offset data) := by
  have short : data.length ≤ 8 := Access.len_le_of_exceeds isAccepted
  constructor
  · intro moves _ _ position inside low
    have apart {word : Nat} : ¬ Covers word (.write offset data) := by
      rintro ⟨-, upper⟩
      have separate : lcsValue + 4 + 8 ≤ otpWindow := by decide
      omega
    cases moves with
    | stays same =>
        rw [← lifecycle_eq_iff.mp same _ low]
        exact (Image.write_inside _ _ _ inside).symm
    | provisions _ covers => exact absurd covers apart
    | secures _ covers => exact absurd covers apart
    | both _ covers => exact absurd covers apart
  · intro keeps
    apply Moves.stays
    apply lifecycle_eq_iff.mpr
    intro index low
    by_cases covered : offset.toNat ≤ index ∧ index < offset.toNat + data.length
    · obtain ⟨position, rfl⟩ := Nat.exists_eq_add_of_le covered.1
      have inside : position < data.length := by omega
      rw [← keeps isAccepted isNoWord position inside low]
      exact Image.write_inside _ _ _ inside
    · exact Image.write_outside _ _ _ (by omega)

/-- One access obeys the law exactly if it meets the condition. -/
theorem moves_step_iff {event : Access} {next : Lcm} (stepped : lcm.step params event = some next) :
    Moves lcm event next ↔ KeepsLifecycle lcm event := by
  have inMemory {offset : BitVec 64} {len : Nat}
      (isProgramming : isOtpAccess params offset len = true) : otpWindow ≤ offset.toNat := by
    simp only [isOtpAccess, Bool.and_eq_true, decide_eq_true_eq] at isProgramming
    exact isProgramming.1
  have apart {offset : BitVec 64} {data : List Byte} (above : otpWindow ≤ offset.toNat) :
      KeepsLifecycle lcm (.write offset data) := by
    intro _ _ position _ low
    have separate : lcsValue + 4 ≤ otpWindow := by decide
    omega
  cases step_effect stepped with
  | refused event isRejected =>
      refine iff_of_true (Moves.stays rfl) ?_
      cases event with
      | write offset data =>
          intro isAccepted
          simp [isRejected] at isAccepted
      | read offset len => trivial
      | ignore offset len => trivial
  | read offset len => exact iff_of_true (Moves.stays rfl) trivial
  | ignore offset len => exact iff_of_true (Moves.stays rfl) trivial
  | locked offset data isProgramming isLocked =>
      exact iff_of_true (Moves.stays rfl) (apart (inMemory isProgramming))
  | programmed offset data isProgramming isOpen =>
      have above := inMemory isProgramming
      exact iff_of_true (program_moves isOpen above) (apart above)
  | word offset data isAccepted isPlain isWord =>
      refine iff_of_true (Moves.stays (write32_lifecycle _ isWord.2)) ?_
      intro _ isNoWord
      exact absurd isWord isNoWord
  | bytes offset data isAccepted isPlain isNoWord => exact write_moves_iff isAccepted isNoWord

/-- The life cycle obeys its law over a run exactly if every store that is no word write keeps
the state. -/
theorem lifecycleLaw_iff (params : Params) (start : Lcm) (events : List Access) :
    LifecycleLaw params start events ↔
      Along (step params) KeepsLifecycle start events := by
  constructor
  · intro law
    apply along_mono _ law.moves
    intro before event after stepped moves
    exact (moves_step_iff stepped).mp (moves after stepped)
  · intro met
    have moves : Along (step params) (fun before event => ∀ after,
        before.step params event = some after → Moves before event after) start events := by
      apply along_mono _ met
      intro before event _ _ keeps after reached
      exact (moves_step_iff reached).mpr keeps
    refine ⟨moves, ?_⟩
    apply (evolves_iff_along Forward.refl fun _ _ _ => Forward.trans).mpr
    apply along_mono _ moves
    intro before event after stepped lawful next reached
    exact (lawful next reached).forward

/-- Eight bytes at the front of the register array take a secured device back to CM. -/
theorem not_lifecycleLaw_doubleWord :
    ¬ LifecycleLaw {} (resetRegisters {} none)
      [.write 0x0#64 (toBytes 4 lcsCm ++ toBytes 4 (0 : BitVec 32))] := by
  intro law
  have set : (resetRegisters {} none).lifecycle = lcsSe := by decide +kernel
  have overwritten : ((resetRegisters {} none).step {}
      (.write 0x0#64 (toBytes 4 lcsCm ++ toBytes 4 (0 : BitVec 32)))).map lifecycle =
        some lcsCm := by
    decide +kernel
  obtain ⟨after, stepped, isCm⟩ := Option.map_eq_some_iff.mp overwritten
  have reached : run (step {}) (resetRegisters {} none)
      [.write 0x0#64 (toBytes 4 lcsCm ++ toBytes 4 (0 : BitVec 32))] = some after :=
    run_cons_eq_some.mpr ⟨after, stepped, rfl⟩
  have forward := law.forward [] [_] [] _ after rfl rfl reached
  rw [Forward, set, isCm] at forward
  revert forward
  decide

end Lcm

end QboxPlatform.RseLcm
