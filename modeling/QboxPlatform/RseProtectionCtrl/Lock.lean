import QboxPlatform.RseProtectionCtrl.Registers

/-!
# The lock

Once a bit of the lock mask is set in the lock register, only the status register and the lock
register itself can still change, each in its own way.
-/

namespace QboxPlatform.RseProtectionCtrl

open Foundation

/-- What a locked controller keeps from one state to a later one. -/
structure LockFinal (params : Params) (earlier later : ProtectionCtrl) : Prop where
  locked : earlier.locked params = true → later.locked params = true
  registers : earlier.locked params = true → ∀ index, status + 4 ≤ index →
    (index < lock ∨ lock + 4 ≤ index) → later.regs index = earlier.regs index
  kept : earlier.locked params = true → SubBits (earlier.load32 lock) (later.load32 lock)
  confined : earlier.locked params = true →
    later.load32 lock &&& ~~~params.lockMask = earlier.load32 lock &&& ~~~params.lockMask

/-- How a request may change the status register. -/
inductive StatusMoves (params : Params) (before : ProtectionCtrl) (request : Request)
    (after : ProtectionCtrl) : Prop
  | stays (same : after.load32 status = before.load32 status)
  | latches (latched : params.errorLatch = true)
      (isDenied : ProtectionCtrl.denied params request = true)
      (isSet : after.load32 status = before.load32 status ||| statusNonsecureDeny)
  | clears (latched : params.errorLatch = true) (data : List Byte) (isWord : data.length = 4)
      (isClear : request.access = .write (BitVec.ofNat 64 clear) data)
      (isCleared : after.load32 status = before.load32 status &&& ~~~ofBytes 32 data)

namespace LockFinal

variable {params : Params}

theorem refl (ctrl : ProtectionCtrl) : LockFinal params ctrl ctrl where
  locked isLocked := isLocked
  registers _ _ _ _ := rfl
  kept _ := SubBits.refl _
  confined _ := rfl

theorem trans {first second third : ProtectionCtrl} (lower : LockFinal params first second)
    (upper : LockFinal params second third) : LockFinal params first third where
  locked isLocked := upper.locked (lower.locked isLocked)
  registers isLocked index outside apart := by
    rw [upper.registers (lower.locked isLocked) index outside apart,
      lower.registers isLocked index outside apart]
  kept isLocked := (lower.kept isLocked).trans (upper.kept (lower.locked isLocked))
  confined isLocked := by
    rw [upper.confined (lower.locked isLocked), lower.confined isLocked]

end LockFinal

namespace ProtectionCtrl

variable {params : Params} {ctrl : ProtectionCtrl}

/-- What a request can do to a locked controller. -/
inductive LockedEffect (params : Params) (ctrl : ProtectionCtrl) (request : Request) :
    ProtectionCtrl → Prop
  | idle : LockedEffect params ctrl request ctrl
  | latched (errorLatch : params.errorLatch = true) (isDenied : denied params request = true) :
      LockedEffect params ctrl request
        (ctrl.store32 status (ctrl.load32 status ||| statusNonsecureDeny))
  | cleared (errorLatch : params.errorLatch = true) (data : List Byte) (isWord : data.length = 4)
      (isClear : request.access = .write (BitVec.ofNat 64 clear) data) :
      LockedEffect params ctrl request
        (ctrl.store32 status (ctrl.load32 status &&& ~~~ofBytes 32 data))
  | extended (value : BitVec 32) :
      LockedEffect params ctrl request
        (ctrl.store32 lock (ctrl.load32 lock ||| (value &&& params.lockMask)))

theorem write32_of_locked {offset : Nat} {value : BitVec 32} {written : ProtectionCtrl}
    (isLocked : ctrl.locked params = true)
    (wrote : ctrl.write32 params offset value = some written) :
    (params.errorLatch = true ∧ offset = clear ∧
      written = ctrl.store32 status (ctrl.load32 status &&& ~~~value)) ∨
    written = ctrl.store32 lock (ctrl.load32 lock ||| (value &&& params.lockMask)) ∨
    written = ctrl := by
  unfold write32 at wrote
  split_ifs at wrote with clears locks isReadOnly isBeyond
  · cases wrote
    exact Or.inl ⟨clears.1, clears.2, rfl⟩
  · cases wrote
    exact Or.inr (Or.inl rfl)
  · cases wrote
    exact Or.inr (Or.inr rfl)
  · simp [isLocked] at isReadOnly

/-- An accepted write to a register offset does not wrap around the address space. -/
theorem offset_eq_clear {offset : BitVec 64} {data : List Byte} (isWord : data.length = 4)
    (isAccepted : (Access.write offset data).exceeds regBytes = false)
    (isClear : offset.toNat % 2 ^ 32 = clear) : offset = BitVec.ofNat 64 clear := by
  have inside := (Access.exceeds_eq_false_iff.mp isAccepted).2
  have bounded := offset.isLt
  apply BitVec.eq_of_toNat_eq
  simp only [Access.offset, Access.len, isWord, clear, regBytes] at *
  rw [BitVec.toNat_ofNat]
  omega

theorem step_lockedEffect {request : Request} {next : ProtectionCtrl}
    (isLocked : ctrl.locked params = true) (stepped : ctrl.step params request = some next) :
    LockedEffect params ctrl request next := by
  simp only [step, Option.map_eq_some_iff, Prod.exists, exists_eq_right] at stepped
  obtain ⟨response, accessed⟩ := stepped
  unfold access at accessed
  split_ifs at accessed with isRejected isDenied latches
  · cases accessed
    exact LockedEffect.idle
  · cases accessed
    exact LockedEffect.latched latches isDenied
  · cases accessed
    exact LockedEffect.idle
  · obtain ⟨nonSecure, event⟩ := request
    cases event with
    | read offset len =>
        simp only [Option.ite_none_left_eq_some, Option.some.injEq, Prod.mk.injEq] at accessed
        obtain ⟨-, -, rfl⟩ := accessed
        exact LockedEffect.idle
    | ignore offset len =>
        cases accessed
        exact LockedEffect.idle
    | write offset data =>
        dsimp only at accessed
        split_ifs at accessed with isWord
        · obtain ⟨written, wrote, same⟩ := Option.map_eq_some_iff.mp accessed
          cases same
          rcases write32_of_locked isLocked wrote with ⟨latched, isClear, same⟩ | same | same
          · subst same
            have here := offset_eq_clear isWord.1 (by simpa using isRejected) isClear
            exact LockedEffect.cleared latched data isWord.1 (by simp [here])
          · subst same
            exact LockedEffect.extended (ofBytes 32 data)
          · subst same
            exact LockedEffect.idle
        · cases accessed
          exact LockedEffect.idle

theorem locked_congr {next : ProtectionCtrl} (same : next.load32 lock = ctrl.load32 lock) :
    next.locked params = ctrl.locked params := by
  rw [locked, locked, same]

/-- A store to the status register changes nothing that the lock protects. -/
theorem lockFinal_store32_status (value : BitVec 32) :
    LockFinal params ctrl (ctrl.store32 status value) := by
  have same : (ctrl.store32 status value).load32 lock = ctrl.load32 lock :=
    ctrl.regs.load32_store32_of_disjoint value (by decide)
  refine ⟨fun isLocked => ?_, fun _ index outside _ => ?_, fun _ => ?_, fun _ => ?_⟩
  · rw [locked_congr same, isLocked]
  · exact ctrl.regs.store32_outside status value (Or.inr outside)
  · rw [same]
    exact SubBits.refl _
  · rw [same]

/-- The lock register takes more bits of the mask. -/
theorem lockFinal_store32_lock (value : BitVec 32) :
    LockFinal params ctrl
      (ctrl.store32 lock (ctrl.load32 lock ||| (value &&& params.lockMask))) := by
  have stored : (ctrl.store32 lock (ctrl.load32 lock ||| (value &&& params.lockMask))).load32 lock =
      ctrl.load32 lock ||| (value &&& params.lockMask) :=
    ctrl.regs.load32_store32 lock _
  refine ⟨fun isLocked => ?_, fun _ index _ apart => ?_, fun _ => ?_, fun _ => ?_⟩
  · simp only [locked, Bool.and_eq_true, bne_iff_ne, ne_eq, stored] at isLocked ⊢
    refine ⟨isLocked.1, fun cleared => isLocked.2 ?_⟩
    apply BitVec.eq_of_getLsbD_eq
    intro bit _
    have clearedBit := congrArg (fun word => word.getLsbD bit) cleared
    simp only [BitVec.getLsbD_and, BitVec.getLsbD_or] at clearedBit ⊢
    cases held : (ctrl.load32 lock).getLsbD bit <;> simp_all
  · exact ctrl.regs.store32_outside lock _ apart
  · rw [stored]
    exact subBits_or_left _ _
  · rw [stored]
    apply BitVec.eq_of_getLsbD_eq
    intro bit inside
    cases masked : params.lockMask.getLsbD bit <;> simp [masked]

theorem lockFinal_step {request : Request} {next : ProtectionCtrl}
    (stepped : ctrl.step params request = some next) : LockFinal params ctrl next := by
  cases isLocked : ctrl.locked params with
  | false => constructor <;> simp [isLocked]
  | true =>
      cases step_lockedEffect isLocked stepped with
      | idle => exact LockFinal.refl ctrl
      | latched _ _ => exact lockFinal_store32_status _
      | cleared _ data _ _ => exact lockFinal_store32_status _
      | extended value => exact lockFinal_store32_lock value

theorem statusMoves_step {request : Request} {next : ProtectionCtrl}
    (isLocked : ctrl.locked params = true) (stepped : ctrl.step params request = some next) :
    StatusMoves params ctrl request next := by
  have stored (value : BitVec 32) : (ctrl.store32 status value).load32 status = value :=
    ctrl.regs.load32_store32 status value
  cases step_lockedEffect isLocked stepped with
  | idle => exact StatusMoves.stays rfl
  | latched errorLatch isDenied => exact StatusMoves.latches errorLatch isDenied (stored _)
  | cleared errorLatch data isWord isClear =>
      exact StatusMoves.clears errorLatch data isWord isClear (stored _)
  | extended value =>
      exact StatusMoves.stays (ctrl.regs.load32_store32_of_disjoint _ (by decide))

/-- The lock is final over every run, and the status register of a locked controller moves only
by the latch and by its clear register. -/
theorem lock_final (params : Params) (start : ProtectionCtrl) (requests : List Request) :
    Evolves (step params) (LockFinal params) start requests ∧
      Along (step params) (fun before request => before.locked params = true → ∀ after,
        before.step params request = some after → StatusMoves params before request after)
        start requests := by
  constructor
  · apply (evolves_iff_along LockFinal.refl fun _ _ _ => LockFinal.trans).mpr
    exact along_of_forall (fun _ _ _ _ stepped => lockFinal_step stepped) start
  · exact along_of_forall (fun _ _ _ isLocked _ stepped => statusMoves_step isLocked stepped) start

end ProtectionCtrl

end QboxPlatform.RseProtectionCtrl
