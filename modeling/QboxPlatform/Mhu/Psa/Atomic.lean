import QboxPlatform.Mhu.Psa.Framing

/-!
# Failed requests are atomic

The services change only in a handler that fills in no output, so the write-back
that runs after such a handler has nothing to write and cannot fail.
-/

namespace QboxPlatform.Mhu.Psa

open Foundation

universe u

variable {Memory : Type u}

/-- What running a handler can do to the services: nothing, or a change made by a
handler that succeeds and fills in no output. -/
def HandlerResult.Settled (result : HandlerResult) (outputs : PsOutputs)
    (services : Services) : Prop :=
  result.services = services ∨ result.status = .success ∧ result.outputs = outputs

theorem handleRseMeasuredBootRequest_settled (request : RsePsRequest) (outputs : PsOutputs)
    (services : Services) :
    (handleRseMeasuredBootRequest request outputs services).Settled outputs services := by
  unfold handleRseMeasuredBootRequest
  split_ifs
  · unfold measuredBootExtend
    split_ifs <;> simp [HandlerResult.Settled]
  · unfold measuredBootRead
    split_ifs <;> exact .inl rfl
  · exact .inl rfl

theorem handleRseFwuRequest_services (request : RsePsRequest) (outputs : PsOutputs)
    (services : Services) :
    (handleRseFwuRequest request outputs services).services = services := by
  unfold handleRseFwuRequest
  dsimp only
  split_ifs <;> rfl

theorem psGet_services (request : RsePsRequest) (outputs : PsOutputs) (services : Services) :
    (psGet request outputs services).services = services := by
  unfold psGet
  dsimp only
  split_ifs
  · rfl
  · split
    · rfl
    · split_ifs <;> rfl

theorem psGetInfo_services (request : RsePsRequest) (outputs : PsOutputs)
    (services : Services) :
    (psGetInfo request outputs services).services = services := by
  unfold psGetInfo
  dsimp only
  split_ifs
  · rfl
  · split <;> rfl

theorem handleProtectedStorage_settled (request : RsePsRequest) (outputs : PsOutputs)
    (services : Services) :
    (handleProtectedStorage request outputs services).Settled outputs services := by
  unfold handleProtectedStorage
  split_ifs
  · unfold psSet
    split_ifs <;> simp [HandlerResult.Settled]
  · exact .inl (psGet_services request outputs services)
  · exact .inl (psGetInfo_services request outputs services)
  · unfold psRemove
    split_ifs <;> simp [HandlerResult.Settled]
  · unfold psGetSupport
    split_ifs <;> exact .inl rfl
  · exact .inl rfl

theorem handleRsePsRequest_settled (request : RsePsRequest) (outputs : PsOutputs)
    (services : Services) :
    (handleRsePsRequest request outputs services).Settled outputs services := by
  unfold handleRsePsRequest
  split_ifs
  · exact handleRseMeasuredBootRequest_settled request outputs services
  · exact .inl (handleRseFwuRequest_services request outputs services)
  · exact .inl rfl
  · exact handleProtectedStorage_settled request outputs services

/-- Writing back empty outputs does not reach the bus. -/
theorem writeBack_empty (bus : Bus Memory) (ptrs : Nat → BitVec 64) (data : Nat → List Byte)
    (start : Nat) (empty : ∀ index, start ≤ index → data index = [])
    (remaining index : Nat) (from_start : start ≤ index) (memory : Memory) :
    writeBack bus ptrs data remaining index memory = (true, memory) := by
  induction remaining generalizing index with
  | zero => rfl
  | succ remaining inductionHypothesis =>
      simp only [writeBack, memWriteBytes, empty index from_start, if_true]
      exact inductionHypothesis (index + 1) (by omega)

/-- A request whose reply does not say `PSA_SUCCESS` leaves the storage map and all
measurement slots as they were, whichever stage it failed in. -/
theorem buildRsePsReply_failed_services (bus : Bus Memory) (request : List Byte)
    (services : Services) (memory : Memory)
    (failed : replyStatus (buildRsePsReply bus request services memory).1 ≠
      PsaStatus.success.code) :
    (buildRsePsReply bus request services memory).2.1 = services := by
  revert failed
  unfold buildRsePsReply
  split
  case h_1 status parsedMemory parseFailed =>
    exact fun _ => rfl
  case h_2 parsed parsedMemory parseSucceeded =>
    rcases handleRsePsRequest_settled parsed {} services with unchanged | ⟨succeeded, untouched⟩
    · dsimp only
      split_ifs <;> exact fun _ => unchanged
    · -- The handler changed the services: nothing after it can fail.
      have written := writeBack_empty bus parsed.outPtrs
        (handleRsePsRequest parsed {} services).outputs.data 0 (by simp [untouched])
        parsed.outLen 0 le_rfl parsedMemory
      dsimp only
      rw [written]
      split_ifs with reaches delivered
      · exact fun failed => absurd (by simp [succeeded]) failed
      · exact absurd rfl delivered
      · exact fun failed => absurd (by simp [succeeded]) failed

/-- A `SET` whose uid vector is too short is refused. -/
theorem buildRsePsReply_failed_services_short_set :
    let request : List Byte :=
      [0, 7, 1, 0] ++ toBytes 4 tfmProtectedStorageServiceHandle ++
        toBytes 4 (0x030003e9 : BitVec 32) ++ [4, 0, 1, 0, 4, 0, 0, 0] ++
        [1, 0, 0, 0] ++ [0xaa] ++ [0, 0, 0, 0]
    (buildRsePsReply Bus.ram request {} fun _ => 0).2.1 = {} :=
  buildRsePsReply_failed_services Bus.ram _ {} (fun _ => 0) (by decide)

end QboxPlatform.Mhu.Psa
