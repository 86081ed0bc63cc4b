import QboxPlatform.Mhu.Rings

/-!
# Every synthetic completion is applied once

Doorbells queue completions and notify one event for all of them.  A run applies the queue
to the postbox in order, and as long as something is queued a notification is outstanding or
the method has been woken.
-/

namespace QboxPlatform.Mhu

open Foundation

universe u

/-- The completions that a run has queued and those it has applied, oldest first. -/
structure CompletionRecord where
  queued : List Completion := []
  applied : List Completion := []

namespace MhuPair

variable {Memory : Type u} (config : Config) (bus : Bus Memory)

/-- The completions that a step passes to `complete_synthetic_postbox_transfer`. -/
def queuedBy (mhu : MhuPair Memory) (event : Step) : List Completion :=
  (mhu.rung event).elim [] fun (channel, value) => mhu.completionsOf channel value config

/-- The completions that a step passes to `clear_postbox_doorbell_channel` from the queue. -/
def appliedBy (mhu : MhuPair Memory) : Step → List Completion
  | .runCompletion => mhu.completions
  | _ => []

def recordCompletions (mhu : MhuPair Memory) (event : Step) (record : CompletionRecord) :
    CompletionRecord where
  queued := record.queued ++ mhu.queuedBy config event
  applied := record.applied ++ mhu.appliedBy event

def completionRecord (start : MhuPair Memory) (events : List Step) : CompletionRecord :=
  history (step config bus) (recordCompletions config) start {} events

/-- The method has been woken, or the event will wake it within the configured delay. -/
def CompletionPending (mhu : MhuPair Memory) : Prop :=
  mhu.completionWoken = true ∨
    ∃ due, mhu.completionEvent.due = some due ∧ mhu.now ≤ due ∧
      due ≤ mhu.now + config.syntheticTxdoneDelay

/-- The record accounts for the queue, and the queue for the event. -/
structure CompletionsTracked (mhu : MhuPair Memory) (record : CompletionRecord) : Prop where
  queued : record.queued = record.applied ++ mhu.completions
  awaited : mhu.completions ≠ [] → mhu.completionWoken = true ∨ mhu.completionEvent.due ≠ none
  timely : ∀ due, mhu.completionEvent.due = some due →
    mhu.now ≤ due ∧ due ≤ mhu.now + config.syntheticTxdoneDelay

variable {config bus} {mhu next : MhuPair Memory} {record : CompletionRecord}

theorem CompletionsTracked.pending (tracked : mhu.CompletionsTracked config record)
    (waiting : mhu.completions ≠ []) : mhu.CompletionPending config := by
  rcases tracked.awaited waiting with woken | notified
  · exact .inl woken
  · obtain ⟨due, standing⟩ := Option.ne_none_iff_exists'.mp notified
    exact .inr ⟨due, standing, tracked.timely due standing⟩

/-- Queueing keeps the account, whatever else the step does. -/
theorem CompletionsTracked.queues {asked : List Completion}
    (tracked : mhu.CompletionsTracked config record) (queues : Queues config asked mhu next) :
    next.CompletionsTracked config { record with queued := record.queued ++ asked } := by
  obtain ⟨completions, event, woken, now⟩ := queues
  refine ⟨?_, ?_, ?_⟩
  · rw [completions, tracked.queued, List.append_assoc]
  · intro waiting
    rw [woken, event]
    split_ifs with nothing
    · rw [completions, nothing, List.append_nil] at waiting
      exact tracked.awaited waiting
    · exact .inr (Event.notify_due_ne_none _ _)
  · intro due standing
    rw [now]
    rw [event] at standing
    split_ifs at standing
    · exact tracked.timely due standing
    · refine ⟨?_, (Event.due_notify_eq standing).1⟩
      exact Event.le_of_due_notify (Nat.le_add_right _ _)
        (fun earlier kept => (tracked.timely earlier kept).1) standing

theorem completionsTracked_step {event : Step} (tracked : mhu.CompletionsTracked config record)
    (stepped : mhu.step config bus event = some next) :
    next.CompletionsTracked config (mhu.recordCompletions config event record) := by
  have idle (same : Queues config [] mhu next) (quiet : mhu.queuedBy config event = [])
      (none : mhu.appliedBy event = []) :
      next.CompletionsTracked config (mhu.recordCompletions config event record) := by
    have kept := tracked.queues same
    rw [recordCompletions, quiet, none, List.append_nil, List.append_nil]
    rwa [List.append_nil] at kept
  cases event with
  | access side access =>
      rcases step_access_cases stepped with ⟨channel, value, rung, rfl⟩ | ⟨quiet, pbx, mbx, rfl⟩
      · have none : mhu.appliedBy (.access side access) = [] := rfl
        rw [recordCompletions, none, List.append_nil, queuedBy, rung]
        exact tracked.queues (queues_ringPostbox mhu channel value)
      · exact idle (.nothing rfl rfl rfl rfl) (by rw [queuedBy, quiet]; rfl) rfl
  | elapse later =>
      dsimp only [step] at stepped
      split_ifs at stepped with permitted
      obtain rfl := Option.some.inj stepped
      simp only [permits, Bool.and_eq_true, decide_eq_true_eq, and_assoc] at permitted
      obtain ⟨onwards, completion, -⟩ := permitted
      refine ⟨?_, tracked.awaited, ?_⟩
      · simp [recordCompletions, queuedBy, appliedBy, rung, tracked.queued]
      · intro due standing
        have soon := (tracked.timely due standing).2
        exact ⟨Event.le_of_permits completion standing, by dsimp only; omega⟩
  | fireCompletion =>
      dsimp only [step] at stepped
      split_ifs at stepped with ready
      obtain rfl := Option.some.inj stepped
      refine ⟨?_, fun _ => .inl rfl, ?_⟩
      · simp [recordCompletions, queuedBy, appliedBy, rung, tracked.queued]
      · intro due standing
        cases standing
  | runCompletion =>
      dsimp only [step] at stepped
      split_ifs at stepped with woken
      obtain rfl := Option.some.inj stepped
      refine ⟨?_, fun waiting => absurd rfl waiting, tracked.timely⟩
      simp [recordCompletions, queuedBy, appliedBy, rung, tracked.queued,
        emitSyntheticPostboxCompletions]
  | runPowerDomainReset =>
      obtain ⟨power, -, rfl⟩ := Option.map_eq_some_iff.mp stepped
      exact idle (.nothing rfl rfl rfl rfl) rfl rfl
  | firePowerDomainReset =>
      obtain ⟨power, -, rfl⟩ := Option.map_eq_some_iff.mp stepped
      exact idle (.nothing rfl rfl rfl rfl) rfl rfl
  | _ =>
      -- The system reset and the announcement have nothing to do with the queue.
      dsimp only [step] at stepped
      split_ifs at stepped
      all_goals
        obtain rfl := Option.some.inj stepped
        exact idle (.nothing rfl rfl rfl rfl) rfl rfl

/-- In every run each queued completion is applied once and in the order of the queue; as long
as one is left the method is about to run or will be woken within the delay; and when it runs
it applies all that are left, one after the other. -/
theorem completions_applied_once (config : Config) (bus : Bus Memory) (pbx mbx : FrameParams)
    (memory : Memory) {events : List Step} {final : MhuPair Memory}
    (reached : run (step config bus) (elaborated pbx mbx memory) events = some final) :
    (completionRecord config bus (elaborated pbx mbx memory) events).queued =
        (completionRecord config bus (elaborated pbx mbx memory) events).applied ++
          final.completions ∧
      (final.completions ≠ [] → final.CompletionPending config) ∧
      ∀ next, final.step config bus .runCompletion = some next →
        next.completions = [] ∧
          next.pbx = (final.appliedBy .runCompletion).foldl
            (fun port completion =>
              port.clearPostboxDoorbellChannel config completion.channel completion.mask)
            final.pbx := by
  have tracked : final.CompletionsTracked config
      (completionRecord config bus (elaborated pbx mbx memory) events) := by
    apply history_invariant _ _ reached
    · intro state record event next related stepped
      exact completionsTracked_step related stepped
    · refine ⟨rfl, fun waiting => absurd rfl waiting, ?_⟩
      intro due standing
      cases standing
  refine ⟨tracked.queued, tracked.pending, ?_⟩
  intro next stepped
  dsimp only [step] at stepped
  split_ifs at stepped
  obtain rfl := Option.some.inj stepped
  exact ⟨rfl, rfl⟩

/-- Bit 0 of the first channel is acknowledged at once. -/
def acknowledging : Config where
  protocol := .doorbell
  doorbellAckTriggerValue := 1

def singleChannel : FrameParams where
  channelCount := .clamp 1

/-- A second doorbell arrives after the event has fired for the first. -/
def twoDoorbells : List Step :=
  [.access .pbx (.write 0x100c [1, 0, 0, 0]), .elapse 1000, .fireCompletion,
    .access .pbx (.write 0x100c [3, 0, 0, 0])]

theorem completions_applied_once_sample :
    ∃ final,
      run (step acknowledging Bus.ram) (elaborated singleChannel singleChannel fun _ => 0)
          twoDoorbells = some final ∧
        (completionRecord acknowledging Bus.ram
            (elaborated singleChannel singleChannel fun _ => 0) twoDoorbells).queued =
          (completionRecord acknowledging Bus.ram
            (elaborated singleChannel singleChannel fun _ => 0) twoDoorbells).applied ++
            final.completions := by
  have runs : (run (step acknowledging Bus.ram)
      (elaborated singleChannel singleChannel fun _ => 0) twoDoorbells).isSome = true := by
    decide +kernel
  obtain ⟨final, reached⟩ := Option.isSome_iff_exists.mp runs
  exact ⟨final, reached,
    (completions_applied_once acknowledging Bus.ram singleChannel singleChannel _ reached).1⟩

end MhuPair

end QboxPlatform.Mhu
