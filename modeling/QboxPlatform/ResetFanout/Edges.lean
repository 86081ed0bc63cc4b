import QboxPlatform.Foundation.Event
import QboxPlatform.Foundation.Run

/-!
# The reset fan-out

`reset_fanout`: the edges of a reset line are queued and given to the targets a picosecond later,
so that a pulse within one time stamp reaches them as two edges.
-/

namespace QboxPlatform

open Foundation

/-- Times are in picoseconds. -/
structure ResetFanout where
  now : Nat := 0
  pendingResets : List Bool := []
  /-- `m_last_reset`, if `m_have_last_reset`. -/
  lastReset : Option Bool := none
  resetEvent : Foundation.Event := {}
  /-- The event has occurred and `emit_reset` has not run yet. -/
  runnable : Bool := false
  /-- What `emit_reset` has given to the output socket, with the times. -/
  emitted : List (Nat × List Bool) := []

namespace ResetFanout

/-- A value on the input, the notification of the event, a run of the method, and the passing of
time. -/
inductive Action
  | resetIn (value : Bool)
  | fire
  | emitReset
  | advance (later : Nat)

def Action.value : Action → Option Bool
  | .resetIn value => some value
  | _ => none

variable (fanout : ResetFanout)

def resetIn (value : Bool) : ResetFanout :=
  if fanout.lastReset = some value then fanout
  else
    { fanout with
      lastReset := some value
      pendingResets := fanout.pendingResets ++ [value]
      resetEvent := fanout.resetEvent.notify (fanout.now + 1) }

def emitReset : ResetFanout :=
  { fanout with
    pendingResets := []
    runnable := false
    emitted := fanout.emitted ++ [(fanout.now, fanout.pendingResets)] }

/-- Time passes once the method has run, and not past a notification. -/
def step : Action → Option ResetFanout
  | .resetIn value => some (fanout.resetIn value)
  | .fire =>
      if fanout.resetEvent.ready fanout.now then
        some { fanout with resetEvent := {}, runnable := true }
      else none
  | .emitReset => if fanout.runnable then some fanout.emitReset else none
  | .advance later =>
      if fanout.now ≤ later ∧ !fanout.runnable ∧ fanout.resetEvent.permits later then
        some { fanout with now := later }
      else none

/-- The values in the order in which every target gets them. -/
def carried : List Bool := fanout.emitted.flatMap Prod.snd

/-- The edges among the values on the input. -/
def edges (actions : List Action) : List Bool :=
  (actions.filterMap Action.value).destutter (· ≠ ·)

variable {fanout} {next final : ResetFanout} {action : Action} {actions : List Action}

theorem carried_emitReset : fanout.emitReset.carried = fanout.carried ++ fanout.pendingResets := by
  rw [carried, emitReset, List.flatMap_append, carried, List.flatMap_singleton]

theorem step_fire_eq_some (stepped : fanout.step .fire = some next) :
    fanout.resetEvent.ready fanout.now = true ∧
      next = { fanout with resetEvent := {}, runnable := true } := by
  rw [step] at stepped
  split at stepped
  · next ready => exact ⟨ready, (Option.some.inj stepped).symm⟩
  · cases stepped

theorem step_emitReset_eq_some (stepped : fanout.step .emitReset = some next) :
    fanout.runnable = true ∧ next = fanout.emitReset := by
  rw [step] at stepped
  split at stepped
  · next runs => exact ⟨runs, (Option.some.inj stepped).symm⟩
  · cases stepped

theorem step_advance_eq_some {later : Nat} (stepped : fanout.step (.advance later) = some next) :
    fanout.now ≤ later ∧ fanout.runnable = false ∧ fanout.resetEvent.permits later = true ∧
      next = { fanout with now := later } := by
  rw [step] at stepped
  split at stepped
  · next allowed =>
    obtain ⟨ordered, rests, permitted⟩ := allowed
    exact ⟨ordered, by simpa using rests, permitted, (Option.some.inj stepped).symm⟩
  · cases stepped

/-! ### No edge is lost -/

/-- One more value is an edge unless it is the last one again. -/
theorem destutter'_concat (first value : Bool) (values : List Bool) :
    (values ++ [value]).destutter' (· ≠ ·) first =
      if (first :: values).getLast? = some value then values.destutter' (· ≠ ·) first
      else values.destutter' (· ≠ ·) first ++ [value] := by
  induction values generalizing first with
  | nil =>
      rw [List.nil_append, List.destutter'_singleton, List.getLast?_singleton,
        List.destutter'_nil]
      by_cases same : first = value
      · rw [if_neg (not_not.mpr same), if_pos (congrArg some same)]
      · rw [if_pos same, if_neg fun equal => same (Option.some.inj equal)]
        rfl
  | cons second rest inductionHypothesis =>
      rw [List.cons_append, List.destutter'_cons, List.destutter'_cons, List.getLast?_cons_cons]
      by_cases same : first = second
      · subst same
        rw [if_neg (not_not.mpr rfl), if_neg (not_not.mpr rfl), inductionHypothesis]
      · rw [if_pos same, if_pos same, inductionHypothesis]
        split
        · rfl
        · rfl

theorem destutter_concat (values : List Bool) (value : Bool) :
    (values ++ [value]).destutter (· ≠ ·) =
      if values.getLast? = some value then values.destutter (· ≠ ·)
      else values.destutter (· ≠ ·) ++ [value] := by
  cases values with
  | nil => rfl
  | cons first rest => exact destutter'_concat first value rest

/-- The edges so far stay. -/
theorem destutter_prefix (values more : List Bool) :
    values.destutter (· ≠ ·) <+: (values ++ more).destutter (· ≠ ·) := by
  induction more generalizing values with
  | nil => rw [List.append_nil]
  | cons value rest inductionHypothesis =>
      rw [← List.singleton_append, ← List.append_assoc]
      refine List.IsPrefix.trans ?_ (inductionHypothesis (values ++ [value]))
      rw [destutter_concat]
      split
      · exact List.prefix_rfl
      · exact List.prefix_append _ _

/-- What has been given out and what is queued are the edges of the values so far. -/
structure Tracks (values : List Bool) (fanout : ResetFanout) : Prop where
  edges : fanout.carried ++ fanout.pendingResets = values.destutter (· ≠ ·)
  last : fanout.lastReset = values.getLast?

theorem Tracks.resetIn {values : List Bool} (tracks : Tracks values fanout) (value : Bool) :
    Tracks (values ++ [value]) (fanout.resetIn value) := by
  rw [ResetFanout.resetIn]
  by_cases same : fanout.lastReset = some value
  · rw [if_pos same]
    refine ⟨?_, ?_⟩
    · rw [destutter_concat, if_pos (tracks.last ▸ same), tracks.edges]
    · rw [List.getLast?_concat, same]
  · rw [if_neg same]
    refine ⟨?_, ?_⟩
    · rw [destutter_concat, if_neg (tracks.last ▸ same), ← tracks.edges, List.append_assoc]
      rfl
    · exact (List.getLast?_concat ..).symm

theorem Tracks.step {values : List Bool} (tracks : Tracks values fanout)
    (stepped : fanout.step action = some next) : Tracks (values ++ action.value.toList) next := by
  cases action with
  | resetIn value =>
      obtain rfl := Option.some.inj stepped
      exact tracks.resetIn value
  | fire =>
      obtain ⟨-, rfl⟩ := step_fire_eq_some stepped
      exact ⟨(List.append_nil values).symm ▸ tracks.edges,
        (List.append_nil values).symm ▸ tracks.last⟩
  | emitReset =>
      obtain ⟨-, rfl⟩ := step_emitReset_eq_some stepped
      have given : fanout.emitReset.carried ++ fanout.emitReset.pendingResets =
          fanout.carried ++ fanout.pendingResets :=
        (List.append_nil _).trans carried_emitReset
      exact ⟨(List.append_nil values).symm ▸ given.trans tracks.edges,
        (List.append_nil values).symm ▸ tracks.last⟩
  | advance later =>
      obtain ⟨-, -, -, rfl⟩ := step_advance_eq_some stepped
      exact ⟨(List.append_nil values).symm ▸ tracks.edges,
        (List.append_nil values).symm ▸ tracks.last⟩

theorem Tracks.run {values : List Bool} (tracks : Tracks values fanout)
    (reached : Foundation.run ResetFanout.step fanout actions = some final) :
    Tracks (values ++ actions.filterMap Action.value) final := by
  induction actions generalizing fanout values with
  | nil =>
      cases reached
      rw [List.filterMap_nil, List.append_nil]
      exact tracks
  | cons action rest inductionHypothesis =>
      obtain ⟨next, stepped, onwards⟩ := run_cons_eq_some.mp reached
      have parts : values ++ (action :: rest).filterMap Action.value =
          values ++ action.value.toList ++ rest.filterMap Action.value := by
        rw [List.append_assoc]
        cases action <;> rfl
      rw [parts]
      exact inductionHypothesis (tracks.step stepped) onwards

theorem tracks_start : Tracks [] {} := ⟨rfl, rfl⟩

/-! ### No edge waits -/

/-- A queued edge has a notification within a picosecond, or the method is about to run. -/
structure Prompt (fanout : ResetFanout) : Prop where
  notified : fanout.pendingResets ≠ [] → fanout.runnable = true ∨ fanout.resetEvent.due ≠ none
  soon : ∀ due, fanout.resetEvent.due = some due → fanout.now ≤ due ∧ due ≤ fanout.now + 1

theorem prompt_notify (prompt : Prompt fanout) {due : Nat}
    (notified : (fanout.resetEvent.notify (fanout.now + 1)).due = some due) :
    fanout.now ≤ due ∧ due ≤ fanout.now + 1 :=
  ⟨Event.le_of_due_notify (Nat.le_succ _) (fun due standing => (prompt.soon due standing).1)
    notified, (Event.due_notify_eq notified).1⟩

theorem prompt_step (prompt : Prompt fanout) (stepped : fanout.step action = some next) :
    Prompt next := by
  cases action with
  | resetIn value =>
      obtain rfl := Option.some.inj stepped
      rw [resetIn]
      split
      · exact prompt
      · exact ⟨fun _ => Or.inr (Event.notify_due_ne_none _ _), fun due => prompt_notify prompt⟩
  | fire =>
      obtain ⟨-, rfl⟩ := step_fire_eq_some stepped
      exact ⟨fun _ => Or.inl rfl, fun due notified => by cases notified⟩
  | emitReset =>
      obtain ⟨-, rfl⟩ := step_emitReset_eq_some stepped
      exact ⟨fun queued => absurd rfl queued, prompt.soon⟩
  | advance later =>
      obtain ⟨ordered, -, permitted, rfl⟩ := step_advance_eq_some stepped
      refine ⟨prompt.notified, fun due notified => ⟨Event.le_of_permits permitted notified, ?_⟩⟩
      exact (prompt.soon due notified).2.trans (Nat.succ_le_succ ordered)

/-- The first values have been given out, or will be before the limit has passed. -/
def Arrives (count limit : Nat) (fanout : ResetFanout) : Prop :=
  count ≤ fanout.carried.length ∨
    count ≤ fanout.carried.length + fanout.pendingResets.length ∧ fanout.now ≤ limit ∧
      (fanout.runnable = true ∨
        ∃ due, fanout.resetEvent.due = some due ∧ fanout.now ≤ due ∧ due ≤ limit)

theorem Arrives.step {count limit : Nat} (arrives : Arrives count limit fanout)
    (stepped : fanout.step action = some next) : Arrives count limit next := by
  cases action with
  | resetIn value =>
      obtain rfl := Option.some.inj stepped
      rw [ResetFanout.resetIn]
      split
      · exact arrives
      · rcases arrives with there | ⟨queued, timely, comes⟩
        · exact Or.inl there
        · refine Or.inr ⟨queued.trans ?_, timely, comes.imp_right ?_⟩
          · rw [List.length_append]
            exact Nat.add_le_add_left (Nat.le_add_right _ _) _
          · rintro ⟨due, standing, still, early⟩
            refine ⟨min (fanout.now + 1) due, ?_, ?_, ?_⟩
            · rw [Event.notify, standing]
              rfl
            · exact le_min (Nat.le_succ _) still
            · exact (min_le_right _ _).trans early
  | fire =>
      obtain ⟨-, rfl⟩ := step_fire_eq_some stepped
      exact arrives.imp_right fun held => ⟨held.1, held.2.1, Or.inl rfl⟩
  | emitReset =>
      obtain ⟨-, rfl⟩ := step_emitReset_eq_some stepped
      left
      rw [carried_emitReset, List.length_append]
      rcases arrives with there | held
      · exact there.trans (Nat.le_add_right _ _)
      · exact held.1
  | advance later =>
      obtain ⟨-, rests, permitted, rfl⟩ := step_advance_eq_some stepped
      rcases arrives with there | ⟨queued, -, comes⟩
      · exact Or.inl there
      · rcases comes with runs | ⟨due, standing, -, early⟩
        · exact absurd (runs.symm.trans rests).symm Bool.false_ne_true
        · have passed := Event.le_of_permits permitted standing
          exact Or.inr ⟨queued, passed.trans early, Or.inr ⟨due, standing, passed, early⟩⟩

theorem Prompt.arrives (prompt : Prompt fanout) :
    Arrives (fanout.carried.length + fanout.pendingResets.length) (fanout.now + 1) fanout := by
  by_cases queued : fanout.pendingResets = []
  · left
    rw [queued]
    exact le_rfl
  · refine Or.inr ⟨le_rfl, Nat.le_succ _, (prompt.notified queued).imp_right fun notified => ?_⟩
    obtain ⟨due, standing⟩ := Option.ne_none_iff_exists'.mp notified
    exact ⟨due, standing, prompt.soon due standing⟩

/-- Over any order of values, notifications and runs of the method, the targets get the edges of
the line, each once and in order, and none waits longer than a picosecond. -/
theorem edges_delivered {front back : List Action} {before final : ResetFanout}
    (reached : Foundation.run step {} front = some before)
    (onwards : Foundation.run step before back = some final) :
    final.carried ++ final.pendingResets = edges (front ++ back) ∧
      (before.now + 1 < final.now → edges front <+: final.carried) := by
  have early := tracks_start.run reached
  have tracks := early.run onwards
  rw [List.nil_append] at early
  rw [List.nil_append, ← List.filterMap_append] at tracks
  refine ⟨tracks.edges, fun later => ?_⟩
  have prompt : Prompt before := by
    refine run_invariant (fun state action next prompt stepped => prompt_step prompt stepped)
      ⟨fun queued => absurd rfl queued, fun due notified => ?_⟩ reached
    cases notified
  have arrived : Arrives (edges front).length (before.now + 1) final := by
    have count : (edges front).length = before.carried.length + before.pendingResets.length := by
      rw [edges, ← early.edges, List.length_append]
    rw [count]
    exact run_invariant (fun state action next arrives stepped => arrives.step stepped)
      prompt.arrives onwards
  have count : (edges front).length ≤ final.carried.length :=
    arrived.resolve_right fun held => absurd held.2.1 (Nat.not_le.mpr later)
  have given : final.carried <+: edges (front ++ back) :=
    ⟨final.pendingResets, tracks.edges⟩
  have still : edges front <+: edges (front ++ back) := by
    rw [edges, edges, List.filterMap_append]
    exact destutter_prefix _ _
  exact List.prefix_of_prefix_length_le still given count

/-- A pulse within one time stamp. -/
theorem edges_delivered_pulse :
    ∃ before final,
      Foundation.run step {} [.advance 1, .resetIn true, .resetIn false] = some before ∧
        Foundation.run step before [.advance 2, .fire, .emitReset, .advance 4] = some final ∧
        final.carried ++ final.pendingResets =
          edges ([.advance 1, .resetIn true, .resetIn false] ++
            [.advance 2, .fire, .emitReset, .advance 4]) ∧
        (before.now + 1 < final.now →
          edges [.advance 1, .resetIn true, .resetIn false] <+: final.carried) :=
  ⟨_, _, rfl, rfl, edges_delivered rfl rfl⟩

end ResetFanout

end QboxPlatform
