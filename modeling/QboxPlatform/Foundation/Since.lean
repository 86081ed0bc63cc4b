import QboxPlatform.Foundation.Run

/-!
# Latches

A step that raises a latch, and no later step that clears it.
-/

namespace Foundation

universe u v

section Since

variable {State : Type u} {Event : Type v} {step : State → Event → Option State}

/-- Some step of the run raises, and none after it clears. -/
def Since (step : State → Event → Option State) (raises clears : State → Event → Prop) :
    State → List Event → Prop
  | _, [] => False
  | state, event :: rest =>
      ∃ next, step state event = some next ∧
        (Since step raises clears next rest ∨
          raises state event ∧ Along step (fun state event => ¬clears state event) next rest)

variable {raises clears : State → Event → Prop}

theorem since_cons {state next : State} {event : Event} (stepped : step state event = some next)
    (rest : List Event) :
    Since step raises clears state (event :: rest) ↔
      Since step raises clears next rest ∨
        raises state event ∧ Along step (fun state event => ¬clears state event) next rest := by
  constructor
  · rintro ⟨other, same, held⟩
    cases stepped.symm.trans same
    exact held
  · intro held
    exact ⟨next, stepped, held⟩

/-- The step that raises splits the run. -/
theorem since_iff_split {state : State} {events : List Event} :
    Since step raises clears state events ↔
      ∃ front event back before after, events = front ++ event :: back ∧
        run step state front = some before ∧ raises before event ∧
        step before event = some after ∧
        Along step (fun state event => ¬clears state event) after back := by
  induction events generalizing state with
  | nil =>
      constructor
      · exact False.elim
      · rintro ⟨front, event, back, before, after, parts, -⟩
        exact absurd parts.symm (List.append_ne_nil_of_right_ne_nil _ (List.cons_ne_nil _ _))
  | cons event rest inductionHypothesis =>
      constructor
      · rintro ⟨next, stepped, later | ⟨raised, quiet⟩⟩
        · obtain ⟨front, other, back, before, after, rfl, reached, others⟩ :=
            inductionHypothesis.mp later
          exact ⟨event :: front, other, back, before, after, rfl,
            run_cons_eq_some.mpr ⟨next, stepped, reached⟩, others⟩
        · exact ⟨[], event, rest, state, next, rfl, rfl, raised, stepped, quiet⟩
      · rintro ⟨front, other, back, before, after, parts, reached, raised, stepped, quiet⟩
        cases front with
        | nil =>
            obtain ⟨rfl, rfl⟩ := List.cons.inj parts
            cases reached
            exact ⟨after, stepped, Or.inr ⟨raised, quiet⟩⟩
        | cons first front =>
            obtain ⟨rfl, rfl⟩ := List.cons.inj parts
            obtain ⟨next, taken, onwards⟩ := run_cons_eq_some.mp reached
            exact ⟨next, taken, Or.inl (inductionHypothesis.mpr
              ⟨front, other, back, before, after, rfl, onwards, raised, stepped, quiet⟩)⟩

/-- What every step raises, or leaves unless it clears it, says what the run has done. -/
theorem latch_iff_since {invariant latch : State → Prop}
    (keeps : ∀ state event next, invariant state → step state event = some next →
      invariant next)
    (moves : ∀ state event next, invariant state → step state event = some next →
      (latch next ↔ raises state event ∨ latch state ∧ ¬clears state event))
    {state final : State} {events : List Event} (sound : invariant state)
    (reached : run step state events = some final) :
    latch final ↔ Since step raises clears state events ∨
      latch state ∧ Along step (fun state event => ¬clears state event) state events := by
  induction events generalizing state with
  | nil =>
      cases reached
      exact ⟨fun held => Or.inr ⟨held, trivial⟩, fun held => held.elim False.elim And.left⟩
  | cons event rest inductionHypothesis =>
      obtain ⟨next, stepped, onwards⟩ := run_cons_eq_some.mp reached
      have quiet : Along step (fun state event => ¬clears state event) state (event :: rest) ↔
          ¬clears state event ∧
            Along step (fun state event => ¬clears state event) next rest := by
        constructor
        · intro along
          exact along next stepped
        · rintro ⟨here, later⟩ other same
          cases stepped.symm.trans same
          exact ⟨here, later⟩
      rw [inductionHypothesis (keeps state event next sound stepped) onwards,
        moves state event next sound stepped, since_cons stepped, quiet]
      tauto

end Since

end Foundation
