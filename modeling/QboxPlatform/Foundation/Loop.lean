import Mathlib

/-!
# Loops and their rounds

A loop repeats its body on a state for as long as a guard holds.  It is left after a number of
rounds, in the first state in which the guard fails; a measure that falls in every round gives
such a number.
-/

namespace Foundation

universe u v

section Loops

variable {State : Type u} {guard : State → Prop} {body : State → State} {start : State}
  {rounds : Nat} {final : State}

/-- The loop is left in `final`, after `rounds` rounds. -/
structure Exits (guard : State → Prop) (body : State → State) (start : State) (rounds : Nat)
    (final : State) : Prop where
  reaches : body^[rounds] start = final
  stops : ¬ guard final
  continues : ∀ round < rounds, guard (body^[round] start)

theorem Exits.immediate (stops : ¬ guard start) : Exits guard body start 0 start where
  reaches := rfl
  stops := stops
  continues := fun _ before => absurd before (Nat.not_lt_zero _)

theorem Exits.round (more : guard start) (exits : Exits guard body (body start) rounds final) :
    Exits guard body start (rounds + 1) final where
  reaches := exits.reaches
  stops := exits.stops
  continues := by
    intro round before
    cases round with
    | zero => exact more
    | succ round => exact exits.continues round (Nat.lt_of_succ_lt_succ before)

/-- A measure that falls in every round bounds the number of rounds. -/
theorem exits_of_measure (measure : State → Nat)
    (falls : ∀ state, guard state → measure (body state) < measure state) (start : State) :
    ∃ rounds final, rounds ≤ measure start ∧ Exits guard body start rounds final := by
  induction bound : measure start using Nat.strong_induction_on generalizing start with
  | _ bound inductionHypothesis =>
      subst bound
      by_cases more : guard start
      · obtain ⟨rounds, final, few, exits⟩ :=
          inductionHypothesis _ (falls start more) (body start) rfl
        exact ⟨rounds + 1, final, Nat.succ_le_of_lt (few.trans_lt (falls start more)),
          exits.round more⟩
      · exact ⟨0, start, Nat.zero_le _, .immediate more⟩

/-- A function that goes on with the body for as long as the guard holds has the value of the
state in which the loop is left. -/
theorem Exits.value_eq {Value : Type v} {value : State → Value}
    (unrolls : ∀ state, guard state → value state = value (body state))
    (exits : Exits guard body start rounds final) : value start = value final := by
  induction rounds generalizing start with
  | zero => exact congrArg value exits.reaches
  | succ rounds inductionHypothesis =>
      have more : guard start := exits.continues 0 (Nat.succ_pos _)
      have rest : Exits guard body (body start) rounds final :=
        ⟨exits.reaches, exits.stops, fun round before =>
          exits.continues (round + 1) (Nat.succ_lt_succ before)⟩
      rw [unrolls start more]
      exact inductionHypothesis rest

end Loops

end Foundation
