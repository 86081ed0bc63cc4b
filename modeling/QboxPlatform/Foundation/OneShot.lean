import QboxPlatform.Foundation.Run

/-!
# One-shot tokens

A component keeps one flag for each index.  Some events grant the token of an index, some take it
back and some spend it.  If the flag follows the events, then whatever needs the token is matched,
one to one, with the grants before it.
-/

namespace Foundation

universe u v w

/-- What an event means to the token of one index. -/
inductive TokenUse
  | grant
  | revoke
  | spend
  | other
  deriving DecidableEq

/-- The flag after an event. -/
def TokenUse.after : TokenUse → Bool → Bool
  | .grant, _ => true
  | .revoke, _ => false
  | .spend, _ => false
  | .other, held => held

section OneShot

variable {State : Type u} {Event : Type v} {Index : Type w}

def useAt (kind : Index → Event → TokenUse) (events : List Event) (index : Index)
    (position : Nat) : Option TokenUse :=
  (events[position]?).map (kind index)

/-- The last event before the position that touches the token is a grant of it. -/
structure GrantedAt (kind : Index → Event → TokenUse) (events : List Event) (index : Index)
    (earlier position : Nat) : Prop where
  before : earlier < position
  grant : useAt kind events index earlier = some .grant
  untouched : ∀ between, earlier < between → between < position →
    useAt kind events index between = some .other

/-- The step that a run takes at a position. -/
structure StepAt (step : State → Event → Option State) (start : State) (events : List Event)
    (position : Nat) (before : State) (event : Event) (after : State) : Prop where
  occurs : events[position]? = some event
  reached : run step start (events.take position) = some before
  stepped : step before event = some after

/-- The step at the position has an effect that needs a token. -/
def EffectiveAt (step : State → Event → Option State) (effect : State → Event → State → Prop)
    (start : State) (events : List Event) (position : Nat) : Prop :=
  ∃ before event after, StepAt step start events position before event after ∧
    effect before event after

/-- Every effect spends a grant of its own, and a spending event without a grant is refused. -/
structure OneShot (step : State → Event → Option State) (kind : Index → Event → TokenUse)
    (effect : State → Event → State → Prop) (refused : Index → State → State → Prop)
    (start : State) (events : List Event) : Prop where
  matched : ∃ grantOf : Nat → Nat,
    Set.InjOn grantOf {position | EffectiveAt step effect start events position} ∧
    ∀ position, EffectiveAt step effect start events position →
      ∃ index, useAt kind events index position = some .spend ∧
        GrantedAt kind events index (grantOf position) position
  single : ∀ index earlier first second, GrantedAt kind events index earlier first →
    GrantedAt kind events index earlier second → useAt kind events index first = some .spend →
      useAt kind events index second = some .spend → first = second
  refuses : ∀ position index before event after,
    StepAt step start events position before event after → kind index event = .spend →
      (∀ earlier, ¬ GrantedAt kind events index earlier position) → refused index before after

variable {step : State → Event → Option State} {kind : Index → Event → TokenUse}
  {held : State → Index → Bool} {start : State} {events : List Event}

theorem grantedAt_succ {index : Index} {earlier position : Nat} :
    GrantedAt kind events index earlier (position + 1) ↔
      (earlier = position ∧ useAt kind events index position = some .grant) ∨
      (GrantedAt kind events index earlier position ∧
        useAt kind events index position = some .other) := by
  constructor
  · rintro ⟨before, grant, untouched⟩
    rcases Nat.lt_succ_iff_lt_or_eq.mp before with earlierBefore | rfl
    · right
      refine ⟨⟨earlierBefore, grant, fun between after below => ?_⟩, ?_⟩
      · exact untouched between after (by omega)
      · exact untouched position earlierBefore (by omega)
    · exact Or.inl ⟨rfl, grant⟩
  · rintro (⟨rfl, grant⟩ | ⟨granted, other⟩)
    · exact ⟨by omega, grant, fun between after below => by omega⟩
    · refine ⟨by have := granted.before; omega, granted.grant, fun between after below => ?_⟩
      rcases Nat.lt_succ_iff_lt_or_eq.mp below with inside | rfl
      · exact granted.untouched between after inside
      · exact other

/-- A grant serves one spending event. -/
theorem GrantedAt.unique {index : Index} {earlier first second : Nat}
    (firstGranted : GrantedAt kind events index earlier first)
    (secondGranted : GrantedAt kind events index earlier second)
    (firstSpends : useAt kind events index first = some .spend)
    (secondSpends : useAt kind events index second = some .spend) : first = second := by
  rcases Nat.lt_trichotomy first second with below | same | above
  · have untouched := secondGranted.untouched first firstGranted.before below
    simp [firstSpends] at untouched
  · exact same
  · have untouched := firstGranted.untouched second secondGranted.before above
    simp [secondSpends] at untouched

/-- A flag that follows the events is set exactly after a grant. -/
theorem held_iff_grantedAt
    (follows : ∀ state event next, step state event = some next → ∀ index,
      held next index = (kind index event).after (held state index))
    {index : Index} (initially : held start index = false) {position : Nat} {state : State}
    (inside : position ≤ events.length)
    (reached : run step start (events.take position) = some state) :
    held state index = true ↔ ∃ earlier, GrantedAt kind events index earlier position := by
  induction position generalizing state with
  | zero =>
      cases reached
      simp only [initially, Bool.false_eq_true, false_iff, not_exists]
      intro earlier granted
      exact absurd granted.before (Nat.not_lt_zero earlier)
  | succ position inductionHypothesis =>
      have below : position < events.length := inside
      rw [List.take_succ_eq_append_getElem below, run_append, Option.bind_eq_some_iff] at reached
      obtain ⟨middle, earlierReached, last⟩ := reached
      obtain ⟨next, stepped, same⟩ := run_cons_eq_some.mp last
      cases same
      have before := inductionHypothesis (by omega) earlierReached
      have here : useAt kind events index position = some (kind index events[position]) := by
        simp [useAt, below]
      rw [follows middle _ state stepped index]
      simp only [grantedAt_succ, here, Option.some.injEq]
      cases use : kind index events[position] with
      | grant => simp [TokenUse.after]
      | revoke => simp [TokenUse.after]
      | spend => simp [TokenUse.after]
      | other => simp [TokenUse.after, before]

/-- A component whose flags follow the events, and whose effects all spend a token that is held,
treats its tokens as one-shot. -/
theorem oneShot_of_follows {effect : State → Event → State → Prop}
    {refused : Index → State → State → Prop}
    (follows : ∀ state event next, step state event = some next → ∀ index,
      held next index = (kind index event).after (held state index))
    (exclusive : ∀ event first second, kind first event = .grant → kind second event = .grant →
      first = second)
    (spends : ∀ state event next, step state event = some next → effect state event next →
      ∃ index, kind index event = .spend ∧ held state index = true)
    (refuses : ∀ state event next index, step state event = some next →
      kind index event = .spend → held state index = false → refused index state next)
    (initially : ∀ index, held start index = false) :
    OneShot step kind effect refused start events := by
  have granted {position : Nat} (effective : EffectiveAt step effect start events position) :
      ∃ earlier index, useAt kind events index position = some .spend ∧
        GrantedAt kind events index earlier position := by
    obtain ⟨before, event, after, ⟨occurs, reached, stepped⟩, changes⟩ := effective
    obtain ⟨index, spending, isHeld⟩ := spends before event after stepped changes
    obtain ⟨inside, -⟩ := List.getElem?_eq_some_iff.mp occurs
    obtain ⟨earlier, isGranted⟩ :=
      (held_iff_grantedAt follows (initially index) inside.le reached).mp isHeld
    exact ⟨earlier, index, by simp [useAt, occurs, spending], isGranted⟩
  choose! grantOf isGranted using fun position => @granted position
  refine ⟨⟨grantOf, ?_, isGranted⟩, fun _ _ _ _ => GrantedAt.unique, ?_⟩
  · intro first firstEffective second secondEffective same
    obtain ⟨firstIndex, firstSpends, firstGranted⟩ := isGranted first firstEffective
    obtain ⟨secondIndex, secondSpends, secondGranted⟩ := isGranted second secondEffective
    rw [← same] at secondGranted
    obtain ⟨event, occurs, firstGrant⟩ := Option.map_eq_some_iff.mp firstGranted.grant
    have secondGrant := secondGranted.grant
    rw [useAt, occurs, Option.map_some, Option.some.injEq] at secondGrant
    obtain rfl := exclusive event firstIndex secondIndex firstGrant secondGrant
    exact firstGranted.unique secondGranted firstSpends secondSpends
  · intro position index before event after stepAt spending ungranted
    apply refuses before event after index stepAt.stepped spending
    obtain ⟨inside, -⟩ := List.getElem?_eq_some_iff.mp stepAt.occurs
    have isHeld := held_iff_grantedAt follows (initially index) inside.le stepAt.reached
    rw [← Bool.not_eq_true, isHeld, not_exists]
    exact ungranted

end OneShot

end Foundation
