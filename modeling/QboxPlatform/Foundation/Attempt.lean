import Mathlib

/-!
# Attempts

A computation over a state that may give up half way; what it has done by then stays done.  A
handler prepares a list of actions without touching what is in view, and then carries them out
until one fails.  Several handlers are tried in turn until one goes through.
-/

namespace Foundation

abbrev Attempt (State Result : Type) := OptionT (StateM State) Result

namespace Attempt

section Outcomes

variable {State Result Other : Type}

/-- The result, if the computation did not give up, and the state it leaves. -/
def outcome (attempt : Attempt State Result) (state : State) : Option Result × State :=
  StateT.run (OptionT.run attempt) state

/-- A step that looks at the state, may give up, and leaves another state. -/
def ofStep (step : State → Option Result × State) : Attempt State Result := OptionT.mk step

def ofOption (value : Option Result) : Attempt State Result := ofStep fun state => (value, state)

/-- Try, and go on in any case. -/
def ignore (attempt : Attempt State Result) : Attempt State Unit :=
  ofStep fun state => (some (), (attempt.outcome state).2)

@[simp]
theorem outcome_ofStep (step : State → Option Result × State) (state : State) :
    (ofStep step).outcome state = step state := rfl

@[simp]
theorem outcome_ofOption (value : Option Result) (state : State) :
    (ofOption value).outcome state = (value, state) := rfl

@[simp]
theorem outcome_ignore (attempt : Attempt State Result) (state : State) :
    attempt.ignore.outcome state = (some (), (attempt.outcome state).2) := rfl

@[simp]
theorem outcome_pure (result : Result) (state : State) :
    outcome (pure result) state = (some result, state) := rfl

@[simp]
theorem outcome_get (state : State) : outcome get state = (some state, state) := rfl

@[simp]
theorem outcome_modify (change : State → State) (state : State) :
    outcome (modify change) state = (some (), change state) := rfl

@[simp]
theorem outcome_failure (state : State) :
    outcome (failure : Attempt State Result) state = (none, state) := rfl

@[simp]
theorem outcome_guard (condition : Prop) [Decidable condition] (state : State) :
    outcome (guard condition) state = (if condition then some () else none, state) := by
  unfold guard
  split
  · rfl
  · rfl

theorem outcome_bind (first : Attempt State Result) (rest : Result → Attempt State Other)
    (state : State) :
    (first >>= rest).outcome state =
      match first.outcome state with
      | (some result, next) => (rest result).outcome next
      | (none, next) => (none, next) := by
  change (match first.outcome state with
    | (result, next) => StateT.run (match result with
      | some value => OptionT.run (rest value)
      | none => pure none) next) = _
  rcases first.outcome state with ⟨_ | result, next⟩
  · rfl
  · rfl

theorem outcome_bind_of_some {first : Attempt State Result} {state next : State}
    {result : Result} (succeeds : first.outcome state = (some result, next))
    (rest : Result → Attempt State Other) :
    (first >>= rest).outcome state = (rest result).outcome next := by
  rw [outcome_bind, succeeds]

theorem outcome_bind_of_none {first : Attempt State Result} {state next : State}
    (stops : first.outcome state = (none, next)) (rest : Result → Attempt State Other) :
    (first >>= rest).outcome state = (none, next) := by
  rw [outcome_bind, stops]

theorem outcome_bind_eq_some {first : Attempt State Result} {rest : Result → Attempt State Other}
    {state final : State} {other : Other} :
    (first >>= rest).outcome state = (some other, final) ↔
      ∃ result next, first.outcome state = (some result, next) ∧
        (rest result).outcome next = (some other, final) := by
  rw [outcome_bind]
  rcases first.outcome state with ⟨_ | result, next⟩
  · simp
  · simp

theorem outcome_guard_eq_some {condition : Prop} [Decidable condition] {state final : State}
    {result : Unit} :
    (guard condition : Attempt State Unit).outcome state = (some result, final) ↔
      condition ∧ state = final := by
  rw [outcome_guard]
  by_cases holds : condition
  · simp [holds]
  · simp [holds]

/-- Past a check that holds. -/
theorem outcome_guard_bind {condition : Prop} [Decidable condition] (holds : condition)
    (rest : Unit → Attempt State Other) (state : State) :
    (guard condition >>= rest).outcome state = (rest ()).outcome state :=
  outcome_bind_of_some (outcome_guard_eq_some.mpr ⟨holds, rfl⟩) rest

theorem outcome_guard_bind_of_not {condition : Prop} [Decidable condition] (fails : ¬ condition)
    (rest : Unit → Attempt State Other) (state : State) :
    (guard condition >>= rest).outcome state = (none, state) := by
  apply outcome_bind_of_none
  rw [outcome_guard, if_neg fails]

theorem outcome_guard_bind_eq_some {condition : Prop} [Decidable condition]
    {rest : Unit → Attempt State Other} {state final : State} {other : Other} :
    (guard condition >>= rest).outcome state = (some other, final) ↔
      condition ∧ (rest ()).outcome state = (some other, final) := by
  constructor
  · intro reached
    obtain ⟨⟨⟩, middle, passed, onwards⟩ := outcome_bind_eq_some.mp reached
    obtain ⟨holds, rfl⟩ := outcome_guard_eq_some.mp passed
    exact ⟨holds, onwards⟩
  · rintro ⟨holds, onwards⟩
    rwa [outcome_guard_bind holds]

theorem outcome_ofOption_bind_eq_some {value : Option Result}
    {rest : Result → Attempt State Other} {state final : State} {other : Other} :
    (ofOption value >>= rest).outcome state = (some other, final) ↔
      ∃ result, value = some result ∧ (rest result).outcome state = (some other, final) := by
  rw [outcome_bind_eq_some]
  simp

end Outcomes

section Views

variable {State Result Other : Type} {View : Type*} {view : State → View}

/-- However the computation ends, what is in view is as before. -/
class Keeps (view : State → View) (attempt : Attempt State Result) : Prop where
  unchanged : ∀ state, view (attempt.outcome state).2 = view state

instance keeps_ofOption (value : Option Result) :
    Keeps view (ofOption value : Attempt State Result) :=
  ⟨fun _ => rfl⟩

instance keeps_ignore (attempt : Attempt State Result) [keeps : Keeps view attempt] :
    Keeps view attempt.ignore :=
  ⟨keeps.unchanged⟩

instance keeps_pure (result : Result) : Keeps view (pure result : Attempt State Result) :=
  ⟨fun _ => rfl⟩

instance keeps_guard (condition : Prop) [Decidable condition] :
    Keeps view (guard condition : Attempt State Unit) :=
  ⟨fun state => by rw [outcome_guard]⟩

instance keeps_bind (first : Attempt State Result) (rest : Result → Attempt State Other)
    [firstKeeps : Keeps view first] [restKeeps : ∀ result, Keeps view (rest result)] :
    Keeps view (first >>= rest) where
  unchanged := by
    intro state
    have kept := firstKeeps.unchanged state
    rcases ended : first.outcome state with ⟨_ | result, next⟩
    · rw [outcome_bind_of_none ended]
      rwa [ended] at kept
    · rw [outcome_bind_of_some ended, (restKeeps result).unchanged next]
      rwa [ended] at kept

instance keeps_ite (condition : Prop) [Decidable condition]
    (first second : Attempt State Result) [firstKeeps : Keeps view first]
    [secondKeeps : Keeps view second] : Keeps view (if condition then first else second) := by
  split
  · exact firstKeeps
  · exact secondKeeps

end Views

section Relations

variable {State Result Other : Type} {related : State → State → Prop}

/-- From related states the computation gives the same result and ends in related states. -/
class Respects (related : State → State → Prop) (attempt : Attempt State Result) : Prop where
  agrees : ∀ first second, related first second →
    (attempt.outcome first).1 = (attempt.outcome second).1 ∧
      related (attempt.outcome first).2 (attempt.outcome second).2

instance respects_ofOption (value : Option Result) :
    Respects related (ofOption value : Attempt State Result) :=
  ⟨fun _ _ alike => ⟨rfl, alike⟩⟩

instance respects_pure (result : Result) : Respects related (pure result : Attempt State Result) :=
  ⟨fun _ _ alike => ⟨rfl, alike⟩⟩

instance respects_ignore (attempt : Attempt State Result) [respects : Respects related attempt] :
    Respects related attempt.ignore :=
  ⟨fun first second alike => ⟨rfl, (respects.agrees first second alike).2⟩⟩

instance respects_guard (condition : Prop) [Decidable condition] :
    Respects related (guard condition : Attempt State Unit) := by
  constructor
  intro first second alike
  rw [outcome_guard, outcome_guard]
  exact ⟨rfl, alike⟩

instance respects_bind (first : Attempt State Result) (rest : Result → Attempt State Other)
    [firstRespects : Respects related first]
    [restRespects : ∀ result, Respects related (rest result)] :
    Respects related (first >>= rest) where
  agrees := by
    intro one other alike
    obtain ⟨sameResult, stillAlike⟩ := firstRespects.agrees one other alike
    rcases ended : first.outcome one with ⟨_ | result, next⟩
    · rcases otherEnded : first.outcome other with ⟨_ | otherResult, otherNext⟩
      · rw [ended, otherEnded] at stillAlike
        rw [outcome_bind_of_none ended, outcome_bind_of_none otherEnded]
        exact ⟨rfl, stillAlike⟩
      · rw [ended, otherEnded] at sameResult
        cases sameResult
    · rcases otherEnded : first.outcome other with ⟨_ | otherResult, otherNext⟩
      · rw [ended, otherEnded] at sameResult
        cases sameResult
      · rw [ended, otherEnded] at sameResult stillAlike
        cases sameResult
        rw [outcome_bind_of_some ended, outcome_bind_of_some otherEnded]
        exact (restRespects result).agrees next otherNext stillAlike

instance respects_ite (condition : Prop) [Decidable condition]
    (first second : Attempt State Result) [firstRespects : Respects related first]
    [secondRespects : Respects related second] :
    Respects related (if condition then first else second) := by
  split
  · exact firstRespects
  · exact secondRespects

end Relations

section Actions

variable {State Action : Type} {View : Type*} (act : Action → Attempt State Unit)
  (view : State → View)

/-- Carry out the actions until one fails. -/
def perform : List Action → Attempt State Unit
  | [] => pure ()
  | action :: rest => do
      act action
      perform rest

/-- Prepare the actions and carry them out. -/
def handle (prepare : Attempt State (List Action)) : Attempt State Unit := do
  let actions ← prepare
  perform act actions

/-- Try the handlers in turn until one goes through. -/
def firstOf : List (Attempt State (List Action)) → State → Bool × State
  | [], state => (false, state)
  | prepare :: rest, state =>
      match (handle act prepare).outcome state with
      | (some _, next) => (true, next)
      | (none, next) => firstOf rest next

/-- Some of the actions are carried out and change what is in view, and the next one fails. -/
def Breaks (actions : List Action) (state : State) : Prop :=
  ∃ done failing rest middle final, actions = done ++ failing :: rest ∧
    (perform act done).outcome state = (some (), middle) ∧
    (act failing).outcome middle = (none, final) ∧ view middle ≠ view state

/-- A handler is cut short: it has prepared its actions, and fails after some of them have
changed what is in view. -/
def CutShort (prepare : Attempt State (List Action)) (state : State) : Prop :=
  ∃ actions prepared, prepare.outcome state = (some actions, prepared) ∧
    Breaks act view actions prepared

/-- None of the handlers that are tried is cut short. -/
def NoneCutShort : List (Attempt State (List Action)) → State → Prop
  | [], _ => True
  | prepare :: rest, state =>
      ¬ CutShort act view prepare state ∧
        ∀ next, (handle act prepare).outcome state = (none, next) → NoneCutShort rest next

/-- Exactly one of the handlers that are tried is cut short. -/
def OneCutShort : List (Attempt State (List Action)) → State → Prop
  | [], _ => False
  | prepare :: rest, state =>
      (CutShort act view prepare state ∧
        ∀ next, (handle act prepare).outcome state = (none, next) →
          NoneCutShort act view rest next) ∨
      (¬ CutShort act view prepare state ∧
        ∃ next, (handle act prepare).outcome state = (none, next) ∧ OneCutShort rest next)

variable {act view}

/-- A list of actions goes through, or one of them fails after the others. -/
theorem perform_cases (actions : List Action) (state : State) :
    (∃ final, (perform act actions).outcome state = (some (), final)) ∨
    ∃ done failing rest middle final, actions = done ++ failing :: rest ∧
      (perform act done).outcome state = (some (), middle) ∧
      (act failing).outcome middle = (none, final) ∧
      (perform act actions).outcome state = (none, final) := by
  induction actions generalizing state with
  | nil => exact Or.inl ⟨state, rfl⟩
  | cons action rest inductionHypothesis =>
      rcases acted : (act action).outcome state with ⟨_ | _, next⟩
      · right
        refine ⟨[], action, rest, state, next, rfl, rfl, acted, ?_⟩
        exact outcome_bind_of_none acted _
      · rcases inductionHypothesis next with
          ⟨final, through⟩ | ⟨done, failing, later, middle, final, split, before, fails, stops⟩
        · left
          exact ⟨final, (outcome_bind_of_some acted _).trans through⟩
        · right
          refine ⟨action :: done, failing, later, middle, final, by rw [split, List.cons_append],
            ?_, fails, ?_⟩
          · exact (outcome_bind_of_some acted _).trans before
          · exact (outcome_bind_of_some acted _).trans stops

/-- Actions one of which fails after the others stop there. -/
theorem perform_of_fails {done rest : List Action} {failing : Action}
    {state middle final : State} (before : (perform act done).outcome state = (some (), middle))
    (fails : (act failing).outcome middle = (none, final)) :
    (perform act (done ++ failing :: rest)).outcome state = (none, final) := by
  induction done generalizing state with
  | nil =>
      cases before
      exact outcome_bind_of_none fails _
  | cons action others inductionHypothesis =>
      obtain ⟨⟨⟩, next, acted, onwards⟩ := outcome_bind_eq_some.mp before
      exact (outcome_bind_of_some acted _).trans (inductionHypothesis onwards)

/-- Failing actions change nothing themselves. -/
def FailsClean (act : Action → Attempt State Unit) (view : State → View) : Prop :=
  ∀ action state next, (act action).outcome state = (none, next) → view next = view state

theorem perform_breaks_iff (clean : FailsClean act view) {actions : List Action}
    {state final : State} (stops : (perform act actions).outcome state = (none, final)) :
    Breaks act view actions state ↔ view final ≠ view state := by
  constructor
  · rintro ⟨done, failing, rest, middle, last, rfl, before, fails, changed⟩
    have same := (perform_of_fails before fails).symm.trans stops
    cases same
    rwa [clean failing middle final fails]
  · intro changed
    rcases @perform_cases _ _ act actions state with
      ⟨last, through⟩ | ⟨done, failing, rest, middle, last, split, before, fails, ends⟩
    · rw [through] at stops
      cases stops
    · rw [ends] at stops
      cases stops
      refine ⟨done, failing, rest, middle, final, split, before, fails, ?_⟩
      rwa [← clean failing middle final fails]

theorem not_breaks_of_through {actions : List Action} {state final : State}
    (through : (perform act actions).outcome state = (some (), final)) :
    ¬ Breaks act view actions state := by
  rintro ⟨done, failing, rest, middle, last, rfl, before, fails, -⟩
  rw [perform_of_fails before fails] at through
  cases through

/-- A handler that goes through is not cut short. -/
theorem not_cutShort_of_through {prepare : Attempt State (List Action)} {state final : State}
    (through : (handle act prepare).outcome state = (some (), final)) :
    ¬ CutShort act view prepare state := by
  rintro ⟨actions, prepared, ready, breaks⟩
  rw [handle, outcome_bind_of_some ready] at through
  exact not_breaks_of_through through breaks

/-- A handler that does not go through changes what is in view exactly if it is cut short. -/
theorem cutShort_iff (clean : FailsClean act view) {prepare : Attempt State (List Action)}
    [prepares : Keeps view prepare] {state final : State}
    (stops : (handle act prepare).outcome state = (none, final)) :
    CutShort act view prepare state ↔ view final ≠ view state := by
  have kept := prepares.unchanged state
  rcases ready : prepare.outcome state with ⟨_ | actions, prepared⟩
  · rw [handle, outcome_bind_of_none ready] at stops
    rw [ready] at kept
    cases stops
    refine iff_of_false ?_ (not_not_intro kept)
    rintro ⟨actions, other, same, -⟩
    rw [ready] at same
    cases same
  · rw [handle, outcome_bind_of_some ready] at stops
    rw [ready] at kept
    rw [← kept, ← perform_breaks_iff clean stops]
    constructor
    · rintro ⟨others, other, same, breaks⟩
      rw [ready] at same
      cases same
      exact breaks
    · intro breaks
      exact ⟨actions, prepared, ready, breaks⟩

section Trying

variable (clean : FailsClean act view) {handlers : List (Attempt State (List Action))}
  (prepares : ∀ prepare ∈ handlers, Keeps view prepare)

include clean prepares

/-- Handlers none of which is cut short leave what is in view, unless one goes through. -/
theorem firstOf_clean {state final : State} (noneCut : NoneCutShort act view handlers state)
    (declined : firstOf act handlers state = (false, final)) : view final = view state := by
  induction handlers generalizing state with
  | nil =>
      cases declined
      rfl
  | cons prepare rest inductionHypothesis =>
      obtain ⟨notCut, onwards⟩ := noneCut
      rw [firstOf] at declined
      rcases tried : (handle act prepare).outcome state with ⟨_ | _, next⟩
      · rw [tried] at declined
        have kept : view next = view state := by
          have keeps := prepares prepare List.mem_cons_self
          by_contra changed
          exact notCut ((cutShort_iff clean tried).mpr changed)
        exact (inductionHypothesis (fun other member => prepares other
          (List.mem_cons_of_mem _ member)) (onwards next tried) declined).trans kept
      · rw [tried] at declined
        cases declined

/-- If exactly one handler is cut short and none goes through, what is in view has changed. -/
theorem firstOf_changed {state final : State} (oneCut : OneCutShort act view handlers state)
    (declined : firstOf act handlers state = (false, final)) : view final ≠ view state := by
  induction handlers generalizing state with
  | nil => exact oneCut.elim
  | cons prepare rest inductionHypothesis =>
      have restPrepares : ∀ other ∈ rest, Keeps view other := fun other member =>
        prepares other (List.mem_cons_of_mem _ member)
      rw [firstOf] at declined
      rcases tried : (handle act prepare).outcome state with ⟨_ | _, next⟩
      · rw [tried] at declined
        have keeps := prepares prepare List.mem_cons_self
        have here := cutShort_iff clean tried
        rcases oneCut with ⟨cut, noneLater⟩ | ⟨notCut, other, same, oneLater⟩
        · rw [firstOf_clean clean restPrepares (noneLater next tried) declined]
          exact here.mp cut
        · rw [tried] at same
          cases same
          have kept : view next = view state := by
            by_contra changed
            exact notCut (here.mpr changed)
          rw [← kept]
          exact inductionHypothesis restPrepares oneLater declined
      · rw [tried] at declined
        cases declined

end Trying

/-- A single handler that does not go through leaves what is in view exactly if it is not cut
short. -/
theorem firstOf_single_iff (clean : FailsClean act view) (prepare : Attempt State (List Action))
    [Keeps view prepare] (state : State) :
    ((firstOf act [prepare] state).1 = false → view (firstOf act [prepare] state).2 = view state) ↔
      ¬ CutShort act view prepare state := by
  rw [firstOf]
  rcases tried : (handle act prepare).outcome state with ⟨_ | _, next⟩
  · rw [cutShort_iff clean tried, not_ne_iff]
    exact ⟨fun unhandled => unhandled rfl, fun same _ => same⟩
  · exact iff_of_true Bool.noConfusion (not_cutShort_of_through tried)

end Actions

end Attempt

end Foundation
