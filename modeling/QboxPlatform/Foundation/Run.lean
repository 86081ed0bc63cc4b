import Mathlib

/-!
# Finite runs of a partial step function

A component is a partial step function: `none` says that the event cannot
happen in the state (a guard fails, or the program leaves the behaviour of the
step undefined).  An invariant is proved on one step and carried over runs by
the induction rules below.
-/

namespace Foundation

universe u v w

section Runs

variable {State : Type u} {Event : Type v}

/-- The state after a sequence of events. -/
def run (step : State → Event → Option State) : State → List Event → Option State
  | state, [] => some state
  | state, event :: rest => (step state event).bind fun next => run step next rest

/-- Every step of the run is taken from a state and with an event that meet the
condition. -/
def Along (step : State → Event → Option State) (condition : State → Event → Prop) :
    State → List Event → Prop
  | _, [] => True
  | state, event :: rest =>
      ∀ next, step state event = some next →
        condition state event ∧ Along step condition next rest

/-- Every state the run visits, the first one included, has the property. -/
def Always (step : State → Event → Option State) (property : State → Prop) :
    State → List Event → Prop
  | state, [] => property state
  | state, event :: rest =>
      property state ∧
        ∀ next, step state event = some next → Always step property next rest

variable {step : State → Event → Option State}

@[simp]
theorem run_nil (state : State) : run step state [] = some state := rfl

theorem run_cons (state : State) (event : Event) (rest : List Event) :
    run step state (event :: rest) =
      (step state event).bind fun next => run step next rest := rfl

theorem run_append (state : State) (front back : List Event) :
    run step state (front ++ back) =
      (run step state front).bind fun middle => run step middle back := by
  induction front generalizing state with
  | nil => rfl
  | cons event rest inductionHypothesis =>
      simp only [List.cons_append, run_cons, Option.bind_assoc, inductionHypothesis]

theorem run_cons_eq_some {state final : State} {event : Event} {rest : List Event} :
    run step state (event :: rest) = some final ↔
      ∃ next, step state event = some next ∧ run step next rest = some final := by
  rw [run_cons, Option.bind_eq_some_iff]

theorem run_isSome_iff {state : State} {events : List Event} :
    (run step state events).isSome = true ↔
      ∀ front event back middle, events = front ++ event :: back →
        run step state front = some middle → (step middle event).isSome = true := by
  induction events generalizing state with
  | nil =>
      refine iff_of_true rfl fun front event back middle parts => ?_
      cases front with
      | nil => cases parts
      | cons first rest => cases parts
  | cons first rest inductionHypothesis =>
      cases stepped : step state first with
      | none =>
          rw [run_cons, stepped]
          refine iff_of_false Bool.false_ne_true fun every => ?_
          have here := every [] first rest state rfl rfl
          rw [stepped] at here
          cases here
      | some next =>
          rw [run_cons, stepped, Option.bind_some, inductionHypothesis]
          constructor
          · intro later front event back middle parts reached
            cases front with
            | nil =>
                obtain ⟨rfl, -⟩ := List.cons.inj parts
                cases reached
                rw [stepped]
                rfl
            | cons initial front =>
                obtain ⟨rfl, remaining⟩ := List.cons.inj parts
                rw [run_cons, stepped] at reached
                exact later front event back middle remaining reached
          · intro every front event back middle parts reached
            apply every (first :: front) event back middle
            · rw [parts, List.cons_append]
            · rw [run_cons, stepped]
              exact reached

theorem run_congr_of_invariant {other : State → Event → Option State} {invariant : State → Prop}
    (keeps : ∀ state event next, invariant state → step state event = some next →
      invariant next)
    (agree : ∀ state event, invariant state → other state event = step state event)
    {state : State} (initially : invariant state) (events : List Event) :
    run other state events = run step state events := by
  induction events generalizing state with
  | nil => rfl
  | cons event rest inductionHypothesis =>
      rw [run_cons, run_cons, agree state event initially]
      cases stepped : step state event with
      | none => rfl
      | some next => exact inductionHypothesis (keeps state event next initially stepped)

theorem run_invariant {property : State → Prop}
    (keeps : ∀ state event next, property state → step state event = some next →
      property next)
    {state final : State} {events : List Event} (initially : property state)
    (reached : run step state events = some final) : property final := by
  induction events generalizing state with
  | nil =>
      cases reached
      exact initially
  | cons event rest inductionHypothesis =>
      obtain ⟨next, stepped, remaining⟩ := run_cons_eq_some.mp reached
      exact inductionHypothesis (keeps state event next initially stepped) remaining

/-- A property that the steps meeting a condition keep holds at the end of every
run all of whose steps meet it. -/
theorem run_invariant_along {property : State → Prop} {condition : State → Event → Prop}
    (keeps : ∀ state event next, property state → condition state event →
      step state event = some next → property next)
    {state final : State} {events : List Event} (initially : property state)
    (met : Along step condition state events)
    (reached : run step state events = some final) : property final := by
  induction events generalizing state with
  | nil =>
      cases reached
      exact initially
  | cons event rest inductionHypothesis =>
      obtain ⟨next, stepped, remaining⟩ := run_cons_eq_some.mp reached
      obtain ⟨here, later⟩ := met next stepped
      exact inductionHypothesis (keeps state event next initially here stepped) later remaining

/-- What a run leaves in a record that is kept beside the state. -/
def history {Ghost : Type w} (step : State → Event → Option State)
    (update : State → Event → Ghost → Ghost) : State → Ghost → List Event → Ghost
  | _, ghost, [] => ghost
  | state, ghost, event :: rest =>
      match step state event with
      | none => ghost
      | some next => history step update next (update state event ghost) rest

theorem history_invariant_along {Ghost : Type w} {update : State → Event → Ghost → Ghost}
    {related : State → Ghost → Prop} {condition : State → Event → Prop}
    (keeps : ∀ state ghost event next, related state ghost → condition state event →
      step state event = some next → related next (update state event ghost))
    {state final : State} {ghost : Ghost} {events : List Event}
    (initially : related state ghost) (met : Along step condition state events)
    (reached : run step state events = some final) :
    related final (history step update state ghost events) := by
  induction events generalizing state ghost with
  | nil =>
      cases reached
      exact initially
  | cons event rest inductionHypothesis =>
      obtain ⟨next, stepped, remaining⟩ := run_cons_eq_some.mp reached
      obtain ⟨here, later⟩ := met next stepped
      simp only [history, stepped]
      exact inductionHypothesis (keeps state ghost event next initially here stepped) later
        remaining

theorem history_invariant {Ghost : Type w} {update : State → Event → Ghost → Ghost}
    {related : State → Ghost → Prop}
    (keeps : ∀ state ghost event next, related state ghost → step state event = some next →
      related next (update state event ghost))
    {state final : State} {ghost : Ghost} {events : List Event}
    (initially : related state ghost) (reached : run step state events = some final) :
    related final (history step update state ghost events) := by
  induction events generalizing state ghost with
  | nil =>
      cases reached
      exact initially
  | cons event rest inductionHypothesis =>
      obtain ⟨next, stepped, remaining⟩ := run_cons_eq_some.mp reached
      simp only [history, stepped]
      exact inductionHypothesis (keeps state ghost event next initially stepped) remaining

theorem along_append {condition : State → Event → Prop} {state : State}
    {front back : List Event} (met : Along step condition state (front ++ back)) :
    Along step condition state front := by
  induction front generalizing state with
  | nil => trivial
  | cons event rest inductionHypothesis =>
      intro next stepped
      exact ⟨(met next stepped).1, inductionHypothesis (met next stepped).2⟩

theorem along_of_append {condition : State → Event → Prop} {state middle : State}
    {front back : List Event} (met : Along step condition state (front ++ back))
    (reached : run step state front = some middle) : Along step condition middle back := by
  induction front generalizing state with
  | nil =>
      cases reached
      exact met
  | cons event rest inductionHypothesis =>
      obtain ⟨next, stepped, remaining⟩ := run_cons_eq_some.mp reached
      exact inductionHypothesis (met next stepped).2 remaining

theorem along_mono {first second : State → Event → Prop}
    (weaker : ∀ state event next, step state event = some next → first state event →
      second state event) {state : State} {events : List Event}
    (met : Along step first state events) : Along step second state events := by
  induction events generalizing state with
  | nil => trivial
  | cons event rest inductionHypothesis =>
      intro next stepped
      obtain ⟨here, later⟩ := met next stepped
      exact ⟨weaker state event next stepped here, inductionHypothesis later⟩

theorem along_congr {first second : State → Event → Prop}
    (agree : ∀ state event next, step state event = some next →
      (first state event ↔ second state event)) {state : State} {events : List Event} :
    Along step first state events ↔ Along step second state events := by
  constructor
  · exact along_mono fun state event next stepped => (agree state event next stepped).mp
  · exact along_mono fun state event next stepped => (agree state event next stepped).mpr

theorem along_congr_of_invariant {invariant : State → Prop} {first second : State → Event → Prop}
    (keeps : ∀ state event next, invariant state → step state event = some next →
      invariant next)
    (agree : ∀ state event, invariant state → (first state event ↔ second state event))
    {state : State} {events : List Event} (sound : invariant state) :
    Along step first state events ↔ Along step second state events := by
  induction events generalizing state with
  | nil => exact Iff.rfl
  | cons event rest inductionHypothesis =>
      refine forall₂_congr fun next stepped => and_congr (agree state event sound) ?_
      exact inductionHypothesis (keeps state event next sound stepped)

/-- A condition on the steps gives another one, under an invariant that the steps meeting it
keep. -/
theorem along_of_invariant {invariant : State → Prop} {first second : State → Event → Prop}
    (keeps : ∀ state event next, invariant state → first state event →
      step state event = some next → invariant next)
    (gives : ∀ state event next, invariant state → first state event →
      step state event = some next → second state event)
    {state : State} {events : List Event} (sound : invariant state)
    (met : Along step first state events) : Along step second state events := by
  induction events generalizing state with
  | nil => trivial
  | cons event rest inductionHypothesis =>
      intro next stepped
      obtain ⟨here, later⟩ := met next stepped
      exact ⟨gives state event next sound here stepped,
        inductionHypothesis (keeps state event next sound here stepped) later⟩

/-- Every state of the run is related to every later one. -/
def Evolves (step : State → Event → Option State) (relation : State → State → Prop)
    (state : State) (events : List Event) : Prop :=
  ∀ front middle back earlier later, events = front ++ middle ++ back →
    run step state front = some earlier → run step earlier middle = some later →
      relation earlier later

theorem evolves_iff_along {relation : State → State → Prop}
    (reflexive : ∀ state, relation state state)
    (transitive : ∀ first second third, relation first second → relation second third →
      relation first third) {state : State} {events : List Event} :
    Evolves step relation state events ↔
      Along step (fun before event => ∀ after, step before event = some after →
        relation before after) state events := by
  constructor
  · intro evolves
    induction events generalizing state with
    | nil => trivial
    | cons event rest inductionHypothesis =>
        intro next stepped
        constructor
        · intro after reached
          exact evolves [] [event] rest state after rfl rfl
            (run_cons_eq_some.mpr ⟨after, reached, rfl⟩)
        · apply inductionHypothesis
          rintro front middle back earlier later rfl reached remaining
          exact evolves (event :: front) middle back earlier later rfl
            (run_cons_eq_some.mpr ⟨next, stepped, reached⟩) remaining
  · rintro met front middle back earlier later rfl reached remaining
    have onwards := along_append (along_of_append (List.append_assoc .. ▸ met) reached)
    exact run_invariant_along
      (fun before event after related condition stepped =>
        transitive earlier before after related (condition after stepped))
      (reflexive earlier) onwards remaining

theorem along_of_forall {condition : State → Event → Prop} {events : List Event}
    (met : ∀ event ∈ events, ∀ state, condition state event) (state : State) :
    Along step condition state events := by
  induction events generalizing state with
  | nil => trivial
  | cons event rest inductionHypothesis =>
      intro next stepped
      refine ⟨met event List.mem_cons_self state, ?_⟩
      exact inductionHypothesis (fun later member => met later (List.mem_cons_of_mem _ member)) next

instance decidableAlong {condition : State → Event → Prop}
    [∀ state event, Decidable (condition state event)] :
    (state : State) → (events : List Event) → Decidable (Along step condition state events)
  | _, [] => isTrue trivial
  | state, event :: rest =>
      match stepped : step state event with
      | none => isTrue fun next reached => by simp [stepped] at reached
      | some next =>
          have later : Decidable (Along step condition next rest) := decidableAlong next rest
          decidable_of_iff (condition state event ∧ Along step condition next rest)
            (by simp [Along, stepped])

theorem always_iff_prefix {property : State → Prop} {state : State} {events : List Event} :
    Always step property state events ↔
      ∀ front back final, events = front ++ back →
        run step state front = some final → property final := by
  induction events generalizing state with
  | nil =>
      constructor
      · rintro holds front back final split reached
        obtain ⟨rfl, -⟩ := List.append_eq_nil_iff.mp split.symm
        cases reached
        exact holds
      · intro prefixes
        exact prefixes [] [] state rfl rfl
  | cons event rest inductionHypothesis =>
      constructor
      · rintro ⟨here, later⟩ front back final split reached
        cases front with
        | nil =>
            cases reached
            exact here
        | cons first front =>
            obtain ⟨rfl, restSplit⟩ := List.cons.inj split
            obtain ⟨next, stepped, remaining⟩ := run_cons_eq_some.mp reached
            exact inductionHypothesis.mp (later next stepped) front back final restSplit remaining
      · intro prefixes
        refine ⟨prefixes [] _ state rfl rfl, fun next stepped => ?_⟩
        apply inductionHypothesis.mpr
        intro front back final split reached
        exact prefixes (event :: front) back final (by rw [split, List.cons_append])
          (run_cons_eq_some.mpr ⟨next, stepped, reached⟩)

/-- A property that the steps meeting a condition keep holds in every state of a run all of
whose steps meet it. -/
theorem always_of_along {property : State → Prop} {condition : State → Event → Prop}
    (keeps : ∀ state event next, property state → condition state event →
      step state event = some next → property next)
    {state : State} {events : List Event} (initially : property state)
    (met : Along step condition state events) : Always step property state events := by
  apply always_iff_prefix.mpr
  rintro front back final rfl reached
  exact run_invariant_along keeps initially (along_append met) reached

theorem always_of_invariant {invariant property : State → Prop}
    (keeps : ∀ state event next, invariant state → step state event = some next →
      invariant next)
    (gives : ∀ state, invariant state → property state) {state : State} {events : List Event}
    (sound : invariant state) : Always step property state events := by
  apply always_iff_prefix.mpr
  rintro front back final rfl reached
  exact gives final (run_invariant keeps sound reached)

/-- When, under an invariant, a step keeps the property exactly if it meets the condition,
the runs that never leave the property are those all of whose steps meet the condition. -/
theorem always_iff_along_of_invariant {invariant property : State → Prop}
    {condition : State → Event → Prop}
    (keeps : ∀ state event next, invariant state → step state event = some next →
      invariant next)
    (exact : ∀ state event next, invariant state → property state →
      step state event = some next → (property next ↔ condition state event))
    {state : State} {events : List Event} (sound : invariant state)
    (initially : property state) :
    Always step property state events ↔ Along step condition state events := by
  induction events generalizing state with
  | nil => exact ⟨fun _ => trivial, fun _ => initially⟩
  | cons event rest inductionHypothesis =>
      cases stepped : step state event with
      | none => simp only [Always, Along, stepped, reduceCtorEq, false_implies, implies_true,
          and_true, initially]
      | some next =>
          have here := exact state event next sound initially stepped
          have soundNext := keeps state event next sound stepped
          simp only [Always, Along, stepped, Option.some.injEq, forall_eq']
          constructor
          · rintro ⟨-, later⟩
            have kept : property next := by
              cases rest with
              | nil => exact later
              | cons _ _ => exact later.1
            exact ⟨here.mp kept, (inductionHypothesis soundNext kept).mp later⟩
          · rintro ⟨meets, later⟩
            exact ⟨initially, (inductionHypothesis soundNext (here.mpr meets)).mpr later⟩

theorem always_iff_along {property : State → Prop} {condition : State → Event → Prop}
    (exact : ∀ state event next, property state → step state event = some next →
      (property next ↔ condition state event))
    {state : State} {events : List Event} (initially : property state) :
    Always step property state events ↔ Along step condition state events :=
  always_iff_along_of_invariant (fun _ _ _ _ _ => trivial)
    (fun state event next (_ : True) => exact state event next) trivial initially

theorem always_congr {invariant first second : State → Prop}
    (keeps : ∀ state event next, invariant state → step state event = some next →
      invariant next)
    (agree : ∀ state, invariant state → (first state ↔ second state)) {state : State}
    {events : List Event} (sound : invariant state) :
    Always step first state events ↔ Always step second state events := by
  induction events generalizing state with
  | nil => exact agree state sound
  | cons event rest inductionHypothesis =>
      refine and_congr (agree state sound) (forall₂_congr fun next stepped => ?_)
      exact inductionHypothesis (keeps state event next sound stepped)

/-- The event at a position of a run, with the states before and after it. -/
structure Happens (step : State → Event → Option State) (state : State) (events : List Event)
    (position : Nat) (event : Event) (before after : State) : Prop where
  reached : run step state (events.take position) = some before
  event_eq : events[position]? = some event
  stepped : step before event = some after

namespace Happens

variable {state before after before' after' : State} {events : List Event}
  {position later : Nat} {event event' : Event}

theorem split (happens : Happens step state events position event before after) :
    events = events.take position ++ event :: events.drop (position + 1) := by
  obtain ⟨inside, same⟩ := List.getElem?_eq_some_iff.mp happens.event_eq
  rw [← same, List.cons_getElem_drop_succ, List.take_append_drop]

theorem condition {condition : State → Event → Prop}
    (happens : Happens step state events position event before after)
    (met : Along step condition state events) : condition before event := by
  rw [happens.split] at met
  exact (along_of_append met happens.reached after happens.stepped).1

/-- The steps between two positions lead from the state after the first one to the state before
the second one. -/
theorem between {condition : State → Event → Prop}
    (happens : Happens step state events position event before after)
    (follows : Happens step state events later event' before' after') (order : position < later)
    (met : Along step condition state events) :
    ∃ middle, run step after middle = some before' ∧ Along step condition after middle := by
  refine ⟨(events.take later).drop (position + 1), ?_, ?_⟩
  · have parts : events.take later =
        events.take position ++ event :: (events.take later).drop (position + 1) := by
      have here : (events.take later)[position]? = some event := by
        rw [List.getElem?_take_of_lt order, happens.event_eq]
      obtain ⟨inside, same⟩ := List.getElem?_eq_some_iff.mp here
      have front : (events.take later).take position = events.take position := by
        rw [List.take_take, Nat.min_eq_left order.le]
      rw [← front, ← same, List.cons_getElem_drop_succ, List.take_append_drop]
    have reached := follows.reached
    rw [parts, run_append, happens.reached, Option.bind_some, run_cons, happens.stepped,
      Option.bind_some] at reached
    exact reached
  · have onwards : Along step condition after (events.drop (position + 1)) := by
      rw [happens.split] at met
      exact (along_of_append met happens.reached after happens.stepped).2
    rw [List.drop_take]
    rw [← List.take_append_drop (later - (position + 1)) (events.drop (position + 1))] at onwards
    exact along_append onwards

end Happens

end Runs

section Responders

variable {State : Type u} {Request : Type v} {Reply : Type w}

/-- The replies a deterministic service gives to a sequence of requests, and its
state afterwards. -/
def serve (respond : State → Request → Reply × State) :
    State → List Request → List Reply × State
  | state, [] => ([], state)
  | state, request :: rest =>
      let (reply, next) := respond state request
      let (replies, final) := serve respond next rest
      (reply :: replies, final)

theorem serve_cons (respond : State → Request → Reply × State) (state : State)
    (request : Request) (rest : List Request) :
    serve respond state (request :: rest) =
      ((respond state request).1 :: (serve respond (respond state request).2 rest).1,
        (serve respond (respond state request).2 rest).2) := rfl

/-- Two services whose steps keep a relation and agree on replies agree on the replies
to every sequence, and end in related states. -/
theorem serve_simulates {Abstract : Type*} {respond : State → Request → Reply × State}
    {specification : Abstract → Request → Reply × Abstract}
    {related : Abstract → State → Prop}
    (agrees : ∀ abstract state request, related abstract state →
      (respond state request).1 = (specification abstract request).1 ∧
        related (specification abstract request).2 (respond state request).2)
    {abstract : Abstract} {state : State} (initially : related abstract state)
    (requests : List Request) :
    (serve respond state requests).1 = (serve specification abstract requests).1 ∧
      related (serve specification abstract requests).2 (serve respond state requests).2 := by
  induction requests generalizing abstract state with
  | nil => exact ⟨rfl, initially⟩
  | cons request rest inductionHypothesis =>
      obtain ⟨sameReply, stillRelated⟩ := agrees abstract state request initially
      obtain ⟨sameReplies, finallyRelated⟩ := inductionHypothesis stillRelated
      rw [serve_cons, serve_cons]
      exact ⟨by rw [sameReply, sameReplies], finallyRelated⟩

end Responders

end Foundation
