import QboxPlatform.Foundation.Run

/-!
# Services of several steps

A service seen through the requests that reach it, and a service whose requests are made of
several accesses each.
-/

namespace Foundation

universe u v w x y

section Serving

variable {State : Type u} {Access : Type v} {Reply : Type w}
variable (access : State → Access → Reply × State)

theorem serve_append (state : State) (front back : List Access) :
    serve access state (front ++ back) =
      ((serve access state front).1 ++ (serve access (serve access state front).2 back).1,
        (serve access (serve access state front).2 back).2) := by
  induction front generalizing state with
  | nil => rfl
  | cons first rest inductionHypothesis =>
      rw [List.cons_append, serve_cons, inductionHypothesis]
      rfl

variable {access} {Event : Type x}

/-- Events that are no accesses and change nothing are not seen. -/
theorem serve_filterMap {respond : State → Event → Option Reply × State}
    {issued : Event → Option Access} {events : List Event}
    (answered : ∀ event ∈ events, ∀ state request, issued event = some request →
      respond state event = (some (access state request).1, (access state request).2))
    (silent : ∀ event ∈ events, ∀ state, issued event = none → respond state event = (none, state))
    (state : State) :
    ((serve respond state events).1.filterMap id, (serve respond state events).2) =
      serve access state (events.filterMap issued) := by
  induction events generalizing state with
  | nil => rfl
  | cons event rest inductionHypothesis =>
      have onwards := inductionHypothesis
        (fun later member => answered later (List.mem_cons_of_mem _ member))
        (fun later member => silent later (List.mem_cons_of_mem _ member))
      cases here : issued event with
      | none =>
          rw [List.filterMap_cons_none here, serve_cons, silent event List.mem_cons_self state here,
            ← onwards]
          rfl
      | some request =>
          rw [List.filterMap_cons_some here, serve_cons, serve_cons,
            answered event List.mem_cons_self state request here, ← onwards]
          rfl

variable {Abstract : Type y} {Request : Type x}

/-- If the accesses of each request answer as the request does and keep a relation, so do the
accesses of a sequence of requests. -/
theorem serve_flatMap {expand : Request → List Access} {allowed : Request → Prop}
    {answer : Abstract → Request → List Reply × Abstract} {related : Abstract → State → Prop}
    (each : ∀ abstract state request, allowed request → related abstract state →
      ∃ final, serve access state (expand request) = ((answer abstract request).1, final) ∧
        related (answer abstract request).2 final)
    {requests : List Request} (all : ∀ request ∈ requests, allowed request)
    {abstract : Abstract} {state : State} (initially : related abstract state) :
    ∃ final, serve access state (requests.flatMap expand) =
        ((serve answer abstract requests).1.flatten, final) ∧
      related (serve answer abstract requests).2 final := by
  induction requests generalizing abstract state with
  | nil => exact ⟨state, rfl, initially⟩
  | cons request rest inductionHypothesis =>
      obtain ⟨middle, served, still⟩ :=
        each abstract state request (all request List.mem_cons_self) initially
      obtain ⟨final, later, ended⟩ := inductionHypothesis
        (fun other member => all other (List.mem_cons_of_mem _ member)) still
      refine ⟨final, ?_, ended⟩
      rw [List.flatMap_cons, serve_append, served, later]
      rfl

end Serving

end Foundation
