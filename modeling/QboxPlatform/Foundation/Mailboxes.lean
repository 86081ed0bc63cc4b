import QboxPlatform.Foundation.Run

/-!
# Mailboxes around one server

Clients share a server, each with a mailbox of its own: a request is posted and served and its
reply collected before the next one is posted.  The server answers one request after the other.
-/

namespace Foundation

universe u v w x

section Simulation

variable {State : Type u} {Event : Type v} {Abstract : Type w} {Label : Type x}

/-- What an abstract step function sees of a run. -/
def labels (step : State → Event → Option State) (label : State → Event → Label) :
    State → List Event → List Label
  | _, [] => []
  | state, event :: rest =>
      label state event ::
        match step state event with
        | none => []
        | some next => labels step label next rest

/-- A relation that every step keeps together with the abstract step that it is seen as relates
the ends of the two runs. -/
theorem run_simulates {step : State → Event → Option State}
    {specification : Abstract → Label → Option Abstract} {label : State → Event → Label}
    {related : State → Abstract → Prop}
    (simulates : ∀ state event next abstract, related state abstract →
      step state event = some next → ∃ abstract', specification abstract (label state event) =
        some abstract' ∧ related next abstract')
    {state final : State} {events : List Event} {abstract : Abstract}
    (initially : related state abstract) (reached : run step state events = some final) :
    ∃ abstract', run specification abstract (labels step label state events) = some abstract' ∧
      related final abstract' := by
  induction events generalizing state abstract with
  | nil =>
      cases reached
      exact ⟨abstract, rfl, initially⟩
  | cons event rest inductionHypothesis =>
      obtain ⟨next, stepped, remaining⟩ := run_cons_eq_some.mp reached
      obtain ⟨middle, taken, stillRelated⟩ := simulates state event next abstract initially stepped
      obtain ⟨abstract', arrived, finallyRelated⟩ := inductionHypothesis stillRelated remaining
      refine ⟨abstract', ?_, finallyRelated⟩
      rw [labels, stepped]
      exact run_cons_eq_some.mpr ⟨middle, taken, arrived⟩

end Simulation

section Serving

variable {State : Type u} {Request : Type v} {Reply : Type w}

theorem serve_concat (respond : State → Request → Reply × State) (state : State)
    (front : List Request) (request : Request) :
    serve respond state (front ++ [request]) =
      ((serve respond state front).1 ++ [(respond (serve respond state front).2 request).1],
        (respond (serve respond state front).2 request).2) := by
  induction front generalizing state with
  | nil => rfl
  | cons first rest inductionHypothesis =>
      rw [List.cons_append, serve_cons, inductionHypothesis]
      rfl

theorem length_serve (respond : State → Request → Reply × State) (state : State)
    (requests : List Request) : (serve respond state requests).1.length = requests.length := by
  induction requests generalizing state with
  | nil => rfl
  | cons request rest inductionHypothesis =>
      rw [serve_cons, List.length_cons, inductionHypothesis, List.length_cons]

end Serving

/-- What a mailbox holds. -/
inductive Slot (Request : Type u) (Reply : Type v)
  | free
  | posted (request : Request)
  | answered (reply : Reply)

/-- The reply that waits to be collected. -/
def Slot.outstanding {Request : Type u} {Reply : Type v} : Slot Request Reply → List Reply
  | .free => []
  | .posted _ => []
  | .answered reply => [reply]

structure Mailboxes (Client : Type u) (State : Type v) (Request : Type w) (Reply : Type x) where
  server : State
  slots : Client → Slot Request Reply := fun _ => .free
  /-- The requests in the order in which they were served. -/
  served : List (Client × Request) := []
  /-- The replies in the order in which they were collected. -/
  collected : List (Client × Reply) := []

namespace Mailboxes

inductive Event (Client : Type u) (Request : Type v)
  | post (client : Client) (request : Request)
  | serve (client : Client)
  | collect (client : Client)
  | idle

variable {Client : Type u} [DecidableEq Client] {State : Type v} {Request : Type w}
  {Reply : Type x} (answer : State → Request → Reply × State)

def step (boxes : Mailboxes Client State Request Reply) :
    Event Client Request → Option (Mailboxes Client State Request Reply)
  | .post client request =>
      match boxes.slots client with
      | .free => some { boxes with
          slots := Function.update boxes.slots client (.posted request) }
      | _ => none
  | .serve client =>
      match boxes.slots client with
      | .posted request => some { boxes with
          server := (answer boxes.server request).2
          slots := Function.update boxes.slots client (.answered (answer boxes.server request).1)
          served := boxes.served ++ [(client, request)] }
      | _ => none
  | .collect client =>
      match boxes.slots client with
      | .answered reply => some { boxes with
          slots := Function.update boxes.slots client .free
          collected := boxes.collected ++ [(client, reply)] }
      | _ => none
  | .idle => some boxes

/-- The values that stand beside a client. -/
def ofClient {Value : Type x} (client : Client) (entries : List (Client × Value)) : List Value :=
  (entries.filter fun entry => entry.1 = client).map Prod.snd

omit [DecidableEq Client] in
theorem ofClient_concat [DecidableEq Client] {Value : Type x} (client : Client)
    (entries : List (Client × Value)) (entry : Client × Value) :
    ofClient client (entries ++ [entry]) =
      if entry.1 = client then ofClient client entries ++ [entry.2]
      else ofClient client entries := by
  rw [ofClient, List.filter_append, List.map_append, List.filter_singleton]
  by_cases own : entry.1 = client
  · rw [if_pos own, decide_eq_true own]
    rfl
  · rw [if_neg own, decide_eq_false own]
    exact List.append_nil _

/-- The replies of the server to the requests in their order, each beside its client. -/
def replies (start : State) (served : List (Client × Request)) : List (Client × Reply) :=
  (served.map Prod.fst).zip (serve answer start (served.map Prod.snd)).1

omit [DecidableEq Client] in
theorem replies_concat (start : State) (served : List (Client × Request)) (client : Client)
    (request : Request) :
    replies answer start (served ++ [(client, request)]) =
      replies answer start served ++
        [(client, (answer (serve answer start (served.map Prod.snd)).2 request).1)] := by
  rw [replies, List.map_append, List.map_append, List.map_singleton, List.map_singleton,
    serve_concat, List.zip_append]
  · rfl
  · rw [length_serve, List.length_map, List.length_map]

/-- The server has answered the served requests, and what a client has collected and what waits
for it are the replies to its own. -/
structure Orderly (start : State) (boxes : Mailboxes Client State Request Reply) : Prop where
  server : boxes.server = (serve answer start (boxes.served.map Prod.snd)).2
  delivered : ∀ client, ofClient client boxes.collected ++ (boxes.slots client).outstanding =
    ofClient client (replies answer start boxes.served)

variable {answer} {start : State}

theorem orderly_initially :
    Orderly answer start ({ server := start } : Mailboxes Client State Request Reply) :=
  ⟨rfl, fun _ => rfl⟩

/-- A slot without a reply to collect is replaced by another such one. -/
theorem Orderly.replace {boxes : Mailboxes Client State Request Reply}
    (orderly : Orderly answer start boxes) {client : Client} {slot : Slot Request Reply}
    (before : (boxes.slots client).outstanding = []) (after : slot.outstanding = []) :
    Orderly answer start { boxes with slots := Function.update boxes.slots client slot } := by
  refine ⟨orderly.server, fun other => ?_⟩
  rw [← orderly.delivered other]
  dsimp only
  by_cases same : other = client
  · subst same
    rw [Function.update_self, before, after]
  · rw [Function.update_of_ne same]

theorem Orderly.step {boxes next : Mailboxes Client State Request Reply}
    (orderly : Orderly answer start boxes) {event : Event Client Request}
    (stepped : step answer boxes event = some next) : Orderly answer start next := by
  cases event with
  | post client request =>
      dsimp only [Mailboxes.step] at stepped
      cases held : boxes.slots client with
      | free =>
          rw [held] at stepped
          rw [← Option.some.inj stepped]
          exact orderly.replace (by rw [held]; rfl) rfl
      | posted _ => simp only [held, reduceCtorEq] at stepped
      | answered _ => simp only [held, reduceCtorEq] at stepped
  | serve client =>
      dsimp only [Mailboxes.step] at stepped
      cases held : boxes.slots client with
      | free => simp only [held, reduceCtorEq] at stepped
      | answered _ => simp only [held, reduceCtorEq] at stepped
      | posted request =>
          rw [held] at stepped
          rw [← Option.some.inj stepped]
          refine ⟨?_, fun other => ?_⟩
          · dsimp only
            rw [List.map_append, List.map_singleton, serve_concat, orderly.server]
          · dsimp only
            rw [replies_concat, ofClient_concat, ← orderly.delivered other, orderly.server]
            by_cases same : other = client
            · subst same
              rw [Function.update_self, if_pos rfl, held]
              exact (congrArg (· ++ _) (List.append_nil _)).symm
            · rw [Function.update_of_ne same, if_neg (Ne.symm same)]
  | collect client =>
      dsimp only [Mailboxes.step] at stepped
      cases held : boxes.slots client with
      | free => simp only [held, reduceCtorEq] at stepped
      | posted _ => simp only [held, reduceCtorEq] at stepped
      | answered reply =>
          rw [held] at stepped
          rw [← Option.some.inj stepped]
          refine ⟨orderly.server, fun other => ?_⟩
          rw [← orderly.delivered other, ofClient_concat]
          dsimp only
          by_cases same : other = client
          · subst same
            rw [Function.update_self, if_pos rfl, held]
            exact List.append_nil _
          · rw [Function.update_of_ne same, if_neg (Ne.symm same)]
  | idle =>
      rw [← Option.some.inj stepped]
      exact orderly

theorem orderly_run {events : List (Event Client Request)}
    {final : Mailboxes Client State Request Reply}
    (reached : run (step answer) { server := start } events = some final) :
    Orderly answer start final :=
  run_invariant (fun _ _ _ orderly stepped => orderly.step stepped) orderly_initially reached

end Mailboxes

end Foundation
