import EngineLink.Proofs.Exchange.Course
import EngineLink.Proofs.Exchange.Stock

/-!
# What clients see of an exchange

For clients, only the coordinator matters, the events under way to it, who has gone, and the results
that have been handed on. A move posts an event, or lets the coordinator act.

## Main definitions

* `Exchange.View` — what matters for clients
* `Exchange.View.front` — what clients see
* `Exchange.View.post`, `Exchange.View.act` — what a move does
* `Exchange.Shows` — what becomes of a view in a move

## Main results

* `Exchange.View.exists_deals` — what clients see changes by the deals of an act
* `Exchange.shows_of_move` — every move
* `Exchange.Invariant.of_view` — what deeds keep of views
-/

namespace EngineLink

namespace Coordinator

variable {c : Coordinator} {f g : Front} {deals : List Deal} {a : Act}

/-- What has been sent before does not matter for the deals of an act. -/
theorem Deals.of_after {sent : List Effect} (h : (c.after sent).Deals a deals) :
    c.Deals a deals := by
  cases h with
  | quiet none => exact .quiet none
  | bring brings few => exact .bring brings few
  | call attached => exact .call attached
  | refuse kind => exact .refuse kind
  | connect among => exact .connect among
  | disconnect attached => exact .disconnect attached
  | stop last => exact .stop last
  | pump repeats out => exact .pump repeats out

/-- What no deal of a kind breaks stays, since console output is queued by a deal. -/
theorem Leads.keeps_of {P : Front → Prop} {kind : Deal → Prop} (leads : Leads f deals g)
    (kinds : ∀ deal ∈ deals, kind deal) (puts : ∀ item, kind (.put SlotId.primary item))
    (keeps : ∀ f deal, kind deal → P f → P (f.deal deal)) (h : P f) : P g := by
  induction leads with
  | nil => exact h
  | output text _ ih => exact keeps _ _ (puts (outputItem text)) (ih kinds)
  | deal deal _ ih =>
    rw [List.forall_mem_append, List.forall_mem_singleton] at kinds
    exact keeps _ deal kinds.2 (ih kinds.1)

theorem Leads.keeps {P : Front → Prop} (leads : Leads f deals g)
    (keeps : ∀ f deal, P f → P (f.deal deal)) (h : P f) : P g :=
  leads.keeps_of (fun _ _ => trivial) (fun _ => trivial) (fun f deal _ => keeps f deal) h

theorem endedBy_resultsOf (sent : List Effect) :
    endedBy (Exchange.resultsOf sent) = endedBy sent := by
  induction sent with
  | nil => rfl
  | cons e sent ih =>
    cases e with
    | wake wake => exact ih
    | resolve call result => exact congrArg ((call, result) :: ·) ih
    | attach call result => exact ih

end Coordinator

namespace Exchange

open Coordinator

variable {κ : Type} {x y : Exchange κ} {move : Move κ} {e : Event}

/-! ### Views -/

/-- What matters for clients. -/
structure View where
  coordinator : Coordinator
  events : List Event
  abandoned : List CallId
  results : List Effect

/-- What matters for clients. -/
def view (x : Exchange κ) : View := ⟨x.coordinator, x.events, x.abandoned, x.results⟩

namespace View

/-- What clients see. -/
def front (v : View) : Front := (v.coordinator.after v.results).front

/-- The coordinator acts, and what it sends is handed on. -/
def act (v : View) (a : Act) (events : List Event) : View where
  coordinator := { v.coordinator.act a with sent := [] }
  events
  abandoned := v.abandoned
  results := v.results ++ resultsOf (v.coordinator.act a).sent

/-- An event is posted. After the end it is refused at once. -/
def post (v : View) (e : Event) : View :=
  if v.coordinator.running then { v with events := v.events ++ [e] }
  else v.act (.receive e) v.events

theorem post_of_running {v : View} (running : v.coordinator.running = true) (e : Event) :
    v.post e = { v with events := v.events ++ [e] } := if_pos running

theorem post_of_stopped {v : View} (stopped : v.coordinator.running = false) (e : Event) :
    v.post e = v.act (.receive e) v.events := if_neg (Bool.eq_false_iff.mp stopped)

theorem results_post (v : View) (e : Event) : v.results <+: (v.post e).results := by
  rw [post]
  split
  · exact List.prefix_rfl
  · exact List.prefix_append _ _

theorem front_act (v : View) (a : Act) (events : List Event) :
    (v.act a events).front = ((v.coordinator.after v.results).act a).front := by
  have acted : (v.coordinator.after v.results).act a = (v.coordinator.act a).after v.results :=
    act_after rfl a
  have ended : endedBy ((v.results ++ resultsOf (v.coordinator.act a).sent) ++ []) =
      endedBy (v.results ++ (v.coordinator.act a).sent) := by
    rw [List.append_nil, endedBy_append, endedBy_append, endedBy_resultsOf]
  rw [acted]
  exact congrArg (Front.mk (fun s => deskOf ((v.coordinator.act a).slot s)) ·
    (v.coordinator.act a).nextClient) ended

/-- What clients see changes by the deals of an act. -/
theorem exists_deals (v : View) (a : Act) (events : List Event) :
    ∃ deals, v.coordinator.Deals a deals ∧ Leads v.front deals (v.act a events).front := by
  obtain ⟨deals, does, leads⟩ := Coordinator.exists_deals (v.coordinator.after v.results) a
  rw [← front_act v a events] at leads
  exact ⟨deals, does.of_after, leads⟩

/-- What no deal breaks stays in every act. -/
theorem keeps_act {v : View} {P : Front → Prop} (keeps : ∀ f deal, P f → P (f.deal deal))
    (h : P v.front) (a : Act) (events : List Event) : P (v.act a events).front := by
  obtain ⟨deals, -, leads⟩ := exists_deals v a events
  exact leads.keeps keeps h

theorem keeps_post {v : View} {P : Front → Prop} (keeps : ∀ f deal, P f → P (f.deal deal))
    (h : P v.front) (e : Event) : P (v.post e).front := by
  rw [post]
  split
  · exact h
  · exact keeps_act keeps h _ _

/-- After the end, clients only see that calls are refused. -/
theorem front_act_of_stopped {v : View} (stopped : v.coordinator.running = false) (e : Event)
    (events : List Event) : (v.act (.receive e) events).front = v.front ∨
      ∃ s client items call, e = .call s client items call ∧
        (v.act (.receive e) events).front = v.front.deal (.refuse call .stopped) := by
  have refused : (v.coordinator.after v.results).act (.receive e) =
      (v.coordinator.after v.results).refuse e := if_neg (Bool.eq_false_iff.mp stopped)
  rw [front_act, refused]
  cases e with
  | call s client items call =>
    exact .inr ⟨s, client, items, call, rfl, front_send_resolve ..⟩
  | connect s call => exact .inl (front_send_attach ..)
  | _ => exact .inl rfl

end View

/-! ### Moves -/

/-- The event that a move posts. -/
def posted? (x : Exchange κ) : Move κ → Option Event
  | .ask item _ => some (.submit { item with id := some x.nextRequest } true)
  | .finish reply =>
    match x.stack with
    | .serving _ :: _ => some (.executed reply)
    | _ => none
  | move => said? move

/-- What becomes of a view in a move. -/
inductive Shows (x : Exchange κ) : Move κ → View → Prop
  | quiet {move : Move κ} (posts : x.posted? move = none) : Shows x move x.view
  | abandon (call : CallId) :
      Shows x (.abandon call) { x.view with abandoned := call :: x.abandoned }
  | post {move : Move κ} {e : Event} (posts : x.posted? move = some e) :
      Shows x move (x.view.post e)
  | receive {e : Event} {later : List Event} (first : x.events = e :: later) :
      Shows x .receive (x.view.act (.receive e) later)
  | pump (running : x.isRunning = true) :
      Shows x .pump (x.view.act (.pump x.abandoned.contains) x.events)

theorem view_setState (x : Exchange κ) (state : EngineState) : (x.setState state).view = x.view := by
  obtain ⟨now, eq⟩ := exists_setState x state
  rw [eq]
  rfl

theorem view_start (x : Exchange κ) : x.start.view = x.view := by
  obtain ⟨now, eq⟩ := exists_start x
  rw [eq]
  rfl

theorem view_post (x : Exchange κ) (e : Event) : (x.post e).view = x.view.post e := by
  have same : x.view.coordinator = x.coordinator := rfl
  rw [Exchange.post, View.post, isRunning, same]
  split
  · rfl
  · next stopped =>
    have refused : x.coordinator.act (.receive e) = x.coordinator.refuse e := if_neg stopped
    rw [View.act, same, refused]
    rfl

/-- A question to a stopped session is answered without a trace. -/
theorem view_askStopped (x : Exchange κ) (item : Item) : (x.askStopped item).2.view = x.view :=
  view_start x

theorem view_shutdown (x : Exchange κ) : x.shutdown.view = x.view.post .shutdown := view_post ..

/-- A coordinator that has stopped and received all events has nothing left to do. -/
theorem view_close (stopped : x.isRunning = false) (none : x.events = [])
    (settled : x.coordinator.sent = []) : (x.coordinate 0).view = x.view := by
  have not : ¬x.coordinator.running = true := Bool.eq_false_iff.mp stopped
  have turned : x.coordinator.turn x.abandoned.contains (x.events.take 0) = x.coordinator :=
    if_neg not
  have same : ({ x.coordinator with sent := [] } : Coordinator) = x.coordinator := by rw [← settled]
  rw [coordinate_eq turned, if_neg not, none]
  simp [view, collect, settled, none, same]

theorem view_wakeUp {woken : Woken κ} (woke : x.wakeUp = some (woken, y)) : y.view = x.view := by
  cases takesNext_of_wakeUp woke with
  | drop => rfl
  | _ => exact view_setState _ _

/-- Every move posts an event, or lets the coordinator act. -/
theorem shows_of_move (serves : move = .pump → x.isRunning = true)
    (moved : x.move? move = some y) : x.Shows move y.view := by
  have unlessWaiting {z : Exchange κ} (moved : (if x.isWaiting then none else some z) = some y) :
      z = y := by
    split at moved
    · cases moved
    · exact Option.some.inj moved
  have posted {e : Event} {z : Exchange κ} (posts : x.posted? move = some e)
      (before : z.view = x.view) (same : (z.post e).view = y.view) : x.Shows move y.view := by
    rw [← same, view_post, before]
    exact .post posts
  cases move with
  | ask item resume =>
    obtain rfl := unlessWaiting moved
    refine posted rfl (z := (x.number item).2) (view_start x) ?_
    exact (view_setState ((x.number item).2.post _) .waiting).symm
  | tell item =>
    obtain rfl := unlessWaiting moved
    exact posted rfl (view_start x) rfl
  | busy busy => exact posted rfl rfl (congrArg view (unlessWaiting moved))
  | wake =>
    obtain ⟨⟨woken, z⟩, woke, rfl⟩ := Option.map_eq_some_iff.mp moved
    rw [view_wakeUp woke]
    exact .quiet rfl
  | finish reply =>
    obtain rfl := Option.some.inj moved
    rw [finish]
    split
    · next request rest top =>
      have posts : x.posted? (.finish reply) = some (.executed reply) := by rw [posted?, top]
      rw [view_post, view_setState]
      exact .post posts
    · next idle =>
      refine .quiet ?_
      rw [posted?]
      split
      · next request rest top => exact absurd top (idle request rest)
      · rfl
  | abandon call =>
    obtain rfl := Option.some.inj moved
    exact .abandon call
  | receive =>
    rw [move?, receive?] at moved
    split at moved
    · cases moved
    · next e later first =>
      obtain rfl := Option.some.inj moved
      exact .receive first
  | pump =>
    obtain rfl := Option.some.inj moved
    have running := serves rfl
    have pumped : x.coordinator.act (.pump x.abandoned.contains) =
        x.coordinator.pump x.abandoned.contains := if_pos running
    have same : x.pump.view = x.view.act (.pump x.abandoned.contains) x.events := by
      rw [View.act, show x.view.coordinator = x.coordinator from rfl, pumped]
      rfl
    rw [same]
    exact .pump running
  | _ => exact posted rfl rfl (congrArg view (Option.some.inj moved))

namespace Shows

variable {v : View}

/-- Results are not taken back. -/
theorem results_prefix (shows_ : x.Shows move v) : x.results <+: v.results := by
  cases shows_ with
  | quiet posts => exact List.prefix_rfl
  | abandon call => exact List.prefix_rfl
  | post posts => exact View.results_post x.view _
  | receive first => exact List.prefix_append _ _
  | pump running => exact List.prefix_append _ _

/-- What no deal breaks stays in every move. -/
theorem keeps_front {P : Front → Prop} (shows_ : x.Shows move v)
    (keeps : ∀ f deal, P f → P (f.deal deal))
    (h : P x.view.front) : P v.front := by
  cases shows_ with
  | quiet posts => exact h
  | abandon call => exact h
  | post posts => exact View.keeps_post keeps h _
  | receive first => exact View.keeps_act keeps h _ _
  | pump running => exact View.keeps_act keeps h _ _

end Shows

/-- What deeds keep of views. -/
theorem Invariant.of_view {α : Type} {lawful : Exchange κ → Move κ → Prop} {of : Move κ → List α}
    {P : List α → View → Prop} (receives : (∀ x, lawful x .receive) ∧ of .receive = [])
    (pumps : (∀ x, lawful x .pump) ∧ of .pump = [])
    (settled : ∀ {brought v}, P brought v → v.coordinator.sent = [])
    (shows_ : ∀ {brought x move v}, P brought (view x) → lawful x move → x.Shows move v →
      P (brought ++ of move) v)
    (stops : ∀ {brought v}, P brought v → P brought (v.post .shutdown)) :
    Invariant lawful of fun brought x => P brought x.view where
  receives
  pumps
  moves h law serves moved := shows_ h law (shows_of_move serves moved)
  asks item h := by
    rw [view_askStopped]
    exact h
  closes h stopped none := by
    rw [view_close stopped none (settled h)]
    exact h
  stops h := by
    rw [view_shutdown]
    exact stops h

end Exchange

end EngineLink
