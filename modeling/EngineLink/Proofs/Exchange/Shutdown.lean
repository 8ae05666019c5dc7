import EngineLink.Proofs.Exchange.Accounts
import Mathlib.Data.List.Nodup

/-!
# How a session ends

Each call of a client ends once, unless its caller goes away. When the coordinator stops, the calls
that wait end with what is queued for them, and the calls behind are refused. From then on nothing
comes to the engine any longer, so a question for which no answer is under way is answered as
stopped.

## Main definitions

* `Exchange.Unresolved` — a call that has been received and has not ended
* `Exchange.Accounts` — what can be said about the calls of a course
* `Exchange.Late` — where a call can be that is made after the request to stop

## Main results

* `Exchange.Counted.accounts` — each call ends once
* `Exchange.exists_receive_shutdown` — the waiting calls end with what is queued for them
* `Exchange.coordinate_shutdown` — a request to stop is served
* `Exchange.invariant_late` — later calls are refused
* `Exchange.exists_course_emptying` — a question to a stopped coordinator is answered
* `Exchange.every_call_resolved` — all this together
-/

namespace EngineLink

open Coordinator

namespace Exchange

variable {κ : Type} {caller : CallId → SlotId × ClientId} {calls : List CallId} {call : CallId}
  {v : View} {x y z : Exchange κ} {move : Move κ} {a : Act} {e : Event} {events later : List Event}
  {wakes : List Wake}

/-! ### Each call ends once -/

/-- A call has been received and has not ended, and its caller still waits. -/
structure Unresolved (calls : List CallId) (x : Exchange κ) (call : CallId) : Prop where
  made : call ∈ calls
  received : call ∉ x.events.flatMap called
  lasts : call ∉ (endedBy x.results).map (·.1)
  attended : call ∉ x.abandoned

/-- What can be said about the calls of a course. -/
structure Accounts (caller : CallId → SlotId × ClientId) (calls : List CallId) (x : Exchange κ) :
    Prop where
  /-- No call ends twice. -/
  once : ((endedBy x.results).map (·.1)).Nodup
  outcome : ∀ p ∈ endedBy x.results, p.1 ∈ calls ∧ IsOutcome p.2
  /-- What has been received and has not ended waits on its slot. -/
  waits : ∀ call, x.Unresolved calls call →
    (x.coordinator.slot (caller call).1).waiter = some call
  single : ∀ call other, x.Unresolved calls call → x.Unresolved calls other →
    (caller call).1 = (caller other).1 → call = other
  /-- All calls have ended when the coordinator has stopped and received all events. -/
  all : x.isRunning = false → x.events = [] → ∀ call ∈ calls, call ∉ x.abandoned →
    ∃ result, (call, result) ∈ endedBy x.results

namespace Counted

theorem total_eq (h : Counted caller calls x.view) (call : CallId) :
    x.view.total caller call = ((endedBy x.results).map (·.1)).count call +
      (if (x.coordinator.slot (caller call).1).waiter = some call then 1 else 0) +
        (x.events.flatMap called).count call := by
  rw [View.total, Front.tally, h.orderly.ended_front]
  rfl

theorem waits_of_unresolved (h : Counted caller calls x.view) (distinct : calls.Nodup)
    (unresolved : x.Unresolved calls call) :
    (x.coordinator.slot (caller call).1).waiter = some call := by
  have one := h.kept call unresolved.attended
  rw [h.total_eq, List.count_eq_zero.mpr unresolved.lasts,
    List.count_eq_zero.mpr unresolved.received,
    List.count_eq_one_of_mem distinct unresolved.made] at one
  by_contra free
  rw [if_neg free] at one
  omega

/-- Each call ends once. -/
theorem accounts (h : Counted caller calls x.view) (distinct : calls.Nodup) :
    x.Accounts caller calls where
  once := by
    rw [List.nodup_iff_count_le_one]
    intro call
    have most := h.most call
    have made := List.nodup_iff_count_le_one.mp distinct call
    rw [h.total_eq] at most
    omega
  outcome p member := by
    have proper := h.orderly.proper
    rw [Front.Proper, h.orderly.ended_front] at proper
    have most := h.most p.1
    rw [h.total_eq] at most
    have counted : 0 < ((endedBy x.results).map (·.1)).count p.1 :=
      List.count_pos_iff.mpr (List.mem_map_of_mem member)
    exact ⟨List.count_pos_iff.mp (by omega), proper p member⟩
  waits _ := h.waits_of_unresolved distinct
  single call other first second same := by
    have here := h.waits_of_unresolved distinct first
    rw [same, h.waits_of_unresolved distinct second] at here
    exact (Option.some.inj here).symm
  all stopped none call made attended := by
    -- The call is neither under way nor waits, so it is counted among those that have ended.
    have one := h.kept call attended
    have free : (x.coordinator.slot (caller call).1).waiter = Option.none :=
      h.orderly.idle stopped _
    rw [h.total_eq, free, none, List.count_eq_one_of_mem distinct made,
      if_neg (Option.some_ne_none call).symm] at one
    have ended : 0 < ((endedBy x.results).map (·.1)).count call := Nat.lt_of_sub_eq_succ one
    obtain ⟨⟨_, result⟩, member, rfl⟩ := List.mem_map.mp (List.count_pos_iff.mp ended)
    exact ⟨result, member⟩

end Counted

/-! ### The coordinator stops -/

/-- The request to stop is served: exactly the waiting calls end, with what is queued for them. -/
theorem exists_receive_shutdown (h : Orderly caller x.view) (running : x.isRunning = true)
    (first : x.events = .shutdown :: later) :
    ∃ y last, x.receive? = some y ∧ y.isRunning = false ∧ y.results = x.results ++ last ∧
      ∀ call result, (call, result) ∈ endedBy last ↔
        ∃ s, (x.coordinator.slot s).waiter = some call ∧ result = x.coordinator.lastResult s := by
  have stops : x.coordinator.handle .shutdown = x.coordinator.stop := if_pos running
  obtain ⟨last, ended, exactly, -⟩ := h.tidy.exists_ended_stop
  have none : endedBy x.coordinator.sent = [] := congrArg endedBy h.settled
  have same : endedBy (resultsOf x.coordinator.stop.sent) = last := by
    rw [endedBy_resultsOf]
    exact ended.trans (congrArg (· ++ last) none)
  refine ⟨_, resultsOf x.coordinator.stop.sent, receive?_cons first,
    running_handle_shutdown x.coordinator, ?_, ?_⟩
  · rw [← stops]
    rfl
  · rw [same]
    exact exactly

theorem running_foldl_refuse {c : Coordinator} (stopped : c.running = false)
    (events : List Event) : (events.foldl Coordinator.refuse c).running = false :=
  (congrArg EngineSide.running (engineSide_foldl engineSide_refuse events c)).trans stopped

theorem running_foldl_handle {c : Coordinator} (stops : c.running = false ∨ .shutdown ∈ events) :
    (events.foldl Coordinator.handle c).running = false := by
  induction events generalizing c with
  | nil => exact stops.resolve_right List.not_mem_nil
  | cons e events ih =>
    refine ih ?_
    rcases stops with stopped | member
    · exact .inl (running_act_of_stopped stopped (.receive e))
    · rcases List.mem_cons.mp member with rfl | behind
      · exact .inl (running_handle_shutdown c)
      · exact .inr behind

/-- A turn that comes to a request to stop receives all events. -/
theorem coordinate_of_stops {group : Nat}
    (stops : x.isRunning = false ∨ .shutdown ∈ x.events.take group) :
    (x.coordinate group).isRunning = false ∧ (x.coordinate group).events = [] := by
  have halted := running_foldl_handle stops
  have turned : x.coordinator.turn x.abandoned.contains (x.events.take group) =
      (x.events.take group).foldl Coordinator.handle x.coordinator :=
    if_neg (Bool.eq_false_iff.mp halted)
  rw [coordinate_eq turned, if_neg (Bool.eq_false_iff.mp halted)]
  exact ⟨running_foldl_refuse halted _, rfl⟩

/-- A request to stop is served by the next turn that comes to it. -/
theorem coordinate_shutdown {group : Nat} (enough : x.events.length < group) :
    (x.shutdown.coordinate group).isRunning = false ∧ (x.shutdown.coordinate group).events = [] := by
  refine coordinate_of_stops ?_
  cases running : x.isRunning with
  | true =>
    have posted : x.shutdown.events = x.events ++ [.shutdown] :=
      congrArg View.events ((view_shutdown x).trans (View.post_of_running running .shutdown))
    have all : (x.events ++ [Event.shutdown]).take group = x.events ++ [.shutdown] :=
      List.take_of_length_le (by rw [List.length_append]; exact enough)
    rw [posted, all]
    exact .inr (List.mem_append_right _ List.mem_cons_self)
  | false =>
    have refused : x.shutdown.coordinator = (x.view.act (.receive .shutdown) x.events).coordinator :=
      congrArg View.coordinator ((view_shutdown x).trans (View.post_of_stopped running .shutdown))
    exact .inl ((congrArg Coordinator.running refused).trans (running_act_of_stopped running _))

/-! ### Later calls -/

/-- A call that is made after the request to stop can only be behind it. When the coordinator has
stopped, the call has not ended or has been refused. -/
structure Late (caller : CallId → SlotId × ClientId) (call : CallId) (v : View) : Prop where
  orderly : Orderly caller v
  behind : v.coordinator.running = true → v.front.tally caller call = 0 ∧
    ∃ before after, v.events = before ++ .shutdown :: after ∧ call ∉ before.flatMap called
  refused : v.coordinator.running = false → ∀ result, (call, result) ∈ v.front.ended →
    result = .error .stopped

namespace Late

/-- A call that does not come in an act does not end in it. -/
theorem tally_act (h : Orderly caller v) (own : CallOwned caller a)
    (free : v.front.tally caller call = 0) (other : call ∉ callsBy a) (events : List Event) :
    (v.act a events).front.tally caller call = 0 := by
  obtain ⟨deals, does, leads⟩ := View.exists_deals v a events
  have most := (leads.counts h.owned_front (does.placed own)).most call
  rw [does.flatMap_takes, List.count_eq_zero.mpr other, free] at most
  exact Nat.le_zero.mp most

theorem not_mem_of_tally {f : Front} (free : f.tally caller call = 0)
    (result : Except Status Batch) : (call, result) ∉ f.ended := by
  intro member
  have counted : 0 < (f.ended.map (·.1)).count call :=
    List.count_pos_iff.mpr (List.mem_map_of_mem member)
  rw [Front.tally] at free
  omega

/-- A stopped coordinator refuses whatever it receives. -/
theorem refuse (h : Late caller call v) (stopped : v.coordinator.running = false)
    (own : CallOwned caller (.receive e)) (left : ∀ e ∈ events, CallOwned caller (.receive e)) :
    Late caller call (v.act (.receive e) events) := by
  have still : (v.act (.receive e) events).coordinator.running = false :=
    running_act_of_stopped stopped _
  refine ⟨h.orderly.act own left, fun running => ?_, fun _ => ?_⟩
  · rw [still] at running
    cases running
  · rcases View.front_act_of_stopped stopped e events with same | ⟨_, _, _, other, -, same⟩
    · rw [same]
      exact h.refused stopped
    · intro result member
      rw [same] at member
      rcases List.mem_append.mp member with before | last
      · exact h.refused stopped result before
      · obtain ⟨rfl, rfl⟩ := Prod.mk.inj (List.mem_singleton.mp last)
        rfl

theorem post (h : Late caller call v) (own : CallOwned caller (.receive e)) :
    Late caller call (v.post e) := by
  cases running : v.coordinator.running with
  | true =>
    have orderly := h.orderly.post own
    rw [View.post_of_running running] at orderly ⊢
    obtain ⟨free, before, after, split, absent⟩ := h.behind running
    refine ⟨orderly, fun _ => ⟨free, before, after ++ [e], ?_, absent⟩, h.refused⟩
    dsimp only
    rw [split, List.append_assoc]
    rfl
  | false =>
    rw [View.post_of_stopped running]
    exact h.refuse running own h.orderly.owned

theorem receive (h : Late caller call v) (first : v.events = e :: later) :
    Late caller call (v.act (.receive e) later) := by
  have owned := h.orderly.owned
  rw [first, List.forall_mem_cons] at owned
  cases running : v.coordinator.running with
  | false => exact h.refuse running owned.1 owned.2
  | true =>
    obtain ⟨free, before, after, split, absent⟩ := h.behind running
    rw [first] at split
    have other : call ∉ called e := by
      cases before with
      | nil =>
        obtain ⟨rfl, -⟩ := List.cons.inj split
        exact List.not_mem_nil
      | cons _ before =>
        obtain ⟨rfl, -⟩ := List.cons.inj split
        exact fun member => absent (List.mem_append_left _ member)
    have still := tally_act h.orderly owned.1 free other later
    refine ⟨h.orderly.act owned.1 owned.2, fun serves => ⟨still, ?_⟩, fun _ result member => ?_⟩
    · cases before with
      | nil =>
        -- The request to stop has just been served.
        obtain ⟨rfl, -⟩ := List.cons.inj split
        exact absurd serves (Bool.eq_false_iff.mp (running_handle_shutdown v.coordinator))
      | cons _ before =>
        obtain ⟨rfl, rfl⟩ := List.cons.inj split
        exact ⟨before, after, rfl, fun member => absent (List.mem_append_right _ member)⟩
    · exact absurd member (not_mem_of_tally still result)

theorem pump (h : Late caller call v) (running : v.coordinator.running = true)
    (gone : CallId → Bool) : Late caller call (v.act (.pump gone) v.events) := by
  have serves : (v.act (.pump gone) v.events).coordinator.running = true :=
    running_act h.orderly.held.labelled running nofun
  obtain ⟨free, places⟩ := h.behind running
  have own : CallOwned caller (.pump gone) := trivial
  refine ⟨h.orderly.act own h.orderly.owned, fun _ => ⟨?_, places⟩, fun stopped => ?_⟩
  · exact tally_act h.orderly own free List.not_mem_nil v.events
  · rw [serves] at stopped
    cases stopped

theorem shows (h : Late caller call x.view) (own : OwnCalls caller x move)
    (becomes : x.Shows move v) : Late caller call v := by
  cases becomes with
  | quiet posts => exact h
  | abandon gone => exact ⟨h.orderly.shows own (.abandon gone), h.behind, h.refused⟩
  | post posts => exact h.post (own.callOwned posts)
  | receive first => exact h.receive first
  | pump running => exact h.pump running _

/-- A late call can only be refused. -/
theorem result_eq (h : Late caller call v) {result : Except Status Batch}
    (member : (call, result) ∈ endedBy v.results) : result = .error .stopped := by
  rw [← h.orderly.ended_front] at member
  cases running : v.coordinator.running with
  | true => exact absurd member (not_mem_of_tally (h.behind running).1 result)
  | false => exact h.refused running result member

end Late

theorem invariant_late (caller : CallId → SlotId × ClientId) (call : CallId) :
    Invariant (κ := κ) (OwnCalls caller) (fun _ => ([] : List CallId))
      fun _ x => Late caller call x.view :=
  .of_view ⟨fun _ => trivial, rfl⟩ ⟨fun _ => trivial, rfl⟩ (fun h => h.orderly.settled)
    (fun h own becomes => h.shows own becomes) (fun h => h.post trivial)

/-- A call that has not been made yet is late once the session is to stop. -/
theorem late_shutdown (h : Counted caller calls x.view) (new : call ∉ calls) :
    Late caller call x.shutdown.view := by
  have most := h.most call
  rw [List.count_eq_zero.mpr new, View.total, Nat.le_zero, Nat.add_eq_zero_iff] at most
  obtain ⟨free, absent⟩ := most
  rw [view_shutdown]
  cases running : x.view.coordinator.running with
  | true =>
    have orderly := h.orderly.post (e := .shutdown) trivial
    rw [View.post_of_running running] at orderly ⊢
    refine ⟨orderly, fun _ => ⟨free, x.view.events, [], rfl, ?_⟩, fun stopped => ?_⟩
    · exact List.count_eq_zero.mp absent
    · rw [show _ = true from running] at stopped
      cases stopped
  | false =>
    have late : Late caller call x.view := by
      refine ⟨h.orderly, fun serves => ?_, fun _ result member => ?_⟩
      · rw [running] at serves
        cases serves
      · exact absurd member (Late.not_mem_of_tally free result)
    exact late.post trivial

/-! ### Questions after the end -/

/-- Nothing comes to the engine after the end. -/
theorem invariant_drains (caller : CallId → SlotId × ClientId) (wakes : List Wake) :
    Invariant (κ := κ) (OwnCalls caller) (fun _ => ([] : List CallId))
      fun _ x => x.Drains wakes where
  receives := ⟨fun _ => trivial, rfl⟩
  pumps := ⟨fun _ => trivial, rfl⟩
  moves h _ serves moved := h.moves serves moved
  asks item h := h.askStopped item
  closes h _ _ := h.coordinate_zero
  stops h := h.shutdown

/-- Posting leaves the engine alone after the end. -/
theorem Drains.post_eq (h : x.Drains wakes) (e : Event) :
    (x.post e).stack = x.stack ∧ (x.post e).wakes = x.wakes := by
  have refused : x.post e = { x with coordinator := x.coordinator.refuse e }.collect :=
    if_neg h.not_running
  have silent : wakesOf (x.coordinator.refuse e).sent = [] := by
    have same := congrArg EngineSide.wakes (engineSide_refuse x.coordinator e)
    exact same.trans (congrArg wakesOf h.settled)
  rw [refused]
  refine ⟨rfl, ?_⟩
  change x.wakes ++ wakesOf (x.coordinator.refuse e).sent = x.wakes
  rw [silent, List.append_nil]

/-- A question is resumed with its answer, or as stopped. -/
theorem answer_of_wakeUp {question answer : Item} {resume resumed : κ} {rest : List (Activity κ)}
    (waits : y.stack = .waiting question resume :: rest)
    (woke : y.wakeUp = some (.resume answer resumed, z)) :
    answer = question.answered (.status .stopped) ∨
      .answer answer ∈ y.wakes ∧ answer.id = question.id := by
  cases takesNext_of_wakeUp woke with
  | resume asked _ rest answer wakes top first own =>
    obtain ⟨rfl, -⟩ := Activity.waiting.inj (List.cons.inj (waits.symm.trans top)).1
    rw [first]
    exact .inr ⟨List.mem_cons_self, own⟩
  | stop asked _ rest top none stopped =>
    obtain ⟨rfl, -⟩ := Activity.waiting.inj (List.cons.inj (waits.symm.trans top)).1
    exact .inl rfl

/-- What a waiting engine does about the last wakes: it drops answers, and executes requests. -/
def emptying (exec : Item → Item) (wakes : List Wake) : List (Move κ) :=
  wakes.flatMap fun
    | .answer _ => [.wake]
    | .execute request => [.wake, .finish (exec request)]

/-- The waiting engine drops an answer to another question. -/
theorem deed?_wake_answer {question answer : Item} {resume : κ} {rest : List (Activity κ)}
    {more : List Wake}
    (waits : y.stack = .waiting question resume :: rest)
    (first : y.wakes = .answer answer :: more) (other : answer.id ≠ question.id) :
    y.deed? (.move .wake) = some { y with wakes := more } := by
  have dropped : y.wakeUp = some (.dropped, { y with wakes := more }) := by
    rw [wakeUp, waits, first]
    exact if_neg fun own => other (eq_of_beq own)
  exact congrArg (Option.map Prod.snd) dropped

/-- The waiting engine executes a request, and then waits as before. -/
theorem exists_course_execute (reply : Item) {question request : Item} {resume : κ}
    {rest : List (Activity κ)} {more : List Wake} (drains : y.Drains wakes)
    (waits : y.stack = .waiting question resume :: rest)
    (first : y.wakes = .execute request :: more) :
    ∃ z, Course (OwnCalls caller) y [.move .wake, .move (.finish reply)] z ∧ z.Drains wakes ∧
      z.stack = y.stack ∧ z.wakes = more := by
  obtain ⟨now, eq⟩ := exists_setState
    { y with wakes := more, stack := .serving request :: y.stack } .running
  have woke : y.wakeUp = some (.execute request resume,
      { y with wakes := more, stack := .serving request :: y.stack, state := now }) := by
    rw [wakeUp, waits, first]
    dsimp only
    rw [← waits, eq]
  have drainsNow := drains.wakeUp woke
  generalize executing : ({ y with
    wakes := more, stack := .serving request :: y.stack, state := now } : Exchange κ) = x at *
  have top : x.stack = .serving request :: y.stack := by rw [← executing]
  have kept : x.wakes = more := by rw [← executing]
  obtain ⟨again, same⟩ := exists_setState { x with stack := y.stack } .waiting
  have finished : x.finish reply =
      ({ x with stack := y.stack, state := again } : Exchange κ).post (.executed reply) := by
    rw [finish, top]
    dsimp only
    rw [same]
  have drainsLast : ({ x with stack := y.stack, state := again } : Exchange κ).Drains wakes :=
    drainsNow.of_eq rfl rfl
  obtain ⟨stack, left⟩ := drainsLast.post_eq (.executed reply)
  have woken : y.deed? (.move .wake) = some x := congrArg (Option.map Prod.snd) woke
  refine ⟨x.finish reply, .cons ?_ woken (.cons ?_ rfl .nil), ?_, ?_, ?_⟩
  · rintro _ ⟨⟩
    trivial
  · rintro _ ⟨⟩
    trivial
  · rw [finished]
    exact drainsLast.post _
  · rw [finished, stack]
  · rw [finished, left]
    exact kept

/-- A question whose answer is not under way to the engine after the end is answered as stopped,
once the engine has taken what is left for it. -/
theorem exists_course_emptying (exec : Item → Item) {question : Item} {resume : κ}
    {rest : List (Activity κ)} (drains : y.Drains wakes)
    (waits : y.stack = .waiting question resume :: rest)
    (unanswered : ∀ answer, .answer answer ∈ y.wakes → answer.id ≠ question.id) :
    ∃ z w, Course (OwnCalls caller) y ((emptying exec y.wakes).map .move) z ∧
      z.wakeUp = some (.resume (question.answered (.status .stopped)) resume, w) := by
  generalize left : y.wakes = all at unanswered
  induction all generalizing y with
  | nil =>
    have ends : y.wakeUp = some (.resume (question.answered (.status .stopped)) resume,
        ({ y with stack := rest } : Exchange κ).setState .running) := by
      rw [wakeUp, waits, left]
      exact if_neg drains.not_running
    exact ⟨y, _, .nil, ends⟩
  | cons wake later ih =>
    have others : ∀ answer, .answer answer ∈ later → answer.id ≠ question.id :=
      fun answer member => unanswered answer (List.mem_cons_of_mem _ member)
    cases wake with
    | answer answer =>
      have dropped := deed?_wake_answer waits left (unanswered answer List.mem_cons_self)
      have drainsNow : ({ y with wakes := later } : Exchange κ).Drains wakes := by
        refine ⟨drains.stopped, drains.settled, ?_⟩
        exact (List.suffix_cons _ later).trans (left ▸ drains.left)
      obtain ⟨z, w, course, ends⟩ := ih drainsNow waits rfl others
      refine ⟨z, w, .cons ?_ dropped course, ends⟩
      rintro _ ⟨⟩
      trivial
    | execute request =>
      obtain ⟨x, first, drainsNow, stack, kept⟩ :=
        exists_course_execute (exec request) drains waits left
      obtain ⟨z, w, course, ends⟩ := ih drainsNow (stack.trans waits) kept others
      exact ⟨z, w, first.append course, ends⟩

/-! ### A stopped session -/

theorem state_post (x : Exchange κ) (e : Event) : (x.post e).state = x.state := by
  rw [post]
  split <;> rfl

theorem state_setState (stopped : x.state = .stopped) (state : EngineState) :
    (x.setState state).state = .stopped := by
  rw [setState, if_pos stopped]
  exact stopped

theorem state_start (stopped : x.state = .stopped) : x.start.state = .stopped := by
  have begun : x.state ≠ .notStarted := by
    rw [stopped]
    exact nofun
  rw [start, if_neg begun]
  exact stopped

theorem state_move (stopped : x.state = .stopped) (moved : x.move? move = some y) :
    y.state = .stopped := by
  have unlessWaiting {z : Exchange κ} (same : z.state = .stopped)
      (moved : (if x.isWaiting then none else some z) = some y) : y.state = .stopped := by
    split at moved
    · cases moved
    · obtain rfl := Option.some.inj moved
      exact same
  have posted {x : Exchange κ} (stopped : x.state = .stopped) (e : Event) :
      (x.post e).state = .stopped := (state_post x e).trans stopped
  cases move with
  | ask item resume =>
    have numbered : (x.number item).2.state = .stopped := state_start stopped
    have asked := state_setState (posted numbered (.submit (x.number item).1 true)) .waiting
    exact unlessWaiting (z := x.ask item resume) asked moved
  | tell item => exact unlessWaiting (posted (state_start stopped) _) moved
  | busy busy => exact unlessWaiting (posted stopped _) moved
  | wake =>
    obtain ⟨⟨woken, z⟩, woke, rfl⟩ := Option.map_eq_some_iff.mp moved
    cases takesNext_of_wakeUp woke with
    | drop => exact stopped
    | _ =>
      refine state_setState ?_ _
      exact stopped
  | finish reply =>
    obtain rfl := Option.some.inj moved
    rw [finish]
    split
    · refine posted (state_setState ?_ _) _
      exact stopped
    · exact stopped
  | receive =>
    rw [move?, receive?] at moved
    split at moved
    · cases moved
    · obtain rfl := Option.some.inj moved
      exact stopped
  | abandon call =>
    obtain rfl := Option.some.inj moved
    exact stopped
  | pump =>
    obtain rfl := Option.some.inj moved
    exact stopped
  | _ =>
    obtain rfl := Option.some.inj moved
    exact posted stopped _

/-- A stopped session stays stopped. -/
theorem invariant_stopped (caller : CallId → SlotId × ClientId) :
    Invariant (κ := κ) (OwnCalls caller) (fun _ => ([] : List CallId))
      fun _ x => x.state = .stopped where
  receives := ⟨fun _ => trivial, rfl⟩
  pumps := ⟨fun _ => trivial, rfl⟩
  moves stopped _ _ moved := state_move stopped moved
  asks _ stopped := state_start stopped
  closes stopped _ _ := by
    rw [coordinate]
    split
    · exact stopped
    · rfl
  stops _ := state_post ..

/-- What comes after the coordinator has stopped: calls are refused, questions are answered as
stopped at once, and so are those that wait without an answer on its way. -/
structure Refuses (caller : CallId → SlotId × ClientId) (x : Exchange κ) : Prop where
  calls : ∀ s client items call,
    (x.call s client items call).results = x.results ++ [.resolve call (.error .stopped)]
  connects : ∀ s call, (x.connect s call).results = x.results ++ [.attach call (.error .stopped)]
  asks : x.isStopped = true ∧ ∀ item, (x.askStopped item).1.answer = some (.status .stopped)
  questions : ∀ after y, Course (OwnCalls caller) x after y →
    ∀ question resume rest, y.stack = .waiting question resume :: rest →
      (∀ answer, .answer answer ∈ x.wakes → answer.id ≠ question.id) →
        (∀ answer resumed z, y.wakeUp = some (.resume answer resumed, z) →
          answer = question.answered (.status .stopped)) ∧
        ∀ exec, ∃ z w, Course (OwnCalls caller) y ((emptying exec y.wakes).map .move) z ∧
          z.wakeUp = some (.resume (question.answered (.status .stopped)) resume, w)

theorem refuses_of_stopped (stopped : x.isRunning = false) (settled : x.coordinator.sent = []) :
    x.Refuses caller := by
  have drains : x.Drains x.wakes := ⟨stopped, settled, List.suffix_rfl⟩
  have posted {e : Event} {effect : Effect} (handedOn : resultsOf [effect] = [effect])
      (refused : x.coordinator.refuse e = x.coordinator.send effect) :
      (x.post e).results = x.results ++ [effect] := by
    have same : x.post e = { x with coordinator := x.coordinator.refuse e }.collect :=
      if_neg drains.not_running
    rw [same, refused]
    change x.results ++ resultsOf (x.coordinator.sent ++ [effect]) = _
    rw [settled, List.nil_append, handedOn]
  refine ⟨fun _ _ _ _ => posted rfl rfl, fun _ _ => posted rfl rfl, ⟨?_, fun _ => rfl⟩, ?_⟩
  · rw [isStopped, stopped]
    exact Bool.or_true _
  · intro after y onward question resume rest waits unanswered
    have drained := (invariant_drains caller x.wakes).course onward [] drains
    have none : ∀ answer, .answer answer ∈ y.wakes → answer.id ≠ question.id :=
      fun answer member => unanswered answer (drained.left.subset member)
    refine ⟨fun answer resumed z woke => ?_, fun exec => ?_⟩
    · refine (answer_of_wakeUp waits woke).resolve_right fun ⟨member, own⟩ => ?_
      exact none answer member own
    · exact exists_course_emptying exec drained waits none

/-- In every course in which distinct calls are made, each by its own client on its own slot, no call
ends twice, at most one call on each slot has been received and has not ended, and all calls have
ended once the coordinator has stopped and received all events, except those whose callers have gone
away. At the end, exactly the waiting calls end, with all that is queued for them, or as stopped. A
request to stop is served by the next turn that comes to it. From then on, questions are answered as
stopped, and calls end as stopped. When the coordinator has stopped, a question that waits without an
answer on its way can only be answered as stopped, and is so as soon as the engine has taken what is
left for it. -/
theorem every_call_resolved {capacity : Nat} {deeds : List (Deed κ)}
    (reached : Course (OwnCalls caller) (ofCapacity capacity) deeds x)
    (distinct : (gathered callsOf deeds).Nodup) :
    x.Accounts caller (gathered callsOf deeds) ∧
      (∀ later, x.isRunning = true → x.events = .shutdown :: later →
        ∃ y last, x.receive? = some y ∧ y.isRunning = false ∧ y.results = x.results ++ last ∧
          ∀ call result, (call, result) ∈ endedBy last ↔
            ∃ s, (x.coordinator.slot s).waiter = some call ∧ result = x.coordinator.lastResult s) ∧
      (∀ group, x.events.length < group →
        (x.shutdown.coordinate group).isRunning = false ∧
          (x.shutdown.coordinate group).events = []) ∧
      (∀ after z, Course (OwnCalls caller) x.shutdown after z → z.isStopped = true ∧
        ∀ call ∉ gathered callsOf deeds, ∀ result, (call, result) ∈ endedBy z.results →
          result = .error .stopped) ∧
      (x.isRunning = false → x.Refuses caller) := by
  have counted := (invariant_counted caller).course reached [] (.ofCapacity caller capacity)
  rw [List.nil_append] at counted
  refine ⟨counted.accounts distinct,
    fun later running first => exists_receive_shutdown counted.orderly running first,
    fun group enough => coordinate_shutdown enough, fun after z onward => ⟨?_, ?_⟩,
    fun stopped => refuses_of_stopped stopped counted.orderly.settled⟩
  · have stopped : x.shutdown.state = .stopped := state_post ..
    rw [isStopped, (invariant_stopped caller).course onward [] stopped]
    rfl
  · intro call new result member
    have late := (invariant_late caller call).course onward [] (late_shutdown counted new)
    exact late.result_eq member

/-- The session is to stop before the coordinator hands out, while one call waits and another one is
on its way. -/
def stoppingDeeds : List (Deed Unit) :=
  [.move (.connect SlotId.primary 0), .coordinate 1, .move (.call SlotId.primary ⟨1⟩ [] 1),
    .move (.tell (outputItem "bye")), .move .receive, .move .receive, .shutdown,
    .move (.call SlotId.primary ⟨1⟩ [] 2)]

/-- All calls are made by the primary client. -/
def primaryCaller (_ : CallId) : SlotId × ClientId := (SlotId.primary, ⟨1⟩)

theorem exists_stopping : ∃ x y : Exchange Unit,
    Course (OwnCalls primaryCaller) (ofCapacity 64) stoppingDeeds x ∧ x.isRunning = true ∧
      x.events = [.shutdown, .call SlotId.primary ⟨1⟩ [] 2] ∧ x.receive? = some y ∧
      (x.coordinator.slot SlotId.primary).waiter = some 1 ∧
      x.coordinator.lastResult SlotId.primary = .ok ⟨false, [outputItem "bye"]⟩ ∧
      (y.coordinate 0).isRunning = false ∧ endedBy (y.coordinate 0).results =
        [(1, .ok ⟨false, [outputItem "bye"]⟩), (2, .error .stopped)] := by
  refine ⟨_, _, .cons ?_ rfl (.cons ?_ rfl (.cons ?_ rfl (.cons ?_ rfl (.cons ?_ rfl
    (.cons ?_ rfl (.cons ?_ rfl (.cons ?_ rfl .nil))))))), rfl, rfl, rfl, rfl, rfl, rfl, rfl⟩
  all_goals
    rintro _ ⟨⟩ <;> trivial

theorem every_call_resolved_at_shutdown : ∃ (x y : Exchange Unit) (last : List Effect),
    (gathered callsOf stoppingDeeds).Nodup ∧ x.Accounts primaryCaller [1, 2] ∧
      x.receive? = some y ∧ y.results = x.results ++ last ∧
      (1, .ok ⟨false, [outputItem "bye"]⟩) ∈ endedBy last ∧
      (y.coordinate 0).Accounts primaryCaller [1, 2] ∧ (y.coordinate 0).Refuses primaryCaller ∧
      endedBy (y.coordinate 0).results =
        [(1, .ok ⟨false, [outputItem "bye"]⟩), (2, .error .stopped)] := by
  obtain ⟨x, y, reached, running, first, received, waits, result, stopped, ended⟩ :=
    exists_stopping
  have distinct : (gathered callsOf stoppingDeeds).Nodup := by decide
  obtain ⟨accounts, exactly, -⟩ := every_call_resolved reached distinct
  obtain ⟨w, last, next, -, grown, released⟩ := exactly _ running first
  obtain rfl : y = w := Option.some.inj (received.symm.trans next)
  have onward : Course (OwnCalls primaryCaller) x [.move .receive, .coordinate 0]
      (y.coordinate 0) := by
    have closed : y.deed? (.coordinate 0) = some (y.coordinate 0) := rfl
    refine .cons ?_ received (.cons ?_ closed .nil) <;> rintro _ ⟨⟩
    trivial
  obtain ⟨all, -, -, -, refuses⟩ := every_call_resolved (reached.append onward) distinct
  exact ⟨x, y, last, distinct, accounts, received, grown,
    (released 1 _).mpr ⟨SlotId.primary, waits, result.symm⟩, all, refuses stopped, ended⟩

end Exchange

end EngineLink
