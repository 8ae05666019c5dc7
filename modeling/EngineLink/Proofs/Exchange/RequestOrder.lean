import EngineLink.Proofs.Exchange.Deliveries
import EngineLink.Proofs.Exchange.Service

/-!
# The order of requests and replies

Requests of several slots nest inside each other on the engine, but those of one slot come one after
another. As long as a client stays attached to its slot, its requests are taken by the engine in the
order in which they were submitted, each is answered before the next one is taken, and the replies
are queued for the client in this order.

## Main definitions

* `Exchange.Honest` — replies answer their requests, and calls are made by their owners
* `Exchange.awaiting` — requests of a client that the engine has not taken yet
* `Exchange.opened` — requests that the engine has taken and whose replies have not been received
* `Exchange.submittedIn`, `Exchange.takenIn`, `Exchange.answeredIn` — what moves do with requests
* `Exchange.Brings` — what a move puts into the queue of a client

## Main results

* `Exchange.awaiting_of_move`, `Exchange.opened_of_move`, `Exchange.delivered_of_move` — one move
* `Exchange.served_in_order` — runs
-/

namespace EngineLink

/-- The request that an item is about, without its answer. -/
def Item.request (item : Item) : Item := { item with answer := none }

namespace Exchange

open Track Coordinator

variable {κ : Type} {x y z : Exchange κ} {move : Move κ} {n : Nat} {s : SlotId} {client : ClientId}
  {caller : CallId → SlotId × ClientId}

/-! ### Executors and callers -/

/-- The executor answers the request that it has been given, and each call is made by its own client
on its own slot. -/
def Honest (caller : CallId → SlotId × ClientId) (x : Exchange κ) : Move κ → Prop
  | .finish reply => ∀ request rest, x.stack = .serving request :: rest →
      ∃ answer, reply = request.answered answer
  | .call slot client _ call => caller call = (slot, client)
  | _ => True

/-- What holds of every state of a run without a shutdown. -/
structure Regular (caller : CallId → SlotId × ClientId) (x : Exchange κ) : Prop where
  sound : x.Sound
  serving : ∃ n, InService n x
  tidy : x.coordinator.Tidy caller
  owned : ∀ e ∈ x.events, CallOwned caller (.receive e)
  answered : ∀ reply ∈ repliedItems x.events, reply.isAnswered = true

theorem regular_ofCapacity (caller : CallId → SlotId × ClientId) (capacity : Nat) :
    (ofCapacity capacity : Exchange κ).Regular caller where
  sound := sound_ofCapacity capacity
  serving := ⟨0, inService_ofCapacity capacity⟩
  tidy := tidy_ofCapacity caller capacity
  owned := List.forall_mem_nil _
  answered := List.forall_mem_nil _

theorem Honest.keepsSlot (honest : x.Honest caller move) : x.KeepsSlot move := by
  cases move with
  | finish reply =>
    intro request rest top
    obtain ⟨answer, rfl⟩ := honest request rest top
    rfl
  | _ => trivial

/-- What a move says that is neither a question nor a reply belongs to its owner. -/
theorem Honest.callOwned (honest : x.Honest caller move) {e : Event} (posts : said? move = some e) :
    CallOwned caller (.receive e) := by
  cases move <;> cases posts <;> exact honest

namespace Regular

theorem owned_move (h : x.Regular caller) (honest : x.Honest caller move)
    (moved : x.Moved move y) : ∀ e ∈ y.events, CallOwned caller (.receive e) := by
  have posted {e : Event} (own : CallOwned caller (.receive e)) :
      ∀ e' ∈ x.events ++ [e], CallOwned caller (.receive e') := by
    rw [List.forall_mem_append, List.forall_mem_singleton]
    exact ⟨h.owned, own⟩
  cases moved with
  | ask item resume now free => exact posted trivial
  | say move e now posts => exact posted (honest.callOwned posts)
  | finish request rest reply now top => exact posted trivial
  | receive e later first =>
    have owned := h.owned
    rw [first, List.forall_mem_cons] at owned
    exact owned.2
  | _ => exact h.owned

theorem answered_move (h : x.Regular caller) (honest : x.Honest caller move)
    (moved : x.Moved move y) : ∀ reply ∈ repliedItems y.events, reply.isAnswered = true := by
  have posted {e : Event} (own : ∀ reply ∈ repliedItems [e], reply.isAnswered = true) :
      ∀ reply ∈ repliedItems (x.events ++ [e]), reply.isAnswered = true := by
    rw [repliedItems_append, List.forall_mem_append]
    exact ⟨h.answered, own⟩
  cases moved with
  | ask item resume now free => exact posted (List.forall_mem_nil _)
  | say move e now posts =>
    refine posted ?_
    cases move <;> cases posts <;> exact List.forall_mem_nil _
  | finish request rest reply now top =>
    refine posted ((List.forall_mem_singleton).mpr ?_)
    obtain ⟨answer, rfl⟩ := honest request rest top
    rfl
  | receive e later first =>
    have answered := h.answered
    rw [first, repliedItems_cons, List.forall_mem_append] at answered
    exact answered.2
  | _ => exact h.answered

theorem tidy_move (h : x.Regular caller) (moved : x.Moved move y) :
    y.coordinator.Tidy caller := by
  cases moved with
  | receive e later first =>
    have owned := h.owned
    rw [first, List.forall_mem_cons] at owned
    exact (h.tidy.handle owned.1).of_slots_eq rfl
  | pump => exact (h.tidy.pump _).of_slots_eq rfl
  | _ => exact h.tidy

theorem moves (h : x.Regular caller) (honest : x.Honest caller move)
    (moved : x.move? move = some y) : y.Regular caller := by
  obtain ⟨n, serving⟩ := h.serving
  have changes := moved_of_move serving.running moved
  have sound := (step_of_move h.sound moved).1
  refine ⟨sound, ?_, h.tidy_move changes, h.owned_move honest changes,
    h.answered_move honest changes⟩
  rcases serving.moved honest.keepsSlot changes with serving | ended
  · exact ⟨_, serving⟩
  · exact absurd sound.running ended.drains.not_running

end Regular

/-! ### Requests on their way to the engine -/

/-- The requests that a client submits on a slot with an event. -/
def submission (s : SlotId) (client : ClientId) : Event → List Item
  | .call slot who items _ => if slot = s ∧ who = client then submitted s items else []
  | _ => []

/-- The requests that a client submits on a slot in a move. -/
def submittedIn (s : SlotId) (client : ClientId) (move : Move κ) : List Item :=
  (said? move).toList.flatMap (submission s client)

/-- The requests of a client that the engine has not taken yet: those that have been handed out,
those in the queue of the slot, and those that the coordinator has not received yet. -/
def awaiting (s : SlotId) (client : ClientId) (x : Exchange κ) : List Item :=
  (requestedItems x.wakes).filter (·.slot == s) ++
    ((x.coordinator.requestSide s).inbound ++ x.events.flatMap (submission s client))

/-- The requests of a slot that the engine takes in a move, to execute them. -/
def takenIn (s : SlotId) : Exchange κ × Move κ → List Item
  | (x, .wake) => (requestedItems (x.wakes.take 1)).filter (·.slot == s)
  | _ => []

/-- The replies for a slot that the coordinator receives in a move. -/
def answeredIn (s : SlotId) : Exchange κ × Move κ → List Item
  | (x, .receive) => (x.events.take 1).flatMap (repliesTo s)
  | _ => []

theorem submission_of_silent {e : Event} (quiet : submission s client e = [])
    (events : List Event) :
    (events ++ [e]).flatMap (submission s client) = events.flatMap (submission s client) := by
  rw [List.flatMap_append, List.flatMap_singleton, quiet, List.append_nil]

/-- A client that stays attached gets its requests into the queue of its slot. -/
theorem inbound_requestsAfter {c : Coordinator} {e : Event}
    (attached : (c.slot s).client = some client)
    (stays : ∀ who, e = .disconnect s who → who ≠ client) :
    (c.requestsAfter e s).inbound = (c.requestSide s).inbound ++ submission s client e := by
  cases e with
  | call slot who items call =>
    by_cases here : slot = s
    · subst here
      rw [requestsAfter, submission]
      by_cases mine : who = client
      · rw [if_pos (by rw [attached, mine]), if_pos ⟨rfl, mine⟩, Function.update_self]
      · rw [if_neg (by rw [attached]; exact fun same => mine (Option.some.inj same).symm),
          if_neg fun h => mine h.2, List.append_nil]
    · have nothing : submission s client (.call slot who items call) = [] :=
        if_neg fun h => here h.1
      rw [nothing, List.append_nil, requestsAfter]
      split
      · rw [Function.update_of_ne (Ne.symm here)]
      · rfl
  | disconnect slot who =>
    have nothing : submission s client (.disconnect slot who) = [] := rfl
    rw [nothing, List.append_nil, requestsAfter]
    split
    · next leaves =>
      have other : s ≠ slot := by
        rintro rfl
        exact stays who rfl (Option.some.inj (leaves.symm.trans attached))
      rw [Function.update_of_ne other]
    · rfl
  | executed item =>
    have nothing : submission s client (.executed item) = [] := rfl
    rw [nothing, List.append_nil, requestsAfter]
    by_cases here : s = item.slot
    · rw [here, Function.update_self]
    · rw [Function.update_of_ne here]
  | _ => exact (List.append_nil _).symm

/-- Receiving an event hands out no request. -/
theorem receive_requests (h : InService n x) {e : Event} (stays : e ≠ .shutdown)
    {later : List Event} (moved : y = { x with
      coordinator := x.coordinator.handle e, events := later }.collect) :
    requestedItems y.wakes = requestedItems x.wakes ∧
      y.coordinator.requestSide = x.coordinator.requestsAfter e := by
  have handled : x.coordinator.handle e = x.coordinator.serve e := if_pos h.running
  obtain ⟨answers, wakes, -⟩ := (answers_serve h.labelled stays).answered
  rw [sent_opened, h.settled, ← handled] at wakes
  -- All that is sent to the engine are answers.
  have joined : y.wakes = x.wakes ++ answers.map .answer := by
    rw [moved]
    exact congrArg (x.wakes ++ ·) wakes
  have requests := requestSide_serve x.coordinator stays
  refine ⟨?_, ?_⟩
  · rw [joined, requestedItems_append, requestedItems_answers, List.append_nil]
  · rw [moved, ← requests, ← handled]
    rfl

/-- Handing out hands out at most one request, from the front of the queue of its slot. -/
theorem pump_requests (h : InService n x) :
    (requestedItems x.pump.wakes = requestedItems x.wakes ∧
      x.pump.coordinator.requestSide = x.coordinator.requestSide) ∨
    ∃ item inbound, x.coordinator.requestSide item.slot = ⟨item :: inbound, false⟩ ∧
      x.pump.coordinator.requestSide =
        Function.update x.coordinator.requestSide item.slot ⟨inbound, true⟩ ∧
      requestedItems x.pump.wakes = requestedItems x.wakes ++ [item] := by
  have labelled := (forward_keeps h.labelled).2.2
  obtain ⟨answers, wakes, -⟩ := (answers_pump labelled x.abandoned.contains).answered
  have kept := (keeps_pump x.abandoned.contains x.coordinator).requests
  have joined : x.pump.wakes = x.wakes ++ (wakesOf x.coordinator.forward.sent ++
    answers.map .answer) := congrArg (x.wakes ++ ·) wakes
  rcases forward_hands x.coordinator with same | ⟨slot, item, inbound, hands⟩
  · refine .inl ⟨?_, ?_⟩
    · rw [joined, same, h.settled, requestedItems_append, requestedItems_append,
        requestedItems_answers]
      exact List.append_nil _
    · rw [same] at kept
      exact kept
  · obtain rfl : item.slot = slot :=
      h.accounted.placed slot item (by rw [hands.first]; exact List.mem_cons_self)
    have sent :
        wakesOf x.coordinator.forward.sent = wakesOf x.coordinator.sent ++ [.execute item] :=
      congrArg EngineSide.wakes hands.engineSide
    refine .inr ⟨item, inbound, hands.first, kept.trans hands.requests, ?_⟩
    rw [joined, sent, h.settled, requestedItems_append, requestedItems_append,
      requestedItems_answers, List.append_nil]
    rfl

/-- One move: what the engine takes comes from the front, what the client submits is put at the
end. -/
theorem awaiting_of_move (h : x.Regular caller)
    (before : (x.coordinator.slot s).client = some client)
    (after : (y.coordinator.slot s).client = some client) (moved : x.move? move = some y) :
    x.awaiting s client ++ submittedIn s client move =
      takenIn s (x, move) ++ y.awaiting s client := by
  obtain ⟨n, serving⟩ := h.serving
  have quiet {events : List Event} (same : events.flatMap (submission s client) =
      x.events.flatMap (submission s client)) : x.awaiting s client ++ [] =
        (requestedItems x.wakes).filter (·.slot == s) ++
          ((x.coordinator.requestSide s).inbound ++ events.flatMap (submission s client)) := by
    rw [same, List.append_nil]
    rfl
  cases moved_of_move serving.running moved with
  | ask item resume now free => exact quiet (submission_of_silent rfl _)
  | say move e now posts =>
    have nothingTaken : takenIn s (x, move) = [] := by cases move <;> cases posts <;> rfl
    rw [nothingTaken, submittedIn, posts, awaiting, awaiting]
    simp only [Option.toList_some, List.flatMap_append, List.flatMap_singleton, List.append_assoc,
      List.nil_append]
  | abandon call => exact quiet rfl
  | idle reply => exact quiet rfl
  | finish request rest reply now top => exact quiet (submission_of_silent rfl _)
  | resume question resume rest answer wakes now top first own =>
    rw [awaiting, takenIn, first]
    exact List.append_nil _
  | drop question resume rest answer wakes top first =>
    rw [awaiting, takenIn, first]
    exact List.append_nil _
  | serve question resume rest request wakes now top first =>
    rw [awaiting, takenIn, first, requestedItems_execute, ← List.singleton_append,
      List.filter_append]
    simp only [List.append_assoc]
    exact congrArg (_ ++ ·) (congrArg (_ ++ ·) (congrArg (_ ++ ·) (List.append_nil _)))
  | receive e later first =>
    have stays : e ≠ .shutdown := h.sound.lasting e (by rw [first]; exact List.mem_cons_self)
    obtain ⟨requested, requests⟩ := receive_requests serving stays rfl
    -- A client that left would not be attached afterwards.
    have attached : ∀ who, e = .disconnect s who → who ≠ client := by
      rintro who rfl rfl
      have handled : x.coordinator.handle (.disconnect s who) =
        x.coordinator.disconnect s who := if_pos serving.running
      have gone : ((x.coordinator.handle (.disconnect s who)).slot s).client = none := by
        rw [handled]
        exact client_disconnect before
      exact Option.some_ne_none _ (after.symm.trans gone)
    rw [awaiting, awaiting, requested, requests, inbound_requestsAfter before attached, first,
      List.flatMap_cons]
    simp only [List.append_assoc]
    exact congrArg (_ ++ ·) (congrArg (_ ++ ·) (congrArg (_ ++ ·) (List.append_nil _)))
  | pump =>
    have nothingMore : x.awaiting s client ++ [] = x.awaiting s client := List.append_nil _
    refine nothingMore.trans ?_
    rcases pump_requests serving with
      ⟨requested, requests⟩ | ⟨item, inbound, first, requests, requested⟩
    · rw [awaiting, awaiting, requested, requests]
      rfl
    · -- A request of the slot goes from the front of the queue to the end of those handed out.
      rw [awaiting, awaiting, requested, requests, List.filter_append]
      by_cases here : item.slot = s
      · subst here
        rw [first, Function.update_self]
        simp [pump, collect, takenIn]
      · rw [Function.update_of_ne (Ne.symm here)]
        simp [pump, collect, takenIn, here]

/-! ### Requests that the engine has taken -/

/-- The requests of a slot that the engine has taken and whose replies the coordinator has not
received yet. -/
def opened (s : SlotId) (x : Exchange κ) : List Item :=
  ((repliedItems x.events ++ servedItems x.stack).filter (·.slot == s)).map Item.request

/-- The requests and replies of a slot that are under way or being executed. -/
def underWay (s : SlotId) (x : Exchange κ) : List Item :=
  (repliedItems x.events ++ (requestedItems x.wakes ++ servedItems x.stack)).filter (·.slot == s)

/-- Of each slot, at most one request is under way or being executed. -/
theorem length_underWay_le (h : InService n x) (s : SlotId) : (x.underWay s).length ≤ 1 := by
  have distinct := h.accounted.distinct
  rw [h.mirrored, List.nodup_iff_count] at distinct
  have once := distinct s
  rw [List.count, List.countP_map] at once
  rw [underWay, ← List.countP_eq_length_filter]
  exact once

/-- When the engine takes a request of a slot, no other one is open. -/
theorem opened_eq_nil (h : InService n x) {request : Item} {wakes : List Wake}
    (first : x.wakes = .execute request :: wakes) : x.opened request.slot = [] := by
  have once := length_underWay_le h request.slot
  have unrequested := h.requestedItems_later first
  rw [underWay, first, requestedItems_execute, unrequested] at once
  simp only [List.filter_append, List.length_append, List.singleton_append, List.filter_cons,
    beq_self_eq_true, if_true, List.length_cons] at once
  rw [opened, List.filter_append, List.map_eq_nil_iff, List.append_eq_nil_iff]
  exact ⟨List.length_eq_zero_iff.mp (by omega), List.length_eq_zero_iff.mp (by omega)⟩

/-- The reply that an event brings is the first one under way. -/
theorem filter_repliedItems_cons (s : SlotId) (e : Event) (later : List Event) :
    (repliedItems (e :: later)).filter (·.slot == s) =
      repliesTo s e ++ (repliedItems later).filter (·.slot == s) := by
  cases e with
  | executed item =>
    rw [repliedItems_executed, List.filter_cons, repliesTo]
    by_cases here : item.slot = s
    · rw [if_pos (beq_iff_eq.mpr here), if_pos here]
      rfl
    · rw [if_neg (by simpa using here), if_neg here]
      rfl
  | _ => rfl

/-- One move: a request that the engine takes becomes open, and its reply closes it. -/
theorem opened_of_move (serving : InService n x) (honest : x.Honest caller move)
    (moved : x.move? move = some y) :
    x.opened s ++ (takenIn s (x, move)).map Item.request =
      (answeredIn s (x, move)).map Item.request ++ y.opened s := by
  have quiet {events : List Event} (same : repliedItems events = repliedItems x.events) :
      x.opened s ++ [] =
        ((repliedItems events ++ servedItems x.stack).filter (·.slot == s)).map Item.request := by
    rw [same, List.append_nil]
    rfl
  cases moved_of_move serving.running moved with
  | ask item resume now free =>
    apply quiet
    rw [repliedItems_append]
    exact List.append_nil _
  | say move e now posts =>
    have nothing : takenIn s (x, move) = [] ∧ answeredIn s (x, move) = [] ∧
        repliedItems [e] = [] := by
      cases move <;> cases posts <;> exact ⟨rfl, rfl, rfl⟩
    rw [nothing.1, nothing.2.1]
    apply quiet
    rw [repliedItems_append, nothing.2.2, List.append_nil]
  | abandon call => exact quiet rfl
  | idle reply => exact quiet rfl
  | finish request rest reply now top =>
    -- The reply takes the place of the request that it answers.
    obtain ⟨answer, rfl⟩ := honest request rest top
    have sameSlot : (request.answered answer).slot = request.slot := rfl
    have sameRequest : (request.answered answer).request = request.request := rfl
    rw [opened, opened, top, servedItems_serving, repliedItems_append, repliedItems_executed]
    simp only [List.filter_append, List.filter_cons, sameSlot, List.map_append]
    by_cases here : (request.slot == s) = true
    · simp [takenIn, answeredIn, here, sameRequest, repliedItems]
    · simp [takenIn, answeredIn, here, repliedItems]
  | resume question resume rest answer wakes now top first own =>
    rw [takenIn, first]
    rw [opened, opened, top]
    exact List.append_nil _
  | drop question resume rest answer wakes top first =>
    rw [takenIn, first]
    exact List.append_nil _
  | serve question resume rest request wakes now top first =>
    have unreplied := (serving.met (by rw [first]; exact List.cons_ne_nil _ _)).2
    rw [takenIn, first, List.take_succ_cons, List.take_zero, requestedItems_execute]
    by_cases here : request.slot = s
    · -- No other request of the slot was open, so the order does not matter.
      subst here
      have closed := opened_eq_nil serving first
      rw [closed]
      rw [opened, List.map_eq_nil_iff, unreplied, List.nil_append] at closed
      simp [opened, answeredIn, unreplied, closed, requestedItems]
    · simp [opened, answeredIn, unreplied, here, requestedItems]
  | receive e later first =>
    rw [opened, answeredIn, first, List.filter_append, filter_repliedItems_cons]
    simp [opened, collect, takenIn]
  | pump => exact quiet rfl

/-! ### The queue of the client -/

/-- What the calls of a client have got, and what is queued for it. -/
def delivered (caller : CallId → SlotId × ClientId) (s : SlotId) (client : ClientId)
    (x : Exchange κ) : List Item :=
  got caller s client x.results ++ (x.coordinator.slot s).outbound

/-- What the coordinator does in a move. -/
def act? : Exchange κ × Move κ → Option Act
  | (x, .receive) => x.events.head?.map .receive
  | (x, .pump) => some (.pump x.abandoned.contains)
  | _ => none

/-- What a move puts into the queue of the client of a slot: the replies that the coordinator
receives, and what else the engine has for it. -/
structure Brings (s : SlotId) (p : Exchange κ × Move κ) (entries : List Entry) : Prop where
  replies : entries.filterMap Entry.reply? = answeredIn s p
  own : ∀ item, .own item ∈ entries → ∃ act ∈ act? p, p.1.coordinator.Own act item

/-- What the moves of a run put into the queue, one after another. -/
inductive Brought (s : SlotId) : List (Exchange κ × Move κ) → List Entry → Prop
  | nil : Brought s [] []
  | cons {p : Exchange κ × Move κ} {steps : List (Exchange κ × Move κ)} {now later : List Entry}
      (brings : Brings s p now) (rest : Brought s steps later) :
      Brought s (p :: steps) (now ++ later)

/-- The replies in the queue are those that the coordinator receives, one for one. -/
theorem Brought.replies {steps : List (Exchange κ × Move κ)} {entries : List Entry}
    (brought : Brought s steps entries) :
    entries.filterMap Entry.reply? = steps.flatMap (answeredIn s) := by
  induction brought with
  | nil => rfl
  | cons brings _ ih => rw [List.filterMap_append, brings.replies, ih, List.flatMap_cons]

theorem got_resultsOf (sent : List Effect) :
    got caller s client (resultsOf sent) = got caller s client sent := by
  induction sent with
  | nil => rfl
  | cons e sent ih =>
    have apart : got caller s client (e :: sent) =
        got caller s client [e] ++ got caller s client sent := got_append [e] sent
    cases e with
    | wake wake =>
      rw [apart, ← ih]
      rfl
    | resolve call result =>
      rw [apart, ← ih]
      exact got_append [_] _
    | attach call result =>
      rw [apart, ← ih]
      exact got_append [_] _

/-- What the coordinator appends to its queue is delivered when its effects are handed on. -/
theorem exists_delivered {own : Item → Prop} {replies : List Item}
    (settled : x.coordinator.sent = [])
    (appends : Appends caller s client own replies x.coordinator z.coordinator)
    (results : z.results = x.results) :
    ∃ entries : List Entry, entries.filterMap Entry.reply? = replies ∧
      (∀ item, .own item ∈ entries → own item) ∧
      z.collect.delivered caller s client =
        x.delivered caller s client ++ entries.map Entry.item := by
  obtain ⟨entries, isReplies, isOwn, queued⟩ := appends
  refine ⟨entries, isReplies, isOwn, ?_⟩
  have before : deliveries caller s client x.coordinator = (x.coordinator.slot s).outbound := by
    rw [deliveries, settled]
    rfl
  calc got caller s client (z.results ++ resultsOf z.coordinator.sent) ++
        (z.coordinator.slot s).outbound
    _ = got caller s client x.results ++ deliveries caller s client z.coordinator := by
      rw [got_append, got_resultsOf, results, List.append_assoc]
      rfl
    _ = x.delivered caller s client ++ entries.map Entry.item := by
      rw [queued, before, ← List.append_assoc]
      rfl

/-- One move. -/
theorem delivered_of_move (h : x.Regular caller)
    (before : (x.coordinator.slot s).client = some client)
    (after : (y.coordinator.slot s).client = some client) (moved : x.move? move = some y) :
    ∃ entries, Brings s (x, move) entries ∧
      y.delivered caller s client = x.delivered caller s client ++ entries.map Entry.item := by
  obtain ⟨n, serving⟩ := h.serving
  have nothing (none : answeredIn s (x, move) = [])
      (same : y.delivered caller s client = x.delivered caller s client) :
      ∃ entries, Brings s (x, move) entries ∧
        y.delivered caller s client = x.delivered caller s client ++ entries.map Entry.item := by
    refine ⟨[], ⟨none.symm, fun _ h => absurd h List.not_mem_nil⟩, ?_⟩
    rw [same]
    exact (List.append_nil _).symm
  cases moved_of_move serving.running moved with
  | say move e now posts =>
    apply nothing
    · cases move <;> cases posts <;> rfl
    · rfl
  | receive e later first =>
    have stays : e ≠ .shutdown := h.sound.lasting e (by rw [first]; exact List.mem_cons_self)
    have handled : x.coordinator.handle e = x.coordinator.serve e := if_pos serving.running
    have here : act? (x, Move.receive) = some (.receive e) := by rw [act?, first]; rfl
    have replies : answeredIn s (x, Move.receive) = repliesTo s e := by
      rw [answeredIn, first]
      exact List.append_nil _
    have grows : Grows caller s client (x.coordinator.Own (.receive e)) (repliesTo s e)
        x.coordinator (x.coordinator.handle e) := by
      have attached : ((x.coordinator.handle e).slot s).client = some client := after
      rw [handled] at attached ⊢
      exact grows_serve stays before attached
    obtain ⟨entries, isReplies, isOwn, queued⟩ := exists_delivered
      (z := { x with coordinator := x.coordinator.handle e, events := later })
      serving.settled grows.appends rfl
    exact ⟨entries, ⟨isReplies.trans replies.symm, fun item member => ⟨_, here, isOwn item member⟩⟩,
      queued⟩
  | pump =>
    have grows : Grows caller s client (x.coordinator.Own (.pump x.abandoned.contains)) []
        x.coordinator (x.coordinator.pump x.abandoned.contains) :=
      grows_pump h.tidy before x.abandoned.contains
    obtain ⟨entries, isReplies, isOwn, queued⟩ := exists_delivered
      (z := { x with coordinator := x.coordinator.pump x.abandoned.contains })
      serving.settled grows.appends rfl
    exact ⟨entries, ⟨isReplies, fun item member => ⟨_, rfl, isOwn item member⟩⟩, queued⟩
  | _ => exact nothing rfl rfl

/-! ### Runs -/

/-- Every state that a run visits is regular. -/
theorem regular_of_visited {moves : List (Move κ)} {states : List (Exchange κ)}
    (h : x.Regular caller) (run : x.visited? moves = some states)
    (honest : ∀ p ∈ states.zip moves, p.1.Honest caller p.2) : ∀ z ∈ states, z.Regular caller := by
  induction moves generalizing x states with
  | nil =>
    obtain rfl := Option.some.inj run
    rw [List.forall_mem_singleton]
    exact h
  | cons move moves ih =>
    obtain ⟨y, later, moved, onward, rfl⟩ := visited?_cons run
    rw [List.zip_cons_cons, List.forall_mem_cons] at honest
    rw [List.forall_mem_cons]
    exact ⟨h, ih (h.moves honest.1 moved) onward honest.2⟩

/-- What the moves of a run take, answer and bring. -/
theorem flows_of_visited {moves : List (Move κ)} {states : List (Exchange κ)}
    (h : x.Regular caller) (run : x.visited? moves = some states)
    (honest : ∀ p ∈ states.zip moves, p.1.Honest caller p.2)
    (attached : ∀ z ∈ states, (z.coordinator.slot s).client = some client) :
    ∃ y ∈ states.getLast?,
      x.awaiting s client ++ moves.flatMap (submittedIn s client) =
        (states.zip moves).flatMap (takenIn s) ++ y.awaiting s client ∧
      x.opened s ++ ((states.zip moves).flatMap (takenIn s)).map Item.request =
        ((states.zip moves).flatMap (answeredIn s)).map Item.request ++ y.opened s ∧
      ∃ entries, Brought s (states.zip moves) entries ∧
        y.delivered caller s client = x.delivered caller s client ++ entries.map Entry.item := by
  -- The first move splits off what it takes, answers and brings; the rest is a run from a regular
  -- state again.
  induction moves generalizing x states with
  | nil =>
    obtain rfl := Option.some.inj run
    exact ⟨x, rfl, List.append_nil _, List.append_nil _, [], .nil, (List.append_nil _).symm⟩
  | cons move moves ih =>
    obtain ⟨y, later, moved, onward, rfl⟩ := visited?_cons run
    rw [List.zip_cons_cons, List.forall_mem_cons] at honest
    rw [List.forall_mem_cons] at attached
    have attachedNext := attached.2 y (mem_visited onward)
    obtain ⟨z, last, awaits, opens, entries, brought, queued⟩ :=
      ih (h.moves honest.1 moved) onward honest.2 attached.2
    have awaitsNow := awaiting_of_move h attached.1 attachedNext moved
    obtain ⟨n, serving⟩ := h.serving
    have opensNow := opened_of_move (s := s) serving honest.1 moved
    obtain ⟨now, brings, queuedNow⟩ := delivered_of_move h attached.1 attachedNext moved
    refine ⟨z, ?_, ?_, ?_, now ++ entries, .cons brings brought, ?_⟩
    · rw [List.getLast?_cons, last]
      rfl
    · rw [List.zip_cons_cons, List.flatMap_cons, List.flatMap_cons, ← List.append_assoc, awaitsNow,
        List.append_assoc, awaits, List.append_assoc]
    · rw [List.zip_cons_cons, List.flatMap_cons, List.flatMap_cons, List.map_append,
        List.map_append, ← List.append_assoc, opensNow, List.append_assoc, opens, List.append_assoc]
    · rw [queued, queuedNow, List.map_append, List.append_assoc]

/-- A reply that the coordinator receives for a slot has an answer. -/
theorem isAnswered_of_answeredIn (h : x.Regular caller) {reply : Item}
    (member : reply ∈ answeredIn s (x, move)) : reply.isAnswered = true ∧ reply.slot = s := by
  cases move with
  | receive =>
    rw [answeredIn] at member
    cases events : x.events with
    | nil =>
      rw [events] at member
      cases member
    | cons e later =>
      have answered := h.answered
      rw [events] at member answered
      rw [List.take_succ_cons, List.take_zero, List.flatMap_singleton] at member
      cases e with
      | executed item =>
        rw [repliesTo] at member
        split at member
        · next here =>
          obtain rfl := List.mem_singleton.mp member
          exact ⟨answered reply List.mem_cons_self, here⟩
        · cases member
      | _ => cases member
  | _ => cases member

/-- In a run without a shutdown in which the client of a slot stays attached, and in which the
executor answers the requests that it is given, the requests of the client are taken by the engine
in the order in which they have been submitted; at most one request of the slot is on its way to the
engine, executed or on its way back at any time; the replies that arrive for the slot are answers to
the requests that have been taken, in the same order and one for each, with the same number and
kind; and they are put into the queue for the client in this order, in which nothing else is put
besides what the engine itself has for the client. -/
theorem served_in_order {capacity : Nat} {before during : List (Move κ)}
    {earlier states : List (Exchange κ)}
    (reached : (ofCapacity capacity).visited? before = some earlier)
    (here : earlier.getLast? = some x) (run : x.visited? during = some states)
    (honest : ∀ p ∈ earlier.zip before ++ states.zip during, p.1.Honest caller p.2)
    (attached : ∀ z ∈ states, (z.coordinator.slot s).client = some client) :
    (∀ z ∈ states, (z.underWay s).length ≤ 1) ∧
    (∀ reply ∈ (states.zip during).flatMap (answeredIn s),
      reply.isAnswered = true ∧ reply.slot = s) ∧
    ∃ y ∈ states.getLast?,
      x.awaiting s client ++ during.flatMap (submittedIn s client) =
        (states.zip during).flatMap (takenIn s) ++ y.awaiting s client ∧
      x.opened s ++ ((states.zip during).flatMap (takenIn s)).map Item.request =
        ((states.zip during).flatMap (answeredIn s)).map Item.request ++ y.opened s ∧
      ∃ entries, Brought s (states.zip during) entries ∧
        entries.filterMap Entry.reply? = (states.zip during).flatMap (answeredIn s) ∧
        y.delivered caller s client = x.delivered caller s client ++ entries.map Entry.item := by
  rw [List.forall_mem_append] at honest
  have start := regular_ofCapacity (κ := κ) caller capacity
  have regular : x.Regular caller :=
    regular_of_visited start reached honest.1 x (List.mem_of_getLast? here)
  have all := regular_of_visited regular run honest.2
  obtain ⟨y, last, awaits, opens, entries, brought, queued⟩ :=
    flows_of_visited regular run honest.2 attached
  refine ⟨?_, ?_, y, last, awaits, opens, entries, brought, brought.replies, queued⟩
  · intro z visits
    obtain ⟨n, serving⟩ := (all z visits).serving
    exact length_underWay_le serving s
  · intro reply member
    obtain ⟨⟨z, move⟩, step, arrives⟩ := List.mem_flatMap.mp member
    exact isAnswered_of_answeredIn (all z (List.of_mem_zip step).1) arrives

/-- Something to evaluate, with a number. -/
def numbered (id : RequestId) : Item := { evaluation with slot := 1, id := some id }

/-- A client is attached besides the primary one, and the engine waits for a line of input. -/
def attachedRun : List (Move Unit) :=
  [.connect SlotId.primary 0, .connect 1 1, .ask lineRequest (), .receive, .receive, .receive]

/-- The client submits two requests, and both are executed. -/
def pairRun : List (Move Unit) :=
  [.call 1 ⟨2⟩ [numbered 7, numbered 8] 2, .receive, .pump, .wake,
    .finish ((numbered 7).answered .done), .receive, .pump, .wake,
    .finish ((numbered 8).answered (.text "two")), .receive]

theorem served_in_order_pair : ∃ (x : Exchange Unit) (states : List (Exchange Unit)),
    ∃ y ∈ states.getLast?,
    x.visited? pairRun = some states ∧ y.awaiting 1 ⟨2⟩ = [] ∧ y.opened 1 = [] ∧
      x.awaiting 1 ⟨2⟩ ++ pairRun.flatMap (submittedIn 1 ⟨2⟩) =
        (states.zip pairRun).flatMap (takenIn 1) ++ y.awaiting 1 ⟨2⟩ := by
  obtain ⟨earlier, x, states, reached, here, run, honest, attached, last⟩ :
      ∃ earlier x states, (ofCapacity 64).visited? attachedRun = some earlier ∧
        earlier.getLast? = some x ∧ x.visited? pairRun = some states ∧
        (∀ p ∈ earlier.zip attachedRun ++ states.zip pairRun,
          p.1.Honest (fun _ => (1, ⟨2⟩)) p.2) ∧
        (∀ z ∈ states, (z.coordinator.slot 1).client = some ⟨2⟩) ∧
        ∀ y ∈ states.getLast?, y.awaiting 1 ⟨2⟩ = [] ∧ y.opened 1 = [] := by
    refine ⟨_, _, _, rfl, rfl, rfl, ?_, ?_, ?_⟩
    · simp only [attachedRun, pairRun, List.zip_cons_cons, List.cons_append, List.nil_append,
        List.zip_nil_right, List.forall_mem_cons, Honest, true_and]
      refine ⟨?_, ?_, List.forall_mem_nil _⟩
      · rintro request rest ⟨⟩
        exact ⟨.done, rfl⟩
      · rintro request rest ⟨⟩
        exact ⟨.text "two", rfl⟩
    · simp only [List.forall_mem_cons]
      exact ⟨rfl, rfl, rfl, rfl, rfl, rfl, rfl, rfl, rfl, rfl, rfl, List.forall_mem_nil _⟩
    · rintro y ⟨⟩
      exact ⟨rfl, rfl⟩
  obtain ⟨-, -, y, isLast, awaits, -⟩ := served_in_order reached here run honest attached
  exact ⟨x, states, y, isLast, run, (last y isLast).1, (last y isLast).2, awaits⟩

end Exchange

end EngineLink
