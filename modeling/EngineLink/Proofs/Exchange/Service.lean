import EngineLink.Proofs.Exchange.Requests
import EngineLink.Proofs.Exchange.Run
import Mathlib.Data.List.Perm.Subperm

/-!
# Requests meet an idle engine

The coordinator hands out a request when it keeps more questions than it knows executions. It cannot
see the engine: questions, replies and answers may be under way. This module shows that the two
numbers tell enough. There are as many waits of the engine as executions, and one more exactly
while it waits; each question that is kept or under way, and each answer under way, belongs to a
wait of its own. So more questions than executions are kept only if the engine waits and nothing at
all is under way to it, and the executions that the coordinator knows are those of the engine.

## Main definitions

* `Exchange.Moved` — what a move changes
* `Exchange.Reaches` — what a run can come to, with shutdown
* `Exchange.Drains` — the coordinator has stopped, and sends nothing to the engine any longer
* `Exchange.InService` — how the engine and a running coordinator fit together

## Main results

* `Exchange.InService.moved` — one move
* `Exchange.inService_or_ended` — every run
* `Exchange.idle_of_engineWaits` — a coordinator that finds the engine waiting is right
-/

namespace EngineLink

namespace Track

variable {κ : Type}

/-! ### Requests and replies under way -/

/-- The requests that the engine executes, the innermost first. -/
def servedItems (stack : List (Activity κ)) : List Item :=
  stack.filterMap fun
    | .waiting .. => none
    | .serving request => some request

/-- The requests on their way to the engine. -/
def requestedItems (wakes : List Wake) : List Item :=
  wakes.filterMap fun
    | .answer _ => none
    | .execute request => some request

/-- The replies on their way to the coordinator. -/
def repliedItems (events : List Event) : List Item :=
  events.filterMap fun
    | .executed reply => some reply
    | _ => none

@[simp] theorem servedItems_waiting (question : Item) (resume : κ) (rest : List (Activity κ)) :
    servedItems (.waiting question resume :: rest) = servedItems rest := rfl

@[simp] theorem servedItems_serving (request : Item) (rest : List (Activity κ)) :
    servedItems (.serving request :: rest) = request :: servedItems rest := rfl

@[simp] theorem requestedItems_append (wakes more : List Wake) :
    requestedItems (wakes ++ more) = requestedItems wakes ++ requestedItems more :=
  List.filterMap_append

@[simp] theorem requestedItems_answer (answer : Item) (wakes : List Wake) :
    requestedItems (.answer answer :: wakes) = requestedItems wakes := rfl

@[simp] theorem requestedItems_execute (request : Item) (wakes : List Wake) :
    requestedItems (.execute request :: wakes) = request :: requestedItems wakes := rfl

@[simp] theorem requestedItems_answers (answers : List Item) :
    requestedItems (answers.map .answer) = [] := by
  induction answers with
  | nil => rfl
  | cons answer answers ih => rw [List.map_cons, requestedItems_answer, ih]

@[simp] theorem repliedItems_append (events more : List Event) :
    repliedItems (events ++ more) = repliedItems events ++ repliedItems more :=
  List.filterMap_append

@[simp] theorem repliedItems_executed (reply : Item) (events : List Event) :
    repliedItems (.executed reply :: events) = reply :: repliedItems events := rfl

theorem repliedItems_cons (e : Event) (events : List Event) :
    repliedItems (e :: events) = repliedItems [e] ++ repliedItems events :=
  repliedItems_append [e] events

theorem length_servedItems (stack : List (Activity κ)) :
    (servedItems stack).length = served stack := by
  rw [servedItems, List.length_filterMap_eq_countP, served]
  refine congrArg (List.countP · stack) (funext fun activity => ?_)
  cases activity <;> rfl

/-- What is not a request is an answer. -/
theorem eq_nil_of_items {wakes : List Wake} (unrequested : requestedItems wakes = [])
    (unanswered : answerIds wakes = []) : wakes = [] := by
  cases wakes with
  | nil => rfl
  | cons wake wakes =>
    cases wake with
    | answer answer => cases unanswered
    | execute request => cases unrequested

theorem requestedItems_tail {wakes : List Wake} (h : requestedItems wakes = []) :
    requestedItems wakes.tail = [] := by
  cases wakes with
  | nil => rfl
  | cons wake wakes =>
    cases wake with
    | answer answer => exact h
    | execute request => cases h

/-- Answers that join what is under way leave the only request in front. -/
theorem requestedItems_tail_append {wakes : List Wake} (h : requestedItems wakes.tail = [])
    (answers : List Item) : requestedItems (wakes ++ answers.map Wake.answer).tail = [] := by
  cases wakes with
  | nil => exact requestedItems_tail (requestedItems_answers answers)
  | cons wake wakes =>
    rw [List.tail_cons] at h
    rw [List.cons_append, List.tail_cons, requestedItems_append, h, requestedItems_answers,
      List.nil_append]

/-- An event asks at most one question. -/
theorem reverse_askedIds (e : Event) : (askedIds [e]).reverse = askedIds [e] := by
  cases e with
  | submit item wait => cases wait <;> rfl
  | _ => rfl

/-- Questions that are answered move from those that are kept to the answers under way. -/
theorem perm_of_answered {before asked later pending answered kept : List (Option RequestId)}
    (moved : asked ++ pending = answered ++ kept) :
    ((before ++ answered) ++ (later ++ kept)).Perm (before ++ ((asked ++ later) ++ pending)) := by
  refine List.perm_iff_count.mpr fun id => ?_
  have counted := congrArg (List.count id) moved
  simp only [List.count_append] at counted ⊢
  omega

/-- A question that is asked joins those under way and the waits of the engine. -/
theorem perm_of_asked (id : Option RequestId) (answered asked kept : List (Option RequestId)) :
    (answered ++ ((asked ++ [id]) ++ kept)).Perm (id :: (answered ++ (asked ++ kept))) := by
  rw [List.append_assoc, List.singleton_append, ← List.append_assoc, ← List.append_assoc]
  exact List.perm_middle

end Track

namespace Exchange

open Track

variable {κ : Type} {x y : Exchange κ} {n : Nat} {move : Move κ}

/-! ### What moves change -/

/-- What is said in a move that says something besides questions and replies. -/
def said? : Move κ → Option Event
  | .tell item => some (.submit item false)
  | .busy busy => some (.busy busy)
  | .connect slot call => some (.connect slot call)
  | .disconnect slot client => some (.disconnect slot client)
  | .call slot client items call => some (.call slot client items call)
  | _ => none

/-- What a move changes while the coordinator runs. What the engine notes about itself is open. -/
inductive Moved (x : Exchange κ) : Move κ → Exchange κ → Prop
  | ask (item : Item) (resume : κ) (now : EngineState) (free : x.isWaiting = false) :
      Moved x (.ask item resume) { x with
        state := now
        nextRequest := x.nextRequest + 1
        events := x.events ++ [.submit { item with id := some x.nextRequest } true]
        stack := .waiting { item with id := some x.nextRequest } resume :: x.stack }
  | say (move : Move κ) (e : Event) (now : EngineState) (posts : said? move = some e) :
      Moved x move { x with state := now, events := x.events ++ [e] }
  | abandon (call : CallId) : Moved x (.abandon call) (x.abandon call)
  /-- There is nothing to come back from. -/
  | idle (reply : Item) : Moved x (.finish reply) x
  | finish (request : Item) (rest : List (Activity κ)) (reply : Item) (now : EngineState)
      (top : x.stack = .serving request :: rest) :
      Moved x (.finish reply) { x with
        stack := rest, state := now, events := x.events ++ [.executed reply] }
  | resume (question : Item) (resume : κ) (rest : List (Activity κ)) (answer : Item)
      (wakes : List Wake) (now : EngineState) (top : x.stack = .waiting question resume :: rest)
      (first : x.wakes = .answer answer :: wakes) (own : answer.id = question.id) :
      Moved x .wake { x with wakes, stack := rest, state := now }
  | drop (question : Item) (resume : κ) (rest : List (Activity κ)) (answer : Item)
      (wakes : List Wake) (top : x.stack = .waiting question resume :: rest)
      (first : x.wakes = .answer answer :: wakes) :
      Moved x .wake { x with wakes }
  | serve (question : Item) (resume : κ) (rest : List (Activity κ)) (request : Item)
      (wakes : List Wake) (now : EngineState) (top : x.stack = .waiting question resume :: rest)
      (first : x.wakes = .execute request :: wakes) :
      Moved x .wake { x with wakes, stack := .serving request :: x.stack, state := now }
  | receive (e : Event) (later : List Event) (first : x.events = e :: later) :
      Moved x .receive { x with
        coordinator := x.coordinator.handle e, events := later }.collect
  | pump : Moved x .pump x.pump

theorem post_of_running (running : x.isRunning = true) (e : Event) :
    x.post e = { x with events := x.events ++ [e] } := if_pos running

theorem moved_wakeUp {woken : Woken κ} (running : x.isRunning = true)
    (woke : x.wakeUp = some (woken, y)) : x.Moved .wake y := by
  cases takesNext_of_wakeUp woke with
  | resume question resume rest answer wakes top first own =>
    obtain ⟨now, eq⟩ := exists_setState { x with wakes, stack := rest } .running
    rw [eq]
    exact .resume question resume rest answer wakes now top first own
  | drop question resume rest answer wakes top first other =>
    exact .drop question resume rest answer wakes top first
  | serve question resume rest request wakes top first =>
    obtain ⟨now, eq⟩ :=
      exists_setState { x with wakes, stack := .serving request :: x.stack } .running
    rw [eq]
    exact .serve question resume rest request wakes now top first
  | stop question resume rest top none stopped =>
    exact absurd running (Bool.eq_false_iff.mp stopped)

/-- Every move changes this while the coordinator runs. -/
theorem moved_of_move (running : x.isRunning = true) (h : x.move? move = some y) :
    x.Moved move y := by
  have unlessWaiting {z : Exchange κ} (h : (if x.isWaiting then none else some z) = some y) :
      x.isWaiting = false ∧ z = y := by
    split at h
    · cases h
    · next free => exact ⟨by simpa using free, Option.some.inj h⟩
  have posted {e : Event} (same : x.post e = y) (posts : said? move = some e) : x.Moved move y := by
    rw [← same, post_of_running running]
    exact .say move e x.state posts
  cases move with
  | ask item resume =>
    obtain ⟨free, rfl⟩ := unlessWaiting h
    obtain ⟨now, started⟩ := exists_start x
    obtain ⟨later, eq⟩ := exists_setState { x with
      state := now
      nextRequest := x.nextRequest + 1
      events := x.events ++ [.submit { item with id := some x.nextRequest } true] } .waiting
    rw [ask, number, started]
    dsimp only
    rw [post_of_running (x := { x with state := now, nextRequest := x.nextRequest + 1 }) running,
      eq]
    exact .ask item resume later free
  | tell item =>
    obtain ⟨-, rfl⟩ := unlessWaiting h
    obtain ⟨now, started⟩ := exists_start x
    rw [tell, started, post_of_running (x := { x with state := now }) running]
    exact .say (.tell item) _ now rfl
  | busy busy => exact posted (unlessWaiting h).2 rfl
  | wake =>
    obtain ⟨⟨woken, z⟩, woke, rfl⟩ := Option.map_eq_some_iff.mp h
    exact moved_wakeUp running woke
  | finish reply =>
    obtain rfl := Option.some.inj h
    rw [finish]
    split
    · next request rest top =>
      obtain ⟨now, eq⟩ := exists_setState { x with stack := rest } .waiting
      rw [eq, post_of_running (x := { x with stack := rest, state := now }) running]
      exact .finish request rest reply now top
    · exact .idle reply
  | abandon call =>
    obtain rfl := Option.some.inj h
    exact .abandon call
  | receive =>
    rw [move?, receive?] at h
    split at h
    · cases h
    · next e later first =>
      obtain rfl := Option.some.inj h
      exact .receive e later first
  | pump =>
    obtain rfl := Option.some.inj h
    exact .pump
  | _ => exact posted (Option.some.inj h) rfl

/-! ### Engine and coordinator together -/

/-- A reply that arrives ends the execution in front. -/
theorem executing_opened_of_mirrored {c : Coordinator} {e : Event} {later : List Event}
    {inner : List Item}
    (mirrored : c.executing = (repliedItems (e :: later) ++ inner).map (·.slot)) :
    (c.opened e).executing = (repliedItems later ++ inner).map (·.slot) := by
  cases e with
  | submit item wait => cases wait <;> exact mirrored
  | executed item => exact congrArg List.tail mirrored
  | _ => exact mirrored

/-- How the engine and a running coordinator fit together after `n` questions. -/
structure InService (n : Nat) (x : Exchange κ) : Prop where
  running : x.isRunning = true
  settled : x.coordinator.sent = []
  labelled : x.coordinator.StashLabelled
  accounted : x.coordinator.Accounted
  alternating : Alternating x.stack
  /-- Only the first wake under way can be a request. -/
  single : requestedItems x.wakes.tail = []
  /-- A request under way meets a waiting engine, and overtakes no reply. -/
  met : requestedItems x.wakes ≠ [] → Track.isWaiting x.stack = true ∧ repliedItems x.events = []
  /-- The executions that the coordinator knows are those whose replies are under way, the one whose
  request is under way, and those of the engine. -/
  mirrored : x.coordinator.executing =
    (repliedItems x.events ++ (requestedItems x.wakes ++ servedItems x.stack)).map (·.slot)
  /-- Answers under way, questions under way and questions kept have waits of their own. -/
  within : (answerIds x.wakes ++ (askedIds x.events ++ x.coordinator.pendingIds)).Subperm
    (waitingIds x.stack)
  next : x.nextRequest = .ofNat (n + 1)
  waits : (waitingIds x.stack).Sublist (numbers n)
  /-- Questions under way and kept are in the order of the waits. -/
  line : n < UInt32.size →
    ((askedIds x.events).reverse ++ x.coordinator.pendingIds).Sublist (waitingIds x.stack)

theorem inService_ofCapacity (capacity : Nat) : InService 0 (ofCapacity capacity : Exchange κ) where
  running := rfl
  settled := rfl
  labelled := List.forall_mem_nil _
  accounted := Coordinator.accounted_ofCapacity capacity
  alternating := trivial
  single := rfl
  met h := absurd rfl h
  mirrored := rfl
  within := List.nil_subperm
  next := rfl
  waits := .slnil
  line _ := .slnil

namespace InService

theorem unrequested_of_free (h : InService n x) (free : Track.isWaiting x.stack = false) :
    requestedItems x.wakes = [] := by
  by_contra requested
  rw [(h.met requested).1] at free
  cases free

/-- What the engine notes about itself, and who has gone, is not relevant. -/
theorem of_eq (h : InService n x) (coordinator : y.coordinator = x.coordinator)
    (events : y.events = x.events) (wakes : y.wakes = x.wakes) (stack : y.stack = x.stack)
    (next : y.nextRequest = x.nextRequest) : InService n y := by
  obtain ⟨c, state, nextRequest, interrupted, plugins, es, ws, st, abandoned, results⟩ := y
  obtain rfl : c = x.coordinator := coordinator
  obtain rfl : es = x.events := events
  obtain rfl : ws = x.wakes := wakes
  obtain rfl : st = x.stack := stack
  obtain rfl : nextRequest = x.nextRequest := next
  exact { h with }

/-- Something that is neither a question nor a reply is said to the coordinator. -/
theorem say (h : InService n x) {e : Event} (silent : askedIds [e] = [])
    (noReply : repliedItems [e] = []) :
    InService n { x with events := x.events ++ [e] } := by
  have asked : askedIds (x.events ++ [e]) = askedIds x.events := by
    rw [askedIds_append, silent, List.append_nil]
  have replied : repliedItems (x.events ++ [e]) = repliedItems x.events := by
    rw [repliedItems_append, noReply, List.append_nil]
  exact { h with
    met := by rw [replied]; exact h.met
    mirrored := by rw [replied]; exact h.mirrored
    within := by rw [asked]; exact h.within
    line := by rw [asked]; exact h.line }

theorem ask (h : InService n x) {question : Item} (free : Track.isWaiting x.stack = false)
    (number : question.id = some x.nextRequest) (resume : κ) :
    InService (n + 1) { x with
      nextRequest := x.nextRequest + 1
      events := x.events ++ [.submit question true]
      stack := .waiting question resume :: x.stack } := by
  have asked : askedIds (x.events ++ [.submit question true]) =
      askedIds x.events ++ [question.id] := askedIds_append ..
  have replied : repliedItems (x.events ++ [.submit question true]) = repliedItems x.events := by
    rw [repliedItems_append]
    exact List.append_nil _
  exact { h with
    alternating := ⟨free, h.alternating⟩
    met := fun requested => absurd (h.unrequested_of_free free) requested
    mirrored := by rw [replied]; exact h.mirrored
    within := by
      -- The new question and the new wait have the same number.
      rw [asked]
      exact (perm_of_asked ..).subperm_right.mpr ((List.subperm_cons _).mpr h.within)
    next := by
      rw [UInt32.ofNat_add, ← h.next]
      rfl
    waits := by
      rw [h.next] at number
      change (question.id :: waitingIds x.stack).Sublist _
      rw [number]
      exact h.waits.cons_cons _
    line := fun few => by
      rw [asked, List.reverse_append]
      exact (h.line (Nat.lt_of_succ_lt few)).cons_cons _ }

theorem finish (h : InService n x) {request reply : Item} {rest : List (Activity κ)}
    (top : x.stack = .serving request :: rest) (slot : reply.slot = request.slot) :
    InService n { x with stack := rest, events := x.events ++ [.executed reply] } := by
  have asked : askedIds (x.events ++ [.executed reply]) = askedIds x.events := by
    rw [askedIds_append]
    exact List.append_nil _
  have waiting : waitingIds x.stack = waitingIds rest := by rw [top]; rfl
  have unrequested := h.unrequested_of_free (by rw [top]; rfl)
  have alternating := h.alternating
  rw [top] at alternating
  exact { h with
    alternating := alternating.2
    met := fun requested => absurd unrequested requested
    mirrored := by
      -- The reply is the last one under way, and its execution was the innermost.
      have mirrored := h.mirrored
      rw [top, unrequested] at mirrored
      rw [repliedItems_append, unrequested, mirrored]
      simp [slot, repliedItems]
    within := by
      rw [asked, ← waiting]
      exact h.within
    waits := by
      rw [← waiting]
      exact h.waits
    line := by
      rw [asked, ← waiting]
      exact h.line }

/-- The first wake under way is gone, and no request is left. -/
theorem requestedItems_later (h : InService n x) {wake : Wake} {wakes : List Wake}
    (first : x.wakes = wake :: wakes) : requestedItems wakes = [] := by
  have single := h.single
  rwa [first] at single

theorem resume (h : InService n x) {question answer : Item} {resume : κ}
    {rest : List (Activity κ)} {wakes : List Wake}
    (top : x.stack = .waiting question resume :: rest) (first : x.wakes = .answer answer :: wakes)
    (own : answer.id = question.id) : InService n { x with wakes, stack := rest } := by
  have unrequested := h.requestedItems_later first
  have alternating := h.alternating
  have mirrored := h.mirrored
  have within := h.within
  have waits := h.waits
  have line := h.line
  rw [top] at alternating mirrored within waits line
  rw [first] at mirrored within
  have left : (answerIds wakes ++ (askedIds x.events ++ x.coordinator.pendingIds)).Subperm
      (waitingIds rest) := by
    rw [answerIds_answer, own] at within
    exact (List.subperm_cons question.id).mp within
  exact { h with
    alternating := alternating.2
    single := requestedItems_tail unrequested
    met := fun requested => absurd unrequested requested
    mirrored := mirrored
    within := left
    waits := List.sublist_of_cons_sublist waits
    line := fun few => by
      -- The question that has its answer is neither under way nor kept.
      have distinct : (question.id :: waitingIds rest).Nodup := waits.nodup (nodup_numbers few)
      rcases List.sublist_cons_iff.mp (line few) with line | ⟨others, same, -⟩
      · exact line
      · have known : question.id ∈ askedIds x.events ++ x.coordinator.pendingIds := by
          rw [List.mem_append, ← List.mem_reverse, ← List.mem_append, same]
          exact List.mem_cons_self
        exact absurd (left.subset (List.mem_append_right _ known)) (List.nodup_cons.mp distinct).1 }

theorem drop (h : InService n x) {answer : Item} {wakes : List Wake}
    (first : x.wakes = .answer answer :: wakes) : InService n { x with wakes } := by
  have unrequested := h.requestedItems_later first
  have mirrored := h.mirrored
  have within := h.within
  rw [first] at mirrored within
  exact { h with
    single := requestedItems_tail unrequested
    met := fun requested => absurd unrequested requested
    mirrored := mirrored
    within := (List.sublist_cons_self _ _).subperm.trans within }

theorem serve (h : InService n x) {request : Item} {wakes : List Wake}
    (first : x.wakes = .execute request :: wakes) :
    InService n { x with wakes, stack := .serving request :: x.stack } := by
  have unrequested := h.requestedItems_later first
  obtain ⟨waiting, unreplied⟩ := h.met (by rw [first]; exact List.cons_ne_nil _ _)
  have mirrored := h.mirrored
  have within := h.within
  rw [first] at mirrored within
  rw [requestedItems_execute, unrequested, unreplied] at mirrored
  exact { h with
    alternating := ⟨waiting, h.alternating⟩
    single := requestedItems_tail unrequested
    met := fun requested => absurd unrequested requested
    mirrored := by
      rw [unrequested, unreplied]
      exact mirrored
    within := within }

/-! ### The coordinator receives and hands out -/

/-- Answers of the coordinator move questions that it keeps, or that arrive, under way back to the
engine. -/
theorem answered (h : InService n x) (asked : List (Option RequestId)) (answers : List Item)
    {events : List Event} {c : Coordinator} {wakes : List Wake}
    (running : c.running = true) (labelled : c.StashLabelled) (accounted : c.Accounted)
    (single : requestedItems wakes.tail = [])
    (met : requestedItems wakes ≠ [] → Track.isWaiting x.stack = true ∧ repliedItems events = [])
    (mirrored : c.executing =
      (repliedItems events ++ (requestedItems wakes ++ servedItems x.stack)).map (·.slot))
    (arrives : askedIds x.events = asked ++ askedIds events) (atMostOne : asked.reverse = asked)
    (ids : answerIds wakes = answerIds x.wakes ++ answers.map (·.id))
    (kept : asked ++ x.coordinator.pendingIds = answers.map (·.id) ++ c.pendingIds) :
    InService n { x with coordinator := { c with sent := [] }, events, wakes } where
  running := running
  settled := rfl
  labelled := labelled
  accounted := { accounted with }
  alternating := h.alternating
  single := single
  met := met
  mirrored := mirrored
  within := by
    have within := h.within
    rw [arrives] at within
    rw [ids]
    exact (perm_of_answered kept).subperm_right.mpr within
  next := h.next
  waits := h.waits
  line few := by
    have line := h.line few
    rw [arrives, List.reverse_append, List.append_assoc, atMostOne, kept] at line
    exact ((List.sublist_append_right _ _).append_left _).trans line

/-- A reply that arrives is for the innermost execution. -/
theorem head_of_executed (h : InService n x) {reply : Item} {later : List Event}
    (first : x.events = .executed reply :: later) :
    x.coordinator.executing.head? = some reply.slot := by
  rw [h.mirrored, first]
  rfl

theorem receive (h : InService n x) {e : Event} {later : List Event}
    (first : x.events = e :: later) (stays : e ≠ .shutdown) :
    InService n { x with coordinator := x.coordinator.handle e, events := later }.collect := by
  have handled : x.coordinator.handle e = x.coordinator.serve e := if_pos h.running
  have served := Coordinator.answers_serve h.labelled stays
  rw [← handled] at served
  have accounted : (x.coordinator.handle e).Accounted := by
    refine handled ▸ h.accounted.serve stays (handled ▸ served.executing) ?_
    rintro item rfl
    exact h.head_of_executed first
  obtain ⟨answers, wakes, kept⟩ := served.answered
  rw [sent_opened, h.settled] at wakes
  rw [pendingIds_opened] at kept
  have mirrored := h.mirrored
  have met := h.met
  rw [first] at mirrored met
  have next : InService n { x with
      coordinator := { x.coordinator.handle e with sent := [] }
      events := later
      wakes := x.wakes ++ answers.map .answer } := by
    refine h.answered (askedIds [e]) answers
      (served.running.trans ((running_opened _ e).trans h.running)) served.labelled accounted
      (requestedItems_tail_append h.single answers) ?_ ?_ ?_ (reverse_askedIds e) ?_ kept
    · -- A request still meets a waiting engine, with one event less on the way.
      rw [requestedItems_append, requestedItems_answers, List.append_nil]
      intro requested
      have met := met requested
      rw [repliedItems_cons] at met
      exact ⟨met.1, (List.append_eq_nil_iff.mp met.2).2⟩
    · rw [requestedItems_append, requestedItems_answers, List.append_nil, served.executing]
      exact executing_opened_of_mirrored mirrored
    · rw [first]
      exact askedIds_cons e later
    · rw [answerIds_append, answerIds_answers]
  refine next.of_eq rfl rfl ?_ rfl rfl
  exact congrArg (x.wakes ++ ·) wakes

/-- If the coordinator finds the engine waiting, the engine waits and nothing is under way. -/
theorem idle (h : InService n x) (waits : x.coordinator.engineWaits = true) :
    Track.isWaiting x.stack = true ∧ x.wakes = [] ∧ askedIds x.events = [] ∧
      repliedItems x.events = [] ∧ x.coordinator.pendingIds.Perm (waitingIds x.stack) := by
  -- The waits are one for each execution and the one in which the engine waits now. More questions
  -- are kept than executions are known, so this one is needed, and nothing else has room.
  rw [Coordinator.engineWaits, decide_eq_true_iff] at waits
  have within := h.within.length_le
  have executing := congrArg List.length h.mirrored
  have kept : x.coordinator.pendingIds.length = x.coordinator.pending.length := List.length_map _
  have top : (Track.isWaiting x.stack).toNat ≤ 1 := Bool.toNat_le _
  simp only [length_waitingIds h.alternating, ← length_servedItems, List.length_append,
    List.length_map] at within executing
  have waiting : Track.isWaiting x.stack = true := by
    cases waiting : Track.isWaiting x.stack with
    | true => rfl
    | false =>
      -- There would be as many waits as executions, and more questions than waits.
      rw [waiting, Bool.toNat_false] at within
      omega
  have unasked : askedIds x.events = [] := List.length_eq_zero_iff.mp (by omega)
  have unanswered : answerIds x.wakes = [] := List.length_eq_zero_iff.mp (by omega)
  have unrequested : requestedItems x.wakes = [] := List.length_eq_zero_iff.mp (by omega)
  have unreplied : repliedItems x.events = [] := List.length_eq_zero_iff.mp (by omega)
  refine ⟨waiting, eq_nil_of_items unrequested unanswered, unasked, unreplied, ?_⟩
  have same := h.within
  rw [unanswered, unasked, List.nil_append, List.nil_append] at same
  refine same.perm_of_length_le ?_
  rw [length_waitingIds h.alternating, waiting, Bool.toNat_true, ← length_servedItems]
  omega

theorem pump (h : InService n x) : InService n x.pump := by
  have labelled := (Coordinator.forward_keeps h.labelled).2.2
  have pumped := Coordinator.answers_pump labelled x.abandoned.contains
  obtain ⟨answers, wakes, kept⟩ := pumped.answered
  have accounted := h.accounted.pump pumped.executing
  have running : (x.coordinator.pump x.abandoned.contains).running = true :=
    pumped.running.trans ((Coordinator.forward_keeps h.labelled).1.trans h.running)
  have ids : x.coordinator.forward.pendingIds = x.coordinator.pendingIds :=
    congrArg (List.map _) (Coordinator.forward_keeps h.labelled).2.1
  rw [ids] at kept
  rcases Coordinator.forward_hands x.coordinator with same | ⟨s, item, inbound, hands⟩
  · rw [same, h.settled] at wakes
    have next : InService n { x with
        coordinator := { x.coordinator.pump x.abandoned.contains with sent := [] }
        events := x.events
        wakes := x.wakes ++ answers.map .answer } := by
      refine h.answered [] answers running pumped.labelled accounted
        (requestedItems_tail_append h.single answers) ?_ ?_ (List.nil_append _).symm rfl ?_ kept
      · rw [requestedItems_append, requestedItems_answers, List.append_nil]
        exact h.met
      · rw [requestedItems_append, requestedItems_answers, List.append_nil, pumped.executing, same]
        exact h.mirrored
      · rw [answerIds_append, answerIds_answers]
    exact next.of_eq rfl rfl (congrArg (x.wakes ++ ·) wakes) rfl rfl
  · -- The request is the only one under way, and answers come behind it.
    obtain ⟨waiting, idle, -, unreplied, -⟩ := h.idle hands.waits
    obtain rfl : item.slot = s :=
      h.accounted.placed s item (by rw [hands.first]; exact List.mem_cons_self)
    obtain ⟨-, -, -, executing, sent⟩ := Coordinator.EngineSide.mk.injEq .. ▸ hands.engineSide
    have mirrored := h.mirrored
    rw [idle, unreplied] at mirrored
    rw [sent, h.settled] at wakes
    have next : InService n { x with
        coordinator := { x.coordinator.pump x.abandoned.contains with sent := [] }
        events := x.events
        wakes := x.wakes ++ .execute item :: answers.map .answer } := by
      refine h.answered [] answers running pumped.labelled accounted
        ?_ (fun _ => ⟨waiting, unreplied⟩) ?_ (List.nil_append _).symm rfl ?_ kept
      · rw [idle]
        exact requestedItems_answers answers
      · rw [pumped.executing, executing, mirrored, idle, unreplied]
        simp only [List.nil_append, requestedItems_execute, requestedItems_answers]
        rfl
      · rw [answerIds_append, answerIds_execute, answerIds_answers]
    exact next.of_eq rfl rfl (congrArg (x.wakes ++ ·) wakes) rfl rfl

end InService

/-! ### Runs -/

/-- The executor answers a request on the slot of the request. -/
def KeepsSlot (x : Exchange κ) : Move κ → Prop
  | .finish reply => ∀ request rest, x.stack = .serving request :: rest →
      reply.slot = request.slot
  | _ => True

/-- The coordinator has stopped. At most one request is still under way. -/
structure Ended (x : Exchange κ) : Prop where
  stopped : x.isRunning = false
  settled : x.coordinator.sent = []
  single : requestedItems x.wakes.tail = []

/-- What a run can come to in which the engine asks `n` questions. The coordinator takes its turns,
or receives events one by one and hands out in between. -/
inductive Reaches : Nat → Exchange κ → Prop
  | start (capacity : Nat) : Reaches 0 (ofCapacity capacity)
  | move {n : Nat} {x y : Exchange κ} {move : Move κ} (reached : Reaches n x)
      (slot : x.KeepsSlot move) (serves : move = .pump → x.isRunning = true)
      (moved : x.move? move = some y) : Reaches (n + move.questions) y
  /-- A question to a stopped session is answered at once. -/
  | askStopped {n : Nat} {x : Exchange κ} (reached : Reaches n x) (item : Item) :
      Reaches (n + 1) (x.askStopped item).2
  | coordinate {n : Nat} {x : Exchange κ} (reached : Reaches n x) (group : Nat) :
      Reaches n (x.coordinate group)
  | shutdown {n : Nat} {x : Exchange κ} (reached : Reaches n x) : Reaches n x.shutdown

/-- The coordinator has stopped, and of some wakes only the last are left. -/
structure Drains (wakes : List Wake) (x : Exchange κ) : Prop where
  stopped : x.isRunning = false
  settled : x.coordinator.sent = []
  left : x.wakes <:+ wakes

namespace Drains

variable {wakes : List Wake}

/-- A coordinator that has stopped and has sent nothing more to the engine. -/
theorem collect (stopped : x.isRunning = false)
    (silent : Coordinator.wakesOf x.coordinator.sent = []) (left : x.wakes <:+ wakes) :
    x.collect.Drains wakes := by
  refine ⟨stopped, rfl, ?_⟩
  change x.wakes ++ Coordinator.wakesOf x.coordinator.sent <:+ wakes
  rwa [silent, List.append_nil]

/-- The coordinator stops when it is told to. -/
theorem of_shutdown (running : x.isRunning = true) (settled : x.coordinator.sent = [])
    (later : List Event) :
    ({ x with coordinator := x.coordinator.handle .shutdown, events := later } :
      Exchange κ).collect.Drains x.wakes := by
  have handled : x.coordinator.handle .shutdown = x.coordinator.stop := if_pos running
  obtain ⟨stopped, -, -, -, sent⟩ :=
    Coordinator.EngineSide.mk.injEq .. ▸ Coordinator.engineSide_stop x.coordinator
  refine .collect ?_ ?_ List.suffix_rfl
  · rw [isRunning, handled]
    exact stopped
  · rw [handled, sent]
    exact congrArg Coordinator.wakesOf settled

/-- At most one request is under way if there was no other behind the first wake. -/
theorem ended (h : x.Drains wakes) (single : requestedItems wakes.tail = []) : x.Ended := by
  refine ⟨h.stopped, h.settled, ?_⟩
  obtain ⟨taken, rfl⟩ := h.left
  cases taken with
  | nil => exact single
  | cons wake taken =>
    rw [List.cons_append, List.tail_cons, requestedItems_append, List.append_eq_nil_iff] at single
    exact requestedItems_tail single.2

theorem not_running (h : x.Drains wakes) : ¬x.coordinator.running = true :=
  Bool.eq_false_iff.mp h.stopped

theorem of_eq (h : x.Drains wakes) (coordinator : y.coordinator = x.coordinator)
    (same : y.wakes = x.wakes) : y.Drains wakes := by
  obtain ⟨stopped, settled, left⟩ := h
  refine ⟨?_, ?_, ?_⟩
  · rwa [isRunning, coordinator]
  · rwa [coordinator]
  · rwa [same]

/-- Whatever a stopped coordinator refuses, it sends nothing to the engine. -/
theorem refuse (h : x.Drains wakes) {c : Coordinator}
    (same : c.engineSide = x.coordinator.engineSide) (coordinator : y.coordinator = c)
    (kept : y.wakes = x.wakes) : y.collect.Drains wakes := by
  obtain ⟨running, -, -, -, sent⟩ := Coordinator.EngineSide.mk.injEq .. ▸ same
  refine .collect ?_ ?_ ?_
  · rw [isRunning, coordinator, running]
    exact h.stopped
  · rw [coordinator, sent, h.settled]
    rfl
  · rw [kept]
    exact h.left

theorem post (h : x.Drains wakes) (e : Event) : (x.post e).Drains wakes := by
  have refused : x.post e = { x with coordinator := x.coordinator.refuse e }.collect :=
    if_neg h.not_running
  rw [refused]
  exact h.refuse (Coordinator.engineSide_refuse _ e) rfl rfl

theorem setState (h : x.Drains wakes) (state : EngineState) : (x.setState state).Drains wakes := by
  obtain ⟨now, eq⟩ := exists_setState x state
  rw [eq]
  exact h.of_eq rfl rfl

theorem wakeUp (h : x.Drains wakes) {woken : Woken κ} (woke : x.wakeUp = some (woken, y)) :
    y.Drains wakes := by
  -- At most the first wake is gone.
  have taken {z : Exchange κ} {wake : Wake} {later : List Wake} (first : x.wakes = wake :: later)
      (coordinator : z.coordinator = x.coordinator) (rest : z.wakes = later) : z.Drains wakes := by
    have left := h.left
    rw [first] at left
    have drained : ({ x with wakes := later } : Exchange κ).Drains wakes :=
      ⟨h.stopped, h.settled, (List.suffix_cons wake later).trans left⟩
    exact drained.of_eq coordinator rest
  cases takesNext_of_wakeUp woke with
  | resume question resume rest answer wakes top first own =>
    refine setState ?_ _
    exact taken first rfl rfl
  | drop question resume rest answer wakes top first other => exact taken first rfl rfl
  | serve question resume rest request wakes top first =>
    refine setState ?_ _
    exact taken first rfl rfl
  | stop question resume rest top none stopped =>
    refine setState ?_ _
    exact h.of_eq rfl rfl

theorem start (h : x.Drains wakes) : x.start.Drains wakes := by
  obtain ⟨now, eq⟩ := exists_start x
  rw [eq]
  exact h.of_eq rfl rfl

/-- After the end, the engine and clients can still move. -/
theorem moves (h : x.Drains wakes) (serves : move = .pump → x.isRunning = true)
    (moved : x.move? move = some y) : y.Drains wakes := by
  have unlessWaiting {z : Exchange κ} (drained : z.Drains wakes)
      (moved : (if x.isWaiting then none else some z) = some y) : y.Drains wakes := by
    split at moved
    · cases moved
    · obtain rfl := Option.some.inj moved
      exact drained
  cases move with
  | ask item resume =>
    have numbered : ({ x.start with nextRequest := x.nextRequest + 1 } : Exchange κ).Drains wakes :=
      h.start.of_eq rfl rfl
    have asked := (numbered.post (.submit { item with id := some x.nextRequest } true)).setState
      .waiting
    exact unlessWaiting (z := x.ask item resume) (asked.of_eq rfl rfl) moved
  | tell item => exact unlessWaiting (h.start.post _) moved
  | busy busy => exact unlessWaiting (h.post _) moved
  | wake =>
    obtain ⟨⟨woken, z⟩, woke, rfl⟩ := Option.map_eq_some_iff.mp moved
    exact h.wakeUp woke
  | finish reply =>
    obtain rfl := Option.some.inj moved
    rw [Exchange.finish]
    split
    · refine (setState ?_ _).post _
      exact h.of_eq rfl rfl
    · exact h
  | abandon call =>
    obtain rfl := Option.some.inj moved
    exact h.of_eq rfl rfl
  | receive =>
    rw [move?, receive?] at moved
    split at moved
    · cases moved
    · next e later first =>
      obtain rfl := Option.some.inj moved
      have refused : x.coordinator.handle e = x.coordinator.refuse e :=
        if_neg h.not_running
      exact h.refuse (Coordinator.engineSide_refuse _ e) refused rfl
  | pump =>
    have running := serves rfl
    rw [h.stopped] at running
    cases running
  | _ =>
    obtain rfl := Option.some.inj moved
    exact h.post _

theorem askStopped (h : x.Drains wakes) (item : Item) : (x.askStopped item).2.Drains wakes := by
  obtain ⟨now, started⟩ := exists_start x
  rw [Exchange.askStopped, number, started]
  exact h.of_eq rfl rfl

theorem shutdown (h : x.Drains wakes) : x.shutdown.Drains wakes := by
  have stopped : ({ x with state := .stopped } : Exchange κ).Drains wakes := h.of_eq rfl rfl
  exact stopped.post _

/-- A turn of a coordinator that has stopped. -/
theorem coordinate_zero (h : x.Drains wakes) : (x.coordinate 0).Drains wakes := by
  have turned : x.coordinator.turn x.abandoned.contains (x.events.take 0) = x.coordinator :=
    if_neg h.not_running
  rw [coordinate_eq turned, if_neg h.not_running]
  have same := Coordinator.engineSide_foldl Coordinator.engineSide_refuse
  exact h.refuse (same _ _) rfl rfl

end Drains

namespace Ended

theorem drains (h : x.Ended) : x.Drains x.wakes := ⟨h.stopped, h.settled, List.suffix_rfl⟩

theorem moves (h : x.Ended) (serves : move = .pump → x.isRunning = true)
    (moved : x.move? move = some y) : y.Ended := (h.drains.moves serves moved).ended h.single

theorem askStopped (h : x.Ended) (item : Item) : (x.askStopped item).2.Ended :=
  (h.drains.askStopped item).ended h.single

theorem shutdown (h : x.Ended) : x.shutdown.Ended := h.drains.shutdown.ended h.single

end Ended

namespace InService

/-- One move keeps engine and coordinator fitting together, unless it stops the coordinator. -/
theorem moved (h : InService n x) (slot : x.KeepsSlot move) (moved : x.Moved move y) :
    InService (n + move.questions) y ∨ y.Ended := by
  cases moved with
  | ask item resume now free =>
    exact .inl ((h.ask free rfl resume).of_eq rfl rfl rfl rfl rfl)
  | say move e now posts =>
    have quiet : askedIds [e] = [] ∧ repliedItems [e] = [] ∧ move.questions = 0 := by
      cases move <;> cases posts <;> exact ⟨rfl, rfl, rfl⟩
    rw [quiet.2.2]
    exact .inl ((h.say quiet.1 quiet.2.1).of_eq rfl rfl rfl rfl rfl)
  | abandon call => exact .inl (h.of_eq rfl rfl rfl rfl rfl)
  | idle reply => exact .inl h
  | finish request rest reply now top =>
    exact .inl ((h.finish top (slot request rest top)).of_eq rfl rfl rfl rfl rfl)
  | resume question resume rest answer wakes now top first own =>
    exact .inl ((h.resume top first own).of_eq rfl rfl rfl rfl rfl)
  | drop question resume rest answer wakes top first => exact .inl (h.drop first)
  | serve question resume rest request wakes now top first =>
    exact .inl ((h.serve first).of_eq rfl rfl rfl rfl rfl)
  | receive e later first =>
    by_cases stops : e = .shutdown
    · rw [stops]
      exact .inr ((Drains.of_shutdown h.running h.settled later).ended h.single)
    · exact .inl (h.receive first stops)
  | pump => exact .inl h.pump

/-- A number is used up, but nothing is sent and nothing waits. -/
theorem askStopped (h : InService n x) (item : Item) :
    InService (n + 1) (x.askStopped item).2 := by
  obtain ⟨now, started⟩ := exists_start x
  rw [Exchange.askStopped, number, started]
  exact { h with
    next := by
      rw [UInt32.ofNat_add, ← h.next]
      rfl
    waits := h.waits.cons _
    line := fun few => h.line (Nat.lt_of_succ_lt few) }

theorem shutdown (h : InService n x) : InService n x.shutdown := by
  rw [Exchange.shutdown, post_of_running (x := { x with state := .stopped }) h.running]
  exact (h.say rfl rfl).of_eq rfl rfl rfl rfl rfl

end InService

/-- One move of any run. -/
theorem inService_or_ended_of_move (move : Move κ) (h : InService n x ∨ x.Ended)
    (slot : x.KeepsSlot move) (serves : move = .pump → x.isRunning = true)
    (moved : x.move? move = some y) :
    InService (n + move.questions) y ∨ y.Ended := by
  rcases h with serving | ended
  · exact serving.moved slot (moved_of_move serving.running moved)
  · exact .inr (ended.moves serves moved)

/-- A turn of the coordinator. -/
theorem inService_or_ended_coordinate (h : InService n x ∨ x.Ended) (group : Nat) :
    InService n (x.coordinate group) ∨ (x.coordinate group).Ended := by
  induction group generalizing x with
  | zero =>
    rcases h with serving | ended
    · have turned : x.coordinator.turn x.abandoned.contains (x.events.take 0) =
          x.coordinator.pump x.abandoned.contains := if_pos serving.running
      have pumped := serving.pump
      have same : x.coordinate 0 = x.pump := by
        rw [coordinate_eq turned]
        exact if_pos pumped.running
      rw [same]
      exact .inl pumped
    · exact .inr (ended.drains.coordinate_zero.ended ended.single)
  | succ group ih =>
    -- A turn over one more event is a move that receives it, and then the turn over the others.
    cases events : x.events with
    | nil =>
      have same : x.coordinate (group + 1) = x.coordinate group := by
        rw [coordinate, coordinate, events, List.take_nil, List.take_nil, List.drop_nil,
          List.drop_nil]
      rw [same]
      exact ih h
    | cons e later =>
      have received : x.receive? =
          some { x with coordinator := x.coordinator.handle e, events := later }.collect := by
        rw [receive?, events]
      rw [coordinate_succ received]
      exact ih (inService_or_ended_of_move .receive h trivial (by rintro ⟨⟩) received)

/-- In every run, engine and coordinator fit together until the coordinator stops. -/
theorem inService_or_ended (reached : Reaches n x) : InService n x ∨ x.Ended := by
  induction reached with
  | start capacity => exact .inl (inService_ofCapacity capacity)
  | move _ slot serves moved ih => exact inService_or_ended_of_move _ ih slot serves moved
  | askStopped _ item ih => exact ih.imp (·.askStopped item) (·.askStopped item)
  | coordinate _ group ih => exact inService_or_ended_coordinate ih group
  | shutdown _ ih => exact ih.imp InService.shutdown Ended.shutdown

/-- A request is handed out only to a waiting engine that has nothing to take, and the stack of
executions mirrors the engine. In every run in which the executor keeps the slots of requests, at
most one request is under way to the engine; and as long as the coordinator runs, if it finds the
engine waiting then the engine waits in its innermost question, nothing is under way to the engine,
and the questions that the coordinator keeps are those in which the engine waits, in their order
unless numbers of questions have been used twice. Each reply is for the innermost execution. -/
theorem idle_of_engineWaits (reached : Reaches n x) :
    (requestedItems x.wakes).length ≤ 1 ∧
    (x.isRunning = true →
      x.coordinator.executing =
        (repliedItems x.events ++ (requestedItems x.wakes ++ servedItems x.stack)).map (·.slot) ∧
      (∀ reply later, x.events = .executed reply :: later →
        x.coordinator.executing.head? = some reply.slot) ∧
      (x.coordinator.engineWaits = true →
        (∃ question resume rest, x.stack = .waiting question resume :: rest) ∧ x.wakes = [] ∧
        repliedItems x.events = [] ∧ askedIds x.events = [] ∧
        x.coordinator.pendingIds.Perm (waitingIds x.stack) ∧
        (n < UInt32.size → x.coordinator.pendingIds = waitingIds x.stack))) := by
  have watched := inService_or_ended reached
  refine ⟨?_, fun running => ?_⟩
  · have single : requestedItems x.wakes.tail = [] :=
      watched.elim InService.single Ended.single
    cases wakes : x.wakes with
    | nil => exact Nat.zero_le _
    | cons wake later =>
      rw [wakes, List.tail_cons] at single
      rw [← List.singleton_append, requestedItems_append, single, List.append_nil]
      exact List.length_filterMap_le _ _
  · have serving : InService n x := by
      refine watched.resolve_right fun ended => ?_
      rw [ended.stopped] at running
      cases running
    refine ⟨serving.mirrored, fun reply later first => serving.head_of_executed first,
      fun waits => ?_⟩
    obtain ⟨waiting, idle, unasked, unreplied, same⟩ := serving.idle waits
    refine ⟨?_, idle, unreplied, unasked, same, fun few => ?_⟩
    · cases stack : x.stack with
      | nil =>
        rw [stack] at waiting
        cases waiting
      | cons activity rest =>
        rw [stack] at waiting
        cases activity with
        | waiting question resume => exact ⟨question, resume, rest, rfl⟩
        | serving request => cases waiting
    · have line := serving.line few
      rw [unasked, List.reverse_nil, List.nil_append] at line
      exact line.eq_of_length same.length_eq

/-- Runs of moves are such runs. -/
theorem reaches_of_visited? {moves : List (Move κ)} {visited : List (Exchange κ)}
    (sound : x.Sound) (reached : Reaches n x) (run : x.visited? moves = some visited)
    (slots : ∀ p ∈ visited.zip moves, p.1.KeepsSlot p.2) :
    ∃ y ∈ visited.getLast?, y.Sound ∧ Reaches (n + Move.questionsOf moves) y := by
  induction moves generalizing x n visited with
  | nil =>
    obtain rfl := Option.some.inj run
    exact ⟨x, rfl, sound, reached⟩
  | cons move moves ih =>
    obtain ⟨y, later, moved, onward, rfl⟩ := visited?_cons run
    rw [List.zip_cons_cons, List.forall_mem_cons] at slots
    have next := Reaches.move reached slots.1 (fun _ => sound.running) moved
    obtain ⟨z, last, soundLast, reachedLast⟩ := ih (step_of_move sound moved).1 next onward slots.2
    refine ⟨z, ?_, soundLast, ?_⟩
    · rw [List.getLast?_cons, last]
      rfl
    · rwa [Move.questionsOf, ← Nat.add_assoc]

/-- A client has something evaluated while the engine waits for a line of input. -/
def evaluation : Item := .new SlotId.primary (.data (.evalVoid "f()"))

/-- The engine executes the request, and its reply has arrived. -/
def evaluationRun : List (Move Unit) :=
  [.connect SlotId.primary 0, .ask lineRequest (), .call SlotId.primary ⟨1⟩ [evaluation] 1,
    .receive, .receive, .receive, .pump, .wake, .finish (evaluation.answered .done), .receive]

theorem idle_of_engineWaits_evaluation : ∃ x : Exchange Unit, Reaches 1 x ∧ x.isRunning = true ∧
    x.coordinator.engineWaits = true ∧ x.wakes = [] ∧
      x.coordinator.pendingIds = waitingIds x.stack := by
  obtain ⟨visited, run, slots, last⟩ : ∃ visited,
      (ofCapacity 64).visited? evaluationRun = some visited ∧
      (∀ p ∈ visited.zip evaluationRun, p.1.KeepsSlot p.2) ∧
      ∀ x ∈ visited.getLast?, x.isRunning = true ∧ x.coordinator.engineWaits = true := by
    refine ⟨_, rfl, ?_, ?_⟩
    · simp only [evaluationRun, List.zip_cons_cons, List.forall_mem_cons, KeepsSlot, true_and]
      refine ⟨?_, List.forall_mem_nil _⟩
      rintro request rest ⟨⟩
      rfl
    · rintro x ⟨⟩
      exact ⟨rfl, rfl⟩
  obtain ⟨x, isLast, -, reached⟩ :=
    reaches_of_visited? (sound_ofCapacity 64) (.start 64) run slots
  obtain ⟨running, waits⟩ := last x isLast
  have idle := ((idle_of_engineWaits reached).2 running).2.2 waits
  exact ⟨x, reached, running, waits, idle.2.1, idle.2.2.2.2.2 (by decide)⟩

end Exchange

end EngineLink
