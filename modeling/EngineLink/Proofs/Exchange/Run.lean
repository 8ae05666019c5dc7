import EngineLink.Exchange.Basic
import EngineLink.Proofs.Exchange.EngineSide
import EngineLink.Proofs.Exchange.Sending
import EngineLink.Proofs.Exchange.Track

/-!
# Answers to nested questions

The engine and the coordinator share a queue of wakes in one direction and a queue of events in the
other. While the engine executes a request inside a question, the coordinator may answer that
question already; as long as the engine asks nothing else before it comes back, it finds the answer
when it waits again. If a nested question and such an answer cross, the engine takes the answer for
one to its nested question and drops it.

## Main definitions

* `Move`, `Exchange.move?` — the moves of engine, clients and coordinator, one by one
* `Exchange.visited?` — the states of a run
* `Exchange.Drops` — the engine is about to drop an answer
* `Exchange.crossing` — an answer and a question to which it does not belong are both under way
* `Exchange.track` — what is relevant for the questions of the engine

## Main results

* `Exchange.step_of_move` — every move is a step of what is relevant for questions
* `Exchange.exists_visited_coordinate` — a turn of the coordinator is made of moves
* `Exchange.drops_iff_crossing` — a run drops an answer exactly if an answer crosses a question
* `Exchange.drops_answer_during_call` — this happens
-/

namespace EngineLink

/-- A move of the engine, of a client or of the coordinator. -/
inductive Move (κ : Type) where
  /-- The engine asks a question from the code that it runs. -/
  | ask (item : Item) (resume : κ)
  | tell (item : Item)
  | busy (busy : Bool)
  /-- The waiting engine takes what comes next. -/
  | wake
  /-- The engine comes back from a request. -/
  | finish (reply : Item)
  | connect (slot : SlotId) (call : CallId)
  | disconnect (slot : SlotId) (client : ClientId)
  | call (slot : SlotId) (client : ClientId) (items : List Item) (call : CallId)
  /-- The caller of a call goes away. -/
  | abandon (call : CallId)
  /-- The coordinator receives one event. -/
  | receive
  /-- The coordinator hands out. -/
  | pump

namespace Move

/-- How many questions the engine asks in a move. -/
def questions {κ : Type} : Move κ → Nat
  | ask .. => 1
  | _ => 0

/-- How many questions the engine asks in some moves. -/
def questionsOf {κ : Type} : List (Move κ) → Nat
  | [] => 0
  | move :: moves => move.questions + questionsOf moves

end Move

namespace Exchange

variable {κ : Type} {x y : Exchange κ}

/-! ### Moves -/

/-- Let the coordinator receive one event. -/
def receive? (x : Exchange κ) : Option (Exchange κ) :=
  match x.events with
  | [] => none
  | e :: later => some { x with coordinator := x.coordinator.handle e, events := later }.collect

/-- Let the coordinator hand out. -/
def pump (x : Exchange κ) : Exchange κ :=
  { x with coordinator := x.coordinator.pump x.abandoned.contains }.collect

/-- The state after a move, if the move is possible. A waiting engine only takes what comes next. -/
def move? (x : Exchange κ) : Move κ → Option (Exchange κ)
  | .ask item resume => if x.isWaiting then none else some (x.ask item resume)
  | .tell item => if x.isWaiting then none else some (x.tell item)
  | .busy busy => if x.isWaiting then none else some (x.setBusy busy)
  | .wake => x.wakeUp.map (·.2)
  | .finish reply => some (x.finish reply)
  | .connect slot call => some (x.connect slot call)
  | .disconnect slot client => some (x.disconnect slot client)
  | .call slot client items call => some (x.call slot client items call)
  | .abandon call => some (x.abandon call)
  | .receive => x.receive?
  | .pump => some x.pump

/-- The states of a run, from the first to the last, if all moves are possible. -/
def visited? (x : Exchange κ) : List (Move κ) → Option (List (Exchange κ))
  | [] => some [x]
  | move :: moves => do return x :: (← (← x.move? move).visited? moves)

theorem visited?_cons {move : Move κ} {moves : List (Move κ)} {visited : List (Exchange κ)}
    (run : x.visited? (move :: moves) = some visited) :
    ∃ y later, x.move? move = some y ∧ y.visited? moves = some later ∧ visited = x :: later := by
  simp only [visited?, Option.pure_def, Option.bind_eq_bind, Option.bind_eq_some_iff,
    Option.some.injEq] at run
  obtain ⟨y, moved, later, run, rfl⟩ := run
  exact ⟨y, later, moved, run, rfl⟩

theorem visited?_of_move {move : Move κ} {moves : List (Move κ)} {later : List (Exchange κ)}
    (moved : x.move? move = some y) (onward : y.visited? moves = some later) :
    x.visited? (move :: moves) = some (x :: later) := by
  simp only [visited?, moved, onward, Option.bind_eq_bind, Option.bind_some, Option.pure_def]

/-- What becomes of a waiting engine that takes what comes next. -/
inductive TakesNext (x : Exchange κ) : Woken κ → Exchange κ → Prop
  | resume (question : Item) (resume : κ) (rest : List (Activity κ)) (answer : Item)
      (wakes : List Wake) (top : x.stack = .waiting question resume :: rest)
      (first : x.wakes = .answer answer :: wakes) (own : answer.id = question.id) :
      TakesNext x (.resume answer resume) ({ x with wakes, stack := rest }.setState .running)
  | drop (question : Item) (resume : κ) (rest : List (Activity κ)) (answer : Item)
      (wakes : List Wake) (top : x.stack = .waiting question resume :: rest)
      (first : x.wakes = .answer answer :: wakes) (other : answer.id ≠ question.id) :
      TakesNext x .dropped { x with wakes }
  | serve (question : Item) (resume : κ) (rest : List (Activity κ)) (request : Item)
      (wakes : List Wake) (top : x.stack = .waiting question resume :: rest)
      (first : x.wakes = .execute request :: wakes) :
      TakesNext x (.execute request resume)
        ({ x with wakes, stack := .serving request :: x.stack }.setState .running)
  | stop (question : Item) (resume : κ) (rest : List (Activity κ))
      (top : x.stack = .waiting question resume :: rest) (none : x.wakes = [])
      (stopped : x.isRunning = false) :
      TakesNext x (.resume (question.answered (.status .stopped)) resume)
        ({ x with stack := rest }.setState .running)

theorem takesNext_of_wakeUp {woken : Woken κ} (woke : x.wakeUp = some (woken, y)) :
    x.TakesNext woken y := by
  rw [wakeUp] at woke
  split at woke
  · next question resume rest top =>
    split at woke
    · next answer wakes first =>
      split at woke
      · next own =>
        obtain ⟨rfl, rfl⟩ := Prod.mk.inj (Option.some.inj woke)
        exact .resume question resume rest answer wakes top first (eq_of_beq own)
      · next other =>
        obtain ⟨rfl, rfl⟩ := Prod.mk.inj (Option.some.inj woke)
        exact .drop question resume rest answer wakes top first fun own => other (beq_iff_eq.mpr own)
    · next request wakes first =>
      obtain ⟨rfl, rfl⟩ := Prod.mk.inj (Option.some.inj woke)
      exact .serve question resume rest request wakes top first
    · next none =>
      split at woke
      · cases woke
      · next stopped =>
        obtain ⟨rfl, rfl⟩ := Prod.mk.inj (Option.some.inj woke)
        exact .stop question resume rest top none (Bool.eq_false_iff.mpr stopped)
  · cases woke

/-- The engine is about to take an answer that it drops. -/
def Drops (x : Exchange κ) : Prop := ∃ y, x.wakeUp = some (.dropped, y)

/-- Whether an answer is on its way to the engine while a question to which it does not belong is
on its way to the coordinator. -/
def crossing (x : Exchange κ) : Bool := Track.crossing x.events x.wakes

/-! ### What is relevant for questions -/

/-- What is relevant for the questions of the engine. -/
def track (x : Exchange κ) : Track κ where
  stack := x.stack
  wakes := x.wakes
  events := x.events
  pending := x.coordinator.pendingIds
  executing := x.coordinator.executing.length
  next := x.nextRequest

/-- The coordinator serves events, what it has sent is under way, and it holds back answers under
their own numbers. -/
structure Sound (x : Exchange κ) : Prop where
  running : x.coordinator.running = true
  settled : x.coordinator.sent = []
  labelled : x.coordinator.StashLabelled
  lasting : ∀ e ∈ x.events, e ≠ .shutdown

theorem sound_ofCapacity (capacity : Nat) : (ofCapacity capacity : Exchange κ).Sound :=
  ⟨rfl, rfl, fun _ h => absurd h List.not_mem_nil, fun _ h => absurd h List.not_mem_nil⟩

/-- Only the coordinator and the events under way matter. -/
theorem Sound.of_eq (sound : x.Sound) (coordinator : y.coordinator = x.coordinator)
    (events : y.events = x.events) : y.Sound := by
  obtain ⟨running, settled, labelled, lasting⟩ := sound
  refine ⟨?_, ?_, ?_, ?_⟩
  · rwa [coordinator]
  · rwa [coordinator]
  · rwa [coordinator]
  · rwa [events]

theorem post_eq (sound : x.Sound) (e : Event) :
    x.post e = { x with events := x.events ++ [e] } := if_pos sound.running

theorem exists_setState (x : Exchange κ) (state : EngineState) :
    ∃ now, x.setState state = { x with state := now } := by
  rw [setState]
  split
  · exact ⟨x.state, rfl⟩
  · exact ⟨state, rfl⟩

theorem exists_start (x : Exchange κ) : ∃ now, x.start = { x with state := now } := by
  rw [start]
  split
  · exact ⟨.running, rfl⟩
  · exact ⟨x.state, rfl⟩

theorem track_collect (x : Exchange κ) : x.collect.track =
    { x.track with wakes := x.wakes ++ Coordinator.wakesOf x.coordinator.sent } := rfl

/-- What matters about the state after a move. -/
def Follows (x : Exchange κ) (questions : Nat) (y : Exchange κ) : Prop :=
  y.Sound ∧ x.track.Step questions y.track

/-- What the engine notes about itself is not relevant. -/
theorem Follows.of_setState {questions : Nat} {state : EngineState}
    (h : x.Follows questions y) : x.Follows questions (y.setState state) := by
  obtain ⟨now, eq⟩ := exists_setState y state
  rw [eq]
  exact ⟨h.1.of_eq rfl rfl, h.2⟩

/-- A posted event joins those under way. -/
theorem Sound.posted (sound : x.Sound) {e : Event} (lasts : e ≠ .shutdown) :
    ({ x with events := x.events ++ [e] } : Exchange κ).Sound := by
  refine ⟨sound.running, sound.settled, sound.labelled, ?_⟩
  rw [List.forall_mem_append, List.forall_mem_singleton]
  exact ⟨sound.lasting, lasts⟩

theorem follows_post (sound : x.Sound) {e : Event} (lasts : e ≠ .shutdown)
    (silent : Track.askedIds [e] = []) (noReply : Track.replied [e] = 0) :
    x.Follows 0 (x.post e) := by
  rw [post_eq sound]
  exact ⟨sound.posted lasts, .post e silent noReply⟩

/-! ### The engine moves -/

theorem follows_ask (sound : x.Sound) (free : x.isWaiting = false) (item : Item) (resume : κ) :
    x.Follows 1 (x.ask item resume) := by
  obtain ⟨now, started⟩ := exists_start x
  have numbered : x.number item = ({ item with id := some x.nextRequest },
      { x with state := now, nextRequest := x.nextRequest + 1 }) := by rw [number, started]
  have soundNow : ({ x with state := now, nextRequest := x.nextRequest + 1 } : Exchange κ).Sound :=
    sound.of_eq rfl rfl
  rw [ask, numbered]
  dsimp only
  rw [post_eq soundNow]
  obtain ⟨later, eq⟩ := exists_setState { x with
    state := now
    nextRequest := x.nextRequest + 1
    events := x.events ++ [.submit { item with id := some x.nextRequest } true] } .waiting
  rw [eq]
  have posted := sound.posted (e := .submit { item with id := some x.nextRequest } true) nofun
  exact ⟨posted.of_eq rfl rfl, .ask { item with id := some x.nextRequest } resume free rfl⟩

theorem follows_tell (sound : x.Sound) (item : Item) : x.Follows 0 (x.tell item) := by
  obtain ⟨now, started⟩ := exists_start x
  rw [tell, started]
  have soundNow : ({ x with state := now } : Exchange κ).Sound := sound.of_eq rfl rfl
  exact follows_post soundNow nofun rfl rfl

theorem follows_finish (sound : x.Sound) (reply : Item) : x.Follows 0 (x.finish reply) := by
  rw [finish]
  split
  · next request rest stack =>
    obtain ⟨now, eq⟩ := exists_setState { x with stack := rest } .waiting
    rw [eq]
    have soundNow : ({ x with stack := rest, state := now } : Exchange κ).Sound :=
      sound.of_eq rfl rfl
    rw [post_eq soundNow]
    exact ⟨soundNow.posted nofun, .finish request rest reply stack⟩
  · exact ⟨sound, .idle⟩

theorem follows_wakeUp (sound : x.Sound) {woken : Woken κ} (h : x.wakeUp = some (woken, y)) :
    x.Follows 0 y := by
  cases takesNext_of_wakeUp h with
  | resume question resume rest answer wakes stack first own =>
    refine Follows.of_setState ⟨?_, .resume question resume rest answer wakes stack first own⟩
    exact sound.of_eq rfl rfl
  | drop question resume rest answer wakes stack first other =>
    refine ⟨?_, .drop question resume rest answer wakes stack first other⟩
    exact sound.of_eq rfl rfl
  | serve question resume rest request wakes stack first =>
    refine Follows.of_setState ⟨?_, .serve request wakes ?_ first⟩
    · exact sound.of_eq rfl rfl
    · change Track.isWaiting x.stack = true
      rw [stack]
      rfl
  | stop question resume rest stack none stopped =>
    -- While there is a coordinator, the engine waits on.
    exact absurd sound.running (Bool.eq_false_iff.mp stopped)

/-! ### The coordinator moves -/

theorem pendingIds_opened (c : Coordinator) (e : Event) :
    (c.opened e).pendingIds = Track.askedIds [e] ++ c.pendingIds := by
  cases e with
  | submit item wait => cases wait <;> rfl
  | _ => rfl

theorem length_executing_opened (c : Coordinator) (e : Event) :
    (c.opened e).executing.length = c.executing.length - Track.replied [e] := by
  cases e with
  | submit item wait => cases wait <;> rfl
  | executed item => exact List.length_tail
  | _ => rfl

theorem sent_opened (c : Coordinator) (e : Event) : (c.opened e).sent = c.sent := by
  cases e with
  | submit item wait => cases wait <;> rfl
  | _ => rfl

theorem running_opened (c : Coordinator) (e : Event) : (c.opened e).running = c.running := by
  cases e with
  | submit item wait => cases wait <;> rfl
  | _ => rfl

theorem follows_receive (sound : x.Sound) (h : x.receive? = some y) : x.Follows 0 y := by
  rw [receive?] at h
  split at h
  · cases h
  · next e later first =>
    obtain rfl := Option.some.inj h
    rw [Coordinator.handle, if_pos sound.running]
    have lasting := sound.lasting
    rw [first, List.forall_mem_cons] at lasting
    -- The event is no shutdown, so it only opens, ends or answers something.
    have served := Coordinator.answers_serve sound.labelled lasting.1
    obtain ⟨answers, wakes, pending⟩ := served.answered
    rw [sent_opened, sound.settled] at wakes
    rw [pendingIds_opened] at pending
    refine ⟨⟨?_, rfl, served.labelled, lasting.2⟩, ?_⟩
    · exact served.running.trans ((running_opened _ e).trans sound.running)
    · rw [track_collect, wakes]
      dsimp only [track]
      rw [served.executing, length_executing_opened]
      exact .receive e later answers _ first pending

theorem follows_pump (sound : x.Sound) : x.Follows 0 x.pump := by
  obtain ⟨running, kept, labelled⟩ := Coordinator.forward_keeps sound.labelled
  have pumped := Coordinator.answers_pump labelled x.abandoned.contains
  obtain ⟨answers, wakes, pending⟩ := pumped.answered
  rw [Coordinator.pendingIds, kept] at pending
  refine ⟨⟨?_, rfl, pumped.labelled, sound.lasting⟩, ?_⟩
  · exact pumped.running.trans (running.trans sound.running)
  · rw [pump, track_collect, wakes]
    dsimp only [track]
    rw [pumped.executing]
    rcases x.coordinator.forward_cases with same | ⟨waits, s, item, forwarded⟩
    · rw [same, sound.settled]
      exact .answer answers _ pending
    · obtain ⟨-, -, -, executing, sent⟩ := Coordinator.EngineSide.mk.injEq .. ▸ forwarded
      rw [executing, sent, sound.settled]
      -- A request is only handed out while there are more questions than executions.
      refine .hand item answers _ ?_ pending
      rw [Coordinator.engineWaits, decide_eq_true_iff] at waits
      rw [Coordinator.pendingIds, List.length_map]
      exact waits

/-- Every move is a step of what is relevant for questions. -/
theorem step_of_move {move : Move κ} (sound : x.Sound) (h : x.move? move = some y) :
    x.Follows move.questions y := by
  have unlessWaiting {z : Exchange κ} (h : (if x.isWaiting then none else some z) = some y) :
      x.isWaiting = false ∧ z = y := by
    split at h
    · cases h
    · next free => exact ⟨by simpa using free, Option.some.inj h⟩
  cases move with
  | ask item resume =>
    obtain ⟨free, rfl⟩ := unlessWaiting h
    exact follows_ask sound free item resume
  | tell item =>
    obtain ⟨-, rfl⟩ := unlessWaiting h
    exact follows_tell sound item
  | busy busy =>
    obtain ⟨-, rfl⟩ := unlessWaiting h
    exact follows_post sound nofun rfl rfl
  | wake =>
    obtain ⟨⟨woken, z⟩, woke, rfl⟩ := Option.map_eq_some_iff.mp h
    exact follows_wakeUp sound woke
  | finish reply =>
    obtain rfl := Option.some.inj h
    exact follows_finish sound reply
  | abandon call =>
    obtain rfl := Option.some.inj h
    exact ⟨sound.of_eq rfl rfl, .idle⟩
  | receive => exact follows_receive sound h
  | pump =>
    obtain rfl := Option.some.inj h
    exact follows_pump sound
  | _ =>
    obtain rfl := Option.some.inj h
    exact follows_post sound nofun rfl rfl

/-! ### Turns of the coordinator -/

/-- What of it comes to clients. -/
def resultsOf (sent : List Effect) : List Effect :=
  sent.filter fun
    | .wake _ => false
    | _ => true

/-- What has been sent is handed on at once or together with what is sent later. -/
theorem collect_after (x : Exchange κ) (c : Coordinator) (sent : List Effect) :
    ({ x with coordinator := c.after sent } : Exchange κ).collect =
      ({ x with
        coordinator := c
        wakes := x.wakes ++ Coordinator.wakesOf sent
        results := x.results ++ resultsOf sent } : Exchange κ).collect := by
  simp only [collect, Coordinator.after, List.filterMap_append, List.filter_append,
    List.append_assoc]
  rfl

theorem coordinate_eq {n : Nat} {d : Coordinator}
    (turned : x.coordinator.turn x.abandoned.contains (x.events.take n) = d) :
    x.coordinate n =
      if d.running then { x with coordinator := d, events := x.events.drop n }.collect
      else
        { x with
          coordinator := (x.events.drop n).foldl Coordinator.refuse d
          events := []
          state := .stopped }.collect := by
  rw [coordinate, turned]

/-- The first event of a turn can be received before. -/
theorem coordinate_succ (h : x.receive? = some y) (n : Nat) :
    x.coordinate (n + 1) = y.coordinate n := by
  rw [receive?] at h
  split at h
  · cases h
  · next e later first =>
    obtain rfl := Option.some.inj h
    -- What receiving the event sends can be taken out before the rest of the turn.
    generalize received : x.coordinator.handle e = c
    have settled : c = Coordinator.after c.sent { c with sent := [] } := by
      rw [Coordinator.after, List.append_nil]
    obtain ⟨d, turned⟩ : ∃ d, ({ c with sent := [] } : Coordinator).turn x.abandoned.contains
        (later.take n) = d := ⟨_, rfl⟩
    have turnedAll : x.coordinator.turn x.abandoned.contains (x.events.take (n + 1)) =
        d.after c.sent := by
      rw [← turned, ← Coordinator.turn_after settled, ← received, first]
      rfl
    rw [coordinate_eq turnedAll, coordinate_eq turned, first, List.drop_succ_cons]
    refine ite_congr rfl (fun _ => ?_) fun _ => ?_
    · exact collect_after { x with events := later.drop n } d c.sent
    · rw [Coordinator.foldl_after (fun _ e => Coordinator.refuse_after rfl e) _ rfl]
      exact collect_after { x with events := [], state := .stopped } _ c.sent

/-- A turn of the coordinator is made of moves. -/
theorem exists_visited_coordinate (sound : x.Sound) {n : Nat} (within : n ≤ x.events.length) :
    ∃ before, x.visited? (List.replicate n .receive ++ [.pump]) =
      some (before ++ [x.coordinate n]) := by
  induction n generalizing x with
  | zero =>
    have running : (x.coordinator.pump x.abandoned.contains).running = true :=
      (follows_pump sound).1.running
    have turned : x.coordinator.turn x.abandoned.contains (x.events.take 0) =
        x.coordinator.pump x.abandoned.contains := if_pos sound.running
    have same : x.coordinate 0 = x.pump := by
      rw [coordinate, turned]
      exact if_pos running
    exact ⟨[x], by rw [same]; rfl⟩
  | succ n ih =>
    cases events : x.events with
    | nil =>
      rw [events] at within
      cases within
    | cons e later =>
      have received : x.receive? =
          some { x with coordinator := x.coordinator.handle e, events := later }.collect := by
        rw [receive?, events]
      rw [events] at within
      obtain ⟨before, onward⟩ :=
        ih (follows_receive sound received).1 (Nat.le_of_succ_le_succ within)
      refine ⟨x :: before, ?_⟩
      rw [coordinate_succ received]
      exact visited?_of_move received onward

/-! ### Runs -/

/-- An engine that takes answers in the order of its waits drops none. -/
theorem not_drops_of_lined (lined : x.track.Lined) : ¬x.Drops := by
  rintro ⟨y, h⟩
  cases takesNext_of_wakeUp h with
  | drop question resume rest answer wakes stack first other =>
    have line : Track.waitingIds x.stack = Track.answerIds x.wakes ++ _ := lined
    rw [stack, first] at line
    exact other (List.cons.inj line).1.symm

/-- The engine drops an answer that is misdirected. -/
theorem drops_of_misdirected (misdirected : x.track.Misdirected) : x.Drops := by
  obtain ⟨question, resume, rest, answer, wakes, stack, first, other⟩ := misdirected
  change x.stack = _ at stack
  change x.wakes = _ at first
  refine ⟨{ x with wakes }, ?_⟩
  rw [wakeUp, stack, first]
  exact if_neg (by simpa using other)

theorem mem_visited {moves : List (Move κ)} {visited : List (Exchange κ)}
    (run : x.visited? moves = some visited) : x ∈ visited := by
  cases moves with
  | nil =>
    obtain rfl := Option.some.inj run
    exact List.mem_cons_self
  | cons move moves =>
    obtain ⟨y, later, -, -, rfl⟩ := visited?_cons run
    exact List.mem_cons_self

/-- A run in which nothing crosses drops nothing. -/
theorem not_drops_of_uncrossed {moves : List (Move κ)} {visited : List (Exchange κ)}
    (sound : x.Sound) (lined : x.track.Lined) (run : x.visited? moves = some visited)
    (uncrossed : ∀ y ∈ visited, y.crossing = false) : ∀ y ∈ visited, ¬y.Drops := by
  induction moves generalizing x visited with
  | nil =>
    obtain rfl := Option.some.inj run
    rw [List.forall_mem_singleton]
    exact not_drops_of_lined lined
  | cons move moves ih =>
    obtain ⟨y, later, moved, onward, rfl⟩ := visited?_cons run
    rw [List.forall_mem_cons] at uncrossed ⊢
    obtain ⟨soundNext, step⟩ := step_of_move sound moved
    have linedNext := Track.lined_of_step lined step (uncrossed.2 y (mem_visited onward))
    exact ⟨not_drops_of_lined lined, ih soundNext linedNext onward uncrossed.2⟩

/-- What holds before the first crossing, after `n` questions. -/
structure Straight (n : Nat) (x : Exchange κ) : Prop where
  sound : x.Sound
  uncrossed : x.crossing = false
  lined : x.track.Lined
  orderly : x.track.Orderly
  numbered : x.track.Numbered n

theorem straight_ofCapacity (capacity : Nat) : (ofCapacity capacity : Exchange κ).Straight 0 where
  sound := sound_ofCapacity capacity
  uncrossed := rfl
  lined := rfl
  orderly := ⟨trivial, rfl, rfl, fun h => absurd rfl h, fun h => absurd rfl h⟩
  numbered := ⟨rfl, .slnil⟩

/-- The first crossing makes the engine drop an answer. -/
theorem straight_or_drops {n : Nat} {move : Move κ} (straight : x.Straight n)
    (few : n + move.questions < UInt32.size) (moved : x.move? move = some y) :
    y.Straight (n + move.questions) ∨ y.Drops := by
  obtain ⟨sound, uncrossed, lined, orderly, numbered⟩ := straight
  obtain ⟨soundNext, step⟩ := step_of_move sound moved
  have numberedNext := Track.numbered_of_step numbered step
  have distinct := numbered.distinct (Nat.lt_of_le_of_lt (Nat.le_add_right n _) few)
  cases crosses : y.crossing with
  | false =>
    refine .inl ⟨soundNext, crosses, Track.lined_of_step lined step crosses, ?_, numberedNext⟩
    exact Track.orderly_of_step lined distinct uncrossed orderly step
  | true =>
    -- Something crosses for the first time.
    refine .inr (drops_of_misdirected ?_)
    exact Track.misdirected_of_step lined distinct uncrossed orderly step
      (numberedNext.distinct few) crosses

/-- A run in which something crosses comes to a state in which the engine drops an answer. -/
theorem drops_of_crossing {n : Nat} {moves : List (Move κ)} {visited : List (Exchange κ)}
    (straight : x.Straight n) (few : n + Move.questionsOf moves < UInt32.size)
    (run : x.visited? moves = some visited) (crosses : ∃ y ∈ visited, y.crossing = true) :
    ∃ y ∈ visited, y.Drops := by
  -- Either the run stays straight, or the first crossing drops an answer.
  induction moves generalizing x n visited with
  | nil =>
    obtain rfl := Option.some.inj run
    obtain ⟨y, visits, crosses⟩ := crosses
    obtain rfl := List.mem_singleton.mp visits
    rw [straight.uncrossed] at crosses
    cases crosses
  | cons move moves ih =>
    obtain ⟨y, later, moved, onward, rfl⟩ := visited?_cons run
    rw [Move.questionsOf, ← Nat.add_assoc] at few
    have fewNow := Nat.lt_of_le_of_lt (Nat.le_add_right (n + move.questions) _) few
    rcases straight_or_drops straight fewNow moved with straightNext | drops
    · obtain ⟨z, visits, crosses⟩ := crosses
      rcases List.mem_cons.mp visits with rfl | visits
      · rw [straight.uncrossed] at crosses
        cases crosses
      · obtain ⟨w, visits, drops⟩ := ih straightNext few onward ⟨z, visits, crosses⟩
        exact ⟨w, List.mem_cons_of_mem _ visits, drops⟩
    · exact ⟨y, List.mem_cons_of_mem _ (mem_visited onward), drops⟩

/-- In a run without a shutdown, the engine drops an answer exactly if an answer is on its way to it
while a question to which it does not belong is on its way to the coordinator. Questions that are
more than there are numbers may be taken for each other; that can only keep an answer. -/
theorem drops_iff_crossing {capacity : Nat} {moves : List (Move κ)} {visited : List (Exchange κ)}
    (run : (ofCapacity capacity).visited? moves = some visited) :
    ((∀ x ∈ visited, x.crossing = false) → ∀ x ∈ visited, ¬x.Drops) ∧
      (Move.questionsOf moves < UInt32.size →
        (∃ x ∈ visited, x.crossing = true) → ∃ x ∈ visited, x.Drops) := by
  have straight := straight_ofCapacity (κ := κ) capacity
  refine ⟨not_drops_of_uncrossed straight.sound straight.lined run, fun few => ?_⟩
  rw [← Nat.zero_add (Move.questionsOf moves)] at few
  exact drops_of_crossing straight few run

/-- A request for a line of input. -/
def lineRequest : Item := .new SlotId.primary (.consoleRead "" false)

/-- A client has a function called, answers the question outside the call while the function still
runs, and the function asks a question. -/
def answerDuringCall : List (Move Unit) :=
  [.connect SlotId.primary 0, .ask lineRequest (),
    .call SlotId.primary ⟨1⟩ [.new SlotId.primary (.data (.evalVoid "f()"))] 1,
    .receive, .receive, .receive, .pump, .wake,
    .call SlotId.primary ⟨1⟩ [{ lineRequest with id := some 1, answer := some (.text "one") }] 2,
    .receive, .ask lineRequest ()]

theorem drops_iff_crossing_during_call :
    ∃ visited, (ofCapacity 64).visited? answerDuringCall = some visited ∧
      Move.questionsOf answerDuringCall = 2 ∧
      (∃ x ∈ visited, x.crossing = true) ∧ ∃ x ∈ visited, x.Drops := by
  have crosses : ∃ visited, (ofCapacity 64).visited? answerDuringCall = some visited ∧
      ∃ x ∈ visited, x.crossing = true :=
    ⟨_, rfl, _, List.getLast_mem (List.cons_ne_nil _ _), rfl⟩
  obtain ⟨visited, run, crosses⟩ := crosses
  exact ⟨visited, run, rfl, crosses, (drops_iff_crossing run).2 (by decide) crosses⟩

/-- The engine takes the answer to the outer question inside the inner one, and drops it. -/
theorem drops_answer_during_call :
    ∃ visited, (ofCapacity 64).visited? answerDuringCall = some visited ∧
      ∃ x ∈ visited, ∃ question resume rest answer wakes y,
        x.stack = .waiting question resume :: rest ∧ x.wakes = .answer answer :: wakes ∧
        answer.id ≠ question.id ∧ x.wakeUp = some (.dropped, y) := by
  refine ⟨_, rfl, _, List.getLast_mem (List.cons_ne_nil _ _), _, _, _, _, _, _, rfl, rfl, ?_, rfl⟩
  decide

end Exchange

end EngineLink
