import EngineLink.Exchange.Basic

/-!
# Questions, answers and requests under way

The engine waits inside questions and executes requests inside waits. What is under way between it
and the coordinator is in two queues: answers and requests in the one direction, questions and
replies in the other. This module follows these numbers alone, without clients and without what
items say.

## Main definitions

* `Track` — the stack of the engine, the two queues and what the coordinator keeps
* `Track.Step` — what a move can change
* `Track.crossing` — an answer and a question to which it does not belong are both under way
* `Track.Lined` — answers and questions under way are in the order of the waits
* `Track.Orderly` — requests under way meet a waiting engine

## Main results

* `Track.lined_of_step`, `Track.orderly_of_step`, `Track.numbered_of_step` — one step
* `Track.misdirected_of_step` — what follows from the first crossing
-/

namespace EngineLink

/-- What is relevant for the questions of the engine. -/
structure Track (κ : Type) where
  /-- What the engine has not come back from, the innermost first. -/
  stack : List (Activity κ)
  wakes : List Wake
  events : List Event
  /-- The numbers of the questions that the coordinator keeps, the innermost first. -/
  pending : List (Option RequestId)
  /-- The number of requests whose executions the coordinator has not seen end. -/
  executing : Nat
  /-- The number of the next question. -/
  next : RequestId

namespace Track

variable {κ : Type} {t u : Track κ} {n k : Nat}

/-! ### What is under way -/

/-- The number of a question that waits. -/
def questionId? : Activity κ → Option (Option RequestId)
  | .waiting question _ => some question.id
  | .serving _ => none

/-- The numbers of the questions in which the engine waits, the innermost first. -/
def waitingIds (stack : List (Activity κ)) : List (Option RequestId) :=
  stack.filterMap questionId?

/-- The numbers of the answers among some wakes. -/
def answerIds (wakes : List Wake) : List (Option RequestId) :=
  wakes.filterMap fun
    | .answer item => some item.id
    | .execute _ => none

/-- The numbers of the questions among some events. -/
def askedIds (events : List Event) : List (Option RequestId) :=
  events.filterMap fun
    | .submit item true => some item.id
    | _ => none

/-- Whether the engine waits. -/
def isWaiting (stack : List (Activity κ)) : Bool :=
  match stack with
  | .waiting .. :: _ => true
  | _ => false

/-- How many requests the engine executes. -/
def served (stack : List (Activity κ)) : Nat :=
  stack.countP fun
    | .waiting .. => false
    | .serving _ => true

/-- How many requests are under way to the engine. -/
def requested (wakes : List Wake) : Nat :=
  wakes.countP fun
    | .answer _ => false
    | .execute _ => true

/-- How many replies are under way to the coordinator. -/
def replied (events : List Event) : Nat :=
  events.countP fun
    | .executed _ => true
    | _ => false

/-- Whether an answer is on its way to the engine while a question to which it does not belong is
on its way to the coordinator. -/
def crossing (events : List Event) (wakes : List Wake) : Bool :=
  (askedIds events).any fun asked => (answerIds wakes).any (· != asked)

/-! ### Steps -/

/-- What a move can change, with the number of questions that the engine asks in it. -/
inductive Step (t : Track κ) : Nat → Track κ → Prop
  | idle : Step t 0 t
  /-- The engine asks a question. -/
  | ask (question : Item) (resume : κ) (free : isWaiting t.stack = false)
      (number : question.id = some t.next) :
      Step t 1 { t with
        stack := .waiting question resume :: t.stack
        events := t.events ++ [.submit question true]
        next := t.next + 1 }
  /-- Something else is said to the coordinator. -/
  | post (e : Event) (silent : askedIds [e] = []) (noReply : replied [e] = 0) :
      Step t 0 { t with events := t.events ++ [e] }
  /-- The engine comes back from a request. -/
  | finish (request : Item) (rest : List (Activity κ)) (reply : Item)
      (top : t.stack = .serving request :: rest) :
      Step t 0 { t with stack := rest, events := t.events ++ [.executed reply] }
  | resume (question : Item) (resume : κ) (rest : List (Activity κ)) (answer : Item)
      (wakes : List Wake) (top : t.stack = .waiting question resume :: rest)
      (first : t.wakes = .answer answer :: wakes) (own : answer.id = question.id) :
      Step t 0 { t with stack := rest, wakes }
  | drop (question : Item) (resume : κ) (rest : List (Activity κ)) (answer : Item)
      (wakes : List Wake) (top : t.stack = .waiting question resume :: rest)
      (first : t.wakes = .answer answer :: wakes) (other : answer.id ≠ question.id) :
      Step t 0 { t with wakes }
  | serve (request : Item) (wakes : List Wake) (waiting : isWaiting t.stack = true)
      (first : t.wakes = .execute request :: wakes) :
      Step t 0 { t with stack := .serving request :: t.stack, wakes }
  /-- The coordinator receives an event, and answers some of the innermost questions. -/
  | receive (e : Event) (later : List Event) (answers : List Item)
      (pending : List (Option RequestId)) (first : t.events = e :: later)
      (answered : askedIds [e] ++ t.pending = answers.map Item.id ++ pending) :
      Step t 0 { t with
        events := later
        wakes := t.wakes ++ answers.map .answer
        pending
        executing := t.executing - replied [e] }
  | answer (answers : List Item) (pending : List (Option RequestId))
      (answered : t.pending = answers.map Item.id ++ pending) :
      Step t 0 { t with wakes := t.wakes ++ answers.map .answer, pending }
  /-- The coordinator hands a request to the engine, and answers some of the innermost questions. -/
  | hand (request : Item) (answers : List Item) (pending : List (Option RequestId))
      (waits : t.executing < t.pending.length)
      (answered : t.pending = answers.map Item.id ++ pending) :
      Step t 0 { t with
        wakes := t.wakes ++ .execute request :: answers.map .answer
        pending
        executing := t.executing + 1 }

/-! ### Small facts -/

theorem crossing_eq_false_iff {events : List Event} {wakes : List Wake} :
    crossing events wakes = false ↔
      ∀ asked ∈ askedIds events, ∀ answer ∈ answerIds wakes, answer = asked := by
  simp [crossing]

@[simp] theorem answerIds_append (wakes more : List Wake) :
    answerIds (wakes ++ more) = answerIds wakes ++ answerIds more := List.filterMap_append

@[simp] theorem answerIds_execute (request : Item) (wakes : List Wake) :
    answerIds (.execute request :: wakes) = answerIds wakes := rfl

@[simp] theorem answerIds_answer (answer : Item) (wakes : List Wake) :
    answerIds (.answer answer :: wakes) = answer.id :: answerIds wakes := rfl

@[simp] theorem answerIds_answers (answers : List Item) :
    answerIds (answers.map .answer) = answers.map Item.id := by
  induction answers with
  | nil => rfl
  | cons answer answers ih => rw [List.map_cons, answerIds_answer, ih, List.map_cons]

@[simp] theorem requested_append (wakes more : List Wake) :
    requested (wakes ++ more) = requested wakes + requested more := List.countP_append

@[simp] theorem requested_execute (request : Item) (wakes : List Wake) :
    requested (.execute request :: wakes) = requested wakes + 1 := List.countP_cons_of_pos rfl

@[simp] theorem requested_answer (answer : Item) (wakes : List Wake) :
    requested (.answer answer :: wakes) = requested wakes := List.countP_cons_of_neg nofun

@[simp] theorem requested_answers (answers : List Item) :
    requested (answers.map .answer) = 0 := by
  induction answers with
  | nil => rfl
  | cons answer answers ih => rw [List.map_cons, requested_answer, ih]

@[simp] theorem askedIds_append (events more : List Event) :
    askedIds (events ++ more) = askedIds events ++ askedIds more := List.filterMap_append

@[simp] theorem replied_append (events more : List Event) :
    replied (events ++ more) = replied events + replied more := List.countP_append

@[simp] theorem replied_ask (question : Item) : replied [.submit question true] = 0 := rfl

@[simp] theorem askedIds_executed (reply : Item) : askedIds [.executed reply] = [] := rfl

@[simp] theorem replied_executed (reply : Item) : replied [.executed reply] = 1 := rfl

theorem askedIds_cons (e : Event) (events : List Event) :
    askedIds (e :: events) = askedIds [e] ++ askedIds events := askedIds_append [e] events

theorem replied_cons (e : Event) (events : List Event) :
    replied (e :: events) = replied [e] + replied events := replied_append [e] events

/-- Two lists of which each element of the one equals each of the other. -/
theorem append_comm_of_forall_eq {α : Type} {xs ys : List α} (h : ∀ a ∈ xs, ∀ b ∈ ys, b = a) :
    xs ++ ys = ys ++ xs := by
  cases xs with
  | nil => rw [List.append_nil, List.nil_append]
  | cons a xs =>
    have others : ys = List.replicate ys.length a :=
      List.eq_replicate_iff.mpr ⟨rfl, h a List.mem_cons_self⟩
    cases ys with
    | nil => rw [List.append_nil, List.nil_append]
    | cons b ys =>
      have same : a :: xs = List.replicate (a :: xs).length a := by
        refine List.eq_replicate_iff.mpr ⟨rfl, fun c hc => ?_⟩
        rw [← h c hc b List.mem_cons_self]
        exact h a List.mem_cons_self b List.mem_cons_self
      rw [same, others, List.replicate_append_replicate, List.replicate_append_replicate,
        Nat.add_comm]

/-! ### The order of the waits -/

/-- The answers on their way to the engine, the questions on their way to the coordinator and the
questions that the coordinator keeps are, in this order, the questions in which the engine waits. -/
def Lined (t : Track κ) : Prop :=
  waitingIds t.stack = answerIds t.wakes ++ ((askedIds t.events).reverse ++ t.pending)

/-- Answers that are sent and that cross nothing join those that are under way. -/
theorem line_of_answers {waiting before asked answered pending : List (Option RequestId)}
    (line : waiting = before ++ (asked.reverse ++ (answered ++ pending)))
    (uncrossed : ∀ a ∈ asked, ∀ b ∈ before ++ answered, b = a) :
    waiting = (before ++ answered) ++ (asked.reverse ++ pending) := by
  have moved : asked.reverse ++ answered = answered ++ asked.reverse := by
    refine append_comm_of_forall_eq fun a ha b hb => ?_
    exact uncrossed a (List.mem_reverse.mp ha) b (List.mem_append_right _ hb)
  calc waiting
    _ = before ++ ((asked.reverse ++ answered) ++ pending) := by rw [line, List.append_assoc]
    _ = before ++ ((answered ++ asked.reverse) ++ pending) := by rw [moved]
    _ = (before ++ answered) ++ (asked.reverse ++ pending) := by simp only [List.append_assoc]

/-- One step keeps the order of the waits if nothing crosses after it. -/
theorem lined_of_step (lined : t.Lined) (step : t.Step k u)
    (uncrossed : crossing u.events u.wakes = false) : u.Lined := by
  rw [crossing_eq_false_iff] at uncrossed
  unfold Lined at *
  cases step with
  | idle => exact lined
  | ask question resume free number =>
    -- Answers under way can only be for the very question that is asked.
    have same : ∀ answer ∈ answerIds t.wakes, answer = question.id := by
      refine uncrossed question.id ?_
      rw [askedIds_append]
      exact List.mem_append_right _ List.mem_cons_self
    have moved : [question.id] ++ answerIds t.wakes = answerIds t.wakes ++ [question.id] :=
      append_comm_of_forall_eq (by simpa using same)
    calc question.id :: waitingIds t.stack
      _ = ([question.id] ++ answerIds t.wakes) ++ ((askedIds t.events).reverse ++ t.pending) := by
        rw [lined]
        rfl
      _ = answerIds t.wakes ++
          ((askedIds (t.events ++ [.submit question true])).reverse ++ t.pending) := by
        rw [moved, askedIds_append, List.reverse_append]
        simp only [List.append_assoc]
        rfl
  | post e silent noReply => rwa [askedIds_append, silent, List.append_nil]
  | finish request rest reply top =>
    rw [top] at lined
    rw [askedIds_append, askedIds_executed, List.append_nil]
    exact lined
  | resume question resume rest answer wakes top first own =>
    rw [top, first, answerIds_answer] at lined
    exact (List.cons.inj lined).2
  | drop question resume rest answer wakes top first other =>
    -- The first answer under way is for the innermost question.
    rw [top, first, answerIds_answer] at lined
    exact absurd (List.cons.inj lined).1.symm other
  | serve request wakes waiting first =>
    rw [first, answerIds_execute] at lined
    exact lined
  | receive e later answers pending first answered =>
    rw [first, askedIds_cons, List.reverse_append, List.append_assoc] at lined
    -- An event asks at most one question.
    have single : (askedIds [e]).reverse = askedIds [e] := by
      cases e with
      | submit item wait => cases wait <;> rfl
      | _ => rfl
    rw [single, answered] at lined
    rw [answerIds_append, answerIds_answers] at uncrossed ⊢
    exact line_of_answers lined uncrossed
  | answer answers pending answered =>
    rw [answered] at lined
    rw [answerIds_append, answerIds_answers] at uncrossed ⊢
    exact line_of_answers lined uncrossed
  | hand request answers pending waits answered =>
    rw [answered] at lined
    rw [answerIds_append, answerIds_execute, answerIds_answers] at uncrossed ⊢
    exact line_of_answers lined uncrossed

/-! ### Requests under way -/

/-- Waits and executions take turns, the outermost is a wait. -/
def Alternating : List (Activity κ) → Prop
  | [] => True
  | .waiting .. :: rest => isWaiting rest = false ∧ Alternating rest
  | .serving _ :: rest => isWaiting rest = true ∧ Alternating rest

/-- There is one wait for each execution, and the one in which the engine waits now. -/
theorem length_waitingIds {stack : List (Activity κ)} (h : Alternating stack) :
    (waitingIds stack).length = served stack + (isWaiting stack).toNat := by
  induction stack with
  | nil => rfl
  | cons activity rest ih =>
    cases activity with
    | waiting question resume =>
      have below := ih h.2
      rw [h.1] at below
      exact congrArg (· + 1) below
    | serving request =>
      have below := ih h.2
      rw [h.1] at below
      calc (waitingIds rest).length
        _ = served rest + 1 := below
        _ = served (.serving request :: rest) + 0 := by
          rw [served, served, List.countP_cons_of_pos rfl]

/-- Requests are executed one inside the other, and the next one is handed out only to an engine
that waits and that has nothing else to take. -/
structure Orderly (t : Track κ) : Prop where
  alternating : Alternating t.stack
  counted : t.executing = served t.stack + requested t.wakes + replied t.events
  requestFirst : requested t.wakes.tail = 0
  requestMet : requested t.wakes ≠ 0 → isWaiting t.stack = true ∧ askedIds t.events = []
  askedWaits : askedIds t.events ≠ [] → isWaiting t.stack = true

namespace Orderly

theorem unrequested_of_free (orderly : t.Orderly) (free : isWaiting t.stack = false) :
    requested t.wakes = 0 := by
  by_cases h : requested t.wakes = 0
  · exact h
  · exact absurd (orderly.requestMet h).1 (by simp [free])

theorem unrequested_of_asked (orderly : t.Orderly) (asked : askedIds t.events ≠ []) :
    requested t.wakes = 0 := by
  by_cases h : requested t.wakes = 0
  · exact h
  · exact absurd (orderly.requestMet h).2 asked

end Orderly

/-- As long as nothing crosses, no answer is under way together with a question. -/
theorem answerIds_eq_nil (lined : t.Lined) (distinct : (waitingIds t.stack).Nodup)
    (uncrossed : crossing t.events t.wakes = false) (asked : askedIds t.events ≠ []) :
    answerIds t.wakes = [] := by
  rw [lined, List.nodup_append] at distinct
  obtain ⟨question, asked⟩ := List.exists_mem_of_ne_nil _ asked
  refine List.eq_nil_iff_forall_not_mem.mpr fun answer under => ?_
  have listed : question ∈ (askedIds t.events).reverse ++ t.pending :=
    List.mem_append_left _ (List.mem_reverse.mpr asked)
  have other : answer ≠ question := distinct.2.2 answer under question listed
  exact other (crossing_eq_false_iff.mp uncrossed question asked answer under)

theorem requested_tail_of_eq_zero {wakes : List Wake} (h : requested wakes = 0) :
    requested wakes.tail = 0 := by
  cases wakes with
  | nil => rfl
  | cons wake wakes =>
    rw [← List.singleton_append, requested_append] at h
    exact (Nat.add_eq_zero_iff.mp h).2

theorem requested_tail_answers {wakes : List Wake} (first : requested wakes.tail = 0)
    (answers : List Item) : requested (wakes ++ answers.map Wake.answer).tail = 0 := by
  cases wakes with
  | nil =>
    have none := requested_answers answers
    cases answers with
    | nil => rfl
    | cons answer answers => exact none
  | cons wake wakes =>
    rw [List.cons_append, List.tail_cons, requested_append, requested_answers, Nat.add_zero]
    exact first

/-- A waiting engine that has got nothing to execute and nothing to answer: a request that is handed
out finds it so. -/
theorem idle_of_hand (lined : t.Lined) (orderly : t.Orderly)
    (waits : t.executing < t.pending.length) :
    isWaiting t.stack = true ∧ t.wakes = [] ∧ askedIds t.events = [] := by
  -- There are as many waits as questions under way, answers under way and questions kept; and one
  -- for each execution, and one more if the engine waits. A handed out request needs this one.
  have length := congrArg List.length lined
  rw [length_waitingIds orderly.alternating] at length
  simp only [List.length_append, List.length_reverse] at length
  have counted := orderly.counted
  have top : (isWaiting t.stack).toNat ≤ 1 := Bool.toNat_le _
  have waiting : isWaiting t.stack = true := by
    cases waiting : isWaiting t.stack with
    | true => rfl
    | false =>
      rw [waiting, Bool.toNat_false] at length
      omega
  refine ⟨waiting, ?_, ?_⟩
  · have answered : answerIds t.wakes = [] := List.length_eq_zero_iff.mp (by omega)
    have requests : requested t.wakes = 0 := by omega
    cases wakes : t.wakes with
    | nil => rfl
    | cons wake later =>
      rw [wakes] at answered requests
      cases wake with
      | answer item => cases answered
      | execute item =>
        rw [requested_execute] at requests
        cases requests
  · exact List.length_eq_zero_iff.mp (by omega)

theorem orderly_of_step (lined : t.Lined) (distinct : (waitingIds t.stack).Nodup)
    (uncrossed : crossing t.events t.wakes = false) (orderly : t.Orderly) (step : t.Step k u) :
    u.Orderly := by
  have unanswered := answerIds_eq_nil lined distinct uncrossed
  obtain ⟨alternating, counted, requestFirst, requestMet, askedWaits⟩ := id orderly
  cases step with
  | idle => exact orderly
  | ask question resume free number =>
    -- An engine that does not wait has no request under way.
    exact ⟨⟨free, alternating⟩, by simpa [served] using counted, requestFirst,
      fun h => absurd (orderly.unrequested_of_free free) h, fun _ => rfl⟩
  | post e silent noReply =>
    refine ⟨alternating, ?_, requestFirst, ?_, ?_⟩
    · simpa [noReply] using counted
    · simpa [silent] using requestMet
    · simpa [silent] using askedWaits
  | finish request rest reply top =>
    have unrequested := orderly.unrequested_of_free (by rw [top]; rfl)
    rw [top] at alternating counted
    refine ⟨alternating.2, ?_, requestFirst, fun h => absurd unrequested h, fun _ => alternating.1⟩
    rw [served, List.countP_cons_of_pos rfl] at counted
    rw [replied_append, replied_executed, served]
    dsimp only at counted ⊢
    omega
  | resume question resume rest answer wakes top first own =>
    rw [first] at requestFirst counted unanswered
    rw [top] at alternating counted
    refine ⟨alternating.2, ?_, requested_tail_of_eq_zero requestFirst, ?_, ?_⟩
    · simpa [served] using counted
    · exact fun h => absurd requestFirst h
    · -- No answer was under way together with a question, but this one was.
      exact fun asked => absurd (unanswered asked) (List.cons_ne_nil _ _)
  | drop question resume rest answer wakes top first other =>
    rw [Lined, top, first, answerIds_answer] at lined
    exact absurd (List.cons.inj lined).1.symm other
  | serve request wakes waiting first =>
    rw [first] at requestFirst counted requestMet
    have met := requestMet (by simp)
    refine ⟨⟨waiting, alternating⟩, ?_, requested_tail_of_eq_zero requestFirst, ?_, ?_⟩
    · rw [requested_execute] at counted
      rw [served, List.countP_cons_of_pos rfl]
      rw [served] at counted
      dsimp only
      omega
    · exact fun h => absurd requestFirst h
    · exact fun asked => absurd met.2 asked
  | receive e later answers pending first answered =>
    rw [first] at counted requestMet askedWaits
    rw [replied_cons] at counted
    rw [askedIds_cons] at requestMet askedWaits
    refine ⟨alternating, ?_, requested_tail_answers requestFirst answers, ?_, ?_⟩
    · rw [requested_append, requested_answers]
      dsimp only
      omega
    · rw [requested_append, requested_answers]
      intro h
      have met := requestMet h
      exact ⟨met.1, (List.append_eq_nil_iff.mp met.2).2⟩
    · exact fun asked => askedWaits fun none => asked (List.append_eq_nil_iff.mp none).2
  | answer answers pending answered =>
    refine ⟨alternating, ?_, requested_tail_answers requestFirst answers, ?_, askedWaits⟩
    · simpa using counted
    · simpa using requestMet
  | hand request answers pending waits answered =>
    -- The request is the only one under way, and answers come behind it.
    obtain ⟨waiting, idle, unasked⟩ := idle_of_hand lined orderly waits
    rw [idle] at counted ⊢
    refine ⟨alternating, ?_, ?_, fun _ => ⟨waiting, unasked⟩, askedWaits⟩
    · rw [List.nil_append, requested_execute, requested_answers]
      have none : requested [] = 0 := rfl
      dsimp only
      omega
    · exact requested_answers answers

/-! ### Numbers of questions -/

/-- The numbers of the first `n` questions, the last one first. -/
def numbers : Nat → List (Option RequestId)
  | 0 => []
  | n + 1 => some (.ofNat (n + 1)) :: numbers n

theorem mem_numbers {id : Option RequestId} (h : id ∈ numbers n) :
    ∃ i, 0 < i ∧ i ≤ n ∧ id = some (.ofNat i) := by
  induction n with
  | zero => cases h
  | succ n ih =>
    rcases List.mem_cons.mp h with rfl | h
    · exact ⟨n + 1, Nat.succ_pos n, Nat.le_refl _, rfl⟩
    · obtain ⟨i, positive, bound, rfl⟩ := ih h
      exact ⟨i, positive, Nat.le_succ_of_le bound, rfl⟩

/-- Numbers are not given twice until all of them have been used. -/
theorem nodup_numbers (few : n < UInt32.size) : (numbers n).Nodup := by
  induction n with
  | zero => exact .nil
  | succ n ih =>
    refine List.nodup_cons.mpr ⟨fun again => ?_, ih (Nat.lt_of_succ_lt few)⟩
    obtain ⟨i, -, bound, same⟩ := mem_numbers again
    have equal := congrArg UInt32.toNat (Option.some.inj same)
    rw [UInt32.toNat_ofNat_of_lt' few, UInt32.toNat_ofNat_of_lt' (by omega)] at equal
    omega

/-- After `n` questions, the engine waits in some of them. -/
structure Numbered (n : Nat) (t : Track κ) : Prop where
  next : t.next = .ofNat (n + 1)
  waits : (waitingIds t.stack).Sublist (numbers n)

theorem Numbered.distinct (numbered : t.Numbered n) (few : n < UInt32.size) :
    (waitingIds t.stack).Nodup := numbered.waits.nodup (nodup_numbers few)

theorem numbered_of_step (numbered : t.Numbered n) (step : t.Step k u) : u.Numbered (n + k) := by
  obtain ⟨next, waits⟩ := id numbered
  cases step with
  | ask question resume free number =>
    refine ⟨?_, ?_⟩
    · rw [UInt32.ofNat_add, ← next]
      rfl
    · rw [next] at number
      change (question.id :: waitingIds t.stack).Sublist _
      rw [number]
      exact waits.cons_cons _
  | finish request rest reply top =>
    rw [top] at waits
    exact ⟨next, waits⟩
  | resume question resume rest answer wakes top first own =>
    rw [top] at waits
    exact ⟨next, List.sublist_of_cons_sublist waits⟩
  | serve request wakes waiting first => exact ⟨next, waits⟩
  | _ => exact ⟨next, waits⟩

/-! ### Crossing -/

/-- The engine waits in one question, and the answer that it takes next is for another one. -/
def Misdirected (t : Track κ) : Prop :=
  ∃ question resume rest answer wakes, t.stack = .waiting question resume :: rest ∧
    t.wakes = .answer answer :: wakes ∧ answer.id ≠ question.id

/-- A waiting engine whose question is not that of the first answer under way. -/
theorem misdirected_of_answers {answers : List Item} {id : Option RequestId}
    (waiting : isWaiting t.stack = true) (wakes : t.wakes = answers.map .answer)
    (under : id ∈ answerIds t.wakes)
    (other : ∀ first ∈ answers.head?, ∃ top ∈ (waitingIds t.stack).head?, first.id ≠ top) :
    t.Misdirected := by
  rw [wakes, answerIds_answers] at under
  obtain ⟨first, later, rfl⟩ : ∃ first later, answers = first :: later := by
    refine List.exists_cons_of_ne_nil fun empty => ?_
    rw [empty] at under
    cases under
  obtain ⟨id, innermost, other⟩ := other first rfl
  cases stack : t.stack with
  | nil =>
    rw [stack] at waiting
    cases waiting
  | cons activity rest =>
    rw [stack] at waiting innermost
    cases activity with
    | serving request => cases waiting
    | waiting question resume =>
      refine ⟨question, resume, rest, first, later.map .answer, stack, wakes, ?_⟩
      rw [Option.some.inj innermost]
      exact other

theorem eq_answers_of_requested {wakes : List Wake} (unrequested : requested wakes = 0) :
    ∃ answers : List Item, wakes = answers.map .answer := by
  induction wakes with
  | nil => exact ⟨[], rfl⟩
  | cons wake wakes ih =>
    cases wake with
    | answer answer =>
      rw [requested_answer] at unrequested
      obtain ⟨answers, rfl⟩ := ih unrequested
      exact ⟨answer :: answers, rfl⟩
    | execute request =>
      rw [requested_execute] at unrequested
      cases unrequested

theorem crossing_eq_true_iff {events : List Event} {wakes : List Wake} :
    crossing events wakes = true ↔
      ∃ asked ∈ askedIds events, ∃ answer ∈ answerIds wakes, answer ≠ asked := by
  simp [crossing]

/-- Nothing comes to cross while less is under way. -/
theorem crossing_mono {events before : List Event} {wakes earlier : List Wake}
    (asked : askedIds events ⊆ askedIds before) (answers : answerIds wakes ⊆ answerIds earlier)
    (crosses : crossing events wakes = true) : crossing before earlier = true := by
  obtain ⟨question, isAsked, answer, isAnswer, other⟩ := crossing_eq_true_iff.mp crosses
  exact crossing_eq_true_iff.mpr ⟨question, asked isAsked, answer, answers isAnswer, other⟩

/-- While a question is under way, the coordinator can only answer questions outside it. -/
theorem misdirected_of_answered (lined : t.Lined) (distinct : (waitingIds t.stack).Nodup)
    (uncrossed : crossing t.events t.wakes = false) (orderly : t.Orderly)
    {asked pending : List (Option RequestId)} {later : List Event} {answers : List Item}
    (events : askedIds t.events = asked ++ askedIds later)
    (answered : asked ++ t.pending = answers.map Item.id ++ pending)
    (stack : u.stack = t.stack) (wakes : u.wakes = t.wakes ++ answers.map .answer)
    (crosses : crossing later u.wakes = true) : u.Misdirected := by
  obtain ⟨question, isAsked, answer, isAnswer, -⟩ := crossing_eq_true_iff.mp crosses
  have some : askedIds t.events ≠ [] := by
    rw [events]
    exact List.ne_nil_of_mem (List.mem_append_right _ isAsked)
  -- Nothing was under way to the engine: no answer, or it would cross, and no request.
  have unanswered := answerIds_eq_nil lined distinct uncrossed some
  have none : t.wakes = [] := by
    obtain ⟨before, same⟩ := eq_answers_of_requested (orderly.unrequested_of_asked some)
    rw [same, answerIds_answers, List.map_eq_nil_iff] at unanswered
    rw [same, unanswered]
    rfl
  rw [none, List.nil_append] at wakes
  have waiting : isWaiting u.stack = true := by
    rw [stack]
    exact orderly.askedWaits some
  refine misdirected_of_answers waiting wakes isAnswer fun first isFirst => ?_
  obtain ⟨more, rfl⟩ := List.head?_eq_some_iff.mp isFirst
  obtain ⟨innermost, outer, last⟩ := List.exists_cons_of_ne_nil
    (List.ne_nil_of_mem (List.mem_reverse.mpr isAsked))
  have line : waitingIds t.stack =
      (askedIds later).reverse ++ (asked.reverse ++ t.pending) := by
    rw [lined, unanswered, List.nil_append, events, List.reverse_append, List.append_assoc]
  -- The innermost question is still under way, and the coordinator cannot answer it yet.
  refine ⟨innermost, ?_, ?_⟩
  · rw [stack, line, last]
    rfl
  · -- The first answer is for one of the questions that have arrived.
    have arrived : first.id ∈ asked.reverse ++ t.pending := by
      have known : first.id ∈ asked ++ t.pending := by
        rw [answered]
        exact List.mem_append_left _ List.mem_cons_self
      rwa [List.mem_append, List.mem_reverse, ← List.mem_append]
    rw [line, List.nodup_append] at distinct
    have isLast : innermost ∈ (askedIds later).reverse := by
      rw [last]
      exact List.mem_cons_self
    exact (distinct.2.2 innermost isLast first.id arrived).symm

/-- As soon as an answer crosses a question, the engine is about to take an answer for another
question. -/
theorem misdirected_of_step (lined : t.Lined) (distinct : (waitingIds t.stack).Nodup)
    (uncrossed : crossing t.events t.wakes = false) (orderly : t.Orderly) (step : t.Step k u)
    (fresh : (waitingIds u.stack).Nodup) (crosses : crossing u.events u.wakes = true) :
    u.Misdirected := by
  -- Only a new question or a new answer can cross something.
  have nothingNew (asked : askedIds u.events ⊆ askedIds t.events)
      (answers : answerIds u.wakes ⊆ answerIds t.wakes) : u.Misdirected := by
    rw [crossing_mono asked answers crosses] at uncrossed
    cases uncrossed
  cases step with
  | idle => exact nothingNew (List.Subset.refl _) (List.Subset.refl _)
  | ask question resume free number =>
    obtain ⟨answers, wakes⟩ := eq_answers_of_requested (orderly.unrequested_of_free free)
    obtain ⟨-, -, answer, isAnswer, -⟩ := crossing_eq_true_iff.mp crosses
    refine misdirected_of_answers rfl wakes isAnswer fun first isFirst => ?_
    obtain ⟨more, rfl⟩ := List.head?_eq_some_iff.mp isFirst
    -- The first answer is for a question that was asked before, the new number is not among these.
    refine ⟨question.id, rfl, fun same => (List.nodup_cons.mp fresh).1 ?_⟩
    have waits : first.id ∈ waitingIds t.stack := by
      rw [lined, wakes]
      exact List.mem_append_left _ List.mem_cons_self
    rwa [same] at waits
  | post e silent noReply => exact nothingNew (by simp [silent]) (List.Subset.refl _)
  | finish request rest reply top => exact nothingNew (by simp) (List.Subset.refl _)
  | resume question resume rest answer wakes top first own =>
    refine nothingNew (List.Subset.refl _) ?_
    rw [first]
    exact List.subset_cons_self _ _
  | drop question resume rest answer wakes top first other =>
    refine nothingNew (List.Subset.refl _) ?_
    rw [first]
    exact List.subset_cons_self _ _
  | serve request wakes waiting first =>
    refine nothingNew (List.Subset.refl _) ?_
    rw [first]
    exact List.Subset.refl _
  | receive e later answers pending first answered =>
    refine misdirected_of_answered lined distinct uncrossed orderly ?_ answered rfl rfl crosses
    rw [first, askedIds_cons]
  | answer answers pending answered =>
    exact misdirected_of_answered lined distinct uncrossed orderly (List.nil_append _).symm
      answered rfl rfl crosses
  | hand request answers pending waits answered =>
    -- No question is under way to cross the answers behind the request.
    obtain ⟨asked, isAsked, -⟩ := crossing_eq_true_iff.mp crosses
    rw [(idle_of_hand lined orderly waits).2.2] at isAsked
    cases isAsked

end Track

end EngineLink
