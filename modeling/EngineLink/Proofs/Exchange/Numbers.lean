import EngineLink.Proofs.Exchange.Course
import EngineLink.Proofs.Message.RoundTrip

/-!
# Numbers of questions

Questions are numbered by a counter of 32 bits that starts anew after its largest number, and a
question may stay open for any time. So the next question gets the number of an open one exactly if
a multiple of 2³² questions has been asked from the open one on. On the wire the number is a signed
word, of which -1 stands for no number and no other negative one is read. So long before that, half
of the numbers is of no use to clients.

## Main definitions

* `Exchange.questionsIn` — how many questions the engine has asked
* `Exchange.Shift` — what a deed does to the counter and to the stack of the engine
* `Exchange.Covered` — the questions of which a running coordinator knows are open ones

## Main results

* `Exchange.next_of_course`, `Exchange.asked_of_course` — where numbers and open questions come from
* `Exchange.covered_of_course` — the coordinator only keeps open questions
* `Item.get_of_number` — what is read of an item under any number
* `Exchange.number_fresh_and_sent_iff` — when the next number is new, and when it is read back
-/

namespace EngineLink

open Wire Reader

namespace Exchange

open Track

variable {κ : Type} {x y z : Exchange κ} {deed : Deed κ} {deeds : List (Deed κ)}
  {lawful : Exchange κ → Move κ → Prop}

/-! ### The counter and the stack -/

/-- How many questions the engine asks in a deed. -/
def Deed.questions : Deed κ → Nat
  | .move m => m.questions
  | .askStopped _ => 1
  | _ => 0

/-- How many questions the engine asks in some deeds. -/
def questionsIn : List (Deed κ) → Nat
  | [] => 0
  | deed :: deeds => deed.questions + questionsIn deeds

theorem questionsIn_append (deeds more : List (Deed κ)) :
    questionsIn (deeds ++ more) = questionsIn deeds + questionsIn more := by
  induction deeds with
  | nil => exact (Nat.zero_add _).symm
  | cons deed deeds ih => rw [List.cons_append, questionsIn, questionsIn, ih, Nat.add_assoc]

/-- What a deed does to the counter and to the stack of the engine. -/
inductive Shift (x : Exchange κ) : Deed κ → Exchange κ → Prop
  | ask {y : Exchange κ} (item : Item) (resume : κ) (next : y.nextRequest = x.nextRequest + 1)
      (stack : y.stack = .waiting (x.number item).1 resume :: x.stack) :
      Shift x (.move (.ask item resume)) y
  | askStopped {y : Exchange κ} (item : Item) (next : y.nextRequest = x.nextRequest + 1)
      (stack : y.stack = x.stack) : Shift x (.askStopped item) y
  /-- The engine comes back from something, if anything. -/
  | back {y : Exchange κ} (deed : Deed κ) (silent : deed.questions = 0)
      (next : y.nextRequest = x.nextRequest) (stack : y.stack <:+ x.stack) : Shift x deed y
  | serve {y : Exchange κ} (deed : Deed κ) (silent : deed.questions = 0)
      (next : y.nextRequest = x.nextRequest) (request : Item)
      (stack : y.stack = .serving request :: x.stack) : Shift x deed y

theorem post_keeps (x : Exchange κ) (e : Event) :
    (x.post e).nextRequest = x.nextRequest ∧ (x.post e).stack = x.stack := by
  rw [post]
  split <;> exact ⟨rfl, rfl⟩

theorem start_keeps (x : Exchange κ) :
    x.start.nextRequest = x.nextRequest ∧ x.start.stack = x.stack := by
  obtain ⟨now, eq⟩ := exists_start x
  rw [eq]
  exact ⟨rfl, rfl⟩

theorem setState_keeps (x : Exchange κ) (state : EngineState) :
    (x.setState state).nextRequest = x.nextRequest ∧ (x.setState state).stack = x.stack := by
  obtain ⟨now, eq⟩ := exists_setState x state
  rw [eq]
  exact ⟨rfl, rfl⟩

theorem coordinate_keeps (x : Exchange κ) (group : Nat) :
    (x.coordinate group).nextRequest = x.nextRequest ∧
      (x.coordinate group).stack = x.stack := by
  rw [coordinate]
  split <;> exact ⟨rfl, rfl⟩

/-- Nothing happens to counter and stack. -/
theorem Shift.still (silent : deed.questions = 0)
    (kept : y.nextRequest = x.nextRequest ∧ y.stack = x.stack) : x.Shift deed y :=
  .back deed silent kept.1 (kept.2 ▸ List.suffix_rfl)

theorem shift_ask (x : Exchange κ) (item : Item) (resume : κ) :
    x.Shift (.move (.ask item resume)) (x.ask item resume) := by
  have posted := post_keeps (x.number item).2 (.submit (x.number item).1 true)
  have noted := setState_keeps ((x.number item).2.post (.submit (x.number item).1 true)) .waiting
  refine .ask item resume (noted.1.trans posted.1) ?_
  refine congrArg (Activity.waiting (x.number item).1 resume :: ·) ?_
  exact noted.2.trans (posted.2.trans (start_keeps x).2)

theorem shift_wakeUp {woken : Woken κ} (woke : x.wakeUp = some (woken, y)) :
    x.Shift (.move .wake) y := by
  cases takesNext_of_wakeUp woke with
  | resume question resume rest answer wakes top first own =>
    have noted := setState_keeps { x with wakes, stack := rest } .running
    refine .back _ rfl noted.1 ?_
    rw [noted.2, top]
    exact List.suffix_cons _ rest
  | drop question resume rest answer wakes top first other => exact .still rfl ⟨rfl, rfl⟩
  | serve question resume rest request wakes top first =>
    have noted := setState_keeps { x with wakes, stack := .serving request :: x.stack } .running
    exact .serve _ rfl noted.1 request noted.2
  | stop question resume rest top none stopped =>
    have noted := setState_keeps { x with stack := rest } .running
    refine .back _ rfl noted.1 ?_
    rw [noted.2, top]
    exact List.suffix_cons _ rest

theorem shift_finish (x : Exchange κ) (reply : Item) :
    x.Shift (.move (.finish reply)) (x.finish reply) := by
  rw [finish]
  split
  · next request rest top =>
    have noted := setState_keeps { x with stack := rest } .waiting
    have posted := post_keeps (({ x with stack := rest } : Exchange κ).setState .waiting)
      (.executed reply)
    refine .back _ rfl (posted.1.trans noted.1) ?_
    rw [posted.2, noted.2, top]
    exact List.suffix_cons _ rest
  · exact .still rfl ⟨rfl, rfl⟩

theorem shift_move {move : Move κ} (moved : x.move? move = some y) : x.Shift (.move move) y := by
  have unlessWaiting {z : Exchange κ} (shift : x.Shift (.move move) z)
      (moved : (if x.isWaiting then none else some z) = some y) : x.Shift (.move move) y := by
    split at moved
    · cases moved
    · exact Option.some.inj moved ▸ shift
  cases move with
  | ask item resume => exact unlessWaiting (shift_ask x item resume) moved
  | tell item =>
    have posted := post_keeps x.start (.submit item false)
    have started := start_keeps x
    exact unlessWaiting (.still rfl ⟨posted.1.trans started.1, posted.2.trans started.2⟩) moved
  | busy busy => exact unlessWaiting (.still rfl (post_keeps x _)) moved
  | wake =>
    obtain ⟨⟨woken, z⟩, woke, rfl⟩ := Option.map_eq_some_iff.mp moved
    exact shift_wakeUp woke
  | finish reply => exact Option.some.inj moved ▸ shift_finish x reply
  | abandon call => exact Option.some.inj moved ▸ .still rfl ⟨rfl, rfl⟩
  | receive =>
    rw [move?, receive?] at moved
    split at moved
    · cases moved
    · exact Option.some.inj moved ▸ .still rfl ⟨rfl, rfl⟩
  | pump => exact Option.some.inj moved ▸ .still rfl ⟨rfl, rfl⟩
  | _ => exact Option.some.inj moved ▸ .still rfl (post_keeps x _)

/-- Each deed does one of these things to counter and stack. -/
theorem shift_of_deed (done : x.deed? deed = some y) : x.Shift deed y := by
  cases deed with
  | move move =>
    refine shift_move ?_
    cases move with
    | pump => exact (Option.ite_none_right_eq_some.mp done).2
    | _ => exact done
  | askStopped item =>
    exact Option.some.inj done ▸ .askStopped item rfl (start_keeps x).2
  | coordinate group => exact Option.some.inj done ▸ .still rfl (coordinate_keeps x group)
  | shutdown => exact Option.some.inj done ▸ .still rfl (post_keeps _ _)

/-- The counter goes on by one for each question. -/
theorem next_of_course (course : Course lawful x deeds y) :
    y.nextRequest = x.nextRequest + .ofNat (questionsIn deeds) := by
  induction course with
  | nil => exact (UInt32.add_zero _).symm
  | @cons x y z deed deeds law done _ ih =>
    have step : y.nextRequest = x.nextRequest + .ofNat deed.questions := by
      cases shift_of_deed done with
      | ask item resume next => exact next
      | askStopped item next => exact next
      | back deed silent next | serve deed silent next =>
        rw [silent, next]
        exact (UInt32.add_zero _).symm
    rw [questionsIn, UInt32.ofNat_add, ← UInt32.add_assoc, ← step, ih]

/-- A question in which the engine waits has been open before, or has been asked since. -/
theorem asked_of_course (course : Course lawful x deeds z) {question : Item} {resume : κ}
    {outer : List (Activity κ)} (waits : .waiting question resume :: outer <:+ z.stack) :
    .waiting question resume :: outer <:+ x.stack ∨
      ∃ before item after y, deeds = before ++ .move (.ask item resume) :: after ∧
        Course lawful x before y ∧ y.stack = outer ∧ question = (y.number item).1 ∧
        Course lawful y (.move (.ask item resume) :: after) z := by
  induction course with
  | nil => exact .inl waits
  | @cons x y z deed deeds law done later ih =>
    -- What is open after the first deed has been open before, unless the deed asks it.
    rcases ih waits with below | ⟨before, item, after, w, rfl, course, stack, number, onward⟩
    · cases shift_of_deed done with
      | ask item resume' next stack =>
        rw [stack, List.suffix_cons_iff] at below
        rcases below with same | below
        · obtain ⟨top, rfl⟩ := List.cons.inj same
          obtain ⟨rfl, rfl⟩ := Activity.waiting.inj top
          exact .inr ⟨[], item, deeds, x, rfl, .nil, rfl, rfl, .cons law done later⟩
        · exact .inl below
      | askStopped item next stack => exact .inl (stack ▸ below)
      | back deed silent next stack => exact .inl (below.trans stack)
      | serve deed silent next request stack =>
        rw [stack, List.suffix_cons_iff] at below
        rcases below with same | below
        · cases (List.cons.inj same).1
        · exact .inl below
    · exact .inr ⟨deed :: before, item, after, w, rfl, .cons law done course, stack, number, onward⟩

/-! ### Questions that the coordinator keeps -/

/-- The coordinator runs, and answers under way, questions under way and questions that it keeps are
for waits of the engine, each for one of its own. -/
structure Covered (x : Exchange κ) : Prop where
  running : x.isRunning = true
  settled : x.coordinator.sent = []
  labelled : x.coordinator.StashLabelled
  within : (answerIds x.wakes ++ (askedIds x.events ++ x.coordinator.pendingIds)).Subperm
    (waitingIds x.stack)

namespace Covered

theorem of_ofCapacity (capacity : Nat) : (ofCapacity capacity : Exchange κ).Covered :=
  ⟨rfl, rfl, List.forall_mem_nil _, List.nil_subperm⟩

/-- The engine and the clients leave the coordinator as it is. -/
theorem of_coordinator (h : x.Covered) (same : y.coordinator = x.coordinator)
    (within : (answerIds y.wakes ++ (askedIds y.events ++ x.coordinator.pendingIds)).Subperm
      (waitingIds y.stack)) : y.Covered := by
  obtain ⟨running, settled, labelled, -⟩ := h
  refine ⟨?_, ?_, ?_, ?_⟩
  · rwa [isRunning, same]
  · rwa [same]
  · rwa [same]
  · rwa [same]

/-- Questions that are answered move from the coordinator to the answers under way. -/
theorem answered (h : x.Covered) {c : Coordinator} {events : List Event}
    (asked : List (Option RequestId)) (answers : List Item) (running : c.running = true)
    (labelled : c.StashLabelled) (arrives : askedIds x.events = asked ++ askedIds events)
    (ids : answerIds (Coordinator.wakesOf c.sent) = answers.map (·.id))
    (kept : asked ++ x.coordinator.pendingIds = answers.map (·.id) ++ c.pendingIds) :
    ({ x with coordinator := c, events } : Exchange κ).collect.Covered := by
  refine ⟨running, rfl, labelled, ?_⟩
  have within := h.within
  rw [arrives] at within
  show (answerIds (x.wakes ++ Coordinator.wakesOf c.sent) ++ _).Subperm _
  rw [answerIds_append, ids]
  exact (perm_of_answered kept).subperm_right.mpr within

theorem receive (h : x.Covered) {e : Event} {later : List Event} (first : x.events = e :: later)
    (stays : e ≠ .shutdown) :
    ({ x with coordinator := x.coordinator.handle e, events := later } :
      Exchange κ).collect.Covered := by
  have handled : x.coordinator.handle e = x.coordinator.serve e := if_pos h.running
  have served := Coordinator.answers_serve h.labelled stays
  obtain ⟨answers, wakes, kept⟩ := served.answered
  rw [sent_opened, h.settled] at wakes
  rw [pendingIds_opened] at kept
  rw [handled]
  refine h.answered (askedIds [e]) answers ?_ served.labelled ?_ ?_ kept
  · exact served.running.trans ((running_opened _ e).trans h.running)
  · rw [first]
    exact askedIds_cons e later
  · rw [wakes]
    exact answerIds_answers answers

theorem pump (h : x.Covered) : x.pump.Covered := by
  obtain ⟨running, pending, labelled⟩ := Coordinator.forward_keeps h.labelled
  have pumped := Coordinator.answers_pump labelled x.abandoned.contains
  obtain ⟨answers, wakes, kept⟩ := pumped.answered
  rw [Coordinator.pendingIds, pending] at kept
  refine h.answered [] answers ?_ pumped.labelled (List.nil_append _).symm ?_ kept
  · exact pumped.running.trans (running.trans h.running)
  · -- A request that is handed out besides is no answer.
    rw [wakes, answerIds_append, answerIds_answers]
    rcases x.coordinator.forward_cases with same | ⟨-, s, item, forwarded⟩
    · rw [same, h.settled]
      rfl
    · obtain ⟨-, -, -, -, sent⟩ := Coordinator.EngineSide.mk.injEq .. ▸ forwarded
      rw [sent, h.settled]
      rfl

theorem moved (h : x.Covered) {move : Move κ} (moved : x.Moved move y) :
    y.Covered ∨ ∃ wakes, y.Drains wakes := by
  have within := h.within
  cases moved with
  | ask item resume now free =>
    refine .inl (h.of_coordinator rfl ?_)
    rw [askedIds_append]
    exact (perm_of_asked ..).subperm_right.mpr ((List.subperm_cons _).mpr within)
  | say move e now posts =>
    have quiet : askedIds [e] = [] := by cases move <;> cases posts <;> rfl
    refine .inl (h.of_coordinator rfl ?_)
    rwa [askedIds_append, quiet, List.append_nil]
  | abandon call => exact .inl (h.of_coordinator rfl within)
  | idle reply => exact .inl h
  | finish request rest reply now top =>
    refine .inl (h.of_coordinator rfl ?_)
    rw [askedIds_append, askedIds_executed, List.append_nil]
    rwa [top] at within
  | resume question resume rest answer wakes now top first own =>
    refine .inl (h.of_coordinator rfl ?_)
    rw [top, first, answerIds_answer, own] at within
    exact (List.subperm_cons question.id).mp within
  | drop question resume rest answer wakes top first =>
    -- The answer has been for another question, which stays open.
    refine .inl (h.of_coordinator rfl ?_)
    rw [first, answerIds_answer] at within
    exact (List.sublist_cons_self _ _).subperm.trans within
  | serve question resume rest request wakes now top first =>
    refine .inl (h.of_coordinator rfl ?_)
    rwa [first] at within
  | receive e later first =>
    by_cases stops : e = .shutdown
    · -- The questions that are kept at the end are never answered by the coordinator.
      rw [stops]
      exact .inr ⟨x.wakes, .of_shutdown h.running h.settled later⟩
    · exact .inl (h.receive first stops)
  | pump => exact .inl h.pump

theorem askStopped (h : x.Covered) (item : Item) : (x.askStopped item).2.Covered := by
  obtain ⟨now, started⟩ := exists_start x
  rw [Exchange.askStopped, number, started]
  exact h.of_coordinator rfl h.within

theorem shutdown (h : x.Covered) : x.shutdown.Covered := by
  rw [Exchange.shutdown, post_of_running (x := { x with state := .stopped }) h.running]
  refine h.of_coordinator rfl ?_
  rw [askedIds_append]
  exact (List.append_nil (askedIds x.events)).symm ▸ h.within

end Covered

theorem invariant_covered : Invariant (κ := κ) (fun _ _ => True) (fun _ => ([] : List Unit))
    fun _ x => x.Covered ∨ ∃ wakes, x.Drains wakes where
  receives := ⟨fun _ => trivial, rfl⟩
  pumps := ⟨fun _ => trivial, rfl⟩
  moves h _ serves moved := by
    rcases h with covered | ⟨wakes, drains⟩
    · exact covered.moved (moved_of_move covered.running moved)
    · exact .inr ⟨wakes, drains.moves serves moved⟩
  asks item h := h.imp (·.askStopped item) fun ⟨wakes, drains⟩ => ⟨wakes, drains.askStopped item⟩
  closes h stopped _ := by
    rcases h with covered | ⟨wakes, drains⟩
    · rw [covered.running] at stopped
      cases stopped
    · exact .inr ⟨wakes, drains.coordinate_zero⟩
  stops h := h.imp Covered.shutdown fun ⟨wakes, drains⟩ => ⟨wakes, drains.shutdown⟩

/-- In every course, a running coordinator only knows of open questions. -/
theorem covered_of_course {capacity : Nat} (course : Course lawful (ofCapacity capacity) deeds x)
    (running : x.isRunning = true) : x.Covered := by
  have unlawful := course.mono fun _ _ _ => trivial
  -- The invariant holds whatever the law is, and brings nothing along.
  have either := invariant_covered.course unlawful [] (.inl (.of_ofCapacity capacity))
  refine either.resolve_right ?_
  rintro ⟨wakes, drains⟩
  rw [drains.stopped] at running
  cases running

/-- A number in which the engine waits is that of a question on its stack. -/
theorem exists_of_mem_waitingIds {stack : List (Activity κ)} {id : Option RequestId}
    (member : id ∈ waitingIds stack) :
    ∃ question resume, .waiting question resume ∈ stack ∧ question.id = id := by
  obtain ⟨activity, member, number⟩ := List.mem_filterMap.mp member
  cases activity with
  | waiting question resume => exact ⟨question, resume, member, Option.some.inj number⟩
  | serving request => cases number

/-! ### Numbers that start anew -/

/-- A counter comes back to where it was after all of its numbers. -/
theorem eq_add_ofNat_iff (a : UInt32) (k : Nat) : a = a + .ofNat k ↔ UInt32.size ∣ k := by
  have small := a.toNat_lt
  rw [← UInt32.toNat_inj, UInt32.toNat_add, UInt32.toNat_ofNat', Nat.dvd_iff_mod_eq_zero]
  show _ ↔ k % 4294967296 = 0
  omega

end Exchange

/-! ### Numbers on the wire -/

namespace Item

variable {L : Limits} {item : Item}

/-- A number with the sign bit is refused, apart from the one that marks no number. -/
theorem getId_of_negative {n : RequestId} (negative : countBound ≤ n.toNat)
    (other : n.toNat + 1 ≠ UInt32.size) (rest : Bytes) :
    getId (putId (some n) ++ rest) =
      .error ⟨.badLength "request id" (n.toNat - UInt32.size), rest⟩ := by
  have small := n.toNat_lt
  have half : countBound = 2147483648 := rfl
  have size : UInt32.size = 4294967296 := rfl
  -- As a signed word the number is less by the size of a word.
  have value : n.toInt32.toInt = (n.toNat : Int) - UInt32.size := by
    show n.toBitVec.toInt = _
    rw [BitVec.toInt_eq_toNat_cond, if_neg (by rw [UInt32.toNat_toBitVec]; omega)]
    rfl
  have known : n.toInt32 ≠ -1 := by
    intro absent
    rw [absent] at value
    have mark : (-1 : Int32).toInt = -1 := by decide
    omega
  have below : ¬0 ≤ n.toInt32 := by
    rw [Int32.le_iff_toInt_le, value]
    have zero : (0 : Int32).toInt = 0 := by decide
    omega
  refine ((reads_getI32 n.toInt32).bind_apply _ rest).trans ?_
  rw [if_neg known, if_neg below, value]
  rfl

/-- What is read of a sendable item under any number: the item with its number, the item without a
number, or no item. -/
theorem get_of_number (n : RequestId) (fits : Fits (item.lengths L))
    (sendable : ({ item with id := none } : Item).Sendable L) :
    ∃ bytes, ({ item with id := some n } : Item).put L = .ok bytes ∧ ∀ rest,
      (n.toNat < countBound → Item.get L (bytes ++ rest) =
        .ok (({ item with id := some n } : Item).normalize L, rest)) ∧
      (n.toNat + 1 = UInt32.size → Item.get L (bytes ++ rest) =
        .ok (({ item with id := none } : Item).normalize L, rest)) ∧
      (countBound ≤ n.toNat → n.toNat + 1 ≠ UInt32.size → ∃ left, Item.get L (bytes ++ rest) =
        .error ⟨.badLength "request id" (n.toNat - UInt32.size), left⟩) := by
  obtain ⟨kindBytes, kindWritten, kindRead⟩ :=
    @readsBack_kind L { item with id := none } fits sendable
  obtain ⟨answerBytes, answerWritten, answerRead⟩ :=
    @readsBack_answer L { item with id := none } fits sendable
  have written (id : Option RequestId) : ({ item with id } : Item).put L =
      .ok (putU32 item.slot ++ putId id ++ kindBytes ++ answerBytes) := by
    rw [put, kindWritten, answerWritten]
    rfl
  have read (id : Option RequestId) (numbered : id.all (·.toNat < countBound)) :
      (Item.get L).Reads (putU32 item.slot ++ putId id ++ kindBytes ++ answerBytes)
        (({ item with id } : Item).normalize L) := by
    obtain ⟨bytes, written', read, -⟩ :=
      @readsBack L { item with id } fits { sendable with numbered }
    rw [written id] at written'
    exact Except.ok.inj written' ▸ read
  refine ⟨_, written (some n), fun rest => ⟨fun small => ?_, fun mark => ?_, ?_⟩⟩
  · exact read (some n) (decide_eq_true small) rest
  · -- The largest number is written like none.
    obtain rfl : n = 0xFFFFFFFF := UInt32.toNat_inj.mp (Nat.succ.inj mark)
    exact read none rfl rest
  · intro negative other
    refine ⟨kindBytes ++ (answerBytes ++ rest), ?_⟩
    simp only [List.append_assoc]
    refine ((reads_getU32 item.slot).bind_apply _ _).trans ?_
    show (do let p ← getId (putId (some n) ++ _); _) = _
    rw [getId_of_negative negative other]
    rfl

end Item

/-! ### The next number -/

namespace Exchange

open Track

variable {κ : Type} {x : Exchange κ} {deeds : List (Deed κ)}
  {lawful : Exchange κ → Move κ → Prop} {capacity : Nat}

/-- The next number is that of an open question exactly if the questions from that one on are a
multiple of all the numbers that there are. -/
theorem number_of_course (course : Course lawful (ofCapacity capacity) deeds x) {question : Item}
    {resume : κ} {outer : List (Activity κ)}
    (waits : .waiting question resume :: outer <:+ x.stack) :
    ∃ before item after y, deeds = before ++ .move (.ask item resume) :: after ∧
      Course lawful (ofCapacity capacity) before y ∧ y.stack = outer ∧
      question = (y.number item).1 ∧
      (question.id = some x.nextRequest ↔ UInt32.size ∣ questionsIn after + 1) := by
  rcases asked_of_course course waits with
    none | ⟨before, item, after, y, rfl, course, stack, number, onward⟩
  · -- Nothing is open at the start.
    cases List.eq_nil_of_suffix_nil none
  · refine ⟨before, item, after, y, rfl, course, stack, number, ?_⟩
    -- The counter has gone on from the number of the question by one for each later one.
    have next := next_of_course onward
    rw [number, next, Exchange.number, Option.some.injEq, eq_add_ofNat_iff, questionsIn]
    exact iff_of_eq (congrArg (UInt32.size ∣ ·) (Nat.add_comm ..))

/-- The next question has the number of an open one if and only if a multiple of 2³² questions has
been asked from that one on, and a running coordinator keeps no other questions than open ones. The
next question is written in any case. It is read back with its number if all questions up to it,
modulo 2³², are fewer than 2³¹. Of the other numbers the largest is read as none, and the rest are
refused. -/
theorem number_fresh_and_sent_iff (course : Course lawful (ofCapacity capacity) deeds x) :
    (∀ question resume outer, .waiting question resume :: outer <:+ x.stack →
      ∃ before item after y, deeds = before ++ .move (.ask item resume) :: after ∧
        Course lawful (ofCapacity capacity) before y ∧ y.stack = outer ∧
        question = (y.number item).1 ∧
        (question.id = some x.nextRequest ↔ UInt32.size ∣ questionsIn after + 1)) ∧
      (x.isRunning = true → ∀ id ∈ askedIds x.events ++ x.coordinator.pendingIds,
        ∃ question resume, .waiting question resume ∈ x.stack ∧ question.id = id) ∧
      ∀ (L : Limits) (item : Item), Fits (item.lengths L) →
        ({ item with id := none } : Item).Sendable L →
        ∃ bytes, (x.number item).1.put L = .ok bytes ∧ ∀ rest,
          ((questionsIn deeds + 1) % UInt32.size < countBound →
            Item.get L (bytes ++ rest) = .ok ((x.number item).1.normalize L, rest)) ∧
          ((questionsIn deeds + 1) % UInt32.size + 1 = UInt32.size → Item.get L (bytes ++ rest) =
            .ok (({ item with id := none } : Item).normalize L, rest)) ∧
          (countBound ≤ (questionsIn deeds + 1) % UInt32.size →
            (questionsIn deeds + 1) % UInt32.size + 1 ≠ UInt32.size → ∃ left,
              Item.get L (bytes ++ rest) = .error ⟨.badLength "request id"
                (((questionsIn deeds + 1) % UInt32.size : Nat) - UInt32.size), left⟩) := by
  refine ⟨fun question resume outer => number_of_course course, ?_, ?_⟩
  · intro running id known
    obtain ⟨-, -, -, within⟩ := covered_of_course course running
    exact exists_of_mem_waitingIds (within.subset (List.mem_append_right _ known))
  · intro L item fits sendable
    have count : x.nextRequest.toNat = (questionsIn deeds + 1) % UInt32.size := by
      rw [next_of_course course, UInt32.toNat_add, UInt32.toNat_ofNat', Nat.add_mod_mod,
        Nat.add_comm]
      rfl
    rw [← count]
    exact Item.get_of_number x.nextRequest fits sendable

/-- A client has a function called while the engine waits for a line. -/
def functionCall : List (Deed Unit) := (answerDuringCall.take 8).map .move

/-- A question to a slot without a client, which is answered at once. -/
def strayQuestion : List (Deed Unit) :=
  [.move (.ask { lineRequest with slot := 1 } ()), .move .receive, .move .wake]

/-- While the function runs, questions to nobody only move the counter. -/
theorem course_functionCall : ∃ (x : Exchange Unit) (outer : List (Activity Unit)),
    Course (fun _ _ => True) (ofCapacity 64) functionCall x ∧ x.isRunning = true ∧
      .waiting { lineRequest with id := some 1 } () :: outer <:+ x.stack ∧
      some 1 ∈ x.coordinator.pendingIds ∧
      ∀ n, Course (fun _ _ => True) { x with nextRequest := n } strayQuestion
        { x with nextRequest := n + 1 } := by
  refine ⟨_, [], course_of_visited rfl (fun _ _ => trivial) (by decide +kernel) rfl, rfl,
    List.suffix_cons _ _, .head _, fun n => ?_⟩
  refine .cons (fun _ _ => trivial) rfl (.cons (fun _ _ => trivial) rfl ?_)
  refine .cons (fun _ _ => trivial) ?_ .nil
  -- The answer is taken whatever the number is.
  show Option.map _ (if some n == some n then _ else _) = _
  exact (congrArg (Option.map _) (if_pos (beq_self_eq_true (some n)))).trans rfl

/-- There can be as many questions inside of the first one as one likes. -/
theorem course_strayQuestions (k : Nat) : ∃ (deeds : List (Deed Unit)) (x : Exchange Unit),
    Course (fun _ _ => True) (ofCapacity 64) deeds x ∧ questionsIn deeds = k + 1 ∧
      some 1 ∈ x.coordinator.pendingIds ∧
      ∀ n, Course (fun _ _ => True) { x with nextRequest := n } strayQuestion
        { x with nextRequest := n + 1 } := by
  induction k with
  | zero =>
    obtain ⟨x, -, course, -, -, pending, again⟩ := course_functionCall
    exact ⟨functionCall, x, course, rfl, pending, again⟩
  | succ k ih =>
    -- The question only moves the counter, so it can be asked again.
    obtain ⟨deeds, x, course, count, pending, again⟩ := ih
    refine ⟨deeds ++ strayQuestion, _, course.append (again x.nextRequest), ?_, pending, again⟩
    rw [questionsIn_append, count]
    rfl

/-- While the first question is open, the question with number 2³¹ is written and refused, and the
question that comes 2³² after the first one gets the same number. -/
theorem number_refused_and_taken :
    (∃ (deeds : List (Deed Unit)) (x : Exchange Unit),
      Course (fun _ _ => True) (ofCapacity 64) deeds x ∧ questionsIn deeds + 1 = countBound ∧
        ∃ bytes left, (x.number lineRequest).1.put {} = .ok bytes ∧
          Item.get {} bytes = .error ⟨.badLength "request id" (-countBound), left⟩) ∧
      ∃ (deeds : List (Deed Unit)) (x : Exchange Unit),
        Course (fun _ _ => True) (ofCapacity 64) deeds x ∧ questionsIn deeds = UInt32.size ∧
          (x.number lineRequest).1.id ∈ x.coordinator.pendingIds := by
  constructor
  · obtain ⟨deeds, x, course, count, -⟩ := course_strayQuestions (countBound - 2)
    have next : x.nextRequest = 0x80000000 := by
      rw [next_of_course course, count]
      decide
    have sendable : lineRequest.Sendable {} := by decide +kernel
    have fits : Fits (lineRequest.lengths {}) := by decide +kernel
    obtain ⟨bytes, written, read⟩ := Item.get_of_number x.nextRequest fits sendable
    obtain ⟨left, refused⟩ := (read []).2.2 (by rw [next]; decide) (by rw [next]; decide)
    rw [List.append_nil, next] at refused
    exact ⟨deeds, x, course, congrArg (· + 1) count, bytes, left, written, refused⟩
  · obtain ⟨deeds, x, course, count, pending, -⟩ := course_strayQuestions (UInt32.size - 1)
    have next : x.nextRequest = 1 := by
      rw [next_of_course course, count]
      decide
    have same : (x.number lineRequest).1.id = some 1 := congrArg some next
    exact ⟨deeds, x, course, count, same ▸ pending⟩

/-- Inside of the first question, the second one gets another number, which is read back. -/
theorem number_fresh_and_sent_iff_functionCall : ∃ x : Exchange Unit,
    Course (fun _ _ => True) (ofCapacity 64) functionCall x ∧
      (∃ question resume outer, .waiting question resume :: outer <:+ x.stack ∧
        question.id ≠ some x.nextRequest) ∧
      x.isRunning = true ∧ some 1 ∈ askedIds x.events ++ x.coordinator.pendingIds ∧
      (∃ question resume, .waiting question resume ∈ x.stack ∧ question.id = some 1) ∧
      Fits (lineRequest.lengths {}) ∧ lineRequest.Sendable {} ∧
      ∃ bytes, (x.number lineRequest).1.put {} = .ok bytes ∧
        Item.get {} bytes = .ok ((x.number lineRequest).1.normalize {}, []) := by
  obtain ⟨x, outer, course, running, waits, pending, -⟩ := course_functionCall
  have fits : Fits (lineRequest.lengths {}) := by decide +kernel
  have sendable : lineRequest.Sendable {} := by decide +kernel
  have known := List.mem_append_right (askedIds x.events) pending
  obtain ⟨fresh, kept, sent⟩ := number_fresh_and_sent_iff course
  obtain ⟨before, item, after, y, split, -, -, -, taken⟩ := fresh _ _ outer waits
  obtain ⟨bytes, written, read⟩ := sent {} lineRequest fits sendable
  refine ⟨x, course, ⟨_, _, outer, waits, fun same => ?_⟩, running, known,
    kept running _ known, fits, sendable, bytes, written, ?_⟩
  · -- The first question is the only one.
    have count : 1 = questionsIn before + (1 + questionsIn after) :=
      (congrArg questionsIn split).trans (questionsIn_append ..)
    have none : questionsIn after = 0 := by omega
    have many := taken.mp same
    rw [none] at many
    exact absurd many (by decide)
  · have small := (read []).1 (by decide)
    rwa [List.append_nil] at small

end Exchange

end EngineLink
