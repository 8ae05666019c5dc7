import Mathlib.Data.List.Nodup
import EngineLink.Proofs.Exchange.Mail
import EngineLink.Proofs.Exchange.Sending

/-!
# Questions that stay without an answer

When the primary client comes back without the answer to the innermost question, it gets the
question once more, and when that happens again, the question fails. What the client submits starts
this over. A client can also answer a question with the same failure, so an answer with it was
submitted or follows two batches with the question.

## Main definitions

* `Coordinator.questionsIn`, `Coordinator.givenIn` — the questions and the answers in a run
* `Coordinator.Justified` — a failure was submitted or follows two batches with the question
* `Coordinator.Repeats`, `Coordinator.Fails` — a question is queued for the primary client again, or
  fails
* `Coordinator.SubmitsIn` — the primary client submits something

## Main results

* `Coordinator.AllJustified.acts` — in every run, all failures are justified
* `Coordinator.Marked.acts` — a question stays marked until the client submits something
* `Coordinator.failed_after_two_batches` — a question fails only after two batches, and is queued
  again at most once between submissions
-/

namespace EngineLink.Coordinator

variable {caller : CallId → SlotId × ClientId} {known said : Item → Prop} {c d : Coordinator}
  {a : Act} {id : Option RequestId}

/-! ### Runs -/

/-- The questions in a run. -/
def questionsIn (run : List Act) : List Item := run.flatMap questionsBy

/-- The answers in an act. -/
def givenBy : Act → List Item
  | .receive e => given e
  | .pump _ => []

/-- The answers in a run. -/
def givenIn (run : List Act) : List Item := run.flatMap givenBy

theorem askedIn_eq (run : List Act) : askedIn run = (questionsIn run).map (·.id) := by
  rw [askedIn, questionsIn, List.map_flatMap]
  congr 1
  funext a
  cases a with
  | pump gone => rfl
  | receive e =>
    cases e with
    | submit item wait => cases wait <;> rfl
    | _ => rfl

theorem exists_sent_act (c : Coordinator) (a : Act) : ∃ more, (c.act a).sent = c.sent ++ more := by
  have start : c = after c.sent { c with sent := [] } := by
    rw [after, List.append_nil]
  exact ⟨_, congrArg Coordinator.sent (act_after start a)⟩

/-! ### Failures -/

/-- An answer is the failure of a question that stayed without one. -/
def FailsUnanswered (answer : Item) : Prop :=
  ∃ status, answer.answer = some (.status status) ∧ status.code = Status.Code.unanswered

/-- If an answer is such a failure, it has been submitted, or it is for a question to the primary
slot that was in two batches before. -/
def Justified (known said : Item → Prop) (caller : CallId → SlotId × ClientId)
    (before : List Effect) (answer : Item) : Prop :=
  FailsUnanswered answer → said answer ∨ ∃ question, known question ∧
    question.slot = SlotId.primary ∧ answer = question.answered (.status unanswered) ∧
      Came known question.id 2 (batches caller before)

theorem Justified.append {before : List Effect} {answer : Item}
    (h : Justified known said caller before answer) (more : List Effect) :
    Justified known said caller (before ++ more) answer := by
  intro fails
  refine (h fails).imp_right ?_
  rintro ⟨question, asked, primary, same, came⟩
  rw [batches_append]
  exact ⟨question, asked, primary, same, came.append _⟩

/-- Cancellations say something else. -/
theorem justified_answered {status : Status} (other : status.code ≠ Status.Code.unanswered)
    (before : List Effect) (question : Item) :
    Justified known said caller before (question.answered (.status status)) := by
  rintro ⟨stated, same, code⟩
  obtain rfl := Answer.status.inj (Option.some.inj same)
  exact absurd code other

theorem Held.mono {fine good : Item → Prop} (held : c.Held fine)
    (h : ∀ item, fine item → good item) : c.Held good :=
  fun p member => ⟨(held p member).1, h p.2 (held p member).2.1, (held p member).2.2⟩

/-- All failures that have been sent or are held back are justified. -/
structure AllJustified (known said : Item → Prop) (caller : CallId → SlotId × ClientId)
    (c : Coordinator) : Prop where
  tidy : c.Tidy caller
  inMail : c.running = true → InMail known caller c
  held : c.Held (Justified known said caller c.sent)
  sent : ∀ before answer after, c.sent = before ++ .wake (.answer answer) :: after →
    Justified known said caller before answer

theorem allJustified_ofCapacity (known said : Item → Prop) (caller : CallId → SlotId × ClientId)
    (capacity : Nat) : AllJustified known said caller (ofCapacity capacity) := by
  refine ⟨tidy_ofCapacity caller capacity, fun _ => inMail_ofCapacity known caller capacity,
    List.forall_mem_nil _, fun before answer after none => ?_⟩
  exact absurd none.symm (List.append_ne_nil_of_right_ne_nil before (List.cons_ne_nil _ after))

namespace AllJustified

theorem serve (h : AllJustified known said caller c) {e : Event}
    (gives : ∀ answer ∈ given e, said answer) :
    Speaks (Justified known said caller c.sent) c (c.serve e) :=
  speaks_serve h.held (fun p _ => justified_answered (by decide) _ p.question)
    (fun question _ => justified_answered (by decide) _ question)
    fun answer takes _ => .inl (gives answer takes.mem_given)

/-- A question whose answer is lacking for the second time was in two batches. -/
theorem came_twice (h : AllJustified known said caller c) (running : c.running = true)
    {top : Pending} {rest : List Pending} (lacks : c.forward.Lacks top rest)
    (retried : top.retried = true) :
    known top.question ∧ Came known top.question.id 2 (batches caller c.sent) := by
  have inMail := (h.inMail running).forward
  have came := lacks.came h.tidy.forward inMail
  rw [due, retried, if_pos rfl, (queues_forward c).got] at came
  exact ⟨(inMail.mailed top (lacks.pending ▸ List.mem_cons_self)).asked, came⟩

/-- A question fails only after it has been in two batches. -/
theorem pump (h : AllJustified known said caller c) (running : c.running = true)
    (gone : CallId → Bool) : Speaks (Justified known said caller c.sent) c (c.pump gone) := by
  refine speaks_pump h.held (fun p _ => justified_answered (by decide) _ p.question) ?_ gone
  intro top rest lacks retried _
  obtain ⟨asked, came⟩ := h.came_twice running lacks retried
  exact .inr ⟨top.question, asked, lacks.primary, rfl, came⟩

theorem act (h : AllJustified known said caller c) (own : CallOwned caller a)
    (asks : ∀ item ∈ questionsBy a, known item) (gives : ∀ answer ∈ givenBy a, said answer) :
    AllJustified known said caller (c.act a) := by
  have speaks : Speaks (Justified known said caller c.sent) c (c.act a) := by
    cases a with
    | receive e =>
      rw [Coordinator.act, handle]
      split
      · exact h.serve gives
      · exact h.held.speaks.of_engineSide (engineSide_refuse c e)
    | pump gone =>
      rw [Coordinator.act]
      split
      · next running => exact h.pump running gone
      · exact h.held.speaks
  obtain ⟨more, sent⟩ := exists_sent_act c a
  refine ⟨h.tidy.act own, ?_, ?_, ?_⟩
  · exact InMail.act h.inMail h.tidy (h.held.mono fun _ _ => trivial) asks
  · rw [sent]
    exact speaks.held.mono fun _ justified => justified.append more
  · intro before answer after split
    rw [sent] at split
    obtain ⟨wakes, sentWakes, good⟩ := speaks.answers
    rw [sent, wakesOf_append, List.append_cancel_left_eq] at sentWakes
    have new (mid : List Effect) (here : more = mid ++ .wake (.answer answer) :: after) :
        Justified known said caller c.sent answer := by
      refine good answer ?_
      rw [← sentWakes, here, wakesOf_append]
      exact List.mem_append_right _ List.mem_cons_self
    -- The answer is a new one, or it had been sent before.
    rcases List.append_eq_append_iff.mp split with ⟨mid, rfl, here⟩ | ⟨mid, old, here⟩
    · exact (new mid here).append mid
    · cases mid with
      | nil =>
        rw [List.append_nil] at old
        exact old ▸ new [] here.symm
      | cons first mid =>
        rw [List.cons_append, List.cons.injEq] at here
        rw [← here.1] at old
        exact h.sent before answer mid old

/-- In every run, all failures are justified. -/
theorem acts (h : AllJustified known said caller c) {run : List Act}
    (own : ∀ a ∈ run, CallOwned caller a) (asks : ∀ item ∈ questionsIn run, known item)
    (gives : ∀ answer ∈ givenIn run, said answer) :
    AllJustified known said caller (c.acts run) := by
  induction run generalizing c with
  | nil => exact h
  | cons a run ih =>
    rw [List.forall_mem_cons] at own
    rw [questionsIn, List.flatMap_cons, List.forall_mem_append] at asks
    rw [givenIn, List.flatMap_cons, List.forall_mem_append] at gives
    exact ih (h.act own.1 asks.1 gives.1) own.2 asks.2 gives.2

end AllJustified

/-! ### Questions that are queued again -/

/-- Handing out queues a question for the primary client again. -/
def Repeats (c : Coordinator) (question : Item) : Prop :=
  c.running = true ∧
    c.forward.retryIfRequested.primaryQueue = c.forward.primaryQueue ++ [question]

/-- Whether a question has a number. -/
def isOf (id : Option RequestId) (p : Pending) : Bool := p.question.id == id

/-- The innermost question with a number is marked as one that has been sent again. -/
def Marked (id : Option RequestId) (c : Coordinator) : Prop :=
  ∀ p ∈ c.pending.find? (isOf id), p.retried = true

/-- Only a question that is not marked is queued again, and it is marked then. -/
theorem Repeats.stack {question : Item} (h : c.Repeats question) (gone : CallId → Bool) :
    ∃ rest, c.pending = ⟨question, false⟩ :: rest ∧
      (c.act (.pump gone)).pending = ⟨question, true⟩ :: rest := by
  obtain ⟨running, queued⟩ := h
  -- In the other two cases nothing is queued.
  have grown (same : c.forward.retryIfRequested.primaryQueue = c.forward.primaryQueue) : False := by
    rw [same] at queued
    exact absurd (List.self_eq_append_right.mp queued) (List.cons_ne_nil question [])
  rcases retryIfRequested_cases c.forward with same | ⟨top, rest, lacks, ⟨-, same⟩ | ⟨fresh, same⟩⟩
  · exact (grown (by rw [same]; rfl)).elim
  · refine (grown ?_).elim
    rw [same, primaryQueue, slot, slots_failTop]
    rfl
  · have queue : c.forward.retryIfRequested.primaryQueue =
        c.forward.primaryQueue ++ [top.question] := by
      rw [same, primaryQueue, slot_modifySlot_self]
      rfl
    rw [queued, List.append_cancel_left_eq] at queue
    obtain rfl : question = top.question := List.head_eq_of_cons_eq queue
    have delivered := congrArg EngineSide.pending (engineSide_pump gone c)
    refine ⟨rest, ?_, ?_⟩
    · rw [← pending_forward, lacks.pending, ← fresh]
    · rw [act, if_pos running]
      refine delivered.trans ?_
      rw [same]
      rfl

theorem Repeats.not_marked {question : Item} (h : c.Repeats question) : ¬Marked question.id c := by
  obtain ⟨rest, pending, -⟩ := h.stack fun _ => false
  have own : isOf question.id ⟨question, false⟩ = true := beq_self_eq_true question.id
  intro marked
  rw [Marked, pending, List.find?_cons_of_pos own] at marked
  exact Bool.false_ne_true (marked ⟨question, false⟩ rfl)

theorem Repeats.marked {question : Item} (h : c.Repeats question) (gone : CallId → Bool) :
    Marked question.id (c.act (.pump gone)) := by
  obtain ⟨rest, -, pending⟩ := h.stack gone
  have own : isOf question.id ⟨question, true⟩ = true := beq_self_eq_true question.id
  rw [Marked, pending, List.find?_cons_of_pos own]
  intro p found
  rw [← Option.some.inj found]

/-- A question that is queued again waits before and after. -/
theorem Repeats.waits {question : Item} (h : c.Repeats question) (gone : CallId → Bool) :
    question.id ∈ c.pendingIds ∧ question.id ∈ (c.act (.pump gone)).pendingIds := by
  obtain ⟨rest, before, after⟩ := h.stack gone
  rw [pendingIds, before, pendingIds, after]
  exact ⟨List.mem_cons_self, List.mem_cons_self⟩

namespace Marked

theorem of_pending_eq (marked : Marked id c) (same : d.pending = c.pending) : Marked id d := by
  rwa [Marked, same]

/-- The mark stays when other questions are answered. -/
theorem settles {fine : Item → Prop} (marked : Marked id c) (h : Settles fine c d)
    (same : d.answeredIds.count id ≤ c.answeredIds.count id) : Marked id d := by
  obtain ⟨answers, questions, wakes, pending, numbers, -⟩ := h.settled
  -- None of the questions that are answered has the number, since it is not answered.
  have others : id ∉ questions.map (·.question.id) := by
    rw [answeredIds, wakes, Track.answerIds_append, Track.answerIds_answers,
      List.count_append] at same
    rw [← numbers]
    exact List.count_eq_zero.mp (Nat.le_zero.mp (Nat.le_of_add_le_add_left same))
  have none : questions.find? (isOf id) = none := by
    rw [List.find?_eq_none]
    intro p member found
    exact others (List.mem_map.mpr ⟨p, member, beq_iff_eq.mp found⟩)
  rwa [Marked, pending, List.find?_append, none, Option.none_or] at marked

theorem begun (marked : Marked id c) {e : Event} (fresh : id ∉ askedBy (.receive e))
    (quiet : ¬c.Submits e) : Marked id (c.begun e) := by
  cases e with
  | submit item wait =>
    cases wait with
    | false => exact marked
    | true =>
      have other : ¬isOf id ⟨item, false⟩ = true := by
        intro same
        exact fresh (List.mem_singleton.mpr (beq_iff_eq.mp same).symm)
      rwa [Marked, Coordinator.begun, List.find?_cons_of_neg other]
  | call s client items call =>
    rw [Coordinator.begun, if_neg quiet]
    exact marked
  | _ => exact marked

theorem retryIfRequested (held : c.Held fun _ => True) (marked : Marked id c)
    (same : c.retryIfRequested.answeredIds.count id ≤ c.answeredIds.count id) :
    Marked id c.retryIfRequested := by
  rcases retryIfRequested_cases c with
    unchanged | ⟨top, rest, lacks, ⟨-, failed⟩ | ⟨-, repeated⟩⟩
  · rw [unchanged]
    exact marked
  · rw [failed] at same ⊢
    exact marked.settles (settles_fail held (fun _ _ => trivial) lacks trivial) same
  · have pending : c.retryIfRequested.pending = { top with retried := true } :: rest := by
      rw [repeated]
      rfl
    rw [Marked, pending]
    rw [Marked, lacks.pending] at marked
    intro p found
    have number : isOf id { top with retried := true } = isOf id top := rfl
    rw [List.find?_cons, number] at found
    rw [List.find?_cons] at marked
    split at found
    · rw [← Option.some.inj found]
    · next other =>
      rw [other] at marked
      exact marked p found

end Marked

theorem count_answeredIds_le (c : Coordinator) (a : Act) (id : Option RequestId) :
    c.answeredIds.count id ≤ (c.act a).answeredIds.count id := by
  obtain ⟨more, sent⟩ := exists_sent_act c a
  rw [answeredIds, answeredIds, sent, wakesOf_append, Track.answerIds_append, List.count_append]
  exact Nat.le_add_right _ _

theorem count_answeredIds_acts_le (c : Coordinator) (run : List Act) (id : Option RequestId) :
    c.answeredIds.count id ≤ (c.acts run).answeredIds.count id := by
  induction run generalizing c with
  | nil => exact Nat.le_refl _
  | cons a run ih => exact Nat.le_trans (count_answeredIds_le c a id) (ih (c.act a))

/-- The primary client submits something during a run. -/
def SubmitsIn (c : Coordinator) (run : List Act) : Prop :=
  ∃ before e after, run = before ++ .receive e :: after ∧ (c.acts before).running = true ∧
    (c.acts before).Submits e

namespace Marked

/-- The mark stays unless the client submits something, or the number is asked or answered. -/
theorem act (held : c.Held fun _ => True) (marked : Marked id c) (fresh : id ∉ askedBy a)
    (same : (c.act a).answeredIds.count id ≤ c.answeredIds.count id)
    (quiet : ∀ e, a = .receive e → c.running = true → ¬c.Submits e) : Marked id (c.act a) := by
  cases a with
  | receive e =>
    rw [Coordinator.act, handle] at same ⊢
    split
    · next running =>
      rw [if_pos running] at same
      have start := marked.begun fresh (quiet e rfl running)
      have settles := settles_serve (e := e) held (fun _ _ => trivial) (fun _ _ => trivial)
        fun _ _ => trivial
      refine start.settles settles ?_
      rwa [answeredIds, answeredIds, sent_begun]
    · exact marked.of_pending_eq (congrArg EngineSide.pending (engineSide_refuse c e))
  | pump gone =>
    rw [Coordinator.act] at same ⊢
    split
    · next running =>
      rw [if_pos running] at same
      have sent : (c.pump gone).answeredIds = c.forward.retryIfRequested.answeredIds :=
        congrArg (Track.answerIds ∘ EngineSide.wakes) (engineSide_pump gone c)
      have pending : (c.pump gone).pending = c.forward.retryIfRequested.pending :=
        congrArg EngineSide.pending (engineSide_pump gone c)
      rw [sent, ← answeredIds_forward c] at same
      exact ((marked.of_pending_eq (pending_forward c)).retryIfRequested held.forward
        same).of_pending_eq pending
    · exact marked

theorem acts {asked : List (Option RequestId)} (balanced : Balanced asked c)
    (marked : Marked id c) {run : List Act} (fresh : id ∉ askedIn run)
    (same : (c.acts run).answeredIds.count id ≤ c.answeredIds.count id)
    (quiet : ¬c.SubmitsIn run) : Marked id (c.acts run) := by
  induction run generalizing c asked with
  | nil => exact marked
  | cons a run ih =>
    rw [askedIn, List.flatMap_cons, List.mem_append, not_or] at fresh
    have first := count_answeredIds_le c a id
    have later := count_answeredIds_acts_le (c.act a) run id
    change ((c.act a).acts run).answeredIds.count id ≤ _ at same
    have now : Marked id (c.act a) := by
      refine marked.act balanced.held fresh.1 (Nat.le_trans later same) ?_
      rintro e rfl running submits
      exact quiet ⟨[], e, run, rfl, running, submits⟩
    refine ih (balanced.act a) now fresh.2 (Nat.le_trans same first) ?_
    rintro ⟨before, e, after, rfl, running, submits⟩
    exact quiet ⟨a :: before, e, after, rfl, running, submits⟩

end Marked

theorem askedIn_append (run more : List Act) :
    askedIn (run ++ more) = askedIn run ++ askedIn more := List.flatMap_append

/-- A number is asked or answered in a run. -/
def Touches (c : Coordinator) (run : List Act) (id : Option RequestId) : Prop :=
  id ∈ askedIn run ∨ c.answeredIds.count id < (c.acts run).answeredIds.count id

/-- Between two times that a question is queued again, the client submits something. -/
theorem submitsIn_or_touches {asked : List (Option RequestId)} (balanced : Balanced asked c)
    {gone : CallId → Bool} {between : List Act} {question again : Item}
    (first : c.Repeats question) (later : ((c.act (.pump gone)).acts between).Repeats again)
    (same : again.id = question.id) :
    SubmitsIn (c.act (.pump gone)) between ∨ Touches (c.act (.pump gone)) between question.id := by
  refine or_iff_not_imp_left.mpr fun quiet => by_contra fun untouched => ?_
  obtain ⟨fresh, unanswered⟩ := not_or.mp untouched
  have marked := (first.marked gone).acts (balanced.act (.pump gone)) fresh
    (Nat.le_of_not_lt unanswered) quiet
  exact later.not_marked (same ▸ marked)

/-- If numbers are distinct, a question that waits before and after was not asked or answered
meanwhile. -/
theorem not_touches {asked : List (Option RequestId)} (balanced : Balanced asked c)
    {run : List Act} (distinct : (asked ++ askedIn run).Nodup) (waits : id ∈ c.pendingIds)
    (waitsThen : id ∈ (c.acts run).pendingIds) : ¬Touches c run id := by
  rintro (twice | answered)
  · exact (List.nodup_append.mp distinct).2.2 _ (balanced.mem_asked waits) _ twice rfl
  · -- Once answered, it would not wait any longer.
    have sent : id ∈ (c.acts run).answeredIds := List.count_pos_iff.mp (by omega)
    have apart := (balanced.acts run).apart distinct
    exact (List.nodup_append.mp apart).2.2 _ sent _ waitsThen rfl

/-- If numbers are distinct, the client submits something between two times that a question is
queued again. -/
theorem submitsIn_of_distinct {asked : List (Option RequestId)} (balanced : Balanced asked c)
    {gone : CallId → Bool} {between : List Act} {question again : Item}
    (distinct : (asked ++ askedIn between).Nodup) (first : c.Repeats question)
    (later : ((c.act (.pump gone)).acts between).Repeats again) (same : again.id = question.id) :
    SubmitsIn (c.act (.pump gone)) between := by
  refine (submitsIn_or_touches balanced first later same).resolve_right ?_
  refine not_touches (balanced.act (.pump gone)) ?_ (first.waits gone).2
    (same ▸ (later.waits gone).1)
  rwa [askedBy, List.append_nil]

/-! ### Questions that fail -/

/-- Handing out fails the innermost question. -/
def Fails (c : Coordinator) (question : Item) : Prop :=
  c.running = true ∧ c.questions.head? = some question ∧ ∃ others,
    wakesOf c.forward.retryIfRequested.sent =
      wakesOf c.forward.sent ++ .answer (question.answered (.status unanswered)) :: others

/-- Only a question that is marked fails. -/
theorem Fails.lacks {question : Item} (h : c.Fails question) :
    ∃ top rest, c.forward.Lacks top rest ∧ top.question = question ∧ top.retried = true := by
  obtain ⟨-, innermost, others, sent⟩ := h
  -- In the other two cases nothing is sent to the engine.
  have answers (same : c.forward.retryIfRequested.sent = c.forward.sent) : False := by
    rw [same] at sent
    exact absurd (List.self_eq_append_right.mp sent) (List.cons_ne_nil _ others)
  rcases retryIfRequested_cases c.forward with
    same | ⟨top, rest, lacks, ⟨retried, -⟩ | ⟨-, same⟩⟩
  · exact (answers (by rw [same])).elim
  · refine ⟨top, rest, lacks, ?_, retried⟩
    rw [questions, ← pending_forward, lacks.pending] at innermost
    exact Option.some.inj innermost
  · exact (answers (by rw [same]; rfl)).elim

/-- A question of a run to the primary slot was in two batches before. (Where numbers are not
distinct, a batch may have brought another question with its number.) -/
structure CameTwice (caller : CallId → SlotId × ClientId) (run : List Act) (before : List Effect)
    (question : Item) : Prop where
  asked : question ∈ questionsIn run
  primary : question.slot = SlotId.primary
  came : Came (· ∈ questionsIn run) question.id 2 (batches caller before)
  itself : (askedIn run).Nodup → Came (· = question) question.id 2 (batches caller before)

theorem cameTwice {run : List Act} {before : List Effect} {question : Item}
    (asked : question ∈ questionsIn run) (primary : question.slot = SlotId.primary)
    (came : Came (· ∈ questionsIn run) question.id 2 (batches caller before)) :
    CameTwice caller run before question := by
  refine ⟨asked, primary, came, fun distinct => came.imp ?_⟩
  rw [askedIn_eq] at distinct
  exact fun item among number => List.inj_on_of_nodup_map distinct among asked number

theorem cameTwice_of_fails {run : List Act} {question : Item}
    (justified : AllJustified (· ∈ questionsIn run) said caller c) (fails : c.Fails question) :
    CameTwice caller run c.sent question := by
  obtain ⟨top, rest, lacks, rfl, retried⟩ := fails.lacks
  obtain ⟨asked, came⟩ := justified.came_twice fails.1 lacks retried
  exact cameTwice asked lacks.primary came

/-- A question that the primary client leaves without an answer fails only after it was in two
batches, and an answer that says so comes after these, unless a client has submitted it. Between two
times that a question is queued again, the client submits something (or, where numbers are not
distinct, the number of the question is asked or answered). -/
theorem failed_after_two_batches {capacity : Nat} {run : List Act}
    (own : ∀ a ∈ run, CallOwned caller a) (reached : (ofCapacity capacity).acts run = c) :
    (∀ first gone later now question, run = first ++ .pump gone :: later →
      (ofCapacity capacity).acts first = now → now.Fails question →
        CameTwice caller run now.sent question) ∧
    (∀ before answer after, c.sent = before ++ .wake (.answer answer) :: after →
      FailsUnanswered answer → answer ∈ givenIn run ∨ ∃ question,
        answer = question.answered (.status unanswered) ∧ CameTwice caller run before question) ∧
    ∀ first gone between later once twice question again,
      run = first ++ .pump gone :: between ++ later → (ofCapacity capacity).acts first = once →
      (once.act (.pump gone)).acts between = twice → once.Repeats question →
      twice.Repeats again → again.id = question.id →
        (SubmitsIn (once.act (.pump gone)) between ∨
          Touches (once.act (.pump gone)) between question.id) ∧
        ((askedIn run).Nodup → SubmitsIn (once.act (.pump gone)) between) := by
  have start := allJustified_ofCapacity (· ∈ questionsIn run) (· ∈ givenIn run) caller capacity
  refine ⟨?_, fun before answer after sent fails => ?_, ?_⟩
  · rintro first gone later now question rfl rfl fails
    rw [List.forall_mem_append] at own
    refine cameTwice_of_fails (start.acts own.1 (fun item asked => ?_) fun answer given => ?_) fails
    · rw [questionsIn, List.flatMap_append]
      exact List.mem_append_left _ asked
    · rw [givenIn, List.flatMap_append]
      exact List.mem_append_left _ given
  · have justified := start.acts own (fun _ asked => asked) fun _ given => given
    rw [reached] at justified
    refine (justified.sent before answer after sent fails).imp_right ?_
    rintro ⟨question, asked, primary, same, came⟩
    exact ⟨question, same, cameTwice asked primary came⟩
  · rintro first gone between later once twice question again rfl rfl rfl repeats repeatsAgain same
    have balanced := (balanced_ofCapacity capacity).acts first
    rw [List.nil_append] at balanced
    refine ⟨submitsIn_or_touches balanced repeats repeatsAgain same, fun distinct => ?_⟩
    rw [askedIn_append, askedIn_append] at distinct
    exact submitsIn_of_distinct balanced (List.nodup_append.mp distinct).1 repeats repeatsAgain same

/-- The primary client comes back with some items, and is served. -/
def comesBack (items : List Item) (call : CallId) : List Act :=
  [.receive (.call SlotId.primary ⟨1⟩ items call), .pump fun _ => false]

/-- The client takes a question and asks for it again, submits the answer to another one, and comes
back twice more. -/
def stubbornRun : List Act :=
  [.receive (.connect SlotId.primary 0), .receive (.submit (lineItem 1 none) true)] ++
    comesBack [] 1 ++ comesBack [] 2 ++ comesBack [lineItem 7 (some .done)] 3 ++
      comesBack [] 4 ++ comesBack [] 5

theorem failed_after_two_batches_stubborn : ∃ before first between later,
    ((ofCapacity 64).acts stubbornRun).sent = before ++
      [.wake (.answer ((lineItem 1 none).answered (.status unanswered)))] ∧
    CameTwice (fun _ => (SlotId.primary, ⟨1⟩)) stubbornRun before (lineItem 1 none) ∧
    stubbornRun = first ++ .pump (fun _ => false) :: between ++ later ∧
    ((ofCapacity 64).acts first).Repeats (lineItem 1 none) ∧
    SubmitsIn (((ofCapacity 64).acts first).act (.pump fun _ => false)) between := by
  have own : ∀ a ∈ stubbornRun, CallOwned (fun _ => (SlotId.primary, ⟨1⟩)) a := by
    simp [CallOwned, stubbornRun, comesBack]
  have distinct : (askedIn stubbornRun).Nodup := by decide
  have reached : (ofCapacity 64).acts stubbornRun = _ := rfl
  obtain ⟨failed, -, again⟩ := failed_after_two_batches own reached
  refine ⟨((ofCapacity 64).acts stubbornRun).sent.take 5, stubbornRun.take 5,
    (stubbornRun.drop 6).take 3, stubbornRun.drop 9, rfl, ?_, rfl, ⟨rfl, rfl⟩, ?_⟩
  · exact failed (stubbornRun.take 11) (fun _ => false) [] _ _ rfl rfl ⟨rfl, rfl, [], rfl⟩
  · have all := again (stubbornRun.take 5) (fun _ => false) ((stubbornRun.drop 6).take 3)
      (stubbornRun.drop 9) _ _ (lineItem 1 none) (lineItem 1 none) rfl rfl rfl ⟨rfl, rfl⟩
      ⟨rfl, rfl⟩ rfl
    exact all.2 distinct

end EngineLink.Coordinator
