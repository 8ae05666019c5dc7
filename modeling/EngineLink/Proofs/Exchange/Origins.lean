import EngineLink.Proofs.Exchange.Reattach

/-!
# Where answers come from

The coordinator makes some answers itself: it cancels questions that nobody can answer, and it lets
a question fail that stays without an answer. All other answers come from clients, each in a call
on the slot to which its client was attached. An answer is for the question whose number it has,
whatever slot the question was addressed to; which slot it came from is noted in it.

## Main definitions

* `Coordinator.MadeFor` — an answer that the coordinator makes itself
* `Coordinator.SubmittedOn` — an answer of a client that was attached to a slot

## Main results

* `Coordinator.Traced.act` — one more act sends only answers whose origin is known
* `Coordinator.made_or_submitted` — in every run, each answer was made or submitted
* `Coordinator.answered_across_slots` — the client of another slot can answer a question
-/

namespace EngineLink.Coordinator

variable {start c : Coordinator} {run : List Act} {s : SlotId} {answer : Item}

/-! ### Questions in a run -/

/-- All questions that wait have been asked. -/
theorem questions_acts_subset (capacity : Nat) (run : List Act) :
    ((ofCapacity capacity).acts run).questions ⊆ questionsIn run := by
  induction run using List.reverseRecOn with
  | nil => exact List.Subset.refl []
  | append_singleton before a ih =>
    have held := ((balanced_ofCapacity capacity).acts before).held
    rw [acts_append, questionsIn, List.flatMap_append, List.flatMap_singleton]
    intro question waits
    rcases List.mem_append.mp (questions_act_subset held a waits) with old | new
    · exact List.mem_append_left _ (ih old)
    · exact List.mem_append_right _ new

/-! ### Origins -/

/-- An answer that the coordinator makes itself: the question is cancelled or fails. -/
def MadeFor (question answer : Item) : Prop :=
  ∃ status ∈ [nobodyThere, clientGone, unanswered], answer = question.answered (.status status)

/-- In a run, an answer came with a call on a slot, made by the client that was attached to the slot
at that time, while a question with the number of the answer waited. -/
def SubmittedOn (start : Coordinator) (run : List Act) (s : SlotId) (answer : Item) : Prop :=
  ∃ before after client items call,
    run = before ++ .receive (.call s client items call) :: after ∧
      (start.acts before).running = true ∧
      (start.acts before).Takes answer (.call s client items call)

/-- An answer was made for a question of the run, or submitted on the slot that is noted in it. -/
def Originates (start : Coordinator) (run : List Act) (answer : Item) : Prop :=
  (∃ question ∈ questionsIn run, MadeFor question answer) ∨
    SubmittedOn start run answer.slot answer

/-- Answers carry the slot on which they came. -/
theorem slot_of_mem_given {client : ClientId} {items : List Item} {call : CallId}
    (member : answer ∈ given (.call s client items call)) : answer.slot = s := by
  obtain ⟨item, -, rfl⟩ := List.mem_map.mp member
  rfl

theorem Originates.append (h : Originates start run answer) (more : List Act) :
    Originates start (run ++ more) answer := by
  rcases h with ⟨question, asked, made⟩ | ⟨before, after, client, items, call, rfl, submitted⟩
  · left
    refine ⟨question, ?_, made⟩
    rw [questionsIn, List.flatMap_append]
    exact List.mem_append_left _ asked
  · right
    refine ⟨before, after ++ more, client, items, call, ?_, submitted⟩
    rw [List.append_assoc, List.cons_append]

/-! ### Runs -/

/-- The origin of all answers is known, of those that are held back and of those that were sent. -/
structure Traced (start : Coordinator) (run : List Act) (c : Coordinator) : Prop where
  held : c.Held (Originates start run)
  sent : ∀ answer, .answer answer ∈ wakesOf c.sent → Originates start run answer

theorem traced_ofCapacity (capacity : Nat) :
    Traced (ofCapacity capacity) [] (ofCapacity capacity) :=
  ⟨List.forall_mem_nil _, fun _ none => absurd none List.not_mem_nil⟩

/-- What one more act sends or holds back was made for a question that waits, or comes with it. -/
theorem speaks_act (held : c.Held (Originates start run)) (reached : start.acts run = c)
    (asked : c.questions ⊆ questionsIn run) (a : Act) :
    Speaks (Originates start (run ++ [a])) c (c.act a) := by
  have later : c.Held (Originates start (run ++ [a])) := held.mono fun _ h => h.append [a]
  have made {question : Item} {status : Status} (known : question ∈ questionsBy a ++ c.questions)
      (own : status ∈ [nobodyThere, clientGone, unanswered]) :
      Originates start (run ++ [a]) (question.answered (.status status)) := by
    left
    refine ⟨question, ?_, status, own, rfl⟩
    rw [questionsIn, List.flatMap_append, List.flatMap_singleton]
    exact List.mem_append.mpr ((List.mem_append.mp known).symm.imp_left fun old => asked old)
  cases a with
  | receive e =>
    rw [act, handle]
    split
    · next running =>
      apply speaks_serve later
      · intro p waits
        apply made _ (by simp)
        have old := List.mem_map_of_mem (f := Pending.question) waits
        rwa [← questions, questions_begun] at old
      · intro question asks
        apply made _ (by simp)
        rw [asks]
        exact List.mem_cons_self
      · intro answer takes
        right
        cases e with
        | call s client items call =>
          rw [slot_of_mem_given takes.mem_given]
          refine ⟨run, [], client, items, call, rfl, ?_, ?_⟩
          · rwa [reached]
          · rwa [reached]
        | _ => cases takes
    · exact later.speaks.of_engineSide (engineSide_refuse c e)
  | pump gone =>
    have waiting {p : Pending} (waits : p ∈ c.pending) :
        p.question ∈ questionsBy (.pump gone) ++ c.questions :=
      List.mem_map_of_mem (f := Pending.question) waits
    rw [act]
    split
    · apply speaks_pump later
      · exact fun p waits => made (waiting waits) (by simp)
      · intro top rest lacks retried
        have waits : top ∈ c.pending := by
          rw [← (forward_keeps held.labelled).2.1, lacks.pending]
          exact List.mem_cons_self
        exact made (waiting waits) (by simp)
    · exact later.speaks

theorem Traced.act (h : Traced start run c) (reached : start.acts run = c)
    (asked : c.questions ⊆ questionsIn run) (a : Act) : Traced start (run ++ [a]) (c.act a) := by
  have speaks := speaks_act h.held reached asked a
  obtain ⟨wakes, sent, good⟩ := speaks.answers
  refine ⟨speaks.held, fun answer member => ?_⟩
  rw [sent] at member
  rcases List.mem_append.mp member with old | new
  · exact (h.sent answer old).append [a]
  · exact good answer new

/-- Every run keeps track of the origin of answers. -/
theorem traced_acts (capacity : Nat) (run : List Act) :
    Traced (ofCapacity capacity) run ((ofCapacity capacity).acts run) := by
  induction run using List.reverseRecOn with
  | nil => exact traced_ofCapacity capacity
  | append_singleton before a ih =>
    rw [acts_append]
    exact ih.act rfl (questions_acts_subset capacity before) a

/-- In every run, each answer that the engine gets is for a question of the run. It was made by the
coordinator for this very question, to cancel it or to let it fail, or it was submitted with the
number of the question, while a question with this number waited, by the client that was attached to
the slot which is noted in the answer. -/
theorem made_or_submitted {capacity : Nat} {run : List Act} {answer : Item}
    (sent : .wake (.answer answer) ∈ ((ofCapacity capacity).acts run).sent) :
    ∃ question ∈ questionsIn run, question.id = answer.id ∧
      (MadeFor question answer ∨ SubmittedOn (ofCapacity capacity) run answer.slot answer) := by
  have origin := (traced_acts capacity run).sent answer (mem_wakesOf.mpr sent)
  rcases origin with ⟨question, asked, made⟩ | submitted
  · refine ⟨question, asked, ?_, .inl made⟩
    obtain ⟨status, -, rfl⟩ := made
    rfl
  · have ⟨before, after, client, items, call, split, _, _, _, waits⟩ := submitted
    obtain ⟨p, waiting, number⟩ := List.mem_map.mp waits
    have known := questions_acts_subset capacity before (List.mem_map_of_mem waiting)
    refine ⟨p.question, ?_, number, .inr submitted⟩
    rw [split, questionsIn, List.flatMap_append]
    exact List.mem_append_left _ known

/-- A question to the primary client, and a call of the other client with an answer to it. -/
def crossRun : List Act :=
  [.receive (.connect SlotId.primary 0), .receive (.connect ⟨1⟩ 1),
    .receive (.submit (lineItem 1 none) true),
    .receive (.call ⟨1⟩ ⟨2⟩ [lineItem 1 (some .done)] 2)]

/-- The answer of the other client. -/
def crossAnswer : Item := { lineItem 1 (some .done) with slot := ⟨1⟩ }

theorem mem_sent_crossRun :
    .wake (.answer crossAnswer) ∈ ((ofCapacity 64).acts crossRun).sent := by
  have wakes : wakesOf ((ofCapacity 64).acts crossRun).sent = [.answer crossAnswer] := rfl
  rw [← mem_wakesOf, wakes]
  exact List.mem_singleton_self _

theorem submitted_crossRun :
    .wake (.answer crossAnswer) ∈ ((ofCapacity 64).acts crossRun).sent ∧
      SubmittedOn (ofCapacity 64) crossRun ⟨1⟩ crossAnswer := by
  refine ⟨mem_sent_crossRun, ?_⟩
  obtain ⟨question, asked, -, ⟨status, -, made⟩ | submitted⟩ := made_or_submitted mem_sent_crossRun
  · cases congrArg Item.answer made
  · exact submitted

/-- A question with a number of its own can get an answer that neither the coordinator has made nor
a client of its slot has submitted. -/
theorem answered_across_slots :
    ¬∀ (capacity : Nat) (run : List Act), (askedIn run).Nodup →
      ∀ question ∈ questionsIn run, ∀ answer : Item,
        .wake (.answer answer) ∈ ((ofCapacity capacity).acts run).sent → answer.id = question.id →
          MadeFor question answer ∨
            SubmittedOn (ofCapacity capacity) run question.slot answer := by
  intro within
  have distinct : (askedIn crossRun).Nodup := by decide
  have origin := within 64 crossRun distinct (lineItem 1 none) List.mem_cons_self crossAnswer
    mem_sent_crossRun rfl
  rcases origin with
    ⟨status, -, made⟩ | ⟨before, after, client, items, call, -, -, takes⟩
  · cases congrArg Item.answer made
  · cases slot_of_mem_given takes.mem_given

end EngineLink.Coordinator
