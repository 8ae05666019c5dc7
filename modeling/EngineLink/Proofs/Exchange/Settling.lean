import EngineLink.Proofs.Exchange.Clients
import EngineLink.Proofs.Exchange.Track

/-!
# No question is answered twice

The coordinator answers the innermost question, and then those below it whose answers have been held
back or that nobody can answer any longer. An answer is held back only for a question below the
innermost one, so each answer that goes to the engine takes the question that it is for from the
stack.

## Main definitions

* `Coordinator.Held` — the answers that are held back are for questions below the innermost one
* `Coordinator.Settles` — some of the innermost questions are answered, one after another
* `Coordinator.begun` — what an event changes about questions before any is answered
* `Coordinator.Lacks` — the primary client came back without the answer to the innermost question
* `Coordinator.Speaks` — the answers that one step sends or holds back are of one kind
* `Coordinator.Balanced` — each question has been answered once or waits

## Main results

* `Coordinator.settles_serve` — receiving an event only answers questions besides
* `Coordinator.retryIfRequested_cases` — a question is sent again, or fails
* `Coordinator.speaks_serve`, `Coordinator.speaks_pump` — the answers of one step
* `Coordinator.Balanced.acts` — every run keeps the balance
* `Coordinator.answered_once` — no question is answered twice
-/

namespace EngineLink.Coordinator

variable {fine : Item → Prop} {c d e : Coordinator} {s : SlotId}

/-! ### Answers that are held back -/

/-- An answer that is held back is one of a kind, has the number under which it is kept, and is for
a question below the innermost one. -/
def Held (fine : Item → Prop) (c : Coordinator) : Prop :=
  ∀ p ∈ c.stash, p.2.id = some p.1 ∧ fine p.2 ∧ some p.1 ∈ c.pendingIds.tail

theorem Held.labelled (held : c.Held fine) : c.StashLabelled := fun p member => (held p member).1

theorem Held.of_eq (held : c.Held fine) (pending : d.pending = c.pending)
    (stash : d.stash = c.stash) : d.Held fine := by
  rwa [Held, stash, pendingIds, pending]

/-- Answers that are held back for questions on the stack, but not for the innermost one. -/
theorem held_of_below {top : Pending} {rest : List Pending} (pending : c.pending = top :: rest)
    (below : ∀ p ∈ c.stash, p.2.id = some p.1 ∧ fine p.2 ∧ some p.1 ∈ c.pendingIds)
    (other : ∀ p ∈ c.stash, top.question.id ≠ some p.1) : c.Held fine := by
  intro p member
  obtain ⟨numbered, good, inside⟩ := below p member
  rw [pendingIds, pending, List.map_cons] at inside ⊢
  refine ⟨numbered, good, ?_⟩
  exact (List.mem_cons.mp inside).resolve_left (other p member).symm

theorem mem_of_stashed? {question held : Item} {id : RequestId}
    (h : c.stashed? question = some (id, held)) :
    question.id = some id ∧ (id, held) ∈ c.stash := by
  simp only [stashed?, Option.pure_def, Option.bind_eq_bind, Option.bind_eq_some_iff,
    Option.some.injEq, Prod.mk.injEq] at h
  obtain ⟨n, number, found, lookup, rfl, rfl⟩ := h
  obtain ⟨before, after, split, -⟩ := List.lookup_eq_some_iff.mp lookup
  refine ⟨number, ?_⟩
  rw [split]
  exact List.mem_append_right _ List.mem_cons_self

theorem ne_of_stashed?_eq_none {question : Item} (h : c.stashed? question = none)
    {p : RequestId × Item} (member : p ∈ c.stash) : question.id ≠ some p.1 := by
  intro number
  simp only [stashed?, number, Option.pure_def, Option.bind_eq_bind, Option.bind_some,
    Option.bind_eq_none_iff, reduceCtorEq, imp_false] at h
  have missing : c.stash.lookup p.1 = none := Option.eq_none_iff_forall_ne_some.mpr h
  rw [List.lookup_eq_none_iff] at missing
  simpa using missing p member

theorem mem_of_depthOf? {id : RequestId} {depth : Nat} (h : c.depthOf? id = some depth) :
    some id ∈ c.pendingIds := by
  rw [depthOf?, Option.map_eq_some_iff] at h
  obtain ⟨i, found, -⟩ := h
  obtain ⟨inside, here, -⟩ := List.findIdx?_eq_some_iff_getElem.mp found
  rw [pendingIds, ← eq_of_beq here]
  exact List.mem_map_of_mem (List.mem_reverse.mp (List.getElem_mem inside))

/-- A place that is not the innermost one is below it. -/
theorem mem_tail_of_depthOf? {id : RequestId} {depth : Nat} (h : c.depthOf? id = some depth)
    (below : depth ≠ 0) : some id ∈ c.pendingIds.tail := by
  rw [depthOf?, Option.map_eq_some_iff] at h
  obtain ⟨i, found, same⟩ := h
  obtain ⟨inside, here, -⟩ := List.findIdx?_eq_some_iff_getElem.mp found
  -- Places are found from the outside, in the reversed stack.
  rw [List.length_reverse] at inside
  rw [List.getElem_reverse, beq_iff_eq] at here
  rw [pendingIds, ← List.map_tail, ← here]
  refine List.mem_map_of_mem ?_
  rw [List.mem_iff_getElem]
  refine ⟨depth - 1, ?_, ?_⟩
  · rw [List.length_tail]
    omega
  · rw [List.getElem_tail]
    congr 1
    omega

/-! ### Answering -/

/-- Some of the innermost questions are answered one after another, each under its own number. -/
structure Settles (fine : Item → Prop) (c d : Coordinator) : Prop where
  held : d.Held fine
  settled : ∃ (answers : List Item) (questions : List Pending),
    wakesOf d.sent = wakesOf c.sent ++ answers.map .answer ∧
      c.pending = questions ++ d.pending ∧
      answers.map (·.id) = questions.map (·.question.id) ∧ ∀ answer ∈ answers, fine answer

namespace Settles

theorem of_eq (held : c.Held fine) (pending : d.pending = c.pending) (stash : d.stash = c.stash)
    (wakes : wakesOf d.sent = wakesOf c.sent) : Settles fine c d := by
  refine ⟨held.of_eq pending stash, [], [], ?_, ?_, rfl, List.forall_mem_nil _⟩
  · rw [wakes, List.map_nil, List.append_nil]
  · rw [pending, List.nil_append]

theorem of_engineSide (held : c.Held fine) (same : d.engineSide = c.engineSide) :
    Settles fine c d :=
  of_eq held (congrArg EngineSide.pending same) (congrArg EngineSide.stash same)
    (congrArg EngineSide.wakes same)

theorem refl (held : c.Held fine) : Settles fine c c := of_eq held rfl rfl rfl

theorem trans (first : Settles fine c d) (next : Settles fine d e) : Settles fine c e := by
  obtain ⟨answers, questions, wakes, pending, numbers, good⟩ := first.settled
  obtain ⟨more, others, moreWakes, morePending, moreNumbers, moreGood⟩ := next.settled
  refine ⟨next.held, answers ++ more, questions ++ others, ?_, ?_, ?_, ?_⟩
  · rw [moreWakes, wakes, List.map_append, List.append_assoc]
  · rw [pending, morePending, List.append_assoc]
  · rw [List.map_append, List.map_append, numbers, moreNumbers]
  · rw [List.forall_mem_append]
    exact ⟨good, moreGood⟩

/-- The questions that are left are at the bottom of the stack. -/
theorem suffix (h : Settles fine c d) : d.pending <:+ c.pending := by
  obtain ⟨-, questions, -, pending, -, -⟩ := h.settled
  exact ⟨questions, pending.symm⟩

/-- What is done in each step, starting from any state that the steps before it have led to. -/
theorem foldl {α : Type} {f : Coordinator → α → Coordinator} {xs : List α}
    (h : ∀ x ∈ xs, ∀ e, Settles fine c e → Settles fine e (f e x)) (start : Settles fine c d) :
    Settles fine c (xs.foldl f d) := by
  induction xs generalizing d with
  | nil => exact start
  | cons x xs ih =>
    rw [List.forall_mem_cons] at h
    exact ih h.2 (start.trans (h.1 d start))

end Settles

/-- The questions on the stack can be cancelled. -/
def Cancellable (fine : Item → Prop) (c : Coordinator) : Prop :=
  ∀ p ∈ c.pending, fine (p.question.answered (.status clientGone))

/-- The first answer is for the innermost question, and each further one for the question that is
the innermost by then. -/
theorem settles_answerFrom {ps : List Pending} {answer : Item} (held : c.Held fine)
    (cancels : c.Cancellable fine) (pending : c.pending = ps) (own : ∀ top ∈ ps.head?, answer.id = top.question.id)
    (good : fine answer) : Settles fine c (c.answerFrom answer ps) := by
  induction ps generalizing c answer with
  | nil => exact .refl held
  | cons top rest ih =>
    rw [answerFrom]
    generalize popped : ({ c with pending := rest } : Coordinator).send (.wake (.answer answer)) = d
    have kept : d.pending = rest := by rw [← popped]; rfl
    have below : ∀ p ∈ d.stash, p.2.id = some p.1 ∧ fine p.2 ∧ some p.1 ∈ d.pendingIds := by
      rw [← popped]
      intro p member
      have spec := held p member
      rwa [pendingIds, pending] at spec
    have left : d.Cancellable fine := by
      intro p member
      rw [kept] at member
      exact cancels p (pending ▸ List.mem_cons_of_mem top member)
    have first {e : Coordinator} (held : e.Held fine) (pendingNow : e.pending = rest)
        (sent : e.sent = d.sent) : Settles fine c e := by
      refine ⟨held, [answer], [top], ?_, ?_, ?_, List.forall_mem_singleton.mpr good⟩
      · rw [sent, ← popped, send, wakesOf_append]
        rfl
      · rw [pending, pendingNow, List.singleton_append]
      · rw [List.map_singleton, List.map_singleton, own top rfl]
    split
    · next none =>
      refine first (fun p member => ?_) kept rfl
      have inside := (below p member).2.2
      rw [pendingIds, kept, List.head?_eq_none_iff.mp none] at inside
      cases inside
    · next next found =>
      obtain ⟨others, rfl⟩ := List.head?_eq_some_iff.mp found
      split
      · next id given stashed =>
        obtain ⟨number, member⟩ := mem_of_stashed? stashed
        obtain ⟨numbered, goodNext, -⟩ := below (id, given) member
        -- Nothing else is held back under the number of the question that is answered next.
        have heldNext :
            ({ d with stash := d.stash.filter (·.1 != id) } : Coordinator).Held fine := by
          refine held_of_below kept (fun p member => below p (List.mem_filter.mp member).1) ?_
          intro p member same
          rw [number, Option.some.injEq] at same
          simp [same] at member
        refine (first heldNext kept rfl).trans (ih heldNext left kept ?_ goodNext)
        rintro _ ⟨⟩
        rw [numbered, number]
      · next unstashed =>
        have heldNext : d.Held fine :=
          held_of_below kept below fun p member => ne_of_stashed?_eq_none unstashed member
        split
        · refine (first heldNext kept rfl).trans (ih heldNext left kept ?_ ?_)
          · rintro _ ⟨⟩
            rfl
          · exact left next (kept ▸ List.mem_cons_self)
        · exact first heldNext kept rfl

theorem Settles.cancellable (h : Settles fine c d) (cancels : c.Cancellable fine) :
    d.Cancellable fine :=
  fun p member => cancels p (h.suffix.subset member)

theorem settles_failTop {top : Pending} {rest : List Pending} {status : Status}
    (held : c.Held fine) (cancels : c.Cancellable fine) (pending : c.pending = top :: rest)
    (good : fine (top.question.answered (.status status))) :
    Settles fine c (c.failTop top.question status) := by
  refine settles_answerFrom held cancels rfl ?_ good
  rw [pending]
  rintro _ ⟨⟩
  rfl

/-- An answer to no question is dropped, whatever it is. -/
theorem settles_accept {answer : Item} (held : c.Held fine) (cancels : c.Cancellable fine)
    (good : answer.id ∈ c.pendingIds → fine answer) : Settles fine c (c.accept answer) := by
  rw [accept]
  split
  · exact .refl held
  · next id number =>
    split
    · next first =>
      refine settles_answerFrom held cancels rfl ?_ (good (number ▸ mem_of_depthOf? first))
      rw [number]
      exact head_of_depthOf?_eq_zero first
    · -- The answer is held back, in place of an earlier one for the same question.
      next nonzero below =>
      have waits := mem_tail_of_depthOf? below nonzero
      refine ⟨?_, [], [], ?_, rfl, rfl, List.forall_mem_nil _⟩
      · intro p member
        rcases List.mem_cons.mp member with rfl | member
        · exact ⟨number, good (number ▸ List.mem_of_mem_tail waits), waits⟩
        · exact held p (List.mem_filter.mp member).1
      · rw [List.map_nil, List.append_nil]
        rfl
    · exact .refl held

theorem settles_receive {item : Item} (held : c.Held fine) (cancels : c.Cancellable fine)
    (good : item.isAnswered = true → item.id ∈ c.pendingIds → fine { item with slot := s }) :
    Settles fine c (c.receive s item) := by
  cases answered : item.isAnswered with
  | true =>
    rw [receive_answer answered]
    exact settles_accept held cancels (good answered)
  | false =>
    rw [receive_request answered]
    exact .of_engineSide held rfl

/-! ### Events -/

/-- The primary client submits something. -/
def Submits (c : Coordinator) : Event → Prop
  | .call s client items _ =>
    s = SlotId.primary ∧ (c.slot s).client = some client ∧ items.isEmpty = false
  | _ => False

instance (c : Coordinator) (e : Event) : Decidable (c.Submits e) := by
  cases e <;> unfold Submits <;> infer_instance

/-- What an event changes about questions before any is answered: one is asked, or the innermost one
may be sent again once more. -/
def begun (c : Coordinator) : Event → Coordinator
  | .submit item true => { c with pending := ⟨item, false⟩ :: c.pending }
  | .call s client items call =>
    if c.Submits (.call s client items call) then c.renewRetry else c
  | _ => c

/-- The answers that come with an event. -/
def given : Event → List Item
  | .call s _ items _ => (items.filter (·.isAnswered)).map ({ · with slot := s })
  | _ => []

/-- An answer comes with an event and is not dropped: it is in a call of the attached client, and a
question with its number waits. -/
def Takes (c : Coordinator) (answer : Item) : Event → Prop
  | .call s client items call =>
    (c.slot s).client = some client ∧ answer ∈ given (.call s client items call) ∧
      answer.id ∈ c.pendingIds
  | _ => False

theorem Takes.mem_given {answer : Item} {e : Event} (h : c.Takes answer e) : answer ∈ given e := by
  cases e with
  | call s client items call => exact h.2.1
  | _ => cases h

theorem engineSide_renewRetry (same : d.engineSide = c.engineSide) :
    d.renewRetry.engineSide = c.renewRetry.engineSide := by
  have pending : d.pending = c.pending := congrArg EngineSide.pending same
  rw [renewRetry, renewRetry, pending]
  split
  · exact same
  · next top rest _ =>
    exact congrArg (fun side : EngineSide => { side with pending := ⟨top.question, false⟩ :: rest })
      same

@[simp] theorem pendingIds_renewRetry (c : Coordinator) :
    c.renewRetry.pendingIds = c.pendingIds := by
  rw [renewRetry]
  split
  · rfl
  · next top rest pending =>
    rw [pendingIds, pendingIds, pending]
    rfl

theorem stash_renewRetry (c : Coordinator) : c.renewRetry.stash = c.stash := by
  rw [renewRetry]
  split <;> rfl

theorem pendingIds_begun (c : Coordinator) (e : Event) :
    (c.begun e).pendingIds = Track.askedIds [e] ++ c.pendingIds := by
  cases e with
  | submit item wait => cases wait <;> rfl
  | call s client items call =>
    rw [begun]
    split
    · exact pendingIds_renewRetry c
    · rfl
  | _ => rfl

theorem stash_begun (c : Coordinator) (e : Event) : (c.begun e).stash = c.stash := by
  cases e with
  | submit item wait => cases wait <;> rfl
  | call s client items call =>
    rw [begun]
    split
    · exact stash_renewRetry c
    · rfl
  | _ => rfl

theorem sent_begun (c : Coordinator) (e : Event) : (c.begun e).sent = c.sent := by
  cases e with
  | submit item wait => cases wait <;> rfl
  | call s client items call =>
    rw [begun]
    split
    · rw [renewRetry]
      split <;> rfl
    · rfl
  | _ => rfl

theorem Held.begun (held : c.Held fine) (e : Event) : (c.begun e).Held fine := by
  rw [Held, stash_begun, pendingIds_begun]
  intro p member
  obtain ⟨numbered, good, below⟩ := held p member
  refine ⟨numbered, good, ?_⟩
  cases Track.askedIds [e] with
  | nil => exact below
  | cons id ids => exact List.mem_append_right _ (List.mem_of_mem_tail below)

theorem settles_ask {item : Item} (held : c.Held fine)
    (cancels : (c.begun (.submit item true)).Cancellable fine)
    (good : fine (item.answered (.status nobodyThere))) :
    Settles fine (c.begun (.submit item true)) (c.ask item) := by
  have heldAsked := held.begun (.submit item true)
  rw [ask]
  split
  · exact settles_failTop heldAsked cancels rfl good
  · exact .of_engineSide heldAsked (engineSide_enqueue _ item)

theorem settles_serveCall {client : ClientId} {items : List Item} {call : CallId}
    (held : c.Held fine) (cancels : (c.begun (.call s client items call)).Cancellable fine)
    (good : ∀ answer, c.Takes answer (.call s client items call) → fine answer) :
    Settles fine (c.begun (.call s client items call)) (c.serveCall s client items call) := by
  have unchanged (no : ¬c.Submits (.call s client items call)) :
      c.begun (.call s client items call) = c := if_neg no
  rw [serveCall]
  split
  · next other =>
    rw [unchanged fun submits => other submits.2.1]
    exact .of_engineSide held (by simp)
  · next notOther =>
    have attached : (c.slot s).client = some client := not_not.mp notOther
    -- Only what the attached client submits is received, each item after those before it.
    have received {d e : Coordinator} (held : e.Held fine) (cancels : e.Cancellable fine)
        (numbers : e.pendingIds = c.pendingIds) (same : d.engineSide = e.engineSide) :
        Settles fine e (items.foldl (·.receive s ·) d) := by
      refine .foldl (fun item member d before => ?_) (.of_engineSide held same)
      refine settles_receive before.held (before.cancellable cancels) fun answered waits => ?_
      refine good _ ⟨attached, List.mem_map.mpr ⟨item, ?_, rfl⟩, ?_⟩
      · exact List.mem_filter.mpr ⟨member, answered⟩
      · rw [← numbers]
        exact List.map_subset _ before.suffix.subset waits
    have waiting : ((c.release s (.error superseded)).modifySlot s fun state =>
        { state with waiter := some call }).engineSide = c.engineSide := by simp
    split
    · next empty =>
      rw [unchanged fun submits => Bool.false_ne_true (submits.2.2.symm.trans empty)]
      exact .of_engineSide held waiting
    · next filled =>
      split
      · next primary =>
        have submits : c.Submits (.call s client items call) :=
          ⟨beq_iff_eq.mp primary, attached, Bool.eq_false_iff.mpr filled⟩
        have begins : c.begun (.call s client items call) = c.renewRetry := if_pos submits
        rw [begins] at cancels ⊢
        exact received (begins ▸ held.begun _) cancels (pendingIds_renewRetry c)
          (engineSide_renewRetry waiting)
      · next other =>
        rw [unchanged fun submits => other (beq_iff_eq.mpr submits.1)] at cancels ⊢
        exact received held cancels rfl waiting

theorem settles_disconnect (held : c.Held fine) (cancels : c.Cancellable fine) (s : SlotId)
    (client : ClientId) : Settles fine c (c.disconnect s client) := by
  rw [disconnect]
  split
  · exact .refl held
  · have detached : Settles fine c ((c.release s (.error clientGone)).modifySlot s fun state =>
        { state with client := none, clientBusy := none, inbound := [], outbound := [] }) :=
      .of_engineSide held (by simp)
    dsimp only
    split
    · next top second rest pending =>
      split
      · have left := detached.cancellable cancels
        refine detached.trans (settles_failTop detached.held left pending ?_)
        exact left top (pending ▸ List.mem_cons_self)
      · exact detached
    · exact detached

/-- Besides what it changes at first, an event only answers questions: with the answers that come
with it or have been held back, or by cancelling them. -/
theorem settles_serve {e : Event} (held : c.Held fine) (cancels : (c.begun e).Cancellable fine)
    (alone : ∀ question, e = .submit question true →
      fine (question.answered (.status nobodyThere)))
    (good : ∀ answer, c.Takes answer e → fine answer) :
    Settles fine (c.begun e) (c.serve e) := by
  have quiet {d : Coordinator} (same : d.engineSide = c.engineSide) : Settles fine c d :=
    .of_engineSide held same
  cases e with
  | submit item wait =>
    cases wait with
    | false => exact quiet (engineSide_tell c item)
    | true => exact settles_ask held cancels (alone item rfl)
  | executed item =>
    have queued := engineSide_enqueue (({ c with executing := c.executing.tail } :
      Coordinator).modifySlot item.slot fun state => { state with executing := false }) item
    exact .of_eq held (congrArg EngineSide.pending queued) (congrArg EngineSide.stash queued)
      (congrArg EngineSide.wakes queued)
  | busy busy => exact quiet rfl
  | call s client items call => exact settles_serveCall held cancels good
  | connect s call =>
    have released := engineSide_release c s (.error slotTaken)
    exact quiet ((engineSide_attach ..).trans released)
  | disconnect s client => exact settles_disconnect held cancels s client
  | shutdown =>
    have stopped := engineSide_stop c
    exact .of_eq held (congrArg EngineSide.pending stopped) (congrArg EngineSide.stash stopped)
      (congrArg EngineSide.wakes stopped)

/-! ### Handing out -/

/-- The primary client came back without the answer to the innermost question, though there is
nothing else for it. -/
structure Lacks (c : Coordinator) (top : Pending) (rest : List Pending) : Prop where
  pending : c.pending = top :: rest
  primary : top.question.slot = SlotId.primary
  requested : c.retryRequested = true
  waits : c.engineWaits = true
  idle : c.primaryIsIdle = true

/-- The innermost question is sent again the first time that its answer is lacking, and fails the
second time. -/
theorem retryIfRequested_cases (c : Coordinator) :
    c.retryIfRequested = { c with retryRequested := false } ∨ ∃ top rest, c.Lacks top rest ∧
      (top.retried = true ∧
          c.retryIfRequested =
            ({ c with retryRequested := false } : Coordinator).failTop top.question unanswered ∨
        top.retried = false ∧
          c.retryIfRequested = ({ c with
            retryRequested := false
            pending := { top with retried := true } :: rest } : Coordinator).modifySlot
              SlotId.primary fun state =>
                { state with outbound := state.outbound ++ [top.question] }) := by
  rw [retryIfRequested]
  split
  · next requested =>
    rw [retry]
    split
    · exact .inl rfl
    · next lacks =>
      rw [Bool.not_eq_true, Bool.not_eq_false', Bool.and_eq_true] at lacks
      split
      · exact .inl rfl
      · next top rest pending =>
        split
        · exact .inl rfl
        · next primary =>
          have slot : top.question.slot = SlotId.primary := by
            simpa [SlotId.isPrimary] using primary
          refine .inr ⟨top, rest, ⟨pending, slot, requested, lacks.1, lacks.2⟩, ?_⟩
          split
          · next retried => exact .inl ⟨retried, rfl⟩
          · next fresh => exact .inr ⟨Bool.eq_false_iff.mpr fresh, rfl⟩
  · next unasked =>
    rw [Bool.not_eq_true] at unasked
    rw [← unasked]
    exact .inl rfl

/-- A question fails like one that is cancelled. -/
theorem settles_fail {top : Pending} {rest : List Pending} (held : c.Held fine)
    (cancels : c.Cancellable fine) (lacks : c.Lacks top rest)
    (good : fine (top.question.answered (.status unanswered))) :
    Settles fine c (({ c with retryRequested := false } : Coordinator).failTop top.question
      unanswered) := by
  have taken : Settles fine c { c with retryRequested := false } := .of_eq held rfl rfl rfl
  exact taken.trans (settles_failTop taken.held cancels lacks.pending good)

theorem Held.forward (held : c.Held fine) : c.forward.Held fine := by
  rcases c.forward_cases with same | ⟨-, s, item, forwarded⟩
  · rwa [same]
  · exact held.of_eq (congrArg EngineSide.pending forwarded) (congrArg EngineSide.stash forwarded)

/-! ### The answers of one step -/

/-- The answers that one step sends, and those that are held back after it, are of one kind. -/
structure Speaks (fine : Item → Prop) (c d : Coordinator) : Prop where
  held : d.Held fine
  answers : ∃ wakes, wakesOf d.sent = wakesOf c.sent ++ wakes ∧
    ∀ answer, .answer answer ∈ wakes → fine answer

theorem Speaks.of_engineSide (h : Speaks fine c d) (same : e.engineSide = d.engineSide) :
    Speaks fine c e := by
  obtain ⟨-, pending, stash, -, wakes⟩ := EngineSide.mk.injEq .. ▸ same
  obtain ⟨new, sent, good⟩ := h.answers
  exact ⟨h.held.of_eq pending stash, new, wakes.trans sent, good⟩

theorem Held.speaks (held : c.Held fine) : Speaks fine c c :=
  ⟨held, [], (List.append_nil _).symm, fun _ none => absurd none List.not_mem_nil⟩

/-- Before it answers anything, a step sends no answers. -/
theorem Settles.speaks (h : Settles fine d e) (same : ∃ wakes,
    wakesOf d.sent = wakesOf c.sent ++ wakes ∧ ∀ answer, .answer answer ∉ wakes) :
    Speaks fine c e := by
  obtain ⟨wakes, before, none⟩ := same
  obtain ⟨answers, -, after, -, -, good⟩ := h.settled
  refine ⟨h.held, wakes ++ answers.map .answer, ?_, fun answer member => ?_⟩
  · rw [after, before, List.append_assoc]
  · have among := (List.mem_append.mp member).resolve_left (none answer)
    obtain ⟨other, given, same⟩ := List.mem_map.mp among
    exact Wake.answer.inj same ▸ good other given

theorem speaks_serve {e : Event} (held : c.Held fine) (cancels : (c.begun e).Cancellable fine)
    (alone : ∀ question, e = .submit question true →
      fine (question.answered (.status nobodyThere)))
    (good : ∀ answer, c.Takes answer e → fine answer) : Speaks fine c (c.serve e) := by
  apply (settles_serve held cancels alone good).speaks
  refine ⟨[], ?_, fun _ => List.not_mem_nil⟩
  rw [sent_begun, List.append_nil]

/-- Handing out cancels questions, and lets one fail that has been sent again before. -/
theorem speaks_pump (held : c.Held fine) (cancels : c.Cancellable fine)
    (fails : ∀ top rest, c.forward.Lacks top rest → top.retried = true →
      fine (top.question.answered (.status unanswered))) (gone : CallId → Bool) :
    Speaks fine c (c.pump gone) := by
  have started : ∃ wakes, wakesOf c.forward.sent = wakesOf c.sent ++ wakes ∧
      ∀ answer, .answer answer ∉ wakes := by
    rcases c.forward_cases with same | ⟨-, s, item, forwarded⟩
    · rw [same]
      exact ⟨[], (List.append_nil _).symm, fun _ => List.not_mem_nil⟩
    · exact ⟨_, congrArg EngineSide.wakes forwarded, by simp⟩
  have left : c.forward.Cancellable fine := by
    rwa [Cancellable, (forward_keeps held.labelled).2.1]
  have retried : Speaks fine c c.forward.retryIfRequested := by
    rcases retryIfRequested_cases c.forward with
      same | ⟨top, rest, lacks, ⟨retried, same⟩ | ⟨-, same⟩⟩
    · have quiet : Settles fine c.forward c.forward.retryIfRequested := by
        rw [same]
        exact .of_eq held.forward rfl rfl rfl
      exact quiet.speaks started
    · have failed := settles_fail held.forward left lacks (fails top rest lacks retried)
      rw [same]
      exact failed.speaks started
    · -- A question that is queued again has the same number.
      have numbers : c.forward.retryIfRequested.pendingIds = c.forward.pendingIds := by
        rw [same, pendingIds, pendingIds, lacks.pending]
        rfl
      have wakes : wakesOf c.forward.retryIfRequested.sent = wakesOf c.forward.sent := by
        rw [same]
        rfl
      have heldNow : c.forward.retryIfRequested.Held fine := by
        rw [Held, numbers, same]
        exact held.forward
      obtain ⟨new, sent, none⟩ := started
      exact ⟨heldNow, new, wakes.trans sent, fun answer member => absurd member (none answer)⟩
  exact retried.of_engineSide (engineSide_pump gone c)

/-! ### The balance of questions and answers -/

/-- The numbers of the answers that have been sent. -/
def answeredIds (c : Coordinator) : List (Option RequestId) := Track.answerIds (wakesOf c.sent)

/-- The numbers under which answers are held back. -/
def heldIds (c : Coordinator) : List (Option RequestId) := c.stash.map (some ·.1)

/-- The numbers of the questions in an act. -/
def askedBy : Act → List (Option RequestId)
  | .receive e => Track.askedIds [e]
  | .pump _ => []

/-- The numbers of the questions in a run. -/
def askedIn (run : List Act) : List (Option RequestId) := run.flatMap askedBy

/-- Answering questions takes them from the stack one by one. -/
theorem Settles.balance (h : Settles fine c d) :
    d.answeredIds ++ d.pendingIds = c.answeredIds ++ c.pendingIds := by
  obtain ⟨answers, questions, wakes, pending, numbers, -⟩ := h.settled
  have pendingIds : c.pendingIds = answers.map (·.id) ++ d.pendingIds := by
    rw [Coordinator.pendingIds, pending, List.map_append, numbers]
    rfl
  rw [answeredIds, wakes, Track.answerIds_append, Track.answerIds_answers, pendingIds,
    List.append_assoc]
  rfl

/-- A request is no answer. -/
theorem answeredIds_forward (c : Coordinator) : c.forward.answeredIds = c.answeredIds := by
  rcases c.forward_cases with same | ⟨-, s, item, forwarded⟩
  · rw [same]
  · have wakes := congrArg EngineSide.wakes forwarded
    change wakesOf c.forward.sent = _ at wakes
    rw [answeredIds, wakes, Track.answerIds_append]
    exact List.append_nil _

/-- Each question has been answered once or waits, unless it came after the end. -/
structure Balanced (asked : List (Option RequestId)) (c : Coordinator) : Prop where
  held : c.Held fun _ => True
  settled : ∃ refused, (c.answeredIds ++ c.pendingIds ++ refused).Perm asked ∧
    (c.running = true → refused = [])

theorem balanced_ofCapacity (capacity : Nat) : Balanced [] (ofCapacity capacity) :=
  ⟨List.forall_mem_nil _, [], .nil, fun _ => rfl⟩

namespace Balanced

variable {asked : List (Option RequestId)}

theorem of_eq (h : Balanced asked c) (held : d.Held fun _ => True)
    (same : d.answeredIds ++ d.pendingIds = c.answeredIds ++ c.pendingIds)
    (running : d.running = true → c.running = true) : Balanced asked d := by
  obtain ⟨refused, perm, served⟩ := h.settled
  exact ⟨held, refused, same ▸ perm, served ∘ running⟩

/-- Receiving an event while events are served. -/
theorem serve (h : Balanced asked c) (running : c.running = true) (e : Event) :
    Balanced (asked ++ Track.askedIds [e]) (c.serve e) := by
  have settles := settles_serve (e := e) h.held (fun _ _ => trivial) (fun _ _ => trivial)
    fun _ _ => trivial
  obtain ⟨refused, perm, served⟩ := h.settled
  obtain rfl := served running
  refine ⟨settles.held, [], ?_, fun _ => rfl⟩
  have answered : (c.begun e).answeredIds = c.answeredIds := by
    rw [answeredIds, answeredIds, sent_begun]
  rw [List.append_nil] at perm ⊢
  rw [settles.balance, pendingIds_begun, answered]
  have moved := (perm.append_right (Track.askedIds [e])).symm
  rw [List.append_assoc] at moved
  exact (moved.trans (List.perm_append_comm.append_left _)).symm

theorem forward (h : Balanced asked c) : Balanced asked c.forward := by
  obtain ⟨running, pending, -⟩ := forward_keeps h.held.labelled
  refine h.of_eq h.held.forward ?_ (running ▸ id)
  rw [answeredIds_forward, pendingIds, pending, pendingIds]

theorem retryIfRequested (h : Balanced asked c) : Balanced asked c.retryIfRequested := by
  have running : c.retryIfRequested.running = true → c.running = true :=
    (answers_retryIfRequested h.held.labelled).running ▸ id
  rcases retryIfRequested_cases c with same | ⟨top, rest, lacks, ⟨-, same⟩ | ⟨-, same⟩⟩
  · rw [same] at running ⊢
    exact h.of_eq h.held rfl running
  · have settles := settles_fail h.held (fun _ _ => trivial) lacks trivial
    rw [same] at running ⊢
    exact h.of_eq settles.held settles.balance running
  · have numbers : c.retryIfRequested.pendingIds = c.pendingIds := by
      rw [same, pendingIds, pendingIds, lacks.pending]
      rfl
    have held : c.retryIfRequested.Held fun _ => True := by
      rw [Held, numbers, same]
      exact h.held
    have answered : c.retryIfRequested.answeredIds = c.answeredIds := by
      rw [same]
      rfl
    exact h.of_eq held (by rw [answered, numbers]) running

theorem pump (h : Balanced asked c) (gone : CallId → Bool) : Balanced asked (c.pump gone) := by
  have retried := h.forward.retryIfRequested
  obtain ⟨running, pending, stash, -, wakes⟩ := EngineSide.mk.injEq .. ▸ engineSide_pump gone c
  refine retried.of_eq (retried.held.of_eq pending stash) ?_ (running ▸ id)
  rw [answeredIds, wakes, pendingIds, pending]
  rfl

theorem refuse (h : Balanced asked c) (stopped : ¬c.running = true) (e : Event) :
    Balanced (asked ++ Track.askedIds [e]) (c.refuse e) := by
  obtain ⟨refused, perm, -⟩ := h.settled
  obtain ⟨running, pending, stash, -, wakes⟩ := EngineSide.mk.injEq .. ▸ engineSide_refuse c e
  refine ⟨h.held.of_eq pending stash, refused ++ Track.askedIds [e], ?_, fun serves => ?_⟩
  · rw [answeredIds, wakes, pendingIds, pending, ← List.append_assoc]
    exact perm.append_right _
  · exact absurd (running ▸ serves) stopped

theorem act (h : Balanced asked c) (a : Act) : Balanced (asked ++ askedBy a) (c.act a) := by
  cases a with
  | receive e =>
    rw [Coordinator.act, handle]
    split
    · next running => exact h.serve running e
    · next stopped => exact h.refuse stopped e
  | pump gone =>
    rw [askedBy, List.append_nil, Coordinator.act]
    split
    · exact h.pump gone
    · exact h

/-- Every run keeps the balance. -/
theorem acts (h : Balanced asked c) (run : List Act) :
    Balanced (asked ++ askedIn run) (c.acts run) := by
  induction run generalizing asked c with
  | nil => rwa [askedIn, List.flatMap_nil, List.append_nil]
  | cons a run ih =>
    rw [askedIn, List.flatMap_cons, ← List.append_assoc]
    exact ih (h.act a)

theorem mem_asked (h : Balanced asked c) {id : Option RequestId} (waits : id ∈ c.pendingIds) :
    id ∈ asked := by
  obtain ⟨refused, perm, -⟩ := h.settled
  exact perm.subset (List.mem_append_left refused (List.mem_append_right c.answeredIds waits))

/-- Distinct questions are not answered twice, nor do they wait once they have been answered. -/
theorem apart (h : Balanced asked c) (distinct : asked.Nodup) :
    (c.answeredIds ++ c.pendingIds).Nodup := by
  obtain ⟨refused, perm, -⟩ := h.settled
  exact (List.nodup_append.mp (perm.nodup_iff.mpr distinct)).1

end Balanced

/-- Whatever an act does, answers that are held back belong to questions that wait. -/
theorem Held.act (held : c.Held fun _ => True) (a : Act) : (c.act a).Held fun _ => True := by
  have balanced : Balanced (c.answeredIds ++ c.pendingIds) c :=
    ⟨held, [], by rw [List.append_nil], fun _ => rfl⟩
  exact (balanced.act a).held

/-- In a run whose questions carry distinct numbers, no question is answered twice: once its answer
has been sent, it does not wait, and no answer is held back for it. Answers are held back only for
questions below the innermost one. As long as events are served, each question has been answered or
waits. -/
theorem answered_once {capacity : Nat} {run : List Act} (distinct : (askedIn run).Nodup)
    (reached : (ofCapacity capacity).acts run = c) :
    c.answeredIds.Nodup ∧
      (∀ id ∈ c.answeredIds, id ∉ c.pendingIds ∧ id ∉ c.heldIds) ∧
      (∀ id ∈ c.heldIds, id ∈ c.pendingIds ∧ c.pendingIds.head? ≠ some id) ∧
      (c.running = true → (c.answeredIds ++ c.pendingIds).Perm (askedIn run)) := by
  have balanced := (balanced_ofCapacity capacity).acts run
  rw [reached, List.nil_append] at balanced
  obtain ⟨refused, perm, served⟩ := balanced.settled
  obtain ⟨answered, pending, disjoint⟩ := List.nodup_append.mp (balanced.apart distinct)
  have below : ∀ id ∈ c.heldIds, id ∈ c.pendingIds.tail := by
    intro id member
    obtain ⟨p, kept, rfl⟩ := List.mem_map.mp member
    exact (balanced.held p kept).2.2
  have waits : ∀ id ∈ c.answeredIds, id ∉ c.pendingIds :=
    fun id sent waiting => disjoint id sent id waiting rfl
  refine ⟨answered, fun id sent => ⟨waits id sent, ?_⟩, fun id held => ⟨?_, ?_⟩, fun running => ?_⟩
  · exact fun held => waits id sent (List.mem_of_mem_tail (below id held))
  · exact List.mem_of_mem_tail (below id held)
  · intro first
    -- With distinct numbers, what is below the innermost question is not the innermost question.
    obtain ⟨rest, stack⟩ := List.head?_eq_some_iff.mp first
    have inside := below id held
    rw [stack] at pending inside
    exact (List.nodup_cons.mp pending).1 inside
  · have all := perm
    rwa [served running, List.append_nil] at all

/-- A question to the primary client, or an answer to it. -/
def lineItem (id : RequestId) (answer : Option Answer) : Item :=
  ⟨SlotId.primary, some id, .consoleRead "> " false, answer⟩

/-- The engine asks a question inside another one, and the client answers the outer one first, and
then both. -/
def nestedRun : List Act :=
  [.receive (.connect SlotId.primary 0), .receive (.submit (lineItem 1 none) true),
    .receive (.submit (lineItem 2 none) true),
    .receive (.call SlotId.primary ⟨1⟩ [lineItem 1 (some .done)] 1), .pump fun _ => false,
    .receive (.call SlotId.primary ⟨1⟩ [lineItem 2 (some .done), lineItem 1 (some .done)] 2)]

theorem answered_once_nested : ∃ c, (ofCapacity 64).acts nestedRun = c ∧
    (askedIn nestedRun).Nodup ∧ c.answeredIds = [some 2, some 1] ∧ c.answeredIds.Nodup ∧
      (∀ id ∈ c.answeredIds, id ∉ c.pendingIds ∧ id ∉ c.heldIds) ∧
      (∀ id ∈ c.heldIds, id ∈ c.pendingIds ∧ c.pendingIds.head? ≠ some id) ∧
      (c.running = true → (c.answeredIds ++ c.pendingIds).Perm (askedIn nestedRun)) := by
  have distinct : (askedIn nestedRun).Nodup := by decide
  exact ⟨_, rfl, distinct, rfl, answered_once distinct rfl⟩

end EngineLink.Coordinator
