import EngineLink.Exchange.Coordinator

/-!
# What the coordinator does for the engine

Most of what the coordinator does concerns clients only. For the engine it does three things: it
takes down its questions, it answers the innermost ones, and it hands it requests. Each answer that
it sends carries the number of the question that it takes from its stack.

## Main definitions

* `Coordinator.EngineSide`, `Coordinator.engineSide` — what concerns the engine
* `Coordinator.Answers` — some of the innermost questions are answered, one after another
* `Coordinator.opened` — what an event of the engine changes before anything is answered

## Main results

* `Coordinator.answers_serve` — receiving an event only answers questions besides
* `Coordinator.forward_cases`, `Coordinator.answers_pump` — handing out
-/

namespace EngineLink.Coordinator

/-! ### The side of the engine -/

/-- What has been sent to the engine. -/
def wakesOf (sent : List Effect) : List Wake :=
  sent.filterMap fun
    | .wake wake => some wake
    | _ => none

@[simp] theorem wakesOf_append (sent more : List Effect) :
    wakesOf (sent ++ more) = wakesOf sent ++ wakesOf more := List.filterMap_append

theorem mem_wakesOf {sent : List Effect} {wake : Wake} :
    wake ∈ wakesOf sent ↔ .wake wake ∈ sent := by
  rw [wakesOf, List.mem_filterMap]
  constructor
  · rintro ⟨effect, member, wakes⟩
    cases effect with
    | wake other => rwa [Option.some.inj wakes] at member
    | _ => cases wakes
  · exact fun member => ⟨_, member, rfl⟩

/-- The part of the state that concerns the engine. -/
structure EngineSide where
  running : Bool
  pending : List Pending
  stash : List (RequestId × Item)
  executing : List SlotId
  wakes : List Wake

/-- The part of the state that concerns the engine. -/
def engineSide (c : Coordinator) : EngineSide :=
  ⟨c.running, c.pending, c.stash, c.executing, wakesOf c.sent⟩

/-- Answers are held back under their own numbers. -/
def StashLabelled (c : Coordinator) : Prop := ∀ p ∈ c.stash, p.2.id = some p.1

/-- The numbers of the questions that wait for answers, the innermost first. -/
def pendingIds (c : Coordinator) : List (Option RequestId) := c.pending.map (·.question.id)

variable {c d e : Coordinator} {s : SlotId}

@[simp] theorem engineSide_modifySlot (c : Coordinator) (s : SlotId) (f : SlotState → SlotState) :
    (c.modifySlot s f).engineSide = c.engineSide := rfl

@[simp] theorem engineSide_resolve (c : Coordinator) (call : CallId)
    (result : Except Status Batch) :
    (c.send (.resolve call result)).engineSide = c.engineSide := by
  simp [engineSide, send, wakesOf]

@[simp] theorem engineSide_attach (c : Coordinator) (call : CallId)
    (result : Except Status ClientId) :
    (c.send (.attach call result)).engineSide = c.engineSide := by
  simp [engineSide, send, wakesOf]

@[simp] theorem engineSide_release (c : Coordinator) (s : SlotId) (result : Except Status Batch) :
    (c.release s result).engineSide = c.engineSide := by
  rw [release]
  split <;> simp

@[simp] theorem engineSide_pushOutbound (c : Coordinator) (s : SlotId) (item : Item) :
    (c.pushOutbound s item).engineSide = c.engineSide := by
  rw [pushOutbound]
  split <;> simp

@[simp] theorem engineSide_flushOutput (c : Coordinator) :
    c.flushOutput.engineSide = c.engineSide := by
  rw [flushOutput]
  split
  · rfl
  · rw [engineSide_pushOutbound]
    rfl

@[simp] theorem engineSide_enqueue (c : Coordinator) (item : Item) :
    (c.enqueue item).engineSide = c.engineSide := by
  rw [enqueue]
  split <;> simp

theorem engineSide_foldl {α : Type} {f : Coordinator → α → Coordinator}
    (h : ∀ c x, (f c x).engineSide = c.engineSide) (xs : List α) (c : Coordinator) :
    (xs.foldl f c).engineSide = c.engineSide := by
  induction xs generalizing c with
  | nil => rfl
  | cons x xs ih => rw [List.foldl_cons, ih, h]

@[simp] theorem engineSide_write (c : Coordinator) (text : String) :
    (c.write text).engineSide = c.engineSide :=
  engineSide_foldl (fun c _ => engineSide_pushOutbound c _ _) _ _

@[simp] theorem engineSide_tell (c : Coordinator) (item : Item) :
    (c.tell item).engineSide = c.engineSide := by
  rw [tell]
  split <;> simp

@[simp] theorem engineSide_deliver (gone : CallId → Bool) (c : Coordinator) (s : SlotId) :
    (c.deliver gone s).engineSide = c.engineSide := by
  rw [deliver]
  generalize flushed : (if s.isPrimary then c.flushOutput else c) = d
  have same : d.engineSide = c.engineSide := by
    rw [← flushed]
    split <;> simp
  split
  · exact same
  · split <;> simpa using same

/-- Delivering items to clients does not concern the engine. -/
theorem engineSide_pump (gone : CallId → Bool) (c : Coordinator) :
    (c.pump gone).engineSide = c.forward.retryIfRequested.engineSide :=
  engineSide_foldl (engineSide_deliver gone) _ _

theorem engineSide_refuse (c : Coordinator) (e : Event) :
    (c.refuse e).engineSide = c.engineSide := by
  cases e with
  | call slot client items call => exact engineSide_resolve c _ _
  | connect slot call => exact engineSide_attach c _ _
  | _ => rfl

theorem engineSide_releaseLast (c : Coordinator) (s : SlotId) :
    (c.releaseLast s).engineSide = c.engineSide := by
  rw [releaseLast]
  split
  · exact engineSide_release c s _
  · split
    · rfl
    · exact engineSide_release c s _

theorem engineSide_stop (c : Coordinator) :
    c.stop.engineSide = { c.engineSide with running := false } := by
  rw [stop, engineSide_foldl engineSide_releaseLast,
    engineSide_flushOutput]
  rfl

/-! ### Answering -/

/-- Some of the innermost questions are answered one after another, each under its own number. -/
structure Answers (c d : Coordinator) : Prop where
  running : d.running = c.running
  executing : d.executing = c.executing
  labelled : d.StashLabelled
  answered : ∃ answers : List Item, wakesOf d.sent = wakesOf c.sent ++ answers.map .answer ∧
    c.pendingIds = answers.map (·.id) ++ d.pendingIds

namespace Answers

theorem of_engineSide (labelled : c.StashLabelled) (same : d.engineSide = c.engineSide) :
    Answers c d := by
  obtain ⟨running, pending, stash, executing, wakes⟩ := EngineSide.mk.injEq .. ▸ same
  refine ⟨running, executing, ?_, [], ?_, ?_⟩
  · rwa [StashLabelled, stash]
  · rw [List.map_nil, List.append_nil]
    exact wakes
  · rw [List.map_nil, List.nil_append, pendingIds, pendingIds, pending]

theorem refl (labelled : c.StashLabelled) : Answers c c := of_engineSide labelled rfl

theorem trans (first : Answers c d) (next : Answers d e) : Answers c e := by
  obtain ⟨answers, wakes, pending⟩ := first.answered
  obtain ⟨more, moreWakes, morePending⟩ := next.answered
  refine ⟨next.running.trans first.running, next.executing.trans first.executing, next.labelled,
    answers ++ more, ?_, ?_⟩
  · rw [moreWakes, wakes, List.map_append, List.append_assoc]
  · rw [pending, morePending, List.map_append, List.append_assoc]

theorem foldl {α : Type} {f : Coordinator → α → Coordinator}
    (h : ∀ c x, c.StashLabelled → Answers c (f c x)) (xs : List α) (labelled : c.StashLabelled) :
    Answers c (xs.foldl f c) := by
  induction xs generalizing c with
  | nil => exact refl labelled
  | cons x xs ih =>
    have first := h c x labelled
    exact first.trans (ih first.labelled)

/-- What concerns clients only may come before. -/
theorem of_left (same : d.engineSide = c.engineSide) (h : Answers d e) : Answers c e := by
  obtain ⟨running, pending, stash, executing, wakes⟩ := EngineSide.mk.injEq .. ▸ same
  obtain ⟨answers, sent, ids⟩ := h.answered
  refine ⟨h.running.trans running, h.executing.trans executing, h.labelled, answers, ?_, ?_⟩
  · rw [sent, wakes]
  · rw [← ids, pendingIds, pendingIds, pending]

end Answers

theorem stashed?_spec {question : Item} {id : RequestId} {held : Item}
    (labelled : c.StashLabelled) (h : c.stashed? question = some (id, held)) :
    held.id = question.id := by
  simp only [stashed?, Option.pure_def, Option.bind_eq_bind, Option.bind_eq_some_iff,
    Option.some.injEq, Prod.mk.injEq] at h
  obtain ⟨n, number, found, lookup, rfl, rfl⟩ := h
  obtain ⟨before, after, split, -⟩ := List.lookup_eq_some_iff.mp lookup
  rw [number]
  exact labelled (n, found) (by rw [split]; simp)

/-- An answer that is not held back any longer. -/
theorem answers_forget (labelled : c.StashLabelled) (id : RequestId) :
    Answers c { c with stash := c.stash.filter (·.1 != id) } := by
  refine ⟨rfl, rfl, ?_, [], ?_, rfl⟩
  · exact fun p hp => labelled p (List.mem_filter.mp hp).1
  · rw [List.map_nil, List.append_nil]

/-- The first answer is for the innermost question, and each further one for the question that is
the innermost by then. -/
theorem answers_answerFrom {ps : List Pending} {answer : Item} (labelled : c.StashLabelled)
    (pending : c.pending = ps) (own : ∀ top ∈ ps.head?, answer.id = top.question.id) :
    Answers c (c.answerFrom answer ps) := by
  -- Along the stack: each answer goes to the question that is the innermost by then.
  induction ps generalizing c answer with
  | nil => exact .refl labelled
  | cons top rest ih =>
    have first : Answers c ({ c with pending := rest }.send (.wake (.answer answer))) := by
      refine ⟨rfl, rfl, labelled, [answer], ?_, ?_⟩
      · simp [send, wakesOf]
      · rw [pendingIds, pending, List.map_cons, List.map_singleton, own top rfl]
        rfl
    rw [answerFrom]
    split
    · exact first
    · next top found =>
      split
      · next id held stashed =>
        have forgotten := answers_forget first.labelled id
        refine first.trans (forgotten.trans (ih forgotten.labelled rfl ?_))
        rw [found]
        rintro _ ⟨⟩
        exact stashed?_spec first.labelled stashed
      · split
        · refine first.trans (ih first.labelled rfl ?_)
          rw [found]
          rintro _ ⟨⟩
          rfl
        · exact first

theorem answers_answerTop {answer : Item} (labelled : c.StashLabelled)
    (own : ∀ top ∈ c.pending.head?, answer.id = top.question.id) :
    Answers c (c.answerTop answer) :=
  answers_answerFrom labelled rfl own

theorem answers_failTop {question : Item} (labelled : c.StashLabelled) (status : Status)
    (own : ∀ top ∈ c.pending.head?, question.id = top.question.id) :
    Answers c (c.failTop question status) :=
  answers_answerTop labelled own

/-! ### Events -/

/-- The innermost place is that of the innermost question. -/
theorem head_of_depthOf?_eq_zero {id : RequestId} (h : c.depthOf? id = some 0) :
    ∀ top ∈ c.pending.head?, some id = top.question.id := by
  rw [depthOf?, Option.map_eq_some_iff] at h
  obtain ⟨i, found, last⟩ := h
  obtain ⟨inside, here, -⟩ := List.findIdx?_eq_some_iff_getElem.mp found
  -- Places are found from the outside, in the reversed stack.
  intro top first
  have length : i < c.pending.length := by simpa using inside
  obtain rfl : i = c.pending.length - 1 := by omega
  have head : c.pending[0] = top := by
    rw [List.head?_eq_getElem?] at first
    exact (List.getElem?_eq_some_iff.mp first).2
  rw [List.getElem_reverse, beq_iff_eq] at here
  rw [← here, ← head]
  congr 3

theorem answers_accept (labelled : c.StashLabelled) (answer : Item) :
    Answers c (c.accept answer) := by
  rw [accept]
  split
  · exact .refl labelled
  · next id number =>
    split
    · next first =>
      refine answers_answerTop labelled ?_
      rw [number]
      exact head_of_depthOf?_eq_zero first
    · -- The answer is held back, in place of an earlier one for the same question.
      refine ⟨rfl, rfl, ?_, [], ?_, rfl⟩
      · intro p hp
        rcases List.mem_cons.mp hp with rfl | hp
        · exact number
        · exact labelled p (List.mem_filter.mp hp).1
      · rw [List.map_nil, List.append_nil]
        rfl
    · exact .refl labelled

theorem answers_receive (labelled : c.StashLabelled) (s : SlotId) (item : Item) :
    Answers c (c.receive s item) := by
  rw [receive]
  split
  · exact answers_accept labelled _
  · exact .of_engineSide labelled rfl

theorem answers_renewRetry (labelled : c.StashLabelled) : Answers c c.renewRetry := by
  rw [renewRetry]
  split
  · exact .refl labelled
  · next top rest pending =>
    refine ⟨rfl, rfl, labelled, [], ?_, ?_⟩
    · rw [List.map_nil, List.append_nil]
    · rw [pendingIds, pending]
      rfl

theorem answers_serveCall (labelled : c.StashLabelled) (s : SlotId) (client : ClientId)
    (items : List Item) (call : CallId) : Answers c (c.serveCall s client items call) := by
  rw [serveCall]
  split
  · exact .of_engineSide labelled (by simp)
  · have waiting : Answers c ((c.release s (.error superseded)).modifySlot s
        fun state => { state with waiter := some call }) :=
      .of_engineSide labelled (by simp)
    split
    · exact waiting.trans (.of_engineSide waiting.labelled rfl)
    · split
      · have renewed := waiting.trans (answers_renewRetry waiting.labelled)
        exact renewed.trans (.foldl (fun _ item h => answers_receive h s item) _ renewed.labelled)
      · exact waiting.trans (.foldl (fun _ item h => answers_receive h s item) _ waiting.labelled)

theorem answers_connect (labelled : c.StashLabelled) (s : SlotId) (call : CallId) :
    Answers c (c.connect s call) := by
  refine .of_engineSide labelled ?_
  rw [connect, engineSide_attach]
  exact engineSide_release c s _

theorem answers_disconnect (labelled : c.StashLabelled) (s : SlotId) (client : ClientId) :
    Answers c (c.disconnect s client) := by
  rw [disconnect]
  split
  · exact .refl labelled
  · have detached : Answers c ((c.release s (.error clientGone)).modifySlot s fun state =>
        { state with client := none, clientBusy := none, inbound := [], outbound := [] }) :=
      .of_engineSide labelled (by simp)
    dsimp only
    split
    · next top second rest pending =>
      split
      · refine detached.trans (answers_failTop detached.labelled _ ?_)
        rw [pending]
        rintro _ ⟨⟩
        rfl
      · exact detached
    · exact detached

/-- What an event of the engine changes before anything is answered: its questions are put on the
stack, and its replies end executions. -/
def opened (c : Coordinator) : Event → Coordinator
  | .submit item true => { c with pending := ⟨item, false⟩ :: c.pending }
  | .executed _ => { c with executing := c.executing.tail }
  | _ => c

/-- Besides what it opens or ends, an event only answers questions. -/
theorem answers_serve (labelled : c.StashLabelled) {e : Event} (stays : e ≠ .shutdown) :
    Answers (c.opened e) (c.serve e) := by
  cases e with
  | submit item wait =>
    cases wait with
    | false => exact .of_engineSide labelled (engineSide_tell c item)
    | true =>
      rw [serve, ask]
      split
      · refine answers_failTop ?_ _ ?_
        · exact labelled
        · rintro _ ⟨⟩
          rfl
      · exact .of_engineSide labelled (engineSide_enqueue _ item)
  | executed item => exact .of_engineSide labelled (engineSide_enqueue _ item)
  | busy busy => exact .of_engineSide labelled rfl
  | call slot client items call => exact answers_serveCall labelled slot client items call
  | connect slot call => exact answers_connect labelled slot call
  | disconnect slot client => exact answers_disconnect labelled slot client
  | shutdown => exact absurd rfl stays

/-! ### Handing out -/

/-- A request is handed to the engine only while it waits with nothing of its own running. -/
theorem forward_cases (c : Coordinator) :
    c.forward = c ∨ c.engineWaits = true ∧ ∃ s item, c.forward.engineSide =
      { c.engineSide with
        executing := s :: c.executing, wakes := wakesOf c.sent ++ [.execute item] } := by
  rw [forward]
  split
  · exact .inl rfl
  · next waits =>
    split
    · next s item inbound _ _ _ _ _ _ =>
      refine .inr ⟨by simpa using waits, s, item, ?_⟩
      simp [engineSide, send, wakesOf]
    · exact .inl rfl

/-- Handing a request to the engine leaves the questions and their answers. -/
theorem forward_keeps (labelled : c.StashLabelled) :
    c.forward.running = c.running ∧ c.forward.pending = c.pending ∧ c.forward.StashLabelled := by
  rcases c.forward_cases with same | ⟨-, s, item, forwarded⟩
  · rw [same]
    exact ⟨rfl, rfl, labelled⟩
  · obtain ⟨running, pending, stash, -, -⟩ := EngineSide.mk.injEq .. ▸ forwarded
    refine ⟨running, pending, ?_⟩
    rwa [StashLabelled, stash]

theorem answers_retryIfRequested (labelled : c.StashLabelled) : Answers c c.retryIfRequested := by
  rw [retryIfRequested]
  split
  · refine .of_left (d := { c with retryRequested := false }) rfl ?_
    rw [retry]
    split
    · exact .refl labelled
    · split
      · exact .refl labelled
      · next top rest pending =>
        split
        · exact .refl labelled
        · split
          · refine answers_failTop ?_ _ ?_
            · exact labelled
            · rw [pending]
              rintro _ ⟨⟩
              rfl
          · refine ⟨rfl, rfl, labelled, [], ?_, ?_⟩
            · rw [List.map_nil, List.append_nil]
              rfl
            · rw [pendingIds, pending]
              rfl
  · exact .refl labelled

/-- Besides the request that it hands to the engine, handing out only answers questions. -/
theorem answers_pump (labelled : c.forward.StashLabelled) (gone : CallId → Bool) :
    Answers c.forward (c.pump gone) := by
  have retried := answers_retryIfRequested labelled
  exact retried.trans (.foldl
    (fun c s h => .of_engineSide h (engineSide_deliver gone c s)) _ retried.labelled)

end EngineLink.Coordinator
