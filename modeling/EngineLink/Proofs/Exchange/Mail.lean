import EngineLink.Proofs.Exchange.Attendance
import EngineLink.Proofs.Exchange.Deliveries

/-!
# Deliveries to the primary client

Items for the primary client wait in the queue of its slot until one of its calls takes all of them
in a batch. The queue is dropped when the client leaves, and whoever comes gets the open questions
again. So as long as a client is attached, an open question to the primary slot is queued or has
been in a batch. It is queued a second time only after it has been in one.

## Main definitions

* `Coordinator.batches` — the batches that primary clients have got
* `Coordinator.Queues` — items are put behind those for the primary client
* `Coordinator.Came` — a question was in a number of batches
* `Coordinator.InMail` — open questions are queued for the primary client or have been in batches

## Main results

* `Coordinator.queues_tell`, `Coordinator.queues_ask`, `Coordinator.queues_serveCall` — most events
  put items behind the others
* `Coordinator.InMail.act` — one act keeps questions in the mail
* `Coordinator.Lacks.came` — a question is lacking only after all batches that are due
-/

namespace EngineLink.Coordinator

variable {caller : CallId → SlotId × ClientId} {known : Item → Prop} {c d e : Coordinator}
  {s : SlotId} {a : Act}

/-! ### The queue and the batches -/

/-- The items that are queued for the primary client. -/
def primaryQueue (c : Coordinator) : List Item := (c.slot SlotId.primary).outbound

/-- The batches that calls on the primary slot have got. -/
def batches (caller : CallId → SlotId × ClientId) (sent : List Effect) : List Batch :=
  sent.filterMap fun
    | .resolve call (.ok batch) => if (caller call).1 = SlotId.primary then some batch else none
    | _ => none

@[simp] theorem batches_append (sent more : List Effect) :
    batches caller (sent ++ more) = batches caller sent ++ batches caller more :=
  List.filterMap_append

/-- Items are put behind those for the primary client, and only if it is attached. -/
structure Queues (caller : CallId → SlotId × ClientId) (c d : Coordinator) : Prop where
  client : d.clients SlotId.primary = c.clients SlotId.primary
  queued : c.primaryQueue <+: d.primaryQueue
  dropped : c.clients SlotId.primary = none → d.primaryQueue = c.primaryQueue
  got : batches caller d.sent = batches caller c.sent

namespace Queues

theorem of_eq (same : d.slot SlotId.primary = c.slot SlotId.primary)
    (got : batches caller d.sent = batches caller c.sent) : Queues caller c d := by
  have queue : d.primaryQueue = c.primaryQueue := congrArg SlotState.outbound same
  exact ⟨congrArg SlotState.client same, queue ▸ List.prefix_refl _, fun _ => queue, got⟩

theorem refl (c : Coordinator) : Queues caller c c := of_eq rfl rfl

theorem trans (first : Queues caller c d) (next : Queues caller d e) : Queues caller c e := by
  refine ⟨next.client.trans first.client, first.queued.trans next.queued, fun nobody => ?_,
    next.got.trans first.got⟩
  rw [next.dropped (first.client.trans nobody), first.dropped nobody]

theorem foldl {α : Type} {f : Coordinator → α → Coordinator}
    (h : ∀ c x, Queues caller c (f c x)) (xs : List α) (c : Coordinator) :
    Queues caller c (xs.foldl f c) := by
  induction xs generalizing c with
  | nil => exact refl c
  | cons x xs ih => exact (h c x).trans (ih (f c x))

end Queues

/-! ### Parts of the state -/

theorem queues_modifySlot_of_ne (other : s ≠ SlotId.primary) (f : SlotState → SlotState) :
    Queues caller c (c.modifySlot s f) :=
  .of_eq (slot_modifySlot_of_ne c other.symm f) rfl

/-- A change to a slot that leaves its client and the queue for it. -/
theorem queues_modifySlot {f : SlotState → SlotState}
    (client : (f (c.slot s)).client = (c.slot s).client)
    (queued : (f (c.slot s)).outbound = (c.slot s).outbound) :
    Queues caller c (c.modifySlot s f) := by
  by_cases primary : s = SlotId.primary
  · subst primary
    have queue : (c.modifySlot SlotId.primary f).primaryQueue = c.primaryQueue := by
      rw [primaryQueue, slot_modifySlot_self, queued]
      rfl
    exact ⟨congrFun (clients_modifySlot_of_eq client) _, queue ▸ List.prefix_refl _,
      fun _ => queue, rfl⟩
  · exact queues_modifySlot_of_ne primary f

/-- Sending something that is no batch for a primary client. -/
theorem queues_send {e : Effect} (quiet : batches caller [e] = []) :
    Queues caller c (c.send e) := by
  refine .of_eq rfl ?_
  rw [send, batches_append, quiet, List.append_nil]

theorem queues_release (c : Coordinator) (s : SlotId) (status : Status) :
    Queues caller c (c.release s (.error status)) := by
  rw [release]
  split
  · exact .refl c
  · exact (queues_modifySlot rfl rfl).trans (queues_send rfl)

theorem queues_pushOutbound (c : Coordinator) (s : SlotId) (item : Item) :
    Queues caller c (c.pushOutbound s item) := by
  have client := congrFun (clients_pushOutbound c s item) SlotId.primary
  rw [pushOutbound] at client ⊢
  split
  · exact .refl c
  · next attached =>
    by_cases primary : s = SlotId.primary
    · subst primary
      rw [if_neg attached] at client
      have queue : (c.modifySlot SlotId.primary fun state =>
          { state with outbound := state.outbound ++ [item] }).primaryQueue =
            c.primaryQueue ++ [item] := by
        rw [primaryQueue, slot_modifySlot_self]
        rfl
      refine ⟨client, ?_, fun nobody => ?_, rfl⟩
      · rw [queue]
        exact List.prefix_append ..
      · exact absurd (Option.isNone_iff_eq_none.mpr nobody) attached
    · exact queues_modifySlot_of_ne primary _

theorem queues_flushOutput (c : Coordinator) : Queues caller c c.flushOutput := by
  rw [flushOutput]
  split
  · exact .refl c
  · next text stdout _ =>
    have taken : Queues caller c { c with stdout } := .of_eq rfl rfl
    exact taken.trans (queues_pushOutbound ..)

theorem queues_enqueue (c : Coordinator) (item : Item) : Queues caller c (c.enqueue item) := by
  rw [enqueue]
  split
  · exact (queues_flushOutput c).trans (queues_pushOutbound ..)
  · exact queues_pushOutbound ..

theorem queues_answerFrom (answer : Item) (ps : List Pending) (c : Coordinator) :
    Queues caller c (c.answerFrom answer ps) := by
  induction ps generalizing c answer with
  | nil => exact .refl c
  | cons top rest ih =>
    have kept : Queues caller c { c with pending := rest } := .of_eq rfl rfl
    have first := kept.trans (queues_send (e := .wake (.answer answer)) rfl)
    rw [answerFrom]
    split
    · exact first
    · split
      · next id held _ =>
        generalize ({ c with pending := rest }.send (.wake (.answer answer)) : Coordinator) = d
          at first
        have forgotten : Queues caller d { d with stash := d.stash.filter (·.1 != id) } :=
          .of_eq rfl rfl
        exact (first.trans forgotten).trans (ih held _)
      · split
        · exact first.trans (ih _ _)
        · exact first

theorem queues_failTop (question : Item) (status : Status) (c : Coordinator) :
    Queues caller c (c.failTop question status) := queues_answerFrom ..

/-- What is queued for an attached client waits at the end of its queue. -/
theorem mem_primaryQueue_enqueue {item : Item} (primary : item.slot = SlotId.primary)
    (attached : c.clients SlotId.primary ≠ none) : item ∈ (c.enqueue item).primaryQueue := by
  rw [enqueue, primary]
  generalize flushed : (if SlotId.primary.isPrimary then c.flushOutput else c) = d
  have same : d.clients = c.clients := by
    rw [← flushed]
    split
    · exact clients_flushOutput c
    · rfl
  rw [← same] at attached
  have present : ¬(d.slot SlotId.primary).client.isNone = true :=
    fun nobody => attached (Option.isNone_iff_eq_none.mp nobody)
  rw [pushOutbound, if_neg present, primaryQueue, slot_modifySlot_self]
  exact List.mem_append_right _ List.mem_cons_self

/-! ### Events -/

theorem queues_tell (c : Coordinator) (item : Item) : Queues caller c (c.tell item) := by
  rw [tell]
  split
  · next text _ _ =>
    have taken : Queues caller c { c with stdout := (c.stdout.push text).2 } := .of_eq rfl rfl
    exact taken.trans (.foldl (fun c _ => queues_pushOutbound c _ _) _ _)
  · exact queues_enqueue c item

theorem queues_ask (c : Coordinator) (item : Item) : Queues caller c (c.ask item) := by
  have asked : Queues caller c { c with pending := ⟨item, false⟩ :: c.pending } := .of_eq rfl rfl
  rw [ask]
  split
  · exact asked.trans (queues_failTop ..)
  · exact asked.trans (queues_enqueue ..)

/-- A new question to an attached primary client is queued for it. -/
theorem mem_primaryQueue_ask {item : Item} (primary : item.slot = SlotId.primary)
    (attached : c.clients SlotId.primary ≠ none) : item ∈ (c.ask item).primaryQueue := by
  rw [ask]
  split
  · next nobody =>
    rw [Bool.and_eq_true, Option.isNone_iff_eq_none, primary] at nobody
    exact absurd nobody.1 attached
  · exact mem_primaryQueue_enqueue (c := { c with pending := ⟨item, false⟩ :: c.pending }) primary
      attached

theorem queues_finish (c : Coordinator) (item : Item) : Queues caller c (c.finish item) := by
  have ended : Queues caller c { c with executing := c.executing.tail } := .of_eq rfl rfl
  exact (ended.trans (queues_modifySlot rfl rfl)).trans (queues_enqueue ..)

theorem queues_receive (c : Coordinator) (s : SlotId) (item : Item) :
    Queues caller c (c.receive s item) := by
  rw [receive]
  split
  · rw [accept]
    split
    · exact .refl c
    · split
      · exact queues_answerFrom ..
      · exact .of_eq rfl rfl
      · exact .refl c
  · exact queues_modifySlot rfl rfl

theorem queues_renewRetry (c : Coordinator) : Queues caller c c.renewRetry := by
  rw [renewRetry]
  split
  · exact .refl c
  · exact .of_eq rfl rfl

theorem queues_serveCall (c : Coordinator) (s : SlotId) (client : ClientId) (items : List Item)
    (call : CallId) : Queues caller c (c.serveCall s client items call) := by
  rw [serveCall]
  split
  · exact queues_send rfl
  · have waiting : Queues caller c ((c.release s (.error superseded)).modifySlot s fun state =>
        { state with waiter := some call }) :=
      (queues_release c s _).trans (queues_modifySlot rfl rfl)
    have received (d : Coordinator) : Queues caller d (items.foldl (·.receive s ·) d) :=
      .foldl (fun d item => queues_receive d s item) items d
    split
    · exact waiting.trans (.of_eq rfl rfl)
    · split
      · exact (waiting.trans (queues_renewRetry _)).trans (received _)
      · exact waiting.trans (received _)

theorem queues_connect (other : s ≠ SlotId.primary) (call : CallId) :
    Queues caller c (c.connect s call) := by
  have released : Queues caller c (c.release s (.error slotTaken)) := queues_release ..
  have attached := released.trans (queues_modifySlot_of_ne other fun state =>
    { state with
      client := some ⟨c.nextClient⟩
      clientBusy := none
      outbound := (c.questionsTo s).foldl requeue state.outbound })
  have sent := attached.trans (queues_send (e := .attach call (.ok ⟨c.nextClient⟩)) rfl)
  exact sent.trans (.of_eq rfl rfl)

theorem queues_disconnect (other : s ≠ SlotId.primary) (client : ClientId) :
    Queues caller c (c.disconnect s client) := by
  rw [disconnect]
  split
  · exact .refl c
  · have released : Queues caller c (c.release s (.error clientGone)) := queues_release ..
    have detached := released.trans (queues_modifySlot_of_ne other fun state =>
      { state with client := none, clientBusy := none, inbound := [], outbound := [] })
    dsimp only
    split
    · split
      · exact detached.trans (queues_failTop ..)
      · exact detached
    · exact detached

theorem queues_forward (c : Coordinator) : Queues caller c c.forward := by
  rcases forward_eq c with same | ⟨s, item, inbound, same⟩
  · rw [same]
    exact .refl c
  · have taken : Queues caller c { c with executing := s :: c.executing } := .of_eq rfl rfl
    rw [same]
    exact (taken.trans (queues_modifySlot rfl rfl)).trans (queues_send rfl)

/-! ### Questions in batches -/

/-- Among some items is a question with a number. -/
def Carries (known : Item → Prop) (id : Option RequestId) (items : List Item) : Prop :=
  ∃ item ∈ items, known item ∧ item.id = id

/-- A question with a number was in at least `n` of some batches. -/
def Came (known : Item → Prop) (id : Option RequestId) (n : Nat) (all : List Batch) : Prop :=
  ∃ few : List Batch, few.Sublist all ∧ few.length = n ∧
    ∀ batch ∈ few, Carries known id batch.items

theorem Carries.mono {id : Option RequestId} {items more : List Item}
    (h : Carries known id items) (sub : items ⊆ more) : Carries known id more := by
  obtain ⟨item, member, spec⟩ := h
  exact ⟨item, sub member, spec⟩

namespace Came

variable {id : Option RequestId} {n : Nat} {all : List Batch}

theorem zero (id : Option RequestId) (all : List Batch) : Came known id 0 all :=
  ⟨[], List.nil_sublist all, rfl, List.forall_mem_nil _⟩

theorem of_succ (h : Came known id (n + 1) all) : Came known id n all := by
  obtain ⟨few, sub, length, carry⟩ := h
  refine ⟨few.tail, (List.tail_sublist few).trans sub, ?_, ?_⟩
  · rw [List.length_tail, length]
    rfl
  · exact fun batch member => carry batch (List.mem_of_mem_tail member)

theorem append (h : Came known id n all) (more : List Batch) : Came known id n (all ++ more) := by
  obtain ⟨few, sub, length, carry⟩ := h
  exact ⟨few, sub.trans (List.sublist_append_left all more), length, carry⟩

theorem imp (h : Came known id n all) {kind : Item → Prop}
    (same : ∀ item, known item → item.id = id → kind item) : Came kind id n all := by
  obtain ⟨few, sub, length, carry⟩ := h
  refine ⟨few, sub, length, fun batch member => ?_⟩
  obtain ⟨item, inside, asked, number⟩ := carry batch member
  exact ⟨item, inside, same item asked number, number⟩

/-- It was in one more batch. -/
theorem concat (h : Came known id n all) {batch : Batch} (carries : Carries known id batch.items) :
    Came known id (n + 1) (all ++ [batch]) := by
  obtain ⟨few, sub, length, carry⟩ := h
  refine ⟨few ++ [batch], sub.append_right [batch], ?_, ?_⟩
  · rw [List.length_append, length]
    rfl
  · rw [List.forall_mem_append]
    exact ⟨carry, List.forall_mem_singleton.mpr carries⟩

end Came

/-! ### Open questions -/

/-- How often the primary client is to get a question. -/
def due (p : Pending) : Nat := if p.retried then 2 else 1

/-- An open question to the primary slot was in all batches that are due, but for the one for which
it is queued. Without a client it is not queued. -/
structure Mailed (known : Item → Prop) (caller : CallId → SlotId × ClientId) (c : Coordinator)
    (p : Pending) : Prop where
  asked : known p.question
  came : p.question.slot = SlotId.primary →
    Came known p.question.id (due p - 1) (batches caller c.sent)
  comes : p.question.slot = SlotId.primary → c.clients SlotId.primary ≠ none →
    Carries known p.question.id c.primaryQueue ∨
      Came known p.question.id (due p) (batches caller c.sent)

/-- Open questions are in the mail, and nothing is queued without a client. -/
structure InMail (known : Item → Prop) (caller : CallId → SlotId × ClientId)
    (c : Coordinator) : Prop where
  empty : c.clients SlotId.primary = none → c.primaryQueue = []
  mailed : ∀ p ∈ c.pending, Mailed known caller c p

theorem inMail_ofCapacity (known : Item → Prop) (caller : CallId → SlotId × ClientId)
    (capacity : Nat) : InMail known caller (ofCapacity capacity) :=
  ⟨fun _ => rfl, List.forall_mem_nil _⟩

/-- Open questions stay the same or are answered. They may be marked as not sent again. -/
def Leaves (c d : Coordinator) : Prop :=
  ∀ p ∈ d.pending, ∃ old ∈ c.pending, p.question = old.question ∧
    (p.retried = true → old.retried = true)

theorem leaves_of_subset (sub : d.pending ⊆ c.pending) : Leaves c d :=
  fun p member => ⟨p, sub member, rfl, id⟩

theorem leaves_renewRetry (c : Coordinator) : Leaves c c.renewRetry := by
  rw [renewRetry]
  split
  · exact leaves_of_subset (List.Subset.refl _)
  · next top rest pending =>
    intro p member
    rw [pending]
    rcases List.mem_cons.mp member with rfl | member
    · exact ⟨top, List.mem_cons_self, rfl, fun marked => absurd marked Bool.false_ne_true⟩
    · exact ⟨p, List.mem_cons_of_mem top member, rfl, id⟩

namespace Mailed

variable {p old : Pending}

theorem queues (h : Mailed known caller c p) (queues : Queues caller c d) :
    Mailed known caller d p := by
  refine ⟨h.asked, ?_, ?_⟩
  · rw [queues.got]
    exact h.came
  · rw [queues.got, queues.client]
    intro primary attached
    exact (h.comes primary attached).imp_left (·.mono queues.queued.subset)

theorem leaves (h : Mailed known caller c old) (same : p.question = old.question)
    (marked : p.retried = true → old.retried = true) : Mailed known caller c p := by
  -- A question that is not marked any longer is due once less.
  have renewed (came : Came known old.question.id (due old) (batches caller c.sent)) :
      Came known old.question.id (due p) (batches caller c.sent) := by
    cases retried : p.retried with
    | true => simpa [due, retried, marked retried] using came
    | false =>
      rw [due, retried, if_neg Bool.false_ne_true]
      cases before : old.retried with
      | true =>
        rw [due, before, if_pos rfl] at came
        exact came.of_succ
      | false => simpa [due, before] using came
  have before (came : Came known old.question.id (due old - 1) (batches caller c.sent)) :
      Came known old.question.id (due p - 1) (batches caller c.sent) := by
    cases retried : p.retried with
    | true => simpa [due, retried, marked retried] using came
    | false =>
      rw [due, retried, if_neg Bool.false_ne_true]
      exact .zero _ _
  refine ⟨same ▸ h.asked, ?_, ?_⟩
  · rw [same]
    exact fun primary => before (h.came primary)
  · rw [same]
    exact fun primary attached => (h.comes primary attached).imp_right renewed

end Mailed

namespace InMail

/-- What puts items behind the others and asks no question. -/
theorem queues (h : InMail known caller c) (queues : Queues caller c d) (leaves : Leaves c d) :
    InMail known caller d := by
  refine ⟨fun nobody => ?_, fun p member => ?_⟩
  · rw [queues.client] at nobody
    rw [queues.dropped nobody, h.empty nobody]
  · obtain ⟨old, kept, same, marked⟩ := leaves p member
    exact ((h.mailed old kept).leaves same marked).queues queues

/-- A new question is queued if the client is attached. -/
theorem ask (h : InMail known caller c) {item : Item} (asked : known item)
    (suffix : (c.ask item).pending <:+ ⟨item, false⟩ :: c.pending) :
    InMail known caller (c.ask item) := by
  have queues : Queues caller c (c.ask item) := queues_ask c item
  refine ⟨fun nobody => ?_, fun p member => ?_⟩
  · rw [queues.client] at nobody
    rw [queues.dropped nobody, h.empty nobody]
  · rcases List.mem_cons.mp (suffix.subset member) with rfl | old
    · refine ⟨asked, fun _ => .zero _ _, fun primary attached => .inl ?_⟩
      rw [queues.client] at attached
      exact ⟨item, mem_primaryQueue_ask primary attached, asked, rfl⟩
    · exact (h.mailed p old).queues queues

end InMail

/-- Each question that is queued again is queued then, or an item with its number is. -/
theorem exists_mem_foldl_requeue {questions : List Item} {question : Item} (outbound : List Item)
    (among : question ∈ questions) :
    ∃ item ∈ questions.foldl requeue outbound, item.id = question.id := by
  induction questions generalizing outbound with
  | nil => cases among
  | cons first questions ih =>
    rw [List.foldl_cons]
    rcases List.mem_cons.mp among with rfl | later
    · have queued : ∃ item ∈ requeue outbound question, item.id = question.id := by
        rw [requeue]
        split
        · next present =>
          obtain ⟨item, member, same⟩ := List.any_eq_true.mp present
          exact ⟨item, member, beq_iff_eq.mp same⟩
        · exact ⟨question, List.mem_append_right _ List.mem_cons_self, rfl⟩
      obtain ⟨item, member, same⟩ := queued
      obtain ⟨added, grown, -⟩ := exists_foldl_requeue questions (requeue outbound question)
      exact ⟨item, grown ▸ List.mem_append_left added member, same⟩
    · exact ih _ later

namespace InMail

/-- Whoever comes gets the open questions. -/
theorem connect (h : InMail known caller c) (call : CallId) :
    InMail known caller (c.connect SlotId.primary call) := by
  have released : Queues caller c (c.release SlotId.primary (.error slotTaken)) :=
    queues_release ..
  generalize freed : c.release SlotId.primary (.error slotTaken) = d at released
  have queue : (c.connect SlotId.primary call).primaryQueue =
      (c.questionsTo SlotId.primary).foldl requeue d.primaryQueue := by
    have slots : (c.connect SlotId.primary call).slots = (d.modifySlot SlotId.primary fun state =>
        { state with
          client := some ⟨c.nextClient⟩
          clientBusy := none
          outbound := (c.questionsTo SlotId.primary).foldl requeue state.outbound }).slots := by
      rw [← freed]
      rfl
    rw [primaryQueue, slot, slots]
    exact congrArg SlotState.outbound (slot_modifySlot_self ..)
  have got : batches caller (c.connect SlotId.primary call).sent = batches caller c.sent := by
    rw [Coordinator.connect, Coordinator.send, batches_append, freed, ← released.got]
    exact List.append_nil _
  have pending : (c.connect SlotId.primary call).pending = c.pending := by
    have same := engineSide_release c SlotId.primary (.error slotTaken)
    exact congrArg EngineSide.pending same
  have client := congrFun (clients_connect c SlotId.primary call) SlotId.primary
  rw [Function.update_self] at client
  refine ⟨fun nobody => ?_, ?_⟩
  · rw [client] at nobody
    cases nobody
  · rw [pending]
    intro p member
    have mailed := h.mailed p member
    refine ⟨mailed.asked, got ▸ mailed.came, fun primary _ => ?_⟩
    rw [got, queue]
    by_cases attached : c.clients SlotId.primary = none
    · -- Nothing is queued, so all that is queued then are open questions.
      have waits : p.question ∈ c.questionsTo SlotId.primary := by
        refine List.mem_filter.mpr ⟨?_, beq_iff_eq.mpr primary⟩
        exact List.mem_map_of_mem (List.mem_reverse.mpr member)
      obtain ⟨item, queued, same⟩ := exists_mem_foldl_requeue d.primaryQueue waits
      refine .inl ⟨item, queued, ?_, same⟩
      obtain ⟨added, grown, among⟩ :=
        exists_foldl_requeue (c.questionsTo SlotId.primary) d.primaryQueue
      rw [grown, released.dropped attached, h.empty attached, List.nil_append] at queued
      obtain ⟨q, waits, rfl⟩ := List.mem_map.mp (List.mem_filter.mp (among queued)).1
      exact (h.mailed q (List.mem_reverse.mp waits)).asked
    · obtain ⟨added, grown, -⟩ :=
        exists_foldl_requeue (c.questionsTo SlotId.primary) d.primaryQueue
      refine (mailed.comes primary attached).imp_left fun carries => ?_
      rw [grown]
      exact (carries.mono released.queued.subset).mono (List.subset_append_left _ added)

/-- When the primary client leaves, nothing is queued any longer. -/
theorem disconnect (h : InMail known caller c) (client : ClientId) :
    InMail known caller (c.disconnect SlotId.primary client) := by
  rw [Coordinator.disconnect]
  split
  · exact h
  · dsimp only
    generalize left : (c.release SlotId.primary (.error clientGone)).modifySlot SlotId.primary
      (fun state => { state with
        client := none, clientBusy := none, inbound := [], outbound := [] }) = d
    have nobody : d.clients SlotId.primary = none := by
      rw [← left, clients_modifySlot, Function.update_self]
    have queue : d.primaryQueue = [] := by
      rw [← left, primaryQueue, slot_modifySlot_self]
    have pending : d.pending = c.pending := by
      rw [← left]
      exact congrArg EngineSide.pending (engineSide_release c SlotId.primary _)
    have got : batches caller d.sent = batches caller c.sent := by
      rw [← left]
      exact (queues_release c SlotId.primary clientGone).got
    have detached : InMail known caller d := by
      refine ⟨fun _ => queue, fun p member => ?_⟩
      have mailed := h.mailed p (pending ▸ member)
      exact ⟨mailed.asked, got ▸ mailed.came, fun _ attached => absurd nobody attached⟩
    split
    · next top second rest stack =>
      split
      · exact detached.queues (queues_failTop ..) (leaves_of_subset (suffix_failTop ..).subset)
      · exact detached
    · exact detached

/-- Serving an event keeps questions in the mail. -/
theorem serve (h : InMail known caller c) {e : Event} (held : c.Held fun _ => True)
    (asks : ∀ item ∈ asked e, known item) (stays : e ≠ .shutdown) :
    InMail known caller (c.serve e) := by
  have suffix := (settles_serve (e := e) held (fun _ _ => trivial) (fun _ _ => trivial)
    fun _ _ => trivial).suffix
  cases e with
  | submit item wait =>
    cases wait with
    | false => exact h.queues (queues_tell c item) (leaves_of_subset suffix.subset)
    | true => exact h.ask (asks item (List.mem_singleton_self item)) suffix
  | executed item => exact h.queues (queues_finish c item) (leaves_of_subset suffix.subset)
  | busy busy => exact h.queues (.of_eq rfl rfl) (leaves_of_subset suffix.subset)
  | call s client items call =>
    refine h.queues (queues_serveCall c s client items call) fun p member => ?_
    have before := suffix.subset member
    rw [begun] at before
    split at before
    · exact leaves_renewRetry c p before
    · exact ⟨p, before, rfl, id⟩
  | connect s call =>
    by_cases primary : s = SlotId.primary
    · subst primary
      exact h.connect call
    · exact h.queues (queues_connect primary call) (leaves_of_subset suffix.subset)
  | disconnect s client =>
    by_cases primary : s = SlotId.primary
    · subst primary
      exact h.disconnect client
    · exact h.queues (queues_disconnect primary client) (leaves_of_subset suffix.subset)
  | shutdown => exact absurd rfl stays

end InMail

/-- The question in an act. -/
def questionsBy : Act → List Item
  | .receive e => asked e
  | .pump _ => []

/-! ### Handing out -/

namespace Lacks

variable {top : Pending} {rest : List Pending}

/-- A client that waits for items is attached. -/
theorem attached (lacks : c.Lacks top rest) (tidy : c.Tidy caller) :
    c.clients SlotId.primary ≠ none := by
  have idle := lacks.idle
  simp only [primaryIsIdle, Bool.and_eq_true] at idle
  obtain ⟨call, waits⟩ := Option.isSome_iff_exists.mp idle.1.1.1
  obtain ⟨client, attached, -⟩ := tidy.waits SlotId.primary call waits
  intro nobody
  rw [clients, attached] at nobody
  cases nobody

theorem primaryQueue_eq (lacks : c.Lacks top rest) : c.primaryQueue = [] := by
  have idle := lacks.idle
  simp only [primaryIsIdle, isDeliverable, Bool.and_eq_true, Bool.not_eq_true',
    Bool.or_eq_false_iff, Bool.not_eq_false'] at idle
  exact List.isEmpty_iff.mp idle.2.1

/-- Nothing is queued for the client, so it has got the question as often as it is due. -/
theorem came (lacks : c.Lacks top rest) (tidy : c.Tidy caller) (h : InMail known caller c) :
    Came known top.question.id (due top) (batches caller c.sent) := by
  have innermost : top ∈ c.pending := by
    rw [lacks.pending]
    exact List.mem_cons_self
  refine ((h.mailed top innermost).comes lacks.primary (lacks.attached tidy)).resolve_left ?_
  rintro ⟨item, queued, -⟩
  rw [lacks.primaryQueue_eq] at queued
  cases queued

end Lacks

namespace InMail

theorem forward (h : InMail known caller c) : InMail known caller c.forward := by
  have pending : c.forward.pending = c.pending := pending_forward c
  exact h.queues (queues_forward c) (leaves_of_subset (pending ▸ List.Subset.refl _))

theorem retryIfRequested (h : InMail known caller c) (tidy : c.Tidy caller) :
    InMail known caller c.retryIfRequested := by
  rcases retryIfRequested_cases c with same | ⟨top, rest, lacks, ⟨-, same⟩ | ⟨fresh, same⟩⟩
  · rw [same]
    exact h.queues (.of_eq rfl rfl) (leaves_of_subset (List.Subset.refl _))
  · have taken : Queues caller c { c with retryRequested := false } := .of_eq rfl rfl
    rw [same]
    exact h.queues (taken.trans (queues_failTop ..)) (leaves_of_subset (suffix_failTop top.question
      unanswered { c with retryRequested := false }).subset)
  · -- The question has come once and is queued for the second time.
    have once := lacks.came tidy h
    rw [due, fresh, if_neg Bool.false_ne_true] at once
    have client := congrFun (clients_retryIfRequested c) SlotId.primary
    have queue : c.retryIfRequested.primaryQueue = c.primaryQueue ++ [top.question] := by
      rw [same, primaryQueue, slot_modifySlot_self]
      rfl
    have got : batches caller c.retryIfRequested.sent = batches caller c.sent := by
      rw [same]
      rfl
    have marked : c.retryIfRequested.pending = { top with retried := true } :: rest := by
      rw [same]
      rfl
    refine ⟨fun nobody => absurd (client ▸ nobody) (lacks.attached tidy), fun p member => ?_⟩
    rw [marked] at member
    rcases List.mem_cons.mp member with rfl | below
    · have knows : known top.question :=
        (h.mailed top (lacks.pending ▸ List.mem_cons_self)).asked
      refine ⟨knows, fun _ => got ▸ once, fun _ _ => .inl ⟨top.question, ?_, knows, rfl⟩⟩
      rw [queue]
      exact List.mem_append_right _ List.mem_cons_self
    · have kept := h.mailed p (lacks.pending ▸ List.mem_cons_of_mem top below)
      refine ⟨kept.asked, got ▸ kept.came, fun primary attached => ?_⟩
      rw [got, queue]
      rw [client] at attached
      exact (kept.comes primary attached).imp_left (·.mono (List.subset_append_left ..))

/-- A batch brings all that is queued for the client. -/
theorem handOver (h : InMail known caller c) {call : CallId}
    (own : (caller call).1 = SlotId.primary) :
    InMail known caller ((c.modifySlot SlotId.primary fun state =>
      { state with waiter := none, outbound := [], clientBusy := some c.busy }).send
        (.resolve call (.ok ⟨c.busy, c.primaryQueue⟩))) := by
  generalize taken : (c.modifySlot SlotId.primary fun state =>
    { state with waiter := none, outbound := [], clientBusy := some c.busy }) = d
  have queue : d.primaryQueue = [] := by
    rw [← taken, primaryQueue, slot_modifySlot_self]
  have pending : d.pending = c.pending := by
    rw [← taken]
    rfl
  have client : d.clients = c.clients := by
    rw [← taken]
    exact clients_modifySlot_of_eq rfl
  have got : batches caller (d.send (.resolve call (.ok ⟨c.busy, c.primaryQueue⟩))).sent =
      batches caller c.sent ++ [⟨c.busy, c.primaryQueue⟩] := by
    have one : batches caller [.resolve call (.ok ⟨c.busy, c.primaryQueue⟩)] =
        [⟨c.busy, c.primaryQueue⟩] := by
      simp [batches, own]
    rw [Coordinator.send, batches_append, one, ← taken]
    rfl
  refine ⟨fun _ => queue, fun p member => ?_⟩
  have mailed := h.mailed p (pending ▸ member)
  refine ⟨mailed.asked, ?_, fun primary attached => .inr ?_⟩
  · rw [got]
    exact fun primary => (mailed.came primary).append _
  · rw [clients_send, client] at attached
    rw [got]
    -- What was queued is in the new batch.
    rcases mailed.comes primary attached with carries | came
    · have once : Came known p.question.id (due p - 1 + 1)
          (batches caller c.sent ++ [⟨c.busy, c.primaryQueue⟩]) :=
        (mailed.came primary).concat carries
      have positive : due p - 1 + 1 = due p := by
        rw [due]
        split <;> rfl
      rwa [positive] at once
    · exact came.append _

theorem deliver (h : InMail known caller c) (tidy : c.Tidy caller) (gone : CallId → Bool)
    (s : SlotId) : InMail known caller (c.deliver gone s) := by
  rw [Coordinator.deliver]
  generalize flushed : (if s.isPrimary then c.flushOutput else c) = d
  have tidyNow : d.Tidy caller := by
    rw [← flushed]
    split
    · exact tidy.flushOutput
    · exact tidy
  have now : InMail known caller d := by
    rw [← flushed]
    split
    · have same : c.flushOutput.pending = c.pending :=
        congrArg EngineSide.pending (engineSide_flushOutput c)
      exact h.queues (queues_flushOutput c) (leaves_of_subset (same ▸ List.Subset.refl _))
    · exact h
  have leaves {e : Coordinator} (same : e.pending = d.pending) : Leaves d e :=
    leaves_of_subset (same ▸ List.Subset.refl _)
  split
  · exact now
  · next call waiting =>
    split
    · exact now.queues (queues_modifySlot rfl rfl) (leaves rfl)
    · -- A call that waits on a slot is one of the client of the slot.
      obtain ⟨client, attached, own⟩ := tidyNow.waits s call waiting
      by_cases primary : s = SlotId.primary
      · subst primary
        exact now.handOver (congrArg Prod.fst own)
      · refine now.queues ((queues_modifySlot_of_ne primary _).trans (queues_send ?_)) (leaves rfl)
        simp [batches, own, primary]

/-- Handing out keeps questions in the mail. -/
theorem pump (h : InMail known caller c) (tidy : c.Tidy caller) (gone : CallId → Bool) :
    InMail known caller (c.pump gone) := by
  have retried := h.forward.retryIfRequested tidy.forward
  have tidyNow := tidy.forward.retryIfRequested
  rw [Coordinator.pump]
  -- Along the slots that are ready, since each delivery changes the state for the next one.
  generalize c.forward.retryIfRequested.readySlots = ready
  generalize c.forward.retryIfRequested = d at retried tidyNow
  induction ready generalizing d with
  | nil => exact retried
  | cons s ready ih => exact ih _ (retried.deliver tidyNow gone s) (tidyNow.deliver gone s)

/-- As long as events are served, one act keeps questions in the mail. -/
theorem act (h : c.running = true → InMail known caller c) (tidy : c.Tidy caller)
    (held : c.Held fun _ => True) (asks : ∀ item ∈ questionsBy a, known item)
    (running : (c.act a).running = true) : InMail known caller (c.act a) := by
  cases a with
  | receive e =>
    rw [Coordinator.act, handle] at running ⊢
    split at running
    · next runs =>
      rw [if_pos runs]
      have stays : e ≠ .shutdown := by
        rintro rfl
        have ended : c.stop.running = false := congrArg EngineSide.running (engineSide_stop c)
        exact Bool.false_ne_true (ended.symm.trans running)
      exact (h runs).serve held asks stays
    · next stopped =>
      have same : (c.refuse e).running = c.running :=
        congrArg EngineSide.running (engineSide_refuse c e)
      exact absurd (same ▸ running) stopped
  | pump gone =>
    rw [Coordinator.act] at running ⊢
    split at running
    · next runs =>
      rw [if_pos runs]
      exact (h runs).pump tidy gone
    · next stopped => exact absurd running stopped

end InMail

end EngineLink.Coordinator
