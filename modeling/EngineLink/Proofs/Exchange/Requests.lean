import EngineLink.Proofs.Exchange.Acts
import EngineLink.Proofs.Exchange.EngineSide
import Mathlib.Logic.Function.Basic

/-!
# What the coordinator does with requests

The requests of a client wait in the queue of its slot. They are added by its calls, taken out one
by one when they are handed to the engine, and dropped when the client goes. A slot is marked while
a request of it is being executed. Nothing else that the coordinator does touches queue or mark.

## Main definitions

* `Coordinator.RequestSide`, `Coordinator.requestSide` — the queue and the mark of a slot
* `Coordinator.submitted` — the requests among the items of a call
* `Coordinator.requestsAfter` — queues and marks after an event
* `Coordinator.Hands` — a request is handed out
* `Coordinator.Accounted` — the marked slots are those on the stack of executions

## Main results

* `Coordinator.requestSide_serve`, `Coordinator.keeps_pump` — what touches queues and marks
* `Coordinator.forward_hands` — a request is handed out from the front of its queue
* `Coordinator.Accounted.serve`, `Coordinator.Accounted.pump` — requests stay accounted for
-/

namespace EngineLink.Coordinator

variable {c d e : Coordinator} {s : SlotId}

/-! ### Queues and marks -/

/-- What matters about the requests of a slot. -/
structure RequestSide where
  /-- Requests that the engine has not got yet. -/
  inbound : List Item
  /-- Whether a request is being executed. -/
  executing : Bool

/-- What matters about the requests of a slot. -/
def requestSideOf (state : SlotState) : RequestSide := ⟨state.inbound, state.executing⟩

/-- What matters about the requests of each slot. -/
def requestSide (c : Coordinator) (s : SlotId) : RequestSide := requestSideOf (c.slot s)

theorem requestSide_modifySlot (c : Coordinator) (s : SlotId) (f : SlotState → SlotState) :
    (c.modifySlot s f).requestSide =
      Function.update c.requestSide s (requestSideOf (f (c.slot s))) := by
  funext u
  by_cases same : u = s
  · rw [same, Function.update_self, requestSide, slot_modifySlot_self]
  · rw [Function.update_of_ne same, requestSide, slot_modifySlot_of_ne c same]
    rfl

/-- The requests of all slots stay as they are. -/
structure Keeps (c d : Coordinator) : Prop where
  requests : d.requestSide = c.requestSide

namespace Keeps

theorem of_slots_eq (same : d.slots = c.slots) : Keeps c d where
  requests := by
    funext s
    rw [requestSide, requestSide, slot, same]
    rfl

theorem refl (c : Coordinator) : Keeps c c := of_slots_eq rfl

theorem trans (first : Keeps c d) (next : Keeps d e) : Keeps c e :=
  ⟨next.requests.trans first.requests⟩

theorem foldl {α : Type} {f : Coordinator → α → Coordinator} (h : ∀ c x, Keeps c (f c x))
    (xs : List α) (c : Coordinator) : Keeps c (xs.foldl f c) := by
  induction xs generalizing c with
  | nil => exact refl c
  | cons x xs ih => exact (h c x).trans (ih _)

/-- A change to a slot that leaves its requests. -/
theorem modifySlot {f : SlotState → SlotState}
    (same : requestSideOf (f (c.slot s)) = c.requestSide s) :
    Keeps c (c.modifySlot s f) where
  requests := by rw [requestSide_modifySlot, same, Function.update_eq_self]

end Keeps

theorem keeps_send (c : Coordinator) (e : Effect) : Keeps c (c.send e) := .of_slots_eq rfl

theorem keeps_release (c : Coordinator) (s : SlotId) (result : Except Status Batch) :
    Keeps c (c.release s result) := by
  rw [release]
  split
  · exact .refl c
  · exact (Keeps.modifySlot rfl).trans (keeps_send _ _)

theorem keeps_pushOutbound (c : Coordinator) (s : SlotId) (item : Item) :
    Keeps c (c.pushOutbound s item) := by
  rw [pushOutbound]
  split
  · exact .refl c
  · exact .modifySlot rfl

theorem keeps_flushOutput (c : Coordinator) : Keeps c c.flushOutput := by
  rw [flushOutput]
  split
  · exact .refl c
  · next text stdout _ =>
    have taken : Keeps c { c with stdout } := .of_slots_eq rfl
    exact taken.trans (keeps_pushOutbound _ _ _)

theorem keeps_enqueue (c : Coordinator) (item : Item) : Keeps c (c.enqueue item) := by
  rw [enqueue]
  split
  · exact (keeps_flushOutput c).trans (keeps_pushOutbound _ _ _)
  · exact keeps_pushOutbound c _ _

theorem keeps_tell (c : Coordinator) (item : Item) : Keeps c (c.tell item) := by
  rw [tell]
  split
  · next text _ _ =>
    have taken : Keeps c { c with stdout := (c.stdout.push text).2 } := .of_slots_eq rfl
    exact taken.trans (.foldl (fun c _ => keeps_pushOutbound c _ _) _ _)
  · exact keeps_enqueue c item

theorem keeps_ask (c : Coordinator) (item : Item) : Keeps c (c.ask item) := by
  have asked : Keeps c { c with pending := ⟨item, false⟩ :: c.pending } := .of_slots_eq rfl
  rw [ask]
  split
  · exact asked.trans (.of_slots_eq (slots_failTop ..))
  · exact asked.trans (keeps_enqueue _ item)

theorem keeps_renewRetry (c : Coordinator) : Keeps c c.renewRetry := by
  rw [renewRetry]
  split
  · exact .refl c
  · exact .of_slots_eq rfl

theorem keeps_connect (c : Coordinator) (s : SlotId) (call : CallId) :
    Keeps c (c.connect s call) := by
  have attached := (keeps_release c s (.error slotTaken)).trans
    (Keeps.modifySlot (s := s) (f := fun state => { state with
      client := some ⟨c.nextClient⟩
      clientBusy := none
      outbound := (c.questionsTo s).foldl requeue state.outbound }) rfl)
  exact attached.trans (.of_slots_eq rfl)

theorem keeps_deliver (gone : CallId → Bool) (c : Coordinator) (s : SlotId) :
    Keeps c (c.deliver gone s) := by
  rw [deliver]
  generalize flushed : (if s.isPrimary then c.flushOutput else c) = d
  have keeps : Keeps c d := by
    rw [← flushed]
    split
    · exact keeps_flushOutput c
    · exact .refl c
  split
  · exact keeps
  · split
    · exact keeps.trans (.modifySlot rfl)
    · exact (keeps.trans (.modifySlot rfl)).trans (keeps_send _ _)

theorem keeps_retryIfRequested (c : Coordinator) : Keeps c c.retryIfRequested := by
  have taken : Keeps c { c with retryRequested := false } := .of_slots_eq rfl
  rw [retryIfRequested]
  split
  · rw [retry]
    split
    · exact taken
    · split
      · exact taken
      · next top rest _ =>
        split
        · exact taken
        · split
          · exact taken.trans (.of_slots_eq (slots_failTop ..))
          · have retried : Keeps c { c with
                retryRequested := false
                pending := { top with retried := true } :: rest } := .of_slots_eq rfl
            exact retried.trans (.modifySlot rfl)
  · exact .refl c

/-- Besides the request that it hands to the engine, handing out leaves requests as they are. -/
theorem keeps_pump (gone : CallId → Bool) (c : Coordinator) : Keeps c.forward (c.pump gone) :=
  (keeps_retryIfRequested _).trans (.foldl (keeps_deliver gone) _ _)

/-! ### Events -/

/-- The requests among the items of a call on a slot. -/
def submitted (s : SlotId) (items : List Item) : List Item :=
  (items.filter (!·.isAnswered)).map ({ · with slot := s })

/-- The requests of all slots after an event: calls of the attached client add requests, its leaving
drops them, and a reply ends an execution. -/
def requestsAfter (c : Coordinator) : Event → SlotId → RequestSide
  | .executed item =>
    Function.update c.requestSide item.slot
      { c.requestSide item.slot with executing := false }
  | .call s client items _ =>
    if (c.slot s).client = some client then
      Function.update c.requestSide s
        { c.requestSide s with inbound := (c.requestSide s).inbound ++ submitted s items }
    else c.requestSide
  | .disconnect s client =>
    if (c.slot s).client = some client then
      Function.update c.requestSide s { c.requestSide s with inbound := [] }
    else c.requestSide
  | _ => c.requestSide

theorem submitted_cons (s : SlotId) (item : Item) (items : List Item) :
    submitted s (item :: items) = submitted s [item] ++ submitted s items := by
  rw [submitted, submitted, submitted, ← List.map_append, ← List.filter_append]
  rfl

theorem receive_answer {item : Item} (answered : item.isAnswered = true) :
    c.receive s item = c.accept { item with slot := s } := if_pos answered

theorem receive_request {item : Item} (unanswered : item.isAnswered = false) :
    c.receive s item = c.modifySlot s fun state =>
      { state with inbound := state.inbound ++ [{ item with slot := s }] } :=
  if_neg fun answered => Bool.false_ne_true (unanswered.symm.trans answered)

theorem requestSide_receive (c : Coordinator) (s : SlotId) (item : Item) :
    (c.receive s item).requestSide = Function.update c.requestSide s
      { c.requestSide s with inbound := (c.requestSide s).inbound ++ submitted s [item] } := by
  cases answered : item.isAnswered with
  | true =>
    rw [receive_answer answered, (Keeps.of_slots_eq (slots_accept ..)).requests]
    simp [submitted, answered]
  | false =>
    rw [receive_request answered, requestSide_modifySlot]
    simp [submitted, answered, requestSide, requestSideOf]

theorem requestSide_foldl_receive (c : Coordinator) (s : SlotId) (items : List Item) :
    (items.foldl (·.receive s ·) c).requestSide = Function.update c.requestSide s
      { c.requestSide s with inbound := (c.requestSide s).inbound ++ submitted s items } := by
  induction items generalizing c with
  | nil => simp [submitted]
  | cons item items ih =>
    rw [List.foldl_cons, ih, requestSide_receive, Function.update_idem, Function.update_self,
      submitted_cons s item items, List.append_assoc]

/-- What a call changes before its items are received. -/
theorem keeps_waiting (c : Coordinator) (s : SlotId) (call : CallId) :
    Keeps c ((c.release s (.error superseded)).modifySlot s fun state =>
      { state with waiter := some call }) :=
  (keeps_release c s _).trans (.modifySlot rfl)

/-- A call of the attached client is noted, and then its items are received one by one. -/
theorem exists_serveCall_eq {client : ClientId} (attached : (c.slot s).client = some client)
    (items : List Item) (call : CallId) :
    ∃ d, Keeps c d ∧ c.serveCall s client items call = items.foldl (·.receive s ·) d := by
  have waiting := keeps_waiting c s call
  rw [serveCall, if_neg (not_not_intro attached)]
  dsimp only
  split
  · -- Without items there is nothing to receive.
    next none =>
    obtain rfl := List.isEmpty_iff.mp none
    refine ⟨_, ?_, rfl⟩
    exact waiting.trans (.of_slots_eq rfl)
  · split
    · exact ⟨_, waiting.trans (keeps_renewRetry _), rfl⟩
    · exact ⟨_, waiting, rfl⟩

theorem keeps_serveCall {client : ClientId} (other : (c.slot s).client ≠ some client)
    (items : List Item) (call : CallId) : Keeps c (c.serveCall s client items call) := by
  rw [serveCall, if_pos other]
  exact keeps_send c _

theorem keeps_disconnect {client : ClientId} (other : (c.slot s).client ≠ some client) :
    Keeps c (c.disconnect s client) := by
  rw [disconnect, if_pos other]
  exact .refl c

/-- The leaving of the attached client drops its requests. Then questions may be answered. -/
theorem exists_disconnect_eq {client : ClientId} (attached : (c.slot s).client = some client) :
    ∃ d, Keeps c d ∧ Keeps (d.modifySlot s fun state =>
      { state with client := none, clientBusy := none, inbound := [], outbound := [] })
        (c.disconnect s client) := by
  refine ⟨c.release s (.error clientGone), keeps_release c s _, ?_⟩
  rw [disconnect, if_neg (not_not_intro attached)]
  dsimp only
  split
  · split
    · exact .of_slots_eq (slots_failTop ..)
    · exact .refl _
  · exact .refl _

theorem keeps_finish (c : Coordinator) (item : Item) :
    Keeps ({ c with executing := c.executing.tail }.modifySlot item.slot fun state =>
      { state with executing := false }) (c.finish item) := keeps_enqueue _ item

/-- Only calls, the leaving of clients and replies touch requests. -/
theorem requestSide_serve (c : Coordinator) {e : Event} (stays : e ≠ .shutdown) :
    (c.serve e).requestSide = c.requestsAfter e := by
  cases e with
  | submit item wait =>
    cases wait with
    | false => exact (keeps_tell c item).requests
    | true => exact (keeps_ask c item).requests
  | executed item => exact (keeps_finish c item).requests.trans (requestSide_modifySlot ..)
  | busy busy => rfl
  | call s client items call =>
    by_cases attached : (c.slot s).client = some client
    · obtain ⟨d, keeps, same⟩ := exists_serveCall_eq attached items call
      rw [serve, same, requestSide_foldl_receive, keeps.requests, requestsAfter, if_pos attached]
    · rw [serve, (keeps_serveCall attached items call).requests, requestsAfter, if_neg attached]
  | connect s call => exact (keeps_connect c s call).requests
  | disconnect s client =>
    by_cases attached : (c.slot s).client = some client
    · obtain ⟨d, before, after⟩ := exists_disconnect_eq attached
      have dropped := requestSide_modifySlot d s fun state =>
        { state with client := none, clientBusy := none, inbound := [], outbound := [] }
      rw [before.requests] at dropped
      rw [serve, after.requests, dropped, requestsAfter, if_pos attached, ← before.requests]
      rfl
    · rw [serve, (keeps_disconnect attached).requests, requestsAfter, if_neg attached]
  | shutdown => exact absurd rfl stays

/-! ### Handing out -/

/-- A request is handed to a waiting engine from the front of the queue of its slot, which was not
marked before. -/
structure Hands (c : Coordinator) (s : SlotId) (item : Item) (inbound : List Item)
    (d : Coordinator) : Prop where
  waits : c.engineWaits = true
  first : c.requestSide s = ⟨item :: inbound, false⟩
  requests : d.requestSide = Function.update c.requestSide s ⟨inbound, true⟩
  engineSide : d.engineSide = { c.engineSide with
    executing := s :: c.executing, wakes := wakesOf c.sent ++ [.execute item] }

theorem forward_hands (c : Coordinator) :
    c.forward = c ∨ ∃ s item inbound, Hands c s item inbound c.forward := by
  rw [forward]
  split
  · exact .inl rfl
  · next waits =>
    split
    · next s item inbound outbound executing waiter client clientBusy found =>
      have same : c.slot s = _ := SlotTable.get_of_find? found
      have free := List.find?_some found
      refine .inr ⟨s, item, inbound, by simpa using waits, ?_, ?_, ?_⟩
      · rw [requestSide, same]
        simpa [canExecute, requestSideOf] using free
      · exact requestSide_modifySlot c s fun _ => _
      · simp [engineSide, send, wakesOf]
    · exact .inl rfl

/-! ### Accounting -/

theorem executing_opened {e : Event} (noReply : ∀ item, e ≠ .executed item) :
    (c.opened e).executing = c.executing := by
  cases e with
  | submit item wait => cases wait <;> rfl
  | executed item => exact absurd rfl (noReply item)
  | _ => rfl

/-- Requests wait on their own slots, and the slots that are marked are those whose requests are
being executed, each with one request. -/
structure Accounted (c : Coordinator) : Prop where
  placed : ∀ s, ∀ item ∈ (c.requestSide s).inbound, item.slot = s
  marked : ∀ s, (c.requestSide s).executing = true ↔ s ∈ c.executing
  distinct : c.executing.Nodup

theorem accounted_ofCapacity (capacity : Nat) : (ofCapacity capacity).Accounted where
  placed _ := List.forall_mem_nil _
  marked _ := iff_of_false Bool.false_ne_true List.not_mem_nil
  distinct := .nil

namespace Accounted

theorem keeps (h : c.Accounted) (same : Keeps c d) (executing : d.executing = c.executing) :
    d.Accounted := by
  obtain ⟨placed, marked, distinct⟩ := h
  refine ⟨?_, ?_, ?_⟩
  · rwa [same.requests]
  · rwa [same.requests, executing]
  · rwa [executing]

theorem placed_update (h : c.Accounted) {side : RequestSide}
    (placed : ∀ item ∈ side.inbound, item.slot = s) (u : SlotId) :
    ∀ item ∈ (Function.update c.requestSide s side u).inbound, item.slot = u := by
  by_cases same : u = s
  · rw [same, Function.update_self]
    exact placed
  · rw [Function.update_of_ne same]
    exact h.placed u

theorem marked_update (h : c.Accounted) {side : RequestSide}
    (kept : side.executing = (c.requestSide s).executing) (u : SlotId) :
    (Function.update c.requestSide s side u).executing = true ↔ u ∈ c.executing := by
  by_cases same : u = s
  · rw [same, Function.update_self, kept]
    exact h.marked s
  · rw [Function.update_of_ne same]
    exact h.marked u

/-- An event other than a reply. -/
theorem requestsAfter (h : c.Accounted) {e : Event} (noReply : ∀ item, e ≠ .executed item) :
    (∀ s, ∀ item ∈ (c.requestsAfter e s).inbound, item.slot = s) ∧
      ∀ s, (c.requestsAfter e s).executing = true ↔ s ∈ c.executing := by
  cases e with
  | executed item => exact absurd rfl (noReply item)
  | call s client items call =>
    rw [Coordinator.requestsAfter]
    split
    · refine ⟨h.placed_update ?_, h.marked_update rfl⟩
      rw [List.forall_mem_append]
      refine ⟨h.placed s, fun item member => ?_⟩
      obtain ⟨request, -, rfl⟩ := List.mem_map.mp member
      rfl
    · exact ⟨h.placed, h.marked⟩
  | disconnect s client =>
    rw [Coordinator.requestsAfter]
    split
    · exact ⟨h.placed_update (List.forall_mem_nil _), h.marked_update rfl⟩
    · exact ⟨h.placed, h.marked⟩
  | _ => exact ⟨h.placed, h.marked⟩

/-- A reply to the innermost execution frees its slot. -/
theorem requestsAfter_executed (h : c.Accounted) {item : Item}
    (top : c.executing.head? = some item.slot) :
    (∀ s, ∀ request ∈ (c.requestsAfter (.executed item) s).inbound, request.slot = s) ∧
      ∀ s, (c.requestsAfter (.executed item) s).executing = true ↔ s ∈ c.executing.tail := by
  obtain ⟨rest, executing⟩ := List.head?_eq_some_iff.mp top
  -- No slot is on the stack twice, so the slot of the reply is no longer on the rest of it.
  have distinct := h.distinct
  rw [executing, List.nodup_cons] at distinct
  refine ⟨h.placed_update (h.placed item.slot), fun s => ?_⟩
  rw [executing, List.tail_cons, Coordinator.requestsAfter]
  by_cases same : s = item.slot
  · rw [same, Function.update_self]
    exact iff_of_false Bool.false_ne_true distinct.1
  · rw [Function.update_of_ne same, h.marked s, executing, List.mem_cons, or_iff_right same]

/-- Requests stay accounted for if replies are for the innermost execution. -/
theorem serve (h : c.Accounted) {e : Event} (stays : e ≠ .shutdown)
    (executing : (c.serve e).executing = (c.opened e).executing)
    (top : ∀ item, e = .executed item → c.executing.head? = some item.slot) :
    (c.serve e).Accounted := by
  have requests := requestSide_serve c stays
  -- Only a reply takes a slot off the stack, and then also its mark.
  by_cases reply : ∃ item, e = .executed item
  · obtain ⟨item, rfl⟩ := reply
    obtain ⟨placed, marked⟩ := h.requestsAfter_executed (top item rfl)
    rw [← requests] at placed marked
    refine ⟨placed, ?_, ?_⟩
    · rw [executing]
      exact marked
    · rw [executing]
      exact h.distinct.tail
  · have noReply (item : Item) : e ≠ .executed item := fun same => reply ⟨item, same⟩
    obtain ⟨placed, marked⟩ := h.requestsAfter noReply
    rw [← requests] at placed marked
    rw [executing_opened noReply] at executing
    refine ⟨placed, ?_, ?_⟩
    · rwa [executing]
    · rw [executing]
      exact h.distinct

theorem forward (h : c.Accounted) : c.forward.Accounted := by
  rcases forward_hands c with same | ⟨s, item, inbound, hands⟩
  · rwa [same]
  · -- The slot is not marked, so it is put on a stack on which it was not.
    have free : s ∉ c.executing := by
      rw [← h.marked, hands.first]
      exact Bool.false_ne_true
    have placed := h.placed s
    rw [hands.first, List.forall_mem_cons] at placed
    have executing : c.forward.executing = s :: c.executing :=
      congrArg EngineSide.executing hands.engineSide
    refine ⟨?_, fun u => ?_, ?_⟩
    · rw [hands.requests]
      exact h.placed_update placed.2
    · rw [hands.requests, executing, List.mem_cons]
      by_cases same : u = s
      · rw [same, Function.update_self]
        exact iff_of_true rfl (.inl rfl)
      · rw [Function.update_of_ne same, h.marked u, or_iff_right same]
    · rw [executing]
      exact List.nodup_cons.mpr ⟨free, h.distinct⟩

/-- Handing out keeps requests accounted for. -/
theorem pump (h : c.Accounted) {gone : CallId → Bool}
    (executing : (c.pump gone).executing = c.forward.executing) : (c.pump gone).Accounted :=
  h.forward.keeps (keeps_pump gone c) executing

end Accounted

end EngineLink.Coordinator
