import EngineLink.Proofs.Exchange.Requests

/-!
# Who is attached

A client is attached to a slot when it connects and detached when it disconnects. Nothing else that
the coordinator does changes the client of a slot.

## Main definitions

* `Coordinator.clients` — the client of each slot
* `Coordinator.clientsAfter` — the clients after an event

## Main results

* `Coordinator.clients_serve`, `Coordinator.clients_pump` — only connecting and disconnecting matter
-/

namespace EngineLink.Coordinator

variable {c d : Coordinator} {s : SlotId}

/-! ### Parts of the state -/

/-- The client of each slot. -/
def clients (c : Coordinator) (s : SlotId) : Option ClientId := (c.slot s).client

theorem clients_of_slots_eq (same : d.slots = c.slots) : d.clients = c.clients := by
  funext s
  rw [clients, clients, slot, same]
  rfl

theorem clients_modifySlot (c : Coordinator) (s : SlotId) (f : SlotState → SlotState) :
    (c.modifySlot s f).clients = Function.update c.clients s (f (c.slot s)).client := by
  funext u
  by_cases same : u = s
  · rw [same, Function.update_self, clients, slot_modifySlot_self]
  · rw [Function.update_of_ne same, clients, slot_modifySlot_of_ne c same]
    rfl

/-- A change to a slot that leaves its client. -/
theorem clients_modifySlot_of_eq {f : SlotState → SlotState}
    (same : (f (c.slot s)).client = (c.slot s).client) :
    (c.modifySlot s f).clients = c.clients := by
  rw [clients_modifySlot, same]
  exact Function.update_eq_self s c.clients

theorem clients_foldl {α : Type} {f : Coordinator → α → Coordinator}
    (h : ∀ c x, (f c x).clients = c.clients) (xs : List α) (c : Coordinator) :
    (xs.foldl f c).clients = c.clients := by
  induction xs generalizing c with
  | nil => rfl
  | cons x xs ih => rw [List.foldl_cons, ih, h]

@[simp] theorem clients_send (c : Coordinator) (e : Effect) : (c.send e).clients = c.clients := rfl

@[simp] theorem clients_release (c : Coordinator) (s : SlotId) (result : Except Status Batch) :
    (c.release s result).clients = c.clients := by
  rw [release]
  split
  · rfl
  · rw [clients_send, clients_modifySlot_of_eq rfl]

@[simp] theorem clients_pushOutbound (c : Coordinator) (s : SlotId) (item : Item) :
    (c.pushOutbound s item).clients = c.clients := by
  rw [pushOutbound]
  split
  · rfl
  · exact clients_modifySlot_of_eq rfl

@[simp] theorem clients_flushOutput (c : Coordinator) : c.flushOutput.clients = c.clients := by
  rw [flushOutput]
  split
  · rfl
  · exact clients_pushOutbound ..

@[simp] theorem clients_enqueue (c : Coordinator) (item : Item) :
    (c.enqueue item).clients = c.clients := by
  rw [enqueue, clients_pushOutbound]
  split
  · exact clients_flushOutput c
  · rfl

@[simp] theorem clients_answerFrom (c : Coordinator) (answer : Item) (ps : List Pending) :
    (c.answerFrom answer ps).clients = c.clients := clients_of_slots_eq (slots_answerFrom ..)

@[simp] theorem clients_failTop (c : Coordinator) (question : Item) (status : Status) :
    (c.failTop question status).clients = c.clients := clients_answerFrom ..

/-! ### Events -/

theorem clients_tell (c : Coordinator) (item : Item) : (c.tell item).clients = c.clients := by
  rw [tell]
  split
  · exact clients_foldl (fun c _ => clients_pushOutbound c _ _) _ _
  · exact clients_enqueue c item

theorem clients_ask (c : Coordinator) (item : Item) : (c.ask item).clients = c.clients := by
  rw [ask]
  split
  · exact clients_failTop ..
  · exact clients_enqueue ..

theorem clients_finish (c : Coordinator) (item : Item) : (c.finish item).clients = c.clients := by
  rw [finish, clients_enqueue]
  exact clients_modifySlot_of_eq (c := { c with executing := c.executing.tail }) rfl

theorem clients_receive (c : Coordinator) (s : SlotId) (item : Item) :
    (c.receive s item).clients = c.clients := by
  rw [receive]
  split
  · exact clients_of_slots_eq (slots_accept ..)
  · exact clients_modifySlot_of_eq rfl

theorem clients_renewRetry (c : Coordinator) : c.renewRetry.clients = c.clients := by
  rw [renewRetry]
  split <;> rfl

theorem clients_serveCall (c : Coordinator) (s : SlotId) (client : ClientId) (items : List Item)
    (call : CallId) : (c.serveCall s client items call).clients = c.clients := by
  rw [serveCall]
  split
  · rfl
  · have waiting : ((c.release s (.error superseded)).modifySlot s fun state =>
        { state with waiter := some call }).clients = c.clients := by
      rw [clients_modifySlot_of_eq rfl, clients_release]
    split
    · exact waiting
    · rw [clients_foldl fun c item => clients_receive c s item]
      split
      · rw [clients_renewRetry, waiting]
      · exact waiting

theorem clients_connect (c : Coordinator) (s : SlotId) (call : CallId) :
    (c.connect s call).clients = Function.update c.clients s (some ⟨c.nextClient⟩) := by
  have attached := clients_modifySlot (c.release s (.error slotTaken)) s fun state =>
    { state with
      client := some ⟨c.nextClient⟩
      clientBusy := none
      outbound := (c.questionsTo s).foldl requeue state.outbound }
  rw [clients_release] at attached
  rw [connect, clients_send]
  exact attached

/-- The leaving of a client only empties its slot, also when questions are answered then. -/
theorem clients_disconnect (c : Coordinator) (s : SlotId) (client : ClientId) :
    (c.disconnect s client).clients =
      if c.clients s = some client then Function.update c.clients s none else c.clients := by
  have detached : ((c.release s (.error clientGone)).modifySlot s fun state =>
      { state with client := none, clientBusy := none, inbound := [], outbound := [] }).clients =
        Function.update c.clients s none := by
    rw [clients_modifySlot, clients_release]
  rw [disconnect, clients, ite_not]
  split
  · dsimp only
    split
    · split
      · rw [clients_failTop, detached]
      · exact detached
    · exact detached
  · rfl

theorem clients_releaseLast (c : Coordinator) (s : SlotId) :
    (c.releaseLast s).clients = c.clients := by
  rw [releaseLast]
  split
  · exact clients_release ..
  · split
    · rfl
    · rw [clients_modifySlot_of_eq rfl, clients_release]

theorem clients_stop (c : Coordinator) : c.stop.clients = c.clients := by
  rw [stop, clients_foldl clients_releaseLast, clients_flushOutput]
  rfl

/-- The client of each slot after an event. -/
def clientsAfter (c : Coordinator) : Event → SlotId → Option ClientId
  | .connect s _ => Function.update c.clients s (some ⟨c.nextClient⟩)
  | .disconnect s client =>
    if c.clients s = some client then Function.update c.clients s none else c.clients
  | _ => c.clients

/-- Only connecting and disconnecting change who is attached. -/
theorem clients_serve (c : Coordinator) (e : Event) : (c.serve e).clients = c.clientsAfter e := by
  cases e with
  | submit item wait =>
    cases wait with
    | false => exact clients_tell c item
    | true => exact clients_ask c item
  | executed item => exact clients_finish c item
  | busy busy => rfl
  | call s client items call => exact clients_serveCall c s client items call
  | connect s call => exact clients_connect c s call
  | disconnect s client => exact clients_disconnect c s client
  | shutdown => exact clients_stop c

theorem clients_refuse (c : Coordinator) (e : Event) : (c.refuse e).clients = c.clients := by
  cases e <;> rfl

/-! ### Handing out -/

theorem clients_forward (c : Coordinator) : c.forward.clients = c.clients := by
  rcases forward_eq c with same | ⟨s, item, inbound, same⟩
  · rw [same]
  · rw [same, clients_send, clients_modifySlot_of_eq rfl]
    rfl

theorem clients_retryIfRequested (c : Coordinator) : c.retryIfRequested.clients = c.clients := by
  rw [retryIfRequested]
  split
  · rw [retry]
    split
    · rfl
    · split
      · rfl
      · split
        · rfl
        · split
          · exact clients_failTop ..
          · exact (clients_modifySlot_of_eq rfl).trans rfl
  · rfl

theorem clients_deliver (gone : CallId → Bool) (c : Coordinator) (s : SlotId) :
    (c.deliver gone s).clients = c.clients := by
  rw [deliver]
  generalize flushed : (if s.isPrimary then c.flushOutput else c) = d
  have same : d.clients = c.clients := by
    rw [← flushed]
    split
    · exact clients_flushOutput c
    · rfl
  split
  · exact same
  · split
    · rw [clients_modifySlot_of_eq rfl, same]
    · rw [clients_send, clients_modifySlot_of_eq rfl, same]

/-- Handing out does not change who is attached. -/
theorem clients_pump (c : Coordinator) (gone : CallId → Bool) :
    (c.pump gone).clients = c.clients := by
  rw [pump, clients_foldl (clients_deliver gone), clients_retryIfRequested, clients_forward]

end EngineLink.Coordinator
