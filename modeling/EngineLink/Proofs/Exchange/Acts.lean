import EngineLink.Exchange.Coordinator

/-!
# Runs of the coordinator

A run of the coordinator receives events one by one and hands out in between. Each call is made by
one client on one slot, and only calls of the client that is attached to a slot wait there.

## Main definitions

* `Coordinator.Act`, `Coordinator.acts` — what the coordinator does, one by one
* `Coordinator.Tidy` — only calls of its client wait on a slot

## Main results

* `Coordinator.turn_eq_acts` — a turn is a run
* `Coordinator.Tidy.acts` — every run keeps this
-/

namespace EngineLink.Coordinator

variable {caller : CallId → SlotId × ClientId} {c d : Coordinator} {s u : SlotId}

/-! ### Runs -/

/-- What the coordinator does. -/
inductive Act where
  | receive (e : Event)
  /-- Hand out, while the callers of some calls have gone. -/
  | pump (gone : CallId → Bool)

/-- The state after one act. A coordinator that has stopped hands out nothing. -/
def act (c : Coordinator) : Act → Coordinator
  | .receive e => c.handle e
  | .pump gone => if c.running then c.pump gone else c

/-- The state after some acts. -/
def acts (c : Coordinator) (run : List Act) : Coordinator := run.foldl act c

/-- A turn receives a group of events and hands out. -/
theorem turn_eq_acts (gone : CallId → Bool) (c : Coordinator) (events : List Event) :
    c.turn gone events = c.acts (events.map .receive ++ [.pump gone]) := by
  rw [acts, List.foldl_append, List.foldl_map]
  rfl

/-! ### States of slots -/

@[simp] theorem slot_modifySlot_self (c : Coordinator) (s : SlotId)
    (f : SlotState → SlotState) : (c.modifySlot s f).slot s = f (c.slot s) :=
  SlotTable.get_set_self ..

@[simp] theorem slot_send (c : Coordinator) (e : Effect) (s : SlotId) :
    (c.send e).slot s = c.slot s := rfl

theorem slot_modifySlot_of_ne (c : Coordinator) (h : u ≠ s) (f : SlotState → SlotState) :
    (c.modifySlot s f).slot u = c.slot u :=
  SlotTable.get_set_of_ne _ h _

theorem waiter_release (c : Coordinator) (s : SlotId) (result : Except Status Batch) :
    ((c.release s result).slot s).waiter = none := by
  rw [release]
  split
  · next none => exact none
  · rw [slot_send, slot_modifySlot_self]

theorem client_release (c : Coordinator) (s : SlotId) (result : Except Status Batch) :
    ((c.release s result).slot s).client = (c.slot s).client := by
  rw [release]
  split
  · rfl
  · rw [slot_send, slot_modifySlot_self]

/-- Answering changes nothing about slots. -/
theorem slots_answerFrom (answer : Item) (ps : List Pending) (c : Coordinator) :
    (c.answerFrom answer ps).slots = c.slots := by
  induction ps generalizing c answer with
  | nil => rfl
  | cons top rest ih =>
    rw [answerFrom]
    split
    · rfl
    · split
      · exact ih _ _
      · split
        · exact ih _ _
        · rfl

@[simp] theorem slots_failTop (question : Item) (status : Status) (c : Coordinator) :
    (c.failTop question status).slots = c.slots := slots_answerFrom ..

@[simp] theorem slots_accept (answer : Item) (c : Coordinator) :
    (c.accept answer).slots = c.slots := by
  rw [accept]
  split
  · rfl
  · split
    · exact slots_answerFrom ..
    · rfl
    · rfl

/-- Handing a request to the engine takes it from the queue of its slot. -/
theorem forward_eq (c : Coordinator) : c.forward = c ∨ ∃ s item inbound,
    c.forward = ({ c with executing := s :: c.executing }.modifySlot s fun state =>
      { state with executing := true, inbound }).send (.wake (.execute item)) := by
  rw [forward]
  split
  · exact .inl rfl
  · split
    · next s item inbound outbound executing waiter client clientBusy found =>
      have same : c.slot s = _ := SlotTable.get_of_find? found
      refine .inr ⟨s, item, inbound, ?_⟩
      rw [modifySlot]
      change _ = ({ c with
        slots := c.slots.set s { c.slot s with executing := true, inbound }
        executing := s :: c.executing } : Coordinator).send (.wake (.execute item))
      rw [same]
    · exact .inl rfl

/-! ### Waiting calls -/

/-- A call that waits on a slot is one of the client of the slot. -/
structure Tidy (caller : CallId → SlotId × ClientId) (c : Coordinator) : Prop where
  waits : ∀ s, ∀ call ∈ (c.slot s).waiter, ∃ client ∈ (c.slot s).client, caller call = (s, client)

theorem tidy_ofCapacity (caller : CallId → SlotId × ClientId) (capacity : Nat) :
    (ofCapacity capacity).Tidy caller :=
  ⟨fun _ _ waits => nomatch waits⟩

namespace Tidy

theorem of_slots_eq (h : c.Tidy caller) (same : d.slots = c.slots) : d.Tidy caller where
  waits s := by
    rw [slot, same]
    exact h.waits s

theorem modifySlot (h : c.Tidy caller) {f : SlotState → SlotState}
    (waits : ∀ call ∈ (f (c.slot s)).waiter, ∃ client ∈ (f (c.slot s)).client,
      caller call = (s, client)) :
    (c.modifySlot s f).Tidy caller where
  waits u := by
    by_cases same : u = s
    · obtain rfl := same
      rw [slot_modifySlot_self]
      exact waits
    · rw [slot_modifySlot_of_ne c same]
      exact h.waits u

/-- A change to a slot that leaves its client and the waiting call. -/
theorem modifySlot_of_eq (h : c.Tidy caller) {f : SlotState → SlotState}
    (waiter : (f (c.slot s)).waiter = (c.slot s).waiter)
    (client : (f (c.slot s)).client = (c.slot s).client) : (c.modifySlot s f).Tidy caller := by
  refine h.modifySlot ?_
  rw [waiter, client]
  exact h.waits s

/-- A change to a slot on which no call waits any longer. -/
theorem modifySlot_of_waiter_none (h : c.Tidy caller) {f : SlotState → SlotState}
    (ends : (f (c.slot s)).waiter = none) : (c.modifySlot s f).Tidy caller := by
  refine h.modifySlot fun call waits => ?_
  rw [ends] at waits
  cases waits

theorem send (h : c.Tidy caller) (e : Effect) : (c.send e).Tidy caller := h.of_slots_eq rfl

theorem release (h : c.Tidy caller) (s : SlotId) (result : Except Status Batch) :
    (c.release s result).Tidy caller := by
  rw [Coordinator.release]
  split
  · exact h
  · exact (h.modifySlot_of_waiter_none rfl).send _

theorem pushOutbound (h : c.Tidy caller) (s : SlotId) (item : Item) :
    (c.pushOutbound s item).Tidy caller := by
  rw [Coordinator.pushOutbound]
  split
  · exact h
  · exact h.modifySlot_of_eq rfl rfl

theorem flushOutput (h : c.Tidy caller) : c.flushOutput.Tidy caller := by
  rw [Coordinator.flushOutput]
  split
  · exact h
  · next text stdout _ =>
    have taken : ({ c with stdout } : Coordinator).Tidy caller := h.of_slots_eq rfl
    exact taken.pushOutbound _ _

theorem enqueue (h : c.Tidy caller) (item : Item) : (c.enqueue item).Tidy caller := by
  rw [Coordinator.enqueue]
  split
  · exact h.flushOutput.pushOutbound _ _
  · exact h.pushOutbound _ _

theorem foldl {α : Type} {f : Coordinator → α → Coordinator}
    (keeps : ∀ c x, c.Tidy caller → (f c x).Tidy caller) (xs : List α) (h : c.Tidy caller) :
    (xs.foldl f c).Tidy caller := by
  induction xs generalizing c with
  | nil => exact h
  | cons x xs ih => exact ih (keeps c x h)

theorem write (h : c.Tidy caller) (text : String) : (c.write text).Tidy caller :=
  .foldl (fun _ _ h => h.pushOutbound _ _) _ (h.of_slots_eq rfl)

theorem tell (h : c.Tidy caller) (item : Item) : (c.tell item).Tidy caller := by
  rw [Coordinator.tell]
  split
  · exact h.write _
  · exact h.enqueue item

theorem ask (h : c.Tidy caller) (item : Item) : (c.ask item).Tidy caller := by
  rw [Coordinator.ask]
  have asked : ({ c with pending := ⟨item, false⟩ :: c.pending } : Coordinator).Tidy caller :=
    h.of_slots_eq rfl
  split
  · exact asked.of_slots_eq (slots_failTop ..)
  · exact asked.enqueue item

theorem finish (h : c.Tidy caller) (item : Item) : (c.finish item).Tidy caller := by
  have ended : ({ c with executing := c.executing.tail } : Coordinator).Tidy caller :=
    h.of_slots_eq rfl
  exact (ended.modifySlot_of_eq rfl rfl).enqueue item

theorem receive (h : c.Tidy caller) (s : SlotId) (item : Item) :
    (c.receive s item).Tidy caller := by
  rw [Coordinator.receive]
  split
  · exact h.of_slots_eq (slots_accept ..)
  · exact h.modifySlot_of_eq rfl rfl

theorem renewRetry (h : c.Tidy caller) : c.renewRetry.Tidy caller := by
  rw [Coordinator.renewRetry]
  split
  · exact h
  · exact h.of_slots_eq rfl

theorem serveCall (h : c.Tidy caller) {s : SlotId} {client : ClientId} {call : CallId}
    (own : caller call = (s, client)) (items : List Item) :
    (c.serveCall s client items call).Tidy caller := by
  rw [Coordinator.serveCall]
  split
  · exact h.send _
  · next attached =>
    -- Only the attached client comes this far, so it is its call that waits from now on.
    have waiting : ((c.release s (.error superseded)).modifySlot s fun state =>
        { state with waiter := some call }).Tidy caller := by
      refine (h.release s _).modifySlot fun waiter same => ?_
      obtain rfl := Option.some.inj same
      refine ⟨client, ?_, own⟩
      change ((c.release s (.error superseded)).slot s).client = some client
      rw [client_release]
      exact Decidable.not_not.mp attached
    split
    · exact waiting.of_slots_eq rfl
    · split
      · exact .foldl (fun _ _ h => h.receive _ _) _ waiting.renewRetry
      · exact .foldl (fun _ _ h => h.receive _ _) _ waiting

theorem connect (h : c.Tidy caller) (s : SlotId) (call : CallId) :
    (c.connect s call).Tidy caller := by
  -- The call of the former client is released before the client changes.
  have attached := (h.release s (.error slotTaken)).modifySlot_of_waiter_none (s := s)
    (f := fun state => { state with
      client := some ⟨c.nextClient⟩
      clientBusy := none
      outbound := (c.questionsTo s).foldl requeue state.outbound }) (waiter_release ..)
  exact attached.of_slots_eq rfl

theorem disconnect (h : c.Tidy caller) (s : SlotId) (client : ClientId) :
    (c.disconnect s client).Tidy caller := by
  rw [Coordinator.disconnect]
  split
  · exact h
  · have detached := (h.release s (.error clientGone)).modifySlot_of_waiter_none (s := s)
      (f := fun state => { state with
        client := none, clientBusy := none, inbound := [], outbound := [] }) (waiter_release ..)
    dsimp only
    split
    · split
      · exact detached.of_slots_eq (slots_failTop ..)
      · exact detached
    · exact detached

theorem stop (h : c.Tidy caller) : c.stop.Tidy caller := by
  have stopped : ({ c with running := false } : Coordinator).Tidy caller := h.of_slots_eq rfl
  refine .foldl (fun c s h => ?_) _ stopped.flushOutput
  rw [releaseLast]
  split
  · exact h.release s _
  · split
    · exact h
    · exact (h.release s _).modifySlot_of_eq rfl rfl

end Tidy

/-- Each call is made by its own client on its own slot. -/
def CallOwned (caller : CallId → SlotId × ClientId) : Act → Prop
  | .receive (.call slot client _ call) => caller call = (slot, client)
  | _ => True

namespace Tidy

theorem refuse (h : c.Tidy caller) (e : Event) : (c.refuse e).Tidy caller := by
  cases e <;> exact h.of_slots_eq rfl

theorem handle (h : c.Tidy caller) {e : Event} (own : CallOwned caller (.receive e)) :
    (c.handle e).Tidy caller := by
  rw [Coordinator.handle]
  split
  · cases e with
    | submit item wait =>
      cases wait with
      | false => exact h.tell item
      | true => exact h.ask item
    | executed item => exact h.finish item
    | busy busy => exact h.of_slots_eq rfl
    | call slot client items call => exact h.serveCall own items
    | connect slot call => exact h.connect slot call
    | disconnect slot client => exact h.disconnect slot client
    | shutdown => exact h.stop
  · exact h.refuse e

theorem forward (h : c.Tidy caller) : c.forward.Tidy caller := by
  rcases forward_eq c with same | ⟨s, item, inbound, same⟩
  · rwa [same]
  · have taken : ({ c with executing := s :: c.executing } : Coordinator).Tidy caller :=
      h.of_slots_eq rfl
    rw [same]
    exact (taken.modifySlot_of_eq rfl rfl).send _

theorem retryIfRequested (h : c.Tidy caller) : c.retryIfRequested.Tidy caller := by
  rw [Coordinator.retryIfRequested]
  split
  · have taken : ({ c with retryRequested := false } : Coordinator).Tidy caller :=
      h.of_slots_eq rfl
    rw [retry]
    split
    · exact taken
    · split
      · exact taken
      · next top rest _ =>
        split
        · exact taken
        · split
          · exact taken.of_slots_eq (slots_failTop ..)
          · have retried : ({ c with
                retryRequested := false
                pending := { top with retried := true } :: rest } : Coordinator).Tidy caller :=
              h.of_slots_eq rfl
            exact retried.modifySlot_of_eq rfl rfl
  · exact h

theorem deliver (h : c.Tidy caller) (gone : CallId → Bool) (s : SlotId) :
    (c.deliver gone s).Tidy caller := by
  rw [Coordinator.deliver]
  generalize flushed : (if s.isPrimary then c.flushOutput else c) = d
  have tidy : d.Tidy caller := by
    rw [← flushed]
    split
    · exact h.flushOutput
    · exact h
  split
  · exact tidy
  · split
    · exact tidy.modifySlot_of_waiter_none rfl
    · exact (tidy.modifySlot_of_waiter_none rfl).send _

theorem pump (h : c.Tidy caller) (gone : CallId → Bool) : (c.pump gone).Tidy caller :=
  .foldl (fun _ s h => h.deliver gone s) _ h.forward.retryIfRequested

theorem act (h : c.Tidy caller) {a : Act} (own : CallOwned caller a) : (c.act a).Tidy caller := by
  cases a with
  | receive e => exact h.handle own
  | pump gone =>
    rw [Coordinator.act]
    split
    · exact h.pump gone
    · exact h

/-- Every run keeps the waiting calls on their own slots. -/
theorem acts (h : c.Tidy caller) {run : List Act} (own : ∀ a ∈ run, CallOwned caller a) :
    (c.acts run).Tidy caller := by
  induction run generalizing c with
  | nil => exact h
  | cons a run ih =>
    rw [List.forall_mem_cons] at own
    exact ih (h.act own.1) own.2

end Tidy

end EngineLink.Coordinator
