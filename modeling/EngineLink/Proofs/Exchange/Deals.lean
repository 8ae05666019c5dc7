import EngineLink.Proofs.Exchange.Mail

/-!
# What clients see

A client sees little of what the coordinator does: who is attached to a slot, what is queued there,
which call waits, and how calls have ended. An event or handing out changes this in a few ways. This
module names them once, so that what holds for queues and calls can be shown for one after another.
Console output may be queued at any time, and counts for nothing here.

## Main definitions

* `Coordinator.Front`, `Coordinator.front` — what clients see
* `Coordinator.Deal`, `Coordinator.Front.deal` — the ways in which it changes
* `Coordinator.Leads` — some deals, with console output in between
* `Coordinator.Deals` — the deals of an act

## Main results

* `Coordinator.exists_deals` — every act is made of its deals
-/

namespace EngineLink.Coordinator

/-! ### Desks -/

/-- What the clients of a slot see of it. -/
structure Desk where
  client : Option ClientId
  waiter : Option CallId
  outbound : List Item

/-- What the clients of a slot see of it. -/
def deskOf (state : SlotState) : Desk := ⟨state.client, state.waiter, state.outbound⟩

/-- What clients see. -/
structure Front where
  desks : SlotId → Desk
  /-- How calls have ended, in order. -/
  ended : List (CallId × Except Status Batch)
  /-- The number of the next client. -/
  next : Nat

/-- How calls have ended. -/
def endedBy (sent : List Effect) : List (CallId × Except Status Batch) :=
  sent.filterMap fun
    | .resolve call result => some (call, result)
    | _ => none

@[simp] theorem endedBy_append (sent more : List Effect) :
    endedBy (sent ++ more) = endedBy sent ++ endedBy more := List.filterMap_append

/-- What clients see of a coordinator. -/
def front (c : Coordinator) : Front :=
  ⟨fun s => deskOf (c.slot s), endedBy c.sent, c.nextClient⟩

/-- A way in which it changes. -/
inductive Deal where
  /-- An item is queued. -/
  | put (s : SlotId) (item : Item)
  /-- A call waits, in place of the one that waited before. -/
  | wait (s : SlotId) (call : CallId)
  /-- A call ends at once. -/
  | refuse (call : CallId) (status : Status)
  /-- The next client takes a slot. -/
  | attach (s : SlotId)
  /-- The client of a slot leaves, and what is queued for it is dropped. -/
  | leave (s : SlotId)
  /-- The waiting call gets all that is queued. -/
  | handOver (s : SlotId) (busy : Bool)
  /-- A waiting call is forgotten, since its caller has gone. -/
  | forget (s : SlotId) (call : CallId)
  /-- The waiting call ends with nothing. -/
  | close (s : SlotId)

namespace Front

variable {s : SlotId}

/-- A change to a desk. -/
def set (f : Front) (s : SlotId) (desk : Desk) : Front :=
  { f with desks := Function.update f.desks s desk }

/-- Queue an item. -/
def put (f : Front) (s : SlotId) (item : Item) : Front :=
  f.set s { f.desks s with outbound := (f.desks s).outbound ++ [item] }

/-- End the waiting call of a slot, if there is one. -/
def dismiss (f : Front) (s : SlotId) (result : Except Status Batch) : Front :=
  match (f.desks s).waiter with
  | none => f
  | some call =>
    { f.set s { f.desks s with waiter := none } with ended := f.ended ++ [(call, result)] }

/-- What clients see after a deal. -/
def deal (f : Front) : Deal → Front
  | .put s item => f.put s item
  | .wait s call =>
    let f := f.dismiss s (.error superseded)
    f.set s { f.desks s with waiter := some call }
  | .refuse call status => { f with ended := f.ended ++ [(call, .error status)] }
  | .attach s =>
    let f := f.dismiss s (.error slotTaken)
    { f.set s { f.desks s with client := some ⟨f.next⟩ } with next := f.next + 1 }
  | .leave s =>
    let f := f.dismiss s (.error clientGone)
    f.set s { f.desks s with client := none, outbound := [] }
  | .handOver s busy =>
    let f := f.dismiss s (.ok ⟨busy, (f.desks s).outbound⟩)
    f.set s { f.desks s with outbound := [] }
  | .forget s call =>
    if (f.desks s).waiter = some call then f.set s { f.desks s with waiter := none } else f
  | .close s => f.dismiss s (.error .stopped)

@[simp] theorem desks_set_self (f : Front) (s : SlotId) (desk : Desk) :
    (f.set s desk).desks s = desk := Function.update_self ..

theorem desks_set_of_ne {u : SlotId} (f : Front) (other : u ≠ s) (desk : Desk) :
    (f.set s desk).desks u = f.desks u := Function.update_of_ne other ..

@[simp] theorem set_set (f : Front) (s : SlotId) (desk last : Desk) :
    (f.set s desk).set s last = f.set s last :=
  congrArg (Front.mk · f.ended f.next) (Function.update_idem ..)

theorem set_self (f : Front) (s : SlotId) : f.set s (f.desks s) = f :=
  congrArg (Front.mk · f.ended f.next) (Function.update_eq_self s f.desks)

theorem next_dismiss (f : Front) (s : SlotId) (result : Except Status Batch) :
    (f.dismiss s result).next = f.next := by
  rw [dismiss]
  split <;> rfl

/-- A call that waits gets all that is queued. -/
theorem deal_handOver {f : Front} {call : CallId} (waits : (f.desks s).waiter = some call)
    (busy : Bool) : f.deal (.handOver s busy) =
      { f.set s { f.desks s with waiter := none, outbound := [] } with
        ended := f.ended ++ [(call, .ok ⟨busy, (f.desks s).outbound⟩)] } := by
  rw [deal, dismiss, waits]
  simp [set]

end Front

variable {c d : Coordinator} {f g h : Front} {deals more : List Deal} {s : SlotId} {a : Act}

/-- Some deals one after another, with console output in between. -/
inductive Leads (f : Front) : List Deal → Front → Prop
  | nil : Leads f [] f
  | output {deals : List Deal} {g : Front} (text : String) (leads : Leads f deals g) :
      Leads f deals (g.put SlotId.primary (outputItem text))
  | deal {deals : List Deal} {g : Front} (deal : Deal) (leads : Leads f deals g) :
      Leads f (deals ++ [deal]) (g.deal deal)

namespace Leads

theorem of_eq (same : g = f) : Leads f [] g := same ▸ .nil

theorem one (deal : Deal) : Leads f [deal] (f.deal deal) := Leads.nil.deal deal

theorem trans (first : Leads f deals g) (next : Leads g more h) : Leads f (deals ++ more) h := by
  induction next with
  | nil => rwa [List.append_nil]
  | output text _ ih => exact ih.output text
  | deal deal _ ih =>
    rw [← List.append_assoc]
    exact ih.deal deal

/-- What brings no deals may come before. -/
theorem after (first : Leads f [] g) (next : Leads g deals h) : Leads f deals h := first.trans next

/-- Several items are queued one after another. -/
theorem puts (f : Front) (s : SlotId) (items : List Item) : Leads f (items.map (.put s))
    (f.set s { f.desks s with outbound := (f.desks s).outbound ++ items }) := by
  induction items generalizing f with
  | nil =>
    rw [List.append_nil]
    exact .of_eq (Front.set_self f s)
  | cons item items ih =>
    have rest := ih (f.put s item)
    rw [Front.put, Front.set_set, Front.desks_set_self] at rest
    dsimp only at rest
    rw [List.append_assoc] at rest
    exact (one (.put s item)).trans rest

theorem foldl {α : Type} {step : Coordinator → α → Coordinator} {kind : Deal → Prop}
    (each : ∀ c x, ∃ deals, Leads c.front deals (step c x).front ∧ ∀ deal ∈ deals, kind deal)
    (xs : List α) (c : Coordinator) :
    ∃ deals, Leads c.front deals (xs.foldl step c).front ∧ ∀ deal ∈ deals, kind deal := by
  induction xs generalizing c with
  | nil => exact ⟨[], .nil, List.forall_mem_nil _⟩
  | cons x xs ih =>
    obtain ⟨deals, first, kinds⟩ := each c x
    obtain ⟨more, next, moreKinds⟩ := ih (step c x)
    exact ⟨deals ++ more, first.trans next, List.forall_mem_append.mpr ⟨kinds, moreKinds⟩⟩

/-- Through a list, without deals. -/
theorem foldl_nil {α : Type} {step : Coordinator → α → Coordinator}
    (each : ∀ c x, Leads c.front [] (step c x).front) (xs : List α) (c : Coordinator) :
    Leads c.front [] (xs.foldl step c).front := by
  induction xs generalizing c with
  | nil => exact .nil
  | cons x xs ih => exact (each c x).after (ih (step c x))

end Leads

/-! ### Parts of the state -/

theorem front_modifySlot (c : Coordinator) (s : SlotId) (change : SlotState → SlotState) :
    (c.modifySlot s change).front = c.front.set s (deskOf (change (c.slot s))) := by
  refine congrArg (Front.mk · (endedBy c.sent) c.nextClient) (funext fun u => ?_)
  by_cases same : u = s
  · rw [same, Function.update_self, slot_modifySlot_self]
  · rw [Function.update_of_ne same, slot_modifySlot_of_ne c same]
    rfl

/-- A change to a slot that its clients do not see. -/
theorem front_modifySlot_of_eq {change : SlotState → SlotState}
    (same : deskOf (change (c.slot s)) = deskOf (c.slot s)) :
    (c.modifySlot s change).front = c.front := by
  rw [front_modifySlot, same]
  exact congrArg (Front.mk · (endedBy c.sent) c.nextClient) (Function.update_eq_self s c.front.desks)

theorem front_send_wake (c : Coordinator) (wake : Wake) : (c.send (.wake wake)).front = c.front :=
  congrArg (Front.mk c.front.desks · c.nextClient) ((endedBy_append ..).trans (List.append_nil _))

theorem front_send_attach (c : Coordinator) (call : CallId) (result : Except Status ClientId) :
    (c.send (.attach call result)).front = c.front :=
  congrArg (Front.mk c.front.desks · c.nextClient) ((endedBy_append ..).trans (List.append_nil _))

theorem front_send_resolve (c : Coordinator) (call : CallId) (result : Except Status Batch) :
    (c.send (.resolve call result)).front =
      { c.front with ended := c.front.ended ++ [(call, result)] } :=
  congrArg (Front.mk c.front.desks · c.nextClient) (endedBy_append ..)

theorem front_release (c : Coordinator) (s : SlotId) (result : Except Status Batch) :
    (c.release s result).front = c.front.dismiss s result := by
  have waiter : (c.front.desks s).waiter = (c.slot s).waiter := rfl
  rw [release, Front.dismiss, waiter]
  cases (c.slot s).waiter with
  | none => rfl
  | some call =>
    dsimp only
    rw [front_send_resolve, front_modifySlot]
    rfl

theorem outbound_release (c : Coordinator) (s : SlotId) (result : Except Status Batch) :
    ((c.release s result).slot s).outbound = (c.slot s).outbound := by
  rw [release]
  split
  · rfl
  · rw [slot_send, slot_modifySlot_self]

theorem front_answerFrom (answer : Item) (ps : List Pending) (c : Coordinator) :
    (c.answerFrom answer ps).front = c.front := by
  -- An answer may make the answer to the next question due, which has come before.
  induction ps generalizing c answer with
  | nil => rfl
  | cons top rest ih =>
    have first := front_send_wake { c with pending := rest } (.answer answer)
    rw [answerFrom]
    split
    · exact first
    · split
      · exact (ih _ _).trans first
      · split
        · exact (ih _ _).trans first
        · exact first

theorem front_failTop (question : Item) (status : Status) (c : Coordinator) :
    (c.failTop question status).front = c.front := front_answerFrom ..

theorem front_pushOutbound (c : Coordinator) (s : SlotId) (item : Item) :
    (c.pushOutbound s item).front = c.front ∨
      (c.pushOutbound s item).front = c.front.put s item := by
  rw [pushOutbound]
  split
  · exact .inl rfl
  · exact .inr (front_modifySlot ..)

theorem leads_output (c : Coordinator) (text : String) :
    Leads c.front [] (c.pushOutbound SlotId.primary (outputItem text)).front := by
  rcases front_pushOutbound c SlotId.primary (outputItem text) with same | same
  · exact .of_eq same
  · rw [same]
    exact .output text .nil

theorem leads_flushOutput (c : Coordinator) : Leads c.front [] c.flushOutput.front := by
  rw [flushOutput]
  split
  · exact .nil
  · next text stdout _ => exact leads_output { c with stdout } text

/-- At most the item itself is queued, besides console output. -/
theorem exists_leads_enqueue (c : Coordinator) (item : Item) : ∃ items : List Item,
    items.Sublist [item] ∧ Leads c.front (items.map (.put item.slot)) (c.enqueue item).front := by
  rw [enqueue]
  generalize flushed : (if item.slot.isPrimary then c.flushOutput else c) = d
  have before : Leads c.front [] d.front := by
    rw [← flushed]
    split
    · exact leads_flushOutput c
    · exact .nil
  rcases front_pushOutbound d item.slot item with same | same
  · refine ⟨[], List.nil_sublist _, ?_⟩
    rw [same]
    exact before
  · refine ⟨[item], List.Sublist.refl _, ?_⟩
    rw [same]
    exact before.after (.one (.put item.slot item))

/-! ### Events -/

theorem exists_leads_tell (c : Coordinator) (item : Item) : ∃ items : List Item,
    items.Sublist [item] ∧ Leads c.front (items.map (.put item.slot)) (c.tell item).front := by
  rw [tell]
  split
  · next text _ _ =>
    -- The text comes out in other pieces.
    exact ⟨[], List.nil_sublist _, .foldl_nil leads_output _
      { c with stdout := (c.stdout.push text).2 }⟩
  · exact exists_leads_enqueue c item

theorem exists_leads_ask (c : Coordinator) (item : Item) : ∃ items : List Item,
    items.Sublist [item] ∧ Leads c.front (items.map (.put item.slot)) (c.ask item).front := by
  rw [ask]
  split
  · exact ⟨[], List.nil_sublist _, .of_eq (front_failTop ..)⟩
  · exact exists_leads_enqueue { c with pending := ⟨item, false⟩ :: c.pending } item

theorem exists_leads_finish (c : Coordinator) (item : Item) : ∃ items : List Item,
    items.Sublist [item] ∧ Leads c.front (items.map (.put item.slot)) (c.finish item).front := by
  have freed : (({ c with executing := c.executing.tail } : Coordinator).modifySlot item.slot
      fun state => { state with executing := false }).front = c.front := front_modifySlot_of_eq rfl
  rw [finish, ← freed]
  exact exists_leads_enqueue _ item

theorem front_receive (c : Coordinator) (s : SlotId) (item : Item) :
    (c.receive s item).front = c.front := by
  rw [receive]
  split
  · rw [accept]
    split
    · rfl
    · split
      · exact front_answerFrom ..
      · rfl
      · rfl
  · exact front_modifySlot_of_eq rfl

theorem front_renewRetry (c : Coordinator) : c.renewRetry.front = c.front := by
  rw [renewRetry]
  split <;> rfl

theorem front_foldl_receive (items : List Item) (c : Coordinator) :
    (items.foldl (·.receive s ·) c).front = c.front := by
  induction items generalizing c with
  | nil => rfl
  | cons item items ih => rw [List.foldl_cons, ih, front_receive]

/-- A call of the attached client waits. -/
theorem front_serveCall {client : ClientId} (attached : (c.slot s).client = some client)
    (items : List Item) (call : CallId) :
    (c.serveCall s client items call).front = c.front.deal (.wait s call) := by
  have waiting : ((c.release s (.error superseded)).modifySlot s fun state =>
      { state with waiter := some call }).front = c.front.deal (.wait s call) := by
    rw [front_modifySlot, Front.deal, ← front_release]
    rfl
  rw [serveCall, if_neg (not_not_intro attached)]
  dsimp only
  split
  · exact waiting
  · split
    · rw [front_foldl_receive, front_renewRetry, waiting]
    · rw [front_foldl_receive, waiting]

/-- A client that takes a slot gets the open questions to it that are not queued yet. -/
theorem leads_connect {added : List Item} (call : CallId)
    (requeued : (c.questionsTo s).foldl requeue (c.slot s).outbound =
      (c.slot s).outbound ++ added) :
    Leads c.front (.attach s :: added.map (.put s)) (c.connect s call).front := by
  have taken : (c.connect s call).front =
      (c.front.deal (.attach s)).set s { (c.front.deal (.attach s)).desks s with
        outbound := ((c.front.deal (.attach s)).desks s).outbound ++ added } := by
    have kept := outbound_release c s (.error slotTaken)
    have released := front_release c s (.error slotTaken)
    rw [connect, front_send_attach, Front.deal, ← released]
    have number : (c.release s (.error slotTaken)).nextClient = c.nextClient :=
      (congrArg Front.next released).trans (Front.next_dismiss ..)
    generalize c.release s (.error slotTaken) = d at kept number
    have same : d.front.next = c.nextClient := number
    have changed := front_modifySlot d s fun state =>
      { state with
        client := some ⟨c.nextClient⟩
        clientBusy := none
        outbound := (c.questionsTo s).foldl requeue state.outbound }
    rw [kept, requeued, ← kept] at changed
    dsimp only
    have counted (e : Coordinator) (n : Nat) :
        ({ e with nextClient := n } : Coordinator).front = { e.front with next := n } := rfl
    rw [counted, changed, same]
    simp [Front.set, deskOf, front, modifySlot, number]
  rw [taken]
  exact (Leads.one _).trans (.puts _ s added)

theorem front_disconnect {client : ClientId} (attached : (c.slot s).client = some client) :
    (c.disconnect s client).front = c.front.deal (.leave s) := by
  have left : ((c.release s (.error clientGone)).modifySlot s fun state =>
      { state with client := none, clientBusy := none, inbound := [], outbound := [] }).front =
        c.front.deal (.leave s) := by
    rw [front_modifySlot, Front.deal, ← front_release]
    rfl
  rw [disconnect, if_neg (not_not_intro attached)]
  dsimp only
  split
  · split
    · rw [front_failTop, left]
    · exact left
  · exact left

/-- A way in which the waiting call of a slot ends when the coordinator stops. -/
def Deal.IsLast : Deal → Prop
  | .handOver _ _ => True
  | .close _ => True
  | _ => False

theorem front_handOver (c : Coordinator) (s : SlotId) (busy : Bool) :
    ((c.release s (.ok ⟨busy, (c.slot s).outbound⟩)).modifySlot s fun state =>
      { state with outbound := [] }).front = c.front.deal (.handOver s busy) := by
  rw [front_modifySlot, Front.deal]
  dsimp only
  rw [show (c.front.desks s).outbound = (c.slot s).outbound from rfl, ← front_release]
  rfl

theorem exists_leads_releaseLast (c : Coordinator) (s : SlotId) : ∃ deals,
    Leads c.front deals (c.releaseLast s).front ∧ ∀ deal ∈ deals, deal.IsLast := by
  rw [releaseLast]
  split
  · refine ⟨[.close s], ?_, List.forall_mem_singleton.mpr trivial⟩
    rw [front_release]
    exact .one (.close s)
  · split
    · exact ⟨[], .nil, List.forall_mem_nil _⟩
    · refine ⟨[.handOver s c.busy], ?_, List.forall_mem_singleton.mpr trivial⟩
      rw [front_handOver]
      exact .one (.handOver s c.busy)

theorem exists_leads_stop (c : Coordinator) : ∃ deals,
    Leads c.front deals c.stop.front ∧ ∀ deal ∈ deals, deal.IsLast := by
  have flushed := leads_flushOutput { c with running := false }
  obtain ⟨deals, leads, last⟩ := Leads.foldl exists_leads_releaseLast
    (({ c with running := false } : Coordinator).flushOutput.slots.filter fun _ _ => true)
    ({ c with running := false } : Coordinator).flushOutput
  exact ⟨deals, flushed.after leads, last⟩

/-! ### Handing out -/

theorem front_forward (c : Coordinator) : c.forward.front = c.front := by
  rcases forward_eq c with same | ⟨s, item, inbound, same⟩
  · rw [same]
  · rw [same, front_send_wake]
    exact front_modifySlot_of_eq (c := { c with executing := s :: c.executing }) rfl

/-- At most the innermost question is queued again, if nothing else is queued for the primary
client. -/
theorem exists_leads_retryIfRequested (c : Coordinator) : ∃ items : List Item,
    (items = [] ∨ c.primaryQueue = [] ∧ ∃ p ∈ c.pending.head?, items = [p.question]) ∧
      Leads c.front (items.map (.put SlotId.primary)) c.retryIfRequested.front := by
  rcases retryIfRequested_cases c with same | ⟨top, rest, lacks, ⟨-, same⟩ | ⟨-, same⟩⟩
  · exact ⟨[], .inl rfl, .of_eq (by rw [same]; rfl)⟩
  · exact ⟨[], .inl rfl, .of_eq (by rw [same]; exact front_failTop ..)⟩
  · refine ⟨[top.question], .inr ⟨lacks.primaryQueue_eq, top, ?_, rfl⟩, ?_⟩
    · rw [lacks.pending]
      rfl
    · rw [same, front_modifySlot]
      exact .one (.put SlotId.primary top.question)

/-- A way in which the waiting call of a slot ends when the coordinator hands out. -/
def Deal.HandsOut (gone : CallId → Bool) : Deal → Prop
  | .handOver _ _ => True
  | .forget _ call => gone call = true
  | _ => False

theorem exists_leads_deliver (gone : CallId → Bool) (c : Coordinator) (s : SlotId) : ∃ deals,
    Leads c.front deals (c.deliver gone s).front ∧ ∀ deal ∈ deals, deal.HandsOut gone := by
  rw [deliver]
  generalize flushed : (if s.isPrimary then c.flushOutput else c) = d
  have before : Leads c.front [] d.front := by
    rw [← flushed]
    split
    · exact leads_flushOutput c
    · exact .nil
  split
  · exact ⟨[], before, List.forall_mem_nil _⟩
  · next call waits =>
    split
    · next left =>
      refine ⟨[.forget s call], ?_, List.forall_mem_singleton.mpr left⟩
      have same : (d.modifySlot s fun state => { state with waiter := none }).front =
          d.front.deal (.forget s call) := by
        rw [front_modifySlot]
        exact (if_pos waits).symm
      rw [same]
      exact before.after (.one (.forget s call))
    · refine ⟨[.handOver s d.busy], ?_, List.forall_mem_singleton.mpr trivial⟩
      rw [front_send_resolve, front_modifySlot]
      have same := Front.deal_handOver (f := d.front) waits d.busy
      exact before.after (same ▸ .one (.handOver s d.busy))

/-! ### Acts -/

/-- The deals of an act. -/
inductive Deals (c : Coordinator) : Act → List Deal → Prop
  /-- Nothing is done for clients. -/
  | quiet {a : Act} (none : ∀ s client items call, a ≠ .receive (.call s client items call)) :
      Deals c a []
  /-- At most the item that the engine has for a client is queued. -/
  | bring {e : Event} {item : Item} {items : List Item}
      (brings : e = .executed item ∨ ∃ wait, e = .submit item wait)
      (few : items.Sublist [item]) : Deals c (.receive e) (items.map (.put item.slot))
  | call {s : SlotId} {client : ClientId} {items : List Item} {call : CallId}
      (attached : c.clients s = some client) :
      Deals c (.receive (.call s client items call)) [.wait s call]
  | refuse {s : SlotId} {client : ClientId} {items : List Item} {call : CallId} {status : Status}
      (kind : status = .disconnected ∨ status = .stopped) :
      Deals c (.receive (.call s client items call)) [.refuse call status]
  | connect {s : SlotId} {call : CallId} {added : List Item} (among : added ⊆ c.questionsTo s) :
      Deals c (.receive (.connect s call)) (.attach s :: added.map (.put s))
  | disconnect {s : SlotId} {client : ClientId} (attached : c.clients s = some client) :
      Deals c (.receive (.disconnect s client)) [.leave s]
  | stop {deals : List Deal} (last : ∀ deal ∈ deals, deal.IsLast) :
      Deals c (.receive .shutdown) deals
  | pump {gone : CallId → Bool} {again : List Item} {deals : List Deal}
      (repeats : again = [] ∨
        c.primaryQueue = [] ∧ ∃ p ∈ c.pending.head?, again = [p.question])
      (out : ∀ deal ∈ deals, deal.HandsOut gone) :
      Deals c (.pump gone) (again.map (.put SlotId.primary) ++ deals)

theorem exists_deals_serve (c : Coordinator) (e : Event) :
    ∃ deals, c.Deals (.receive e) deals ∧ Leads c.front deals (c.serve e).front := by
  cases e with
  | submit item wait =>
    cases wait with
    | false =>
      obtain ⟨items, few, leads⟩ := exists_leads_tell c item
      exact ⟨_, .bring (.inr ⟨false, rfl⟩) few, leads⟩
    | true =>
      obtain ⟨items, few, leads⟩ := exists_leads_ask c item
      exact ⟨_, .bring (.inr ⟨true, rfl⟩) few, leads⟩
  | executed item =>
    obtain ⟨items, few, leads⟩ := exists_leads_finish c item
    exact ⟨_, .bring (.inl rfl) few, leads⟩
  | busy busy => exact ⟨[], .quiet (by rintro _ _ _ _ ⟨⟩), .nil⟩
  | call s client items call =>
    by_cases attached : (c.slot s).client = some client
    · refine ⟨[.wait s call], .call attached, ?_⟩
      rw [serve, front_serveCall attached]
      exact .one (.wait s call)
    · refine ⟨[.refuse call .disconnected], .refuse (.inl rfl), ?_⟩
      rw [serve, serveCall, if_pos attached, front_send_resolve]
      exact .one (.refuse call .disconnected)
  | connect s call =>
    obtain ⟨added, requeued, among⟩ :=
      exists_foldl_requeue (c.questionsTo s) (c.slot s).outbound
    exact ⟨_, .connect among, leads_connect call requeued⟩
  | disconnect s client =>
    by_cases attached : (c.slot s).client = some client
    · refine ⟨[.leave s], .disconnect attached, ?_⟩
      rw [serve, front_disconnect attached]
      exact .one (.leave s)
    · refine ⟨[], .quiet (by rintro _ _ _ _ ⟨⟩), ?_⟩
      rw [serve, disconnect, if_pos attached]
      exact .nil
  | shutdown =>
    obtain ⟨deals, leads, last⟩ := exists_leads_stop c
    exact ⟨deals, .stop last, leads⟩

theorem exists_deals_refuse (c : Coordinator) (e : Event) :
    ∃ deals, c.Deals (.receive e) deals ∧ Leads c.front deals (c.refuse e).front := by
  cases e with
  | call s client items call =>
    refine ⟨[.refuse call .stopped], .refuse (.inr rfl), ?_⟩
    rw [refuse, front_send_resolve]
    exact .one (.refuse call .stopped)
  | connect s call => exact ⟨[], .quiet (by rintro _ _ _ _ ⟨⟩), .of_eq (front_send_attach ..)⟩
  | _ => exact ⟨[], .quiet (by rintro _ _ _ _ ⟨⟩), .nil⟩

theorem exists_deals_pump (c : Coordinator) (gone : CallId → Bool) :
    ∃ deals, c.Deals (.pump gone) deals ∧ Leads c.front deals (c.pump gone).front := by
  have forwarded := front_forward c
  have queue : c.forward.primaryQueue = c.primaryQueue :=
    congrArg (fun f : Front => (f.desks SlotId.primary).outbound) forwarded
  obtain ⟨again, repeats, first⟩ := exists_leads_retryIfRequested c.forward
  obtain ⟨deals, next, out⟩ := Leads.foldl (exists_leads_deliver gone)
    c.forward.retryIfRequested.readySlots c.forward.retryIfRequested
  rw [queue, pending_forward] at repeats
  rw [forwarded] at first
  exact ⟨_, .pump repeats out, first.trans next⟩

/-- Every act is made of its deals. -/
theorem exists_deals (c : Coordinator) (a : Act) :
    ∃ deals, c.Deals a deals ∧ Leads c.front deals (c.act a).front := by
  cases a with
  | receive e =>
    rw [act, handle]
    split
    · exact exists_deals_serve c e
    · exact exists_deals_refuse c e
  | pump gone =>
    rw [act]
    split
    · exact exists_deals_pump c gone
    · exact ⟨[], .quiet (by rintro _ _ _ _ ⟨⟩), .nil⟩

/-- A deal that is possible in an act. -/
inductive Deal.In : Act → Deal → Prop
  | put {a : Act} {s : SlotId} {item : Item} : In a (.put s item)
  | wait {s : SlotId} {client : ClientId} {items : List Item} {call : CallId} :
      In (.receive (.call s client items call)) (.wait s call)
  | refuse {s : SlotId} {client : ClientId} {items : List Item} {call : CallId} {status : Status}
      (kind : status = .disconnected ∨ status = .stopped) :
      In (.receive (.call s client items call)) (.refuse call status)
  | attach {s : SlotId} {call : CallId} : In (.receive (.connect s call)) (.attach s)
  | leave {s : SlotId} {client : ClientId} : In (.receive (.disconnect s client)) (.leave s)
  | handOver {a : Act} {s : SlotId} {busy : Bool} : In a (.handOver s busy)
  | forget {gone : CallId → Bool} {s : SlotId} {call : CallId} (left : gone call = true) :
      In (.pump gone) (.forget s call)
  | close {a : Act} {s : SlotId} : In a (.close s)

theorem Deals.forall_in {deals : List Deal} (h : c.Deals a deals) : ∀ deal ∈ deals, deal.In a := by
  have puts (s : SlotId) (items : List Item) : ∀ deal ∈ items.map (Deal.put s), deal.In a := by
    rw [List.forall_mem_map]
    exact fun _ _ => .put
  cases h with
  | quiet none => exact List.forall_mem_nil _
  | bring brings few => exact puts _ _
  | call attached => exact List.forall_mem_singleton.mpr .wait
  | refuse kind => exact List.forall_mem_singleton.mpr (.refuse kind)
  | connect among => exact List.forall_mem_cons.mpr ⟨.attach, puts _ _⟩
  | disconnect attached => exact List.forall_mem_singleton.mpr .leave
  | stop last =>
    intro deal member
    cases deal with
    | handOver s busy => exact .handOver
    | close s => exact .close
    | _ => exact (last _ member).elim
  | pump repeats out =>
    rw [List.forall_mem_append]
    refine ⟨puts _ _, fun deal member => ?_⟩
    cases deal with
    | handOver s busy => exact .handOver
    | forget s call => exact .forget (out _ member)
    | _ => exact (out _ member).elim

end EngineLink.Coordinator
