import EngineLink.Proofs.Exchange.Ending

/-!
# No call waits for what is there

A call on a slot waits until there is something to deliver to the slot. Events queue items, collect
console output and change whether the engine is busy; handing out looks at all slots once more and
ends every call that has something to get. A slot whose client has gone has no call that waits, and
nothing is kept for it.

## Main definitions

* `Coordinator.Overdue` — a call waits on a slot although there is something to deliver
* `Coordinator.Tended` — nothing is kept for a client that is not there

## Main results

* `Coordinator.not_overdue_pump` — whatever the state before, nothing is overdue after handing out
* `Coordinator.Tended.acts` — every run keeps nothing for clients that are not there
* `Coordinator.no_wakeup_lost` — both, for all runs
-/

namespace EngineLink

/-- Nothing is kept on a slot without a client, and no call waits there. -/
def SlotState.Tended (state : SlotState) : Prop :=
  state.client = none → state.waiter = none ∧ state.inbound = [] ∧ state.outbound = []

namespace Coordinator

variable {c d : Coordinator} {s u : SlotId}

/-! ### What is overdue -/

/-- A call waits on a slot although there is something to deliver to it: items that are queued and,
on the primary slot, collected console output or news about the engine being busy. -/
structure Overdue (c : Coordinator) (s : SlotId) : Prop where
  waits : (c.slot s).waiter ≠ none
  due : (c.slot s).outbound ≠ [] ∨
    s = SlotId.primary ∧ (c.stdout.text ≠ "" ∨ (c.slot s).clientBusy ≠ some c.busy)

/-- Handing out does not miss a slot. -/
theorem Overdue.mem_readySlots (h : c.Overdue s) : s ∈ c.readySlots := by
  obtain ⟨call, waits⟩ := Option.ne_none_iff_exists'.mp h.waits
  have due : c.isDeliverable s (c.slot s) = true := by
    have empty : c.stdout.isEmpty = true ↔ c.stdout.text = "" := String.isEmpty_iff
    simpa [isDeliverable, SlotId.isPrimary, ← empty] using h.due
  refine SlotTable.mem_filter_of_waiter waits ?_
  rw [Bool.and_eq_true]
  exact ⟨Option.isSome_iff_ne_none.mpr h.waits, due⟩

/-! ### Delivering -/

theorem slot_flushOutput_of_ne (other : s ≠ SlotId.primary) : c.flushOutput.slot s = c.slot s := by
  cases empty : c.stdout.isEmpty with
  | true => rw [flushOutput_of_empty empty]
  | false =>
    rw [flushOutput_of_full empty, pushOutbound]
    split
    · rfl
    · exact slot_modifySlot_of_ne _ other _

/-- What delivering to a slot leaves of the others, and that no call waits there any longer. -/
structure Delivers (c : Coordinator) (s : SlotId) (d : Coordinator) : Prop where
  waiter : (d.slot s).waiter = none
  slots : ∀ u ≠ s, d.slot u = c.slot u
  busy : d.busy = c.busy
  stdout : s ≠ SlotId.primary → d.stdout = c.stdout

theorem delivers (gone : CallId → Bool) (c : Coordinator) (s : SlotId) :
    Delivers c s (c.deliver gone s) := by
  rw [deliver]
  generalize flushed : (if s.isPrimary then c.flushOutput else c) = d
  have slots : ∀ u ≠ s, d.slot u = c.slot u := by
    intro u other
    rw [← flushed]
    split
    · next primary =>
      -- Only the primary slot gets console output.
      apply slot_flushOutput_of_ne
      rwa [← eq_of_beq primary]
    · rfl
  have busy : d.busy = c.busy := by
    rw [← flushed]
    split
    · obtain ⟨slots, stdout, same⟩ := c.exists_flushOutput
      rw [same]
    · rfl
  have stdout (other : s ≠ SlotId.primary) : d.stdout = c.stdout := by
    have apart : s.isPrimary = false := beq_false_of_ne other
    rw [← flushed, apart]
    rfl
  split
  · next free => exact ⟨free, slots, busy, stdout⟩
  · split
    · refine ⟨?_, fun u other => ?_, busy, stdout⟩
      · rw [slot_modifySlot_self]
      · rw [slot_modifySlot_of_ne d other, slots u other]
    · refine ⟨?_, fun u other => ?_, busy, stdout⟩
      · rw [slot_send, slot_modifySlot_self]
      · rw [slot_send, slot_modifySlot_of_ne d other, slots u other]

/-- What is still overdue after a delivery was so before, on another slot. -/
theorem Delivers.overdue (h : Delivers c s d) (late : d.Overdue u) : c.Overdue u ∧ u ≠ s := by
  have other : u ≠ s := by
    rintro rfl
    exact late.waits h.waiter
  refine ⟨⟨?_, ?_⟩, other⟩
  · rw [← h.slots u other]
    exact late.waits
  · rw [← h.slots u other, ← h.busy]
    refine late.due.imp_right fun ⟨primary, news⟩ => ⟨primary, ?_⟩
    rwa [← h.stdout fun same => other (primary.trans same.symm)]

/-- Deliveries leave nothing overdue on the slots that they are made to, and make nothing overdue on
others. -/
theorem overdue_of_foldl_deliver {gone : CallId → Bool} {slots : List SlotId}
    (late : (slots.foldl (deliver gone) c).Overdue u) : c.Overdue u ∧ u ∉ slots := by
  induction slots generalizing c with
  | nil => exact ⟨late, List.not_mem_nil⟩
  | cons s slots ih =>
    obtain ⟨later, apart⟩ := ih late
    obtain ⟨before, other⟩ := (delivers gone c s).overdue later
    exact ⟨before, List.not_mem_cons_of_ne_of_not_mem other apart⟩

/-- Nothing is overdue after handing out: what can be handed to clients is looked for last. -/
theorem not_overdue_pump (gone : CallId → Bool) (c : Coordinator) (s : SlotId) :
    ¬(c.pump gone).Overdue s := by
  intro late
  obtain ⟨before, missed⟩ := overdue_of_foldl_deliver late
  exact missed before.mem_readySlots

/-! ### What is kept for clients -/

/-- Nothing is kept on slots without a client, and no call waits there. -/
def Tended (c : Coordinator) : Prop := ∀ s, (c.slot s).Tended

theorem tended_ofCapacity (capacity : Nat) : (ofCapacity capacity).Tended :=
  fun _ _ => ⟨rfl, rfl, rfl⟩

namespace Tended

theorem of_slots_eq (h : c.Tended) (same : d.slots = c.slots) : d.Tended := by
  intro s
  rw [slot, same]
  exact h s

theorem modifySlot (h : c.Tended) {f : SlotState → SlotState} (own : (f (c.slot s)).Tended) :
    (c.modifySlot s f).Tended := by
  intro u
  by_cases same : u = s
  · rw [same, slot_modifySlot_self]
    exact own
  · rw [slot_modifySlot_of_ne c same]
    exact h u

/-- While a client is attached to a slot, anything can be kept there. -/
theorem modifySlot_of_attached (h : c.Tended) {f : SlotState → SlotState}
    (attached : (f (c.slot s)).client ≠ none) : (c.modifySlot s f).Tended :=
  h.modifySlot fun detached => absurd detached attached

/-- The client of a slot on which something is kept. -/
theorem attached (h : c.Tended) (kept : (c.slot s).waiter ≠ none ∨ (c.slot s).inbound ≠ []) :
    (c.slot s).client ≠ none := by
  intro detached
  obtain ⟨waiter, inbound, -⟩ := h s detached
  exact kept.elim (absurd waiter) (absurd inbound)

theorem foldl {α : Type} {f : Coordinator → α → Coordinator}
    (keeps : ∀ c x, c.Tended → (f c x).Tended) (xs : List α) (h : c.Tended) :
    (xs.foldl f c).Tended := by
  induction xs generalizing c with
  | nil => exact h
  | cons x xs ih => exact ih (keeps c x h)

theorem release (h : c.Tended) (s : SlotId) (result : Except Status Batch) :
    (c.release s result).Tended := by
  rw [Coordinator.release]
  split
  · exact h
  · have ended : (c.modifySlot s fun state => { state with waiter := none }).Tended :=
      h.modifySlot fun detached => ⟨rfl, (h s detached).2⟩
    exact ended.of_slots_eq rfl

theorem pushOutbound (h : c.Tended) (s : SlotId) (item : Item) :
    (c.pushOutbound s item).Tended := by
  rw [Coordinator.pushOutbound]
  split
  · exact h
  · next taken => exact h.modifySlot_of_attached fun detached => taken (congrArg Option.isNone detached)

theorem flushOutput (h : c.Tended) : c.flushOutput.Tended := by
  rw [Coordinator.flushOutput]
  split
  · exact h
  · next text stdout _ =>
    have taken : ({ c with stdout } : Coordinator).Tended := h.of_slots_eq rfl
    exact taken.pushOutbound _ _

theorem enqueue (h : c.Tended) (item : Item) : (c.enqueue item).Tended := by
  rw [Coordinator.enqueue]
  split
  · exact h.flushOutput.pushOutbound _ _
  · exact h.pushOutbound _ _

theorem tell (h : c.Tended) (item : Item) : (c.tell item).Tended := by
  rw [Coordinator.tell]
  split
  · exact .foldl (fun _ _ h => h.pushOutbound _ _) _ (h.of_slots_eq rfl)
  · exact h.enqueue item

theorem ask (h : c.Tended) (item : Item) : (c.ask item).Tended := by
  have asked : ({ c with pending := ⟨item, false⟩ :: c.pending } : Coordinator).Tended :=
    h.of_slots_eq rfl
  rw [Coordinator.ask]
  split
  · exact asked.of_slots_eq (slots_failTop ..)
  · exact asked.enqueue item

theorem finish (h : c.Tended) (item : Item) : (c.finish item).Tended := by
  have ended : ({ c with executing := c.executing.tail } : Coordinator).Tended := h.of_slots_eq rfl
  exact (ended.modifySlot (ended item.slot)).enqueue item

/-! #### Clients -/

/-- Only what the attached client submits is received. -/
theorem foldl_receive (h : c.Tended) (attached : (c.slot s).client ≠ none) (items : List Item) :
    (items.foldl (·.receive s ·) c).Tended := by
  induction items generalizing c with
  | nil => exact h
  | cons item items ih =>
    have still : ((c.receive s item).slot s).client = (c.slot s).client :=
      congrFun (clients_receive c s item) s
    have received : (c.receive s item).Tended := by
      rw [receive]
      split
      · exact h.of_slots_eq (slots_accept ..)
      · exact h.modifySlot_of_attached attached
    exact ih received (by rwa [still])

theorem serveCall (h : c.Tended) (s : SlotId) (client : ClientId) (items : List Item)
    (call : CallId) : (c.serveCall s client items call).Tended := by
  rw [Coordinator.serveCall]
  split
  · exact h.of_slots_eq rfl
  · next attached =>
    have taken : ((c.release s (.error superseded)).slot s).client ≠ none := by
      rw [client_release, Decidable.not_not.mp attached]
      exact Option.some_ne_none client
    dsimp only
    generalize waits : ((c.release s (.error superseded)).modifySlot s fun state =>
      { state with waiter := some call }) = d
    have waiting : d.Tended := waits ▸ (h.release s _).modifySlot_of_attached taken
    have still : (d.slot s).client ≠ none := by
      rw [← waits, slot_modifySlot_self]
      exact taken
    have renewed : d.renewRetry.slots = d.slots := by
      rw [renewRetry]
      split <;> rfl
    split
    · exact waiting.of_slots_eq rfl
    · split
      · refine foldl_receive (waiting.of_slots_eq renewed) ?_ items
        rwa [slot, renewed]
      · exact waiting.foldl_receive still items

theorem connect (h : c.Tended) (s : SlotId) (call : CallId) : (c.connect s call).Tended := by
  have attached := (h.release s (.error slotTaken)).modifySlot_of_attached (s := s)
    (f := fun state => { state with
      client := some ⟨c.nextClient⟩
      clientBusy := none
      outbound := (c.questionsTo s).foldl requeue state.outbound }) (Option.some_ne_none _)
  exact attached.of_slots_eq rfl

theorem disconnect (h : c.Tended) (s : SlotId) (client : ClientId) :
    (c.disconnect s client).Tended := by
  rw [Coordinator.disconnect]
  split
  · exact h
  · -- The call of the client is released before its queues are emptied.
    have detached : ((c.release s (.error clientGone)).modifySlot s fun state =>
        { state with client := none, clientBusy := none, inbound := [], outbound := [] }).Tended :=
      (h.release s _).modifySlot fun _ => ⟨waiter_release .., rfl, rfl⟩
    dsimp only
    split
    · split
      · exact detached.of_slots_eq (slots_failTop ..)
      · exact detached
    · exact detached

theorem stop (h : c.Tended) : c.stop.Tended := by
  have stopped : ({ c with running := false } : Coordinator).Tended := h.of_slots_eq rfl
  refine .foldl (fun c s h => ?_) _ stopped.flushOutput
  rw [releaseLast]
  split
  · exact h.release s _
  · split
    · exact h
    · have released := h.release s (.ok ⟨c.busy, (c.slot s).outbound⟩)
      exact released.modifySlot fun detached =>
        ⟨(released s detached).1, (released s detached).2.1, rfl⟩

theorem serve (h : c.Tended) (e : Event) : (c.serve e).Tended := by
  cases e with
  | submit item wait =>
    cases wait with
    | false => exact h.tell item
    | true => exact h.ask item
  | executed item => exact h.finish item
  | busy busy => exact h.of_slots_eq rfl
  | call s client items call => exact h.serveCall s client items call
  | connect s call => exact h.connect s call
  | disconnect s client => exact h.disconnect s client
  | shutdown => exact h.stop

theorem refuse (h : c.Tended) (e : Event) : (c.refuse e).Tended := by
  cases e <;> exact h.of_slots_eq rfl

/-! #### Handing out -/

theorem forward (h : c.Tended) : c.forward.Tended := by
  rw [Coordinator.forward]
  split
  · exact h
  · split
    · next s item inbound outbound executing waiter client clientBusy found =>
      have same : c.slot s = _ := SlotTable.get_of_find? found
      -- A slot with a request in its queue has a client.
      have attached := h.attached (s := s) (.inr (by simp [same]))
      have taken : (c.modifySlot s fun state =>
          { state with executing := true, inbound }).Tended := h.modifySlot_of_attached attached
      rw [Coordinator.modifySlot, same] at taken
      exact taken.of_slots_eq rfl
    · exact h

/-- A question is sent again only while a call waits for it. -/
theorem retryIfRequested (h : c.Tended) : c.retryIfRequested.Tended := by
  rcases retryIfRequested_cases c with same | ⟨top, rest, lacks, ⟨-, same⟩ | ⟨-, same⟩⟩
  · rw [same]
    exact h.of_slots_eq rfl
  · rw [same]
    exact h.of_slots_eq (slots_failTop ..)
  · have waits : (c.slot SlotId.primary).waiter ≠ none := by
      have idle := lacks.idle
      simp only [primaryIsIdle, Bool.and_eq_true] at idle
      exact Option.isSome_iff_ne_none.mp idle.1.1.1
    rw [same]
    have taken : ({ c with
        retryRequested := false, pending := { top with retried := true } :: rest } :
          Coordinator).Tended := h.of_slots_eq rfl
    exact taken.modifySlot_of_attached (h.attached (.inl waits))

theorem deliver (h : c.Tended) (gone : CallId → Bool) (s : SlotId) : (c.deliver gone s).Tended := by
  rw [Coordinator.deliver]
  generalize flushed : (if s.isPrimary then c.flushOutput else c) = d
  have tended : d.Tended := by
    rw [← flushed]
    split
    · exact h.flushOutput
    · exact h
  split
  · exact tended
  · split
    · exact tended.modifySlot fun detached => ⟨rfl, (tended s detached).2⟩
    · have emptied : (d.modifySlot s fun state =>
          { state with waiter := none, outbound := [], clientBusy := some d.busy }).Tended :=
        tended.modifySlot fun detached => ⟨rfl, (tended s detached).2.1, rfl⟩
      exact emptied.of_slots_eq rfl

theorem act (h : c.Tended) (a : Act) : (c.act a).Tended := by
  cases a with
  | receive e =>
    rw [Coordinator.act, handle]
    split
    · exact h.serve e
    · exact h.refuse e
  | pump gone =>
    rw [Coordinator.act]
    split
    · exact .foldl (fun _ s h => h.deliver gone s) _ h.forward.retryIfRequested
    · exact h

/-- Every run keeps nothing for clients that are not there. -/
theorem acts (h : c.Tended) (run : List Act) : (c.acts run).Tended := by
  induction run generalizing c with
  | nil => exact h
  | cons a run ih => exact ih (h.act a)

end Tended

/-! ### Whole runs -/

/-- Once the coordinator has stopped, no call waits. -/
theorem waiter_acts_of_stopped {capacity : Nat} {run : List Act}
    (reached : (ofCapacity capacity).acts run = c) (stopped : c.running = false) (s : SlotId) :
    (c.slot s).waiter = none := by
  subst reached
  induction run using List.reverseRecOn with
  | nil => rfl
  | append_singleton before a ih =>
    rw [acts_append] at stopped ⊢
    generalize started : (ofCapacity capacity).acts before = c at ih stopped ⊢
    have held : c.Held fun _ => True := started ▸ ((balanced_ofCapacity capacity).acts before).held
    change (c.act a).running = false at stopped
    change ((c.act a).slot s).waiter = none
    cases running : c.running with
    | true =>
      -- Only the event that asks for it stops the coordinator, and then all calls are released.
      by_cases stops : a = .receive .shutdown
      · have served : c.act a = c.stop := by
          rw [stops]
          exact if_pos running
        rw [served]
        exact waiter_stop c s
      · rw [running_act held.labelled running stops] at stopped
        cases stopped
    | false =>
      cases a with
      | receive e =>
        have refused : c.act (.receive e) = c.refuse e := if_neg (Bool.eq_false_iff.mp running)
        have same : (c.refuse e).slots = c.slots := by cases e <;> rfl
        rw [refused, slot, same]
        exact ih running
      | pump gone =>
        have still : c.act (.pump gone) = c := if_neg (Bool.eq_false_iff.mp running)
        rw [still]
        exact ih running

/-- However events come and whenever the coordinator hands out between them: right after it has
handed out, no call waits on a slot to which there is something to deliver; and at any time, a slot
without a client has no call that waits, no request that the engine has not got and no item that is
queued. -/
theorem no_wakeup_lost (capacity : Nat) (run : List Act) :
    (∀ gone s, ¬((ofCapacity capacity).acts (run ++ [.pump gone])).Overdue s) ∧
      ∀ s, (((ofCapacity capacity).acts run).slot s).client = none →
        (((ofCapacity capacity).acts run).slot s).waiter = none ∧
          (((ofCapacity capacity).acts run).slot s).inbound = [] ∧
          (((ofCapacity capacity).acts run).slot s).outbound = [] := by
  constructor
  · intro gone s
    rw [acts_append]
    generalize started : (ofCapacity capacity).acts run = c
    change ¬(c.act (.pump gone)).Overdue s
    rw [act]
    split
    · exact not_overdue_pump gone c s
    · next stopped =>
      intro late
      exact late.waits (waiter_acts_of_stopped started (Bool.eq_false_iff.mpr stopped) s)
  · exact (tended_ofCapacity capacity).acts run

end Coordinator

end EngineLink
