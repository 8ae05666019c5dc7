import EngineLink.Proofs.Exchange.Acts

/-!
# What has been sent

The coordinator never looks at what it has sent. It does not matter for a run when this is handed
on.

## Main definitions

* `Coordinator.after` — the state after something else has been sent before

## Main results

* `Coordinator.acts_after` — a run after something has been sent
-/

namespace EngineLink.Coordinator

-- The lemmas below are about any `d` that is `c.after sent`, so that they chain without rewriting.
variable {c d : Coordinator} {sent : List Effect}

/-- The state after something else has been sent before. -/
def after (sent : List Effect) (c : Coordinator) : Coordinator := { c with sent := sent ++ c.sent }

/-! ### Slots and effects -/

theorem send_after (h : d = c.after sent) (e : Effect) : d.send e = (c.send e).after sent := by
  rw [h, send, send, after, after, List.append_assoc]

theorem ite_after {p : Prop} [Decidable p] {c' d' : Coordinator} (h : d = c.after sent)
    (h' : d' = c'.after sent) : (if p then d else d') = (if p then c else c').after sent := by
  rw [h, h', apply_ite (after sent)]

theorem foldl_after {α : Type} {f : Coordinator → α → Coordinator}
    (keeps : ∀ c x, f (after sent c) x = (f c x).after sent) (xs : List α)
    (h : d = c.after sent) : xs.foldl f d = (xs.foldl f c).after sent := by
  subst h
  induction xs generalizing c with
  | nil => rfl
  | cons x xs ih => rw [List.foldl_cons, List.foldl_cons, keeps, ih]

/-! ### Queues -/

theorem release_after (h : d = c.after sent) (s : SlotId) (result : Except Status Batch) :
    d.release s result = (c.release s result).after sent := by
  have same : d.slot s = c.slot s := by rw [h]; rfl
  rw [release, release, same]
  split
  · exact h
  · subst h
    exact send_after (by rfl) _

theorem pushOutbound_after (h : d = c.after sent) (s : SlotId) (item : Item) :
    d.pushOutbound s item = (c.pushOutbound s item).after sent := by
  subst h
  exact ite_after rfl rfl

theorem flushOutput_after (h : d = c.after sent) : d.flushOutput = c.flushOutput.after sent := by
  subst h
  have same : (c.after sent).stdout = c.stdout := rfl
  rw [flushOutput, flushOutput, same]
  split
  · rfl
  · exact pushOutbound_after (by rfl) _ _

theorem enqueue_after (h : d = c.after sent) (item : Item) :
    d.enqueue item = (c.enqueue item).after sent :=
  pushOutbound_after (ite_after (flushOutput_after h) h) _ _

theorem write_after (h : d = c.after sent) (text : String) :
    d.write text = (c.write text).after sent := by
  subst h
  exact foldl_after (fun _ _ => pushOutbound_after rfl _ _) _ rfl

/-! ### Answers -/

theorem answerFrom_after (h : d = c.after sent) (answer : Item) (ps : List Pending) :
    d.answerFrom answer ps = (c.answerFrom answer ps).after sent := by
  subst h
  induction ps generalizing c answer with
  | nil => rfl
  | cons top rest ih =>
    have first : ({ after sent c with pending := rest } : Coordinator).send
        (.wake (.answer answer)) =
          after sent ({ c with pending := rest }.send (.wake (.answer answer))) :=
      send_after (by rfl) _
    rw [answerFrom, answerFrom, first]
    generalize ({ c with pending := rest }.send (.wake (.answer answer)) : Coordinator) = d
    have same (question : Item) : (d.after sent).stashed? question = d.stashed? question := rfl
    cases rest.head? with
    | none => rfl
    | some top =>
      dsimp only
      rw [same]
      split
      · exact ih (c := { d with stash := _ }) _
      · exact ite_after (ih _) rfl

theorem failTop_after (h : d = c.after sent) (question : Item) (status : Status) :
    d.failTop question status = (c.failTop question status).after sent := by
  subst h
  exact answerFrom_after rfl _ _

theorem accept_after (h : d = c.after sent) (answer : Item) :
    d.accept answer = (c.accept answer).after sent := by
  subst h
  have same (id : RequestId) : (c.after sent).depthOf? id = c.depthOf? id := rfl
  rw [accept, accept]
  split
  · rfl
  · rw [same]
    split
    · exact answerFrom_after rfl _ _
    · rfl
    · rfl

/-! ### Events -/

theorem tell_after (h : d = c.after sent) (item : Item) :
    d.tell item = (c.tell item).after sent := by
  rw [tell, tell]
  split
  · exact write_after h _
  · exact enqueue_after h item

theorem ask_after (h : d = c.after sent) (item : Item) : d.ask item = (c.ask item).after sent := by
  subst h
  exact ite_after (failTop_after (by rfl) _ _) (enqueue_after (by rfl) _)

theorem finish_after (h : d = c.after sent) (item : Item) :
    d.finish item = (c.finish item).after sent := by
  subst h
  exact enqueue_after (by rfl) _

theorem receive_after (h : d = c.after sent) (s : SlotId) (item : Item) :
    d.receive s item = (c.receive s item).after sent := by
  subst h
  exact ite_after (accept_after rfl _) rfl

theorem renewRetry_after (h : d = c.after sent) : d.renewRetry = c.renewRetry.after sent := by
  subst h
  have same : (c.after sent).pending = c.pending := rfl
  rw [renewRetry, renewRetry, same]
  split <;> rfl

theorem modifySlot_after (h : d = c.after sent) (s : SlotId) (f : SlotState → SlotState) :
    d.modifySlot s f = (c.modifySlot s f).after sent := by
  subst h
  rfl

theorem serveCall_after (h : d = c.after sent) (s : SlotId) (client : ClientId)
    (items : List Item) (call : CallId) :
    d.serveCall s client items call = (c.serveCall s client items call).after sent := by
  have released := release_after h s (.error superseded)
  have waiting := modifySlot_after released s fun state => { state with waiter := some call }
  subst h
  refine ite_after (send_after rfl _) (ite_after ?_ ?_)
  · rw [waiting]
    rfl
  · exact foldl_after (fun _ _ => receive_after rfl _ _) _
      (ite_after (renewRetry_after waiting) waiting)

theorem connect_after (h : d = c.after sent) (s : SlotId) (call : CallId) :
    d.connect s call = (c.connect s call).after sent := by
  have released := release_after h s (.error slotTaken)
  subst h
  rw [connect, released]
  exact send_after (by rfl) _

theorem disconnect_after (h : d = c.after sent) (s : SlotId) (client : ClientId) :
    d.disconnect s client = (c.disconnect s client).after sent := by
  have released := release_after h s (.error clientGone)
  have detached := modifySlot_after released s fun state =>
    { state with client := none, clientBusy := none, inbound := [], outbound := [] }
  subst h
  refine ite_after rfl ?_
  dsimp only
  rw [detached]
  generalize ((c.release s (.error clientGone)).modifySlot s fun state =>
    { state with client := none, clientBusy := none, inbound := [], outbound := [] }) = e
  have same : (e.after sent).pending = e.pending := rfl
  rw [same]
  split
  · exact ite_after (failTop_after rfl _ _) rfl
  · rfl

theorem releaseLast_after (h : d = c.after sent) (s : SlotId) :
    d.releaseLast s = (c.releaseLast s).after sent := by
  have same : d.slot s = c.slot s := by rw [h]; rfl
  rw [releaseLast, releaseLast, same]
  split
  · exact release_after h _ _
  · refine ite_after h ?_
    subst h
    exact modifySlot_after (release_after rfl _ _) _ _

theorem stop_after (h : d = c.after sent) : d.stop = c.stop.after sent := by
  have flushed : ({ d with running := false } : Coordinator).flushOutput =
      ({ c with running := false } : Coordinator).flushOutput.after sent := by
    subst h
    exact flushOutput_after (by rfl)
  rw [stop, stop, flushed]
  exact foldl_after (fun _ _ => releaseLast_after rfl _) _ rfl

theorem refuse_after (h : d = c.after sent) (e : Event) :
    d.refuse e = (c.refuse e).after sent := by
  cases e with
  | call slot client items call => exact send_after h _
  | connect slot call => exact send_after h _
  | _ => exact h

theorem handle_after (h : d = c.after sent) (e : Event) :
    d.handle e = (c.handle e).after sent := by
  have same : d.running = c.running := by rw [h]; rfl
  rw [handle, handle, same]
  refine ite_after ?_ (refuse_after h e)
  cases e with
  | submit item wait =>
    cases wait with
    | false => exact tell_after h item
    | true => exact ask_after h item
  | executed item => exact finish_after h item
  | busy busy =>
    subst h
    rfl
  | call slot client items call => exact serveCall_after h slot client items call
  | connect slot call => exact connect_after h slot call
  | disconnect slot client => exact disconnect_after h slot client
  | shutdown => exact stop_after h

/-! ### Handing out -/

theorem forward_after (h : d = c.after sent) : d.forward = c.forward.after sent := by
  subst h
  have same : (c.after sent).slots = c.slots := rfl
  refine ite_after rfl ?_
  rw [same]
  split
  · exact send_after (by rfl) _
  · rfl

theorem retry_after (h : d = c.after sent) : d.retry = c.retry.after sent := by
  subst h
  have same : (c.after sent).pending = c.pending := rfl
  refine ite_after rfl ?_
  rw [same]
  split
  · rfl
  · exact ite_after rfl (ite_after (failTop_after rfl _ _) (by rfl))

theorem retryIfRequested_after (h : d = c.after sent) :
    d.retryIfRequested = c.retryIfRequested.after sent := by
  subst h
  exact ite_after (retry_after (by rfl)) rfl

theorem deliver_after (h : d = c.after sent) (gone : CallId → Bool) (s : SlotId) :
    d.deliver gone s = (c.deliver gone s).after sent := by
  have flushed : (if s.isPrimary then d.flushOutput else d) = after sent _ :=
    ite_after (flushOutput_after h) h
  rw [deliver, deliver, flushed]
  generalize (if s.isPrimary then c.flushOutput else c) = e
  have same : (e.after sent).slot s = e.slot s := rfl
  rw [same]
  split
  · rfl
  · exact ite_after rfl (send_after (by rfl) _)

theorem pump_after (h : d = c.after sent) (gone : CallId → Bool) :
    d.pump gone = (c.pump gone).after sent := by
  have handed := retryIfRequested_after (forward_after h)
  rw [pump, pump, handed]
  exact foldl_after (fun _ _ => deliver_after rfl gone _) _ rfl

theorem act_after (h : d = c.after sent) (a : Act) : d.act a = (c.act a).after sent := by
  cases a with
  | receive e => exact handle_after h e
  | pump gone =>
    have same : d.running = c.running := by rw [h]; rfl
    rw [act, act, same]
    exact ite_after (pump_after h gone) h

/-- A run after something has been sent. -/
theorem acts_after (sent : List Effect) (c : Coordinator) (run : List Act) :
    (c.after sent).acts run = (c.acts run).after sent :=
  foldl_after (fun _ a => act_after rfl a) run rfl

theorem turn_after (h : d = c.after sent) (gone : CallId → Bool) (events : List Event) :
    d.turn gone events = (c.turn gone events).after sent := by
  rw [h, turn_eq_acts, turn_eq_acts, acts_after]

end EngineLink.Coordinator
