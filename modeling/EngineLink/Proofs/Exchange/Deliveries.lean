import EngineLink.Proofs.Exchange.PrimaryOrder

/-!
# What is queued for a client

What the coordinator has for the client of a slot waits in the queue of the slot until a call of the
client takes it. As long as the client stays attached, things are only put at the end of the
queue: replies to its requests, when they arrive from the engine, and what else the engine has for
the slot.

## Main definitions

* `Coordinator.Entry` — something queued for a client
* `Coordinator.deliveries` — what the calls of a client have got, and what is queued for it
* `Coordinator.Own` — what the engine has for a slot besides replies
* `Coordinator.Grows` — the queue grows by some entries

## Main results

* `Coordinator.grows_serve`, `Coordinator.grows_pump` — what an event or handing out appends
-/

namespace EngineLink.Coordinator

/-! ### Entries -/

/-- Something that is queued for a client. -/
inductive Entry where
  /-- The reply to a request. -/
  | reply (item : Item)
  /-- What else the engine has for it. -/
  | own (item : Item)

namespace Entry

def item : Entry → Item
  | .reply item => item
  | .own item => item

def reply? : Entry → Option Item
  | .reply item => some item
  | .own _ => none

end Entry

variable {caller : CallId → SlotId × ClientId} {client : ClientId} {s u : SlotId}
  {own : Item → Prop} {c d e : Coordinator} {replies more : List Item}

/-- What the calls of a client on a slot have got. -/
def got (caller : CallId → SlotId × ClientId) (s : SlotId) (client : ClientId)
    (sent : List Effect) : List Item :=
  sent.flatMap fun
    | .resolve call (.ok batch) => if caller call = (s, client) then batch.items else []
    | _ => []

@[simp] theorem got_append (sent more : List Effect) :
    got caller s client (sent ++ more) = got caller s client sent ++ got caller s client more :=
  List.flatMap_append

/-- What the calls of a client on a slot have got, and what is queued for it. -/
def deliveries (caller : CallId → SlotId × ClientId) (s : SlotId) (client : ClientId)
    (c : Coordinator) : List Item :=
  got caller s client c.sent ++ (c.slot s).outbound

/-- Some entries are put at the end of the queue of a client. -/
def Appends (caller : CallId → SlotId × ClientId) (s : SlotId) (client : ClientId)
    (own : Item → Prop) (replies : List Item) (c d : Coordinator) : Prop :=
  ∃ entries : List Entry, entries.filterMap Entry.reply? = replies ∧
    (∀ item, .own item ∈ entries → own item) ∧
    deliveries caller s client d = deliveries caller s client c ++ entries.map Entry.item

namespace Appends

theorem of_eq (queued : deliveries caller s client d = deliveries caller s client c) :
    Appends caller s client own [] c d := by
  refine ⟨[], rfl, fun _ h => absurd h List.not_mem_nil, ?_⟩
  rw [queued]
  exact (List.append_nil _).symm

theorem trans (first : Appends caller s client own replies c d)
    (next : Appends caller s client own more d e) :
    Appends caller s client own (replies ++ more) c e := by
  obtain ⟨entries, rfl, isOwn, queued⟩ := first
  obtain ⟨later, rfl, isOwnLater, queuedLater⟩ := next
  refine ⟨entries ++ later, List.filterMap_append, ?_, ?_⟩
  · intro item member
    exact (List.mem_append.mp member).elim (isOwn item) (isOwnLater item)
  · rw [queuedLater, queued, List.map_append, List.append_assoc]

/-- A change to a slot that puts entries at the end of its queue. -/
theorem modifySlot {f : SlotState → SlotState} (entries : List Entry)
    (isOwn : ∀ item, u = s → .own item ∈ entries → own item)
    (queued : (f (c.slot u)).outbound = (c.slot u).outbound ++ entries.map Entry.item) :
    Appends caller s client own (if u = s then entries.filterMap Entry.reply? else []) c
      (c.modifySlot u f) := by
  by_cases same : u = s
  · subst same
    refine ⟨entries, (if_pos rfl).symm, fun item => isOwn item rfl, ?_⟩
    rw [deliveries, slot_modifySlot_self, queued]
    exact (List.append_assoc ..).symm
  · rw [if_neg same]
    refine of_eq ?_
    rw [deliveries, slot_modifySlot_of_ne c (Ne.symm same)]
    rfl

/-- Sending something that hands nothing to the client. -/
theorem send {e : Effect} (quiet : got caller s client [e] = []) :
    Appends caller s client own [] c (c.send e) := by
  refine of_eq ?_
  rw [deliveries, Coordinator.send, got_append, quiet, List.append_nil]
  rfl

end Appends

/-- The queue of a client grows, and the client stays attached. -/
structure Grows (caller : CallId → SlotId × ClientId) (s : SlotId) (client : ClientId)
    (own : Item → Prop) (replies : List Item) (c d : Coordinator) : Prop where
  attached : (d.slot s).client = (c.slot s).client
  appends : Appends caller s client own replies c d

namespace Grows

theorem of_eq (attached : (d.slot s).client = (c.slot s).client)
    (queued : deliveries caller s client d = deliveries caller s client c) :
    Grows caller s client own [] c d := ⟨attached, .of_eq queued⟩

theorem refl (c : Coordinator) : Grows caller s client own [] c c := of_eq rfl rfl

theorem trans (first : Grows caller s client own replies c d)
    (next : Grows caller s client own more d e) :
    Grows caller s client own (replies ++ more) c e :=
  ⟨next.attached.trans first.attached, first.appends.trans next.appends⟩

/-- What brings no replies may be put behind. -/
theorem andThen (first : Grows caller s client own replies c d)
    (next : Grows caller s client own [] d e) : Grows caller s client own replies c e := by
  rw [← List.append_nil replies]
  exact first.trans next

/-- Through a list, as long as some invariant holds. -/
theorem foldl {α : Type} {f : Coordinator → α → Coordinator} (inv : Coordinator → Prop)
    (keeps : ∀ c x, inv c → inv (f c x))
    (h : ∀ c x, inv c → Grows caller s client own [] c (f c x)) (xs : List α) (start : inv c) :
    Grows caller s client own [] c (xs.foldl f c) := by
  induction xs generalizing c with
  | nil => exact refl c
  | cons x xs ih => exact (h c x start).andThen (ih (keeps c x start))

end Grows

/-! ### Parts of the state -/

theorem grows_modifySlot_of_ne (other : u ≠ s) (f : SlotState → SlotState) :
    Grows caller s client own [] c (c.modifySlot u f) := by
  have same := slot_modifySlot_of_ne c other.symm f
  refine .of_eq (by rw [same]) ?_
  rw [deliveries, same]
  rfl

/-- A change to a slot that leaves its client and puts entries at the end of the queue for it. -/
theorem grows_append {f : SlotState → SlotState} (entries : List Entry)
    (isOwn : ∀ item, u = s → .own item ∈ entries → own item)
    (attached : (f (c.slot u)).client = (c.slot u).client)
    (queued : (f (c.slot u)).outbound = (c.slot u).outbound ++ entries.map Entry.item) :
    Grows caller s client own (if u = s then entries.filterMap Entry.reply? else []) c
      (c.modifySlot u f) := by
  refine ⟨?_, .modifySlot entries isOwn queued⟩
  by_cases same : u = s
  · subst same
    rw [slot_modifySlot_self, attached]
  · rw [slot_modifySlot_of_ne c (Ne.symm same)]

/-- A change to a slot that leaves its client and the queue for it. -/
theorem grows_modifySlot {f : SlotState → SlotState}
    (attached : (f (c.slot u)).client = (c.slot u).client)
    (queued : (f (c.slot u)).outbound = (c.slot u).outbound) :
    Grows caller s client own [] c (c.modifySlot u f) := by
  have nothing : Grows caller s client own (if u = s then [] else []) c (c.modifySlot u f) :=
    grows_append [] (fun _ _ h => absurd h List.not_mem_nil) attached
      (queued.trans (List.append_nil _).symm)
  rwa [ite_self] at nothing

theorem grows_send {e : Effect} (quiet : got caller s client [e] = []) :
    Grows caller s client own [] c (c.send e) := ⟨rfl, .send quiet⟩

theorem grows_release (c : Coordinator) (u : SlotId) (status : Status) :
    Grows caller s client own [] c (c.release u (.error status)) := by
  rw [release]
  split
  · exact .refl c
  · exact (grows_modifySlot rfl rfl).andThen (grows_send rfl)

/-- An entry is put at the end of the queue, if it is for the slot. -/
theorem grows_pushOutbound (attached : (c.slot s).client = some client) (entry : Entry)
    (isOwn : ∀ item, u = s → entry = .own item → own item) :
    Grows caller s client own (if u = s then entry.reply?.toList else []) c
      (c.pushOutbound u entry.item) := by
  have replies : [entry].filterMap Entry.reply? = entry.reply?.toList := by cases entry <;> rfl
  rw [pushOutbound]
  by_cases nobody : (c.slot u).client.isNone = true
  · -- Without a client, the slot is another one.
    have other : u ≠ s := by
      rintro rfl
      rw [attached] at nobody
      cases nobody
    rw [if_neg other, if_pos nobody]
    exact .refl c
  · rw [if_neg nobody, ← replies]
    refine grows_append [entry] (fun item same member => ?_) rfl rfl
    exact isOwn item same (List.mem_singleton.mp member).symm

theorem grows_output (attached : (c.slot s).client = some client)
    (output : ∀ text, own (outputItem text)) (text : String) :
    Grows caller s client own [] c (c.pushOutbound SlotId.primary (outputItem text)) := by
  have pushed : Grows caller s client own (if SlotId.primary = s then [] else []) c
      (c.pushOutbound SlotId.primary (outputItem text)) := by
    refine grows_pushOutbound attached (.own (outputItem text)) fun item _ same => ?_
    obtain rfl := Entry.own.inj same
    exact output text
  rwa [ite_self] at pushed

theorem grows_flushOutput (attached : (c.slot s).client = some client)
    (output : ∀ text, own (outputItem text)) :
    Grows caller s client own [] c c.flushOutput := by
  rw [flushOutput]
  split
  · exact .refl c
  · next text stdout _ =>
    have taken : Grows caller s client own [] c { c with stdout } := .of_eq rfl rfl
    exact taken.andThen (grows_output (c := { c with stdout }) attached output text)

theorem grows_enqueue (attached : (c.slot s).client = some client)
    (output : ∀ text, own (outputItem text)) (entry : Entry)
    (isOwn : ∀ item, item.slot = s → entry = .own item → own item) :
    Grows caller s client own (if entry.item.slot = s then entry.reply?.toList else []) c
      (c.enqueue entry.item) := by
  have isOwnHere : ∀ item, entry.item.slot = s → entry = .own item → own item := by
    rintro item here rfl
    exact isOwn item here rfl
  rw [enqueue]
  -- What was printed before goes first.
  generalize flushed : (if entry.item.slot.isPrimary then c.flushOutput else c) = d
  have grows : Grows caller s client own [] c d := by
    rw [← flushed]
    split
    · exact grows_flushOutput attached output
    · exact .refl c
  exact grows.trans (grows_pushOutbound (grows.attached.trans attached) entry isOwnHere)

theorem grows_enqueue_own (attached : (c.slot s).client = some client)
    (output : ∀ text, own (outputItem text)) {item : Item} (isOwn : own item) :
    Grows caller s client own [] c (c.enqueue item) := by
  have queued : Grows caller s client own (if item.slot = s then [] else []) c (c.enqueue item) :=
    grows_enqueue attached output (.own item) fun other _ same => by
      obtain rfl := Entry.own.inj same
      exact isOwn
  rwa [ite_self] at queued

/-! ### Events -/

/-- What the engine has for clients besides replies: console output, what it tells or asks now, and
the questions that are kept. -/
def Own (c : Coordinator) (a : Act) (item : Item) : Prop :=
  (∃ text, item = outputItem text) ∨ (∃ wait, a = .receive (.submit item wait)) ∨
    ∃ p ∈ c.pending, item = p.question

/-- The reply that arrives with an event, if it is for a slot. -/
def repliesTo (s : SlotId) : Event → List Item
  | .executed item => if item.slot = s then [item] else []
  | _ => []

theorem grows_tell (attached : (c.slot s).client = some client)
    (output : ∀ text, own (outputItem text)) {item : Item} (told : own item) :
    Grows caller s client own [] c (c.tell item) := by
  rw [tell]
  split
  · next text _ _ =>
    have taken : Grows caller s client own [] c { c with stdout := (c.stdout.push text).2 } :=
      .of_eq rfl rfl
    have pushes (c : Coordinator) (chunk : String) (attached : (c.slot s).client = some client) :
        Grows caller s client own [] c (c.pushOutbound SlotId.primary (outputItem chunk)) :=
      grows_output attached output chunk
    refine taken.andThen (.foldl (fun c => (c.slot s).client = some client) ?_ pushes _ attached)
    exact fun c chunk attached =>
      ((pushes c chunk attached).attached).trans attached
  · exact grows_enqueue_own attached output told

theorem grows_answerFrom (answer : Item) (ps : List Pending) (c : Coordinator) :
    Grows caller s client own [] c (c.answerFrom answer ps) := by
  -- An answer may make the answer to the next question due, which has come before.
  induction ps generalizing c answer with
  | nil => exact .refl c
  | cons top rest ih =>
    have kept : Grows caller s client own [] c { c with pending := rest } := .of_eq rfl rfl
    have first := kept.andThen (grows_send (e := .wake (.answer answer)) rfl)
    rw [answerFrom]
    split
    · exact first
    · split
      · next id held _ =>
        generalize ({ c with pending := rest }.send (.wake (.answer answer)) : Coordinator) = d
          at first
        have forgotten : Grows caller s client own [] d
            { d with stash := d.stash.filter (·.1 != id) } := .of_eq rfl rfl
        exact (first.andThen forgotten).andThen (ih held _)
      · split
        · exact first.andThen (ih _ _)
        · exact first

theorem grows_failTop (question : Item) (status : Status) (c : Coordinator) :
    Grows caller s client own [] c (c.failTop question status) := grows_answerFrom ..

theorem grows_ask (attached : (c.slot s).client = some client)
    (output : ∀ text, own (outputItem text)) {item : Item} (asked : own item) :
    Grows caller s client own [] c (c.ask item) := by
  have kept : Grows caller s client own [] c { c with pending := ⟨item, false⟩ :: c.pending } :=
    .of_eq rfl rfl
  rw [ask]
  split
  · exact kept.andThen (grows_failTop ..)
  · exact kept.andThen (grows_enqueue_own (kept.attached.trans attached) output asked)

theorem grows_finish (attached : (c.slot s).client = some client)
    (output : ∀ text, own (outputItem text)) (item : Item) :
    Grows caller s client own (repliesTo s (.executed item)) c (c.finish item) := by
  have ended : Grows caller s client own [] c { c with executing := c.executing.tail } :=
    .of_eq rfl rfl
  have freed := ended.andThen (grows_modifySlot (u := item.slot)
    (f := fun state => { state with executing := false }) rfl rfl)
  exact freed.trans (grows_enqueue (freed.attached.trans attached) output (.reply item)
    fun _ _ same => nomatch same)

theorem grows_receive (c : Coordinator) (u : SlotId) (item : Item) :
    Grows caller s client own [] c (c.receive u item) := by
  rw [receive]
  split
  · rw [accept]
    split
    · exact .refl c
    · split
      · exact grows_answerFrom ..
      · exact .of_eq rfl rfl
      · exact .refl c
  · exact grows_modifySlot rfl rfl

theorem grows_renewRetry (c : Coordinator) : Grows caller s client own [] c c.renewRetry := by
  rw [renewRetry]
  split
  · exact .refl c
  · exact .of_eq rfl rfl

theorem grows_serveCall (c : Coordinator) (u : SlotId) (who : ClientId) (items : List Item)
    (call : CallId) : Grows caller s client own [] c (c.serveCall u who items call) := by
  rw [serveCall]
  split
  · exact grows_send rfl
  · have waiting : Grows caller s client own [] c ((c.release u (.error superseded)).modifySlot u
        fun state => { state with waiter := some call }) :=
      (grows_release c u _).andThen (grows_modifySlot rfl rfl)
    have received (d : Coordinator) :
        Grows caller s client own [] d (items.foldl (·.receive u ·) d) :=
      .foldl (fun _ => True) (fun _ _ _ => trivial) (fun d item _ => grows_receive d u item) items
        trivial
    split
    · exact waiting.andThen (.of_eq rfl rfl)
    · split
      · exact (waiting.andThen (grows_renewRetry _)).andThen (received _)
      · exact waiting.andThen (received _)

/-- Questions that are queued again are put at the end. -/
theorem exists_foldl_requeue (questions outbound : List Item) :
    ∃ added, questions.foldl requeue outbound = outbound ++ added ∧ added ⊆ questions := by
  induction questions generalizing outbound with
  | nil => exact ⟨[], (List.append_nil _).symm, List.nil_subset _⟩
  | cons question questions ih =>
    rw [List.foldl_cons, requeue]
    split
    · obtain ⟨added, same, among⟩ := ih outbound
      exact ⟨added, same, List.subset_cons_of_subset _ among⟩
    · obtain ⟨added, same, among⟩ := ih (outbound ++ [question])
      refine ⟨question :: added, ?_, List.cons_subset_cons _ among⟩
      rw [same, List.append_assoc]
      rfl

/-- A client that takes a slot gets the questions to the slot besides what is queued. -/
theorem grows_connect (before : (c.slot s).client = some client) {call : CallId}
    (after : ((c.connect u call).slot s).client = some client)
    (asked : ∀ p ∈ c.pending, own p.question) :
    Grows caller s client own [] c (c.connect u call) := by
  refine ⟨after.trans before.symm, ?_⟩
  have released : Grows caller s client own [] c (c.release u (.error slotTaken)) :=
    grows_release c u _
  obtain ⟨added, requeued, among⟩ := exists_foldl_requeue (c.questionsTo u)
    ((c.release u (.error slotTaken)).slot u).outbound
  -- Only questions that are kept are queued again.
  have isOwn (item : Item) (_ : u = s) (member : Entry.own item ∈ added.map Entry.own) :
      own item := by
    obtain ⟨question, isAdded, same⟩ := List.mem_map.mp member
    obtain rfl := Entry.own.inj same
    obtain ⟨p, kept, rfl⟩ := List.mem_map.mp (List.mem_filter.mp (among isAdded)).1
    exact asked p (List.mem_reverse.mp kept)
  have items : (added.map Entry.own).map Entry.item = added := by
    rw [List.map_map]
    exact List.map_id added
  have noReplies : (added.map Entry.own).filterMap Entry.reply? = [] := by
    rw [List.filterMap_map]
    exact List.filterMap_eq_nil_iff.mpr fun _ _ => rfl
  have taken : Appends caller s client own
      (if u = s then (added.map Entry.own).filterMap Entry.reply? else [])
      (c.release u (.error slotTaken))
      ((c.release u (.error slotTaken)).modifySlot u fun state =>
        { state with
          client := some ⟨c.nextClient⟩
          clientBusy := none
          outbound := (c.questionsTo u).foldl requeue state.outbound }) := by
    refine .modifySlot (added.map Entry.own) isOwn ?_
    rw [items]
    exact requeued
  rw [noReplies, ite_self] at taken
  exact ((released.appends.trans taken).trans (.of_eq rfl)).trans (.send rfl)

/-- Whoever leaves a slot is not attached to it any longer. -/
theorem client_disconnect (attached : (c.slot s).client = some client) :
    ((c.disconnect s client).slot s).client = none := by
  rw [disconnect, if_neg (not_not_intro attached)]
  dsimp only
  have gone {d : Coordinator} (slots : d.slots = ((c.release s (.error clientGone)).modifySlot s
      fun state => { state with
        client := none, clientBusy := none, inbound := [], outbound := [] }).slots) :
      (d.slot s).client = none := by
    rw [slot, slots]
    exact congrArg SlotState.client (slot_modifySlot_self ..)
  split
  · split
    · exact gone (slots_failTop ..)
    · exact gone rfl
  · exact gone rfl

/-- The client stays, so whoever leaves is another one or leaves another slot. -/
theorem grows_disconnect (before : (c.slot s).client = some client) {who : ClientId}
    (after : ((c.disconnect u who).slot s).client = some client) :
    Grows caller s client own [] c (c.disconnect u who) := by
  have released : Grows caller s client own [] c (c.release u (.error clientGone)) :=
    grows_release c u _
  by_cases leaves : (c.slot u).client = some who
  · have other : u ≠ s := by
      rintro rfl
      rw [client_disconnect leaves] at after
      cases after
    have detached := released.andThen (grows_modifySlot_of_ne other fun state =>
      { state with client := none, clientBusy := none, inbound := [], outbound := [] })
    rw [disconnect, if_neg (not_not_intro leaves)]
    dsimp only
    split
    · split
      · exact detached.andThen (grows_failTop ..)
      · exact detached
    · exact detached
  · rw [disconnect, if_pos leaves]
    exact .refl c

/-- An event appends the reply that arrives with it, and what else it brings for the client. -/
theorem grows_serve {e : Event} (stays : e ≠ .shutdown)
    (before : (c.slot s).client = some client)
    (after : ((c.serve e).slot s).client = some client) :
    Grows caller s client (c.Own (.receive e)) (repliesTo s e) c (c.serve e) := by
  have output (text : String) : c.Own (.receive e) (outputItem text) := .inl ⟨text, rfl⟩
  have asked (p : Pending) (kept : p ∈ c.pending) : c.Own (.receive e) p.question :=
    .inr (.inr ⟨p, kept, rfl⟩)
  cases e with
  | submit item wait =>
    have now : c.Own (.receive (.submit item wait)) item := .inr (.inl ⟨wait, rfl⟩)
    cases wait with
    | false => exact grows_tell before output now
    | true => exact grows_ask before output now
  | executed item => exact grows_finish before output item
  | busy busy => exact .of_eq rfl rfl
  | call u who items call => exact grows_serveCall c u who items call
  | connect u call => exact grows_connect before after asked
  | disconnect u who => exact grows_disconnect before after
  | shutdown => exact absurd rfl stays

/-! ### Handing out -/

theorem grows_forward (c : Coordinator) :
    Grows caller s client own [] c c.forward := by
  rcases forward_eq c with same | ⟨u, item, inbound, same⟩
  · rw [same]
    exact .refl c
  · have taken : Grows caller s client own [] c { c with executing := u :: c.executing } :=
      .of_eq rfl rfl
    rw [same]
    exact (taken.andThen (grows_modifySlot rfl rfl)).andThen (grows_send rfl)

theorem grows_retryIfRequested (asked : ∀ p ∈ c.pending, own p.question) :
    Grows caller s client own [] c c.retryIfRequested := by
  have taken : Grows caller s client own [] c { c with retryRequested := false } := .of_eq rfl rfl
  rw [retryIfRequested]
  split
  · rw [retry]
    split
    · exact taken
    · split
      · exact taken
      · next top rest pending =>
        split
        · exact taken
        · split
          · exact taken.andThen (grows_failTop ..)
          · -- The innermost question is queued again, for whoever has the primary slot.
            have retried : Grows caller s client own [] c { c with
                retryRequested := false
                pending := { top with retried := true } :: rest } := .of_eq rfl rfl
            have isOwn (item : Item) (_ : SlotId.primary = s)
                (member : Entry.own item ∈ [Entry.own top.question]) : own item := by
              obtain rfl := Entry.own.inj (List.mem_singleton.mp member)
              exact asked top (by
                change c.pending = top :: rest at pending
                rw [pending]
                exact List.mem_cons_self)
            have again : Grows caller s client own (if SlotId.primary = s then [] else [])
                { c with retryRequested := false, pending := { top with retried := true } :: rest }
                (modifySlot { c with
                  retryRequested := false, pending := { top with retried := true } :: rest }
                  SlotId.primary fun state =>
                    { state with outbound := state.outbound ++ [top.question] }) :=
              grows_append [.own top.question] isOwn rfl rfl
            rw [ite_self] at again
            exact retried.andThen again
  · exact .refl c

/-- What is handed to the client is no longer queued. -/
theorem deliveries_handOver {call : CallId} (mine : caller call = (s, client)) :
    deliveries caller s client ((c.modifySlot s fun state =>
      { state with waiter := none, outbound := [], clientBusy := some c.busy }).send
        (.resolve call (.ok ⟨c.busy, (c.slot s).outbound⟩))) = deliveries caller s client c := by
  have taken : got caller s client [.resolve call (.ok ⟨c.busy, (c.slot s).outbound⟩)] =
      (c.slot s).outbound := by
    rw [got, List.flatMap_singleton]
    exact if_pos mine
  rw [deliveries, slot_send, slot_modifySlot_self, send, got_append, taken, List.append_nil]
  rfl

theorem grows_deliver (tidy : c.Tidy caller) (attached : (c.slot s).client = some client)
    (output : ∀ text, own (outputItem text)) (gone : CallId → Bool) (u : SlotId) :
    Grows caller s client own [] c (c.deliver gone u) := by
  rw [deliver]
  generalize flushed : (if u.isPrimary then c.flushOutput else c) = d
  obtain ⟨grows, tidy⟩ : Grows caller s client own [] c d ∧ d.Tidy caller := by
    rw [← flushed]
    split
    · exact ⟨grows_flushOutput attached output, tidy.flushOutput⟩
    · exact ⟨.refl c, tidy⟩
  have attached := grows.attached.trans attached
  split
  · exact grows
  · next call waiting =>
    split
    · exact grows.andThen (grows_modifySlot rfl rfl)
    · -- The call that waits is one of the client of its slot.
      obtain ⟨who, here, mine⟩ := tidy.waits u call waiting
      by_cases same : u = s
      · subst same
        obtain rfl : who = client := Option.some.inj (here.symm.trans attached)
        refine grows.andThen (.of_eq ?_ (deliveries_handOver mine))
        rw [slot_send, slot_modifySlot_self]
      · refine grows.andThen ((grows_modifySlot_of_ne same _).andThen (grows_send ?_))
        rw [got, List.flatMap_singleton]
        exact if_neg fun h => same (Prod.mk.inj (mine.symm.trans h)).1

/-- Handing out appends questions that are sent again, and output. -/
theorem grows_pump (tidy : c.Tidy caller) (attached : (c.slot s).client = some client)
    (gone : CallId → Bool) :
    Grows caller s client (c.Own (.pump gone)) [] c (c.pump gone) := by
  have output (text : String) : c.Own (.pump gone) (outputItem text) := .inl ⟨text, rfl⟩
  have forwarded : Grows caller s client (c.Own (.pump gone)) [] c c.forward :=
    grows_forward c
  have retried := forwarded.andThen (grows_retryIfRequested (c := c.forward) fun p kept =>
    .inr (.inr ⟨p, pending_forward c ▸ kept, rfl⟩))
  refine retried.andThen (.foldl
    (fun c => c.Tidy caller ∧ (c.slot s).client = some client) ?_ ?_ _
    ⟨tidy.forward.retryIfRequested, retried.attached.trans attached⟩)
  · intro d u inv
    have grows : Grows caller s client (c.Own (.pump gone)) [] d (d.deliver gone u) :=
      grows_deliver inv.1 inv.2 output gone u
    exact ⟨inv.1.deliver gone u, grows.attached.trans inv.2⟩
  · intro d u inv
    exact grows_deliver inv.1 inv.2 output gone u

end EngineLink.Coordinator
