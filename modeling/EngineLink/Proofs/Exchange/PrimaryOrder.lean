import EngineLink.Proofs.Exchange.Acts
import EngineLink.Proofs.Exchange.OutputChunks

/-!
# The order of what the primary client gets

As long as a client stays attached to the primary slot, it gets everything that the engine has for
the slot, in the order in which the coordinator has accepted it. Console output goes through a
buffer, so texts that follow each other may arrive as one item. A question may arrive again when the
client comes back without an answer.

## Main definitions

* `Coordinator.Mark`, `Coordinator.accepted` — what the engine has for the primary slot
* `Coordinator.Arrives` — items arrive in the order of marks
* `Coordinator.Comes` — the marks of a run
* `Coordinator.handed` — what the calls of a client have got
* `Coordinator.PrimarySide` — what matters about the primary slot

## Main results

* `Coordinator.inOrder_act` — one act adds its marks behind the others
* `Coordinator.arrives_in_order` — nothing is lost, duplicated or reordered
-/

namespace EngineLink.Coordinator

/-! ### Marks -/

/-- What there is for the primary client. -/
inductive Mark where
  /-- Console output of the engine. -/
  | text (text : String)
  /-- Another item of the engine. -/
  | item (item : Item)
  /-- A question that is sent again. -/
  | again (question : Item)

/-- Items that arrive in the order of some marks. Texts that follow each other may arrive as one
item, and empty texts do not arrive. -/
inductive Arrives : List Mark → List Item → Prop
  | nil : Arrives [] []
  | item {marks : List Mark} {items : List Item} (i : Item) (rest : Arrives marks items) :
      Arrives (.item i :: marks) (i :: items)
  | again {marks : List Mark} {items : List Item} (question : Item)
      (rest : Arrives marks items) : Arrives (.again question :: marks) (question :: items)
  | blank {marks : List Mark} {items : List Item} (rest : Arrives marks items) :
      Arrives (.text "" :: marks) items
  | output {marks : List Mark} {items : List Item} (texts : List String)
      (visible : String.join texts ≠ "") (rest : Arrives marks items) :
      Arrives (texts.map .text ++ marks) (outputItem (String.join texts) :: items)

variable {caller : CallId → SlotId × ClientId} {client : ClientId} {c d : Coordinator} {s : SlotId}
  {marks now later : List Mark} {items more : List Item} {text : String}

theorem Arrives.append (first : Arrives marks items)
    (next : Arrives later more) : Arrives (marks ++ later) (items ++ more) := by
  induction first with
  | nil => exact next
  | item i _ ih => exact ih.item i
  | again question _ ih => exact ih.again question
  | blank _ ih => exact ih.blank
  | output texts visible _ ih =>
    rw [List.append_assoc]
    exact ih.output texts visible

/-- Texts that are all empty do not arrive. -/
theorem arrives_of_join_eq {texts : List String} (empty : String.join texts = "") :
    Arrives (texts.map .text) [] := by
  induction texts with
  | nil => exact .nil
  | cons text texts ih =>
    rw [String.join_cons, String.append_eq_empty_iff] at empty
    rw [empty.1]
    exact (ih empty.2).blank

theorem arrives_items (items : List Item) : Arrives (items.map .item) items := by
  induction items with
  | nil => exact .nil
  | cons item items ih => exact ih.item item

/-! ### Collected output -/

/-- Some items have arrived, and the texts at the end of the marks have been collected. -/
def Flows (marks : List Mark) (items : List Item) (text : String) : Prop :=
  ∃ closed texts, marks = closed ++ texts.map .text ∧ Arrives closed items ∧
    String.join texts = text

/-- The item with the collected output, if there is any. -/
def buffered (b : OutputBuffer) : List Item := b.take.1.toList.map outputItem

namespace Flows

/-- Taking the collected output closes its texts. -/
theorem take {b : OutputBuffer} (h : Flows marks items b.text) :
    Flows marks (items ++ buffered b) b.take.2.text := by
  obtain ⟨closed, texts, rfl, arrives, joined⟩ := h
  refine ⟨closed ++ texts.map .text, [], (List.append_nil _).symm, arrives.append ?_, ?_⟩
  · by_cases empty : b.text = ""
    · rw [buffered, OutputBuffer.take_of_text_eq empty]
      exact arrives_of_join_eq (joined.trans empty)
    · rw [← joined] at empty
      have output := Arrives.output texts empty .nil
      rw [List.append_nil, joined] at output
      rw [joined] at empty
      rw [buffered, OutputBuffer.take_of_text_ne empty]
      exact output
  · rw [OutputBuffer.text_take, String.join_nil]

/-- What is no output comes when no output is collected. -/
theorem close (h : Flows marks items "") (arrives : Arrives now more) :
    Flows (marks ++ now) (items ++ more) "" := by
  obtain ⟨closed, texts, rfl, before, joined⟩ := h
  refine ⟨closed ++ texts.map .text ++ now, [], (List.append_nil _).symm, ?_, String.join_nil⟩
  have blank := before.append (arrives_of_join_eq joined)
  rw [List.append_nil] at blank
  exact blank.append arrives

/-- Everything has arrived when the collected output has. -/
theorem arrives {b : OutputBuffer} (h : Flows marks items b.text) :
    Arrives marks (items ++ buffered b) := by
  obtain ⟨closed, texts, rfl, arrives, joined⟩ := h.take
  have all := arrives.append (arrives_of_join_eq (joined.trans (OutputBuffer.text_take b)))
  rw [List.append_nil] at all
  exact all

/-- A text joins the collected output. -/
theorem collect (h : Flows marks items text) (more : String) :
    Flows (marks ++ [.text more]) items (text ++ more) := by
  obtain ⟨closed, texts, rfl, arrives, rfl⟩ := h
  refine ⟨closed, texts ++ [more], ?_, arrives, ?_⟩
  · rw [List.map_append, List.append_assoc]
    rfl
  · rw [String.join_append, OutputBuffer.join_singleton]

/-- Console output is collected, or goes out after what has been collected. -/
theorem push {b : OutputBuffer} (h : Flows marks items b.text) (more : String) :
    Flows (marks ++ [.text more]) (items ++ (b.push more).1.map outputItem)
      (b.push more).2.text := by
  have taken := h.take
  by_cases full : b.capacity < b.text.utf8ByteSize + more.utf8ByteSize
  · by_cases large : b.capacity < more.utf8ByteSize
    · -- The text goes out by itself, after what was collected.
      have visible : String.join [more] ≠ "" := by
        rw [OutputBuffer.join_singleton]
        exact OutputBuffer.ne_empty_of_lt_size large
      have output := Arrives.output [more] visible .nil
      rw [OutputBuffer.text_take] at taken
      rw [OutputBuffer.push_of_large large, OutputBuffer.text_take, List.map_append,
        ← List.append_assoc]
      have closed := taken.close output
      rw [OutputBuffer.join_singleton] at closed
      exact closed
    · rw [OutputBuffer.push_of_full full (Nat.not_lt.mp large)]
      exact taken.collect more
  · rw [OutputBuffer.push_of_fits (Nat.not_lt.mp full), List.map_nil, List.append_nil]
    exact h.collect more

end Flows

/-! ### The primary slot -/

/-- What the calls of a client on the primary slot have got. -/
def handed (caller : CallId → SlotId × ClientId) (client : ClientId) (sent : List Effect) :
    List Item :=
  sent.flatMap fun
    | .resolve call (.ok batch) =>
      if caller call = (SlotId.primary, client) then batch.items else []
    | _ => []

@[simp] theorem handed_append (sent more : List Effect) :
    handed caller client (sent ++ more) = handed caller client sent ++ handed caller client more :=
  List.flatMap_append

/-- What matters about the primary slot. -/
structure PrimarySide where
  client : Option ClientId
  /-- What the calls of the client have got, and what is queued for it. -/
  items : List Item
  stdout : OutputBuffer

/-- What matters about the primary slot. -/
def primarySide (caller : CallId → SlotId × ClientId) (client : ClientId) (c : Coordinator) :
    PrimarySide where
  client := (c.slot SlotId.primary).client
  items := handed caller client c.sent ++ (c.slot SlotId.primary).outbound
  stdout := c.stdout

theorem primarySide_modifySlot_of_ne (other : s ≠ SlotId.primary) (f : SlotState → SlotState) :
    primarySide caller client (c.modifySlot s f) = primarySide caller client c := by
  rw [primarySide, slot_modifySlot_of_ne c other.symm]
  rfl

/-- A change to a slot that leaves its client and the queue for it. -/
theorem primarySide_modifySlot {f : SlotState → SlotState}
    (attached : (f (c.slot s)).client = (c.slot s).client)
    (queued : (f (c.slot s)).outbound = (c.slot s).outbound) :
    primarySide caller client (c.modifySlot s f) = primarySide caller client c := by
  by_cases same : s = SlotId.primary
  · subst same
    rw [primarySide, slot_modifySlot_self, attached, queued]
    rfl
  · exact primarySide_modifySlot_of_ne same f

/-- Sending something that hands nothing to the client. -/
theorem primarySide_send {e : Effect} (quiet : handed caller client [e] = []) :
    primarySide caller client (c.send e) = primarySide caller client c := by
  rw [primarySide, send, handed_append, quiet, List.append_nil]
  rfl

@[simp] theorem primarySide_release (c : Coordinator) (s : SlotId) (status : Status) :
    primarySide caller client (c.release s (.error status)) = primarySide caller client c := by
  rw [release]
  split
  · rfl
  · rw [primarySide_send rfl]
    exact primarySide_modifySlot rfl rfl

theorem primarySide_pushOutbound_of_ne (other : s ≠ SlotId.primary) (item : Item) :
    primarySide caller client (c.pushOutbound s item) = primarySide caller client c := by
  rw [pushOutbound]
  split
  · rfl
  · exact primarySide_modifySlot_of_ne other _

theorem pushOutbound_of_attached (attached : (c.slot s).client = some client) (item : Item) :
    c.pushOutbound s item =
      c.modifySlot s fun state => { state with outbound := state.outbound ++ [item] } := by
  rw [pushOutbound, attached]
  rfl

theorem primarySide_pushOutbound (attached : (primarySide caller client c).client = some client)
    (item : Item) : primarySide caller client (c.pushOutbound SlotId.primary item) =
      { primarySide caller client c with
        items := (primarySide caller client c).items ++ [item] } := by
  change (c.slot SlotId.primary).client = some client at attached
  rw [pushOutbound_of_attached attached, primarySide, slot_modifySlot_self]
  exact congrArg (PrimarySide.mk _ · _) (List.append_assoc ..).symm

theorem primarySide_pushChunks (attached : (primarySide caller client c).client = some client)
    (chunks : List String) :
    primarySide caller client (chunks.foldl
      (fun c chunk => c.pushOutbound SlotId.primary (outputItem chunk)) c) =
        { primarySide caller client c with
          items := (primarySide caller client c).items ++ chunks.map outputItem } := by
  induction chunks generalizing c with
  | nil => exact congrArg (PrimarySide.mk _ · _) (List.append_nil _).symm
  | cons chunk chunks ih =>
    have pushed := primarySide_pushOutbound attached (outputItem chunk)
    rw [List.foldl_cons, ih (by rw [pushed]; exact attached), pushed]
    exact congrArg (PrimarySide.mk _ · _) (List.append_assoc ..)

theorem primarySide_write (attached : (primarySide caller client c).client = some client)
    (text : String) :
    primarySide caller client (c.write text) =
      { primarySide caller client c with
        items := (primarySide caller client c).items ++ (c.stdout.push text).1.map outputItem
        stdout := (c.stdout.push text).2 } :=
  primarySide_pushChunks (c := { c with stdout := (c.stdout.push text).2 }) attached _

theorem primarySide_flushOutput (attached : (primarySide caller client c).client = some client) :
    primarySide caller client c.flushOutput =
      { primarySide caller client c with
        items := (primarySide caller client c).items ++ buffered c.stdout
        stdout := c.stdout.take.2 } := by
  rw [flushOutput, buffered]
  by_cases empty : c.stdout.text = ""
  · rw [OutputBuffer.take_of_text_eq empty]
    exact congrArg (PrimarySide.mk _ · _) (List.append_nil _).symm
  · rw [OutputBuffer.take_of_text_ne empty]
    exact primarySide_pushOutbound (c := { c with stdout := { c.stdout with text := "" } })
      attached _

/-! ### What does not concern the primary slot -/

@[simp] theorem primarySide_answerFrom (answer : Item) (ps : List Pending) (c : Coordinator) :
    primarySide caller client (c.answerFrom answer ps) = primarySide caller client c := by
  induction ps generalizing c answer with
  | nil => rfl
  | cons top rest ih =>
    have first : primarySide caller client
        ({ c with pending := rest }.send (.wake (.answer answer))) =
          primarySide caller client c := primarySide_send rfl
    rw [answerFrom]
    split
    · exact first
    · split
      · exact (ih _ _).trans first
      · split
        · exact (ih _ _).trans first
        · exact first

@[simp] theorem primarySide_failTop (question : Item) (status : Status) (c : Coordinator) :
    primarySide caller client (c.failTop question status) = primarySide caller client c :=
  primarySide_answerFrom ..

theorem primarySide_receive (c : Coordinator) (s : SlotId) (item : Item) :
    primarySide caller client (c.receive s item) = primarySide caller client c := by
  rw [receive]
  split
  · rw [accept]
    split
    · rfl
    · split
      · exact primarySide_answerFrom ..
      · rfl
      · rfl
  · exact primarySide_modifySlot rfl rfl

theorem primarySide_foldl {α : Type} {f : Coordinator → α → Coordinator}
    (h : ∀ c x, primarySide caller client (f c x) = primarySide caller client c) (xs : List α)
    (c : Coordinator) :
    primarySide caller client (xs.foldl f c) = primarySide caller client c := by
  induction xs generalizing c with
  | nil => rfl
  | cons x xs ih => rw [List.foldl_cons, ih, h]

theorem primarySide_serveCall (c : Coordinator) (s : SlotId) (who : ClientId) (items : List Item)
    (call : CallId) :
    primarySide caller client (c.serveCall s who items call) = primarySide caller client c := by
  rw [serveCall]
  split
  · exact primarySide_send rfl
  · have waiting : primarySide caller client ((c.release s (.error superseded)).modifySlot s
        fun state => { state with waiter := some call }) = primarySide caller client c := by
      rw [primarySide_modifySlot rfl rfl, primarySide_release]
    split
    · exact waiting
    · rw [primarySide_foldl fun c item => primarySide_receive c s item]
      split
      · rw [renewRetry]
        split
        · exact waiting
        · exact waiting
      · exact waiting

theorem primarySide_connect (other : s ≠ SlotId.primary) (call : CallId) :
    primarySide caller client (c.connect s call) = primarySide caller client c := by
  have attached : primarySide caller client ((c.release s (.error slotTaken)).modifySlot s
      fun state =>
        { state with
          client := some ⟨c.nextClient⟩
          clientBusy := none
          outbound := (c.questionsTo s).foldl requeue state.outbound }) =
      primarySide caller client c := by
    rw [primarySide_modifySlot_of_ne other, primarySide_release]
  rw [connect, primarySide_send rfl]
  exact attached

/-- A client that is not the attached one is ignored. -/
theorem primarySide_disconnect (attached : (primarySide caller client c).client = some client)
    {who : ClientId} (other : ¬(s = SlotId.primary ∧ who = client)) :
    primarySide caller client (c.disconnect s who) = primarySide caller client c := by
  change (c.slot SlotId.primary).client = some client at attached
  rw [disconnect]
  split
  · rfl
  · next same =>
    -- Whoever is attached to the primary slot is the client, and it does not leave.
    have notPrimary : s ≠ SlotId.primary := by
      rintro rfl
      refine other ⟨rfl, ?_⟩
      rw [attached] at same
      exact (Option.some.inj (Decidable.not_not.mp same)).symm
    have detached : primarySide caller client ((c.release s (.error clientGone)).modifySlot s
        fun state =>
          { state with client := none, clientBusy := none, inbound := [], outbound := [] }) =
        primarySide caller client c := by
      rw [primarySide_modifySlot_of_ne notPrimary, primarySide_release]
    dsimp only
    split
    · split
      · rw [primarySide_failTop, detached]
      · exact detached
    · exact detached

theorem primarySide_forward (c : Coordinator) :
    primarySide caller client c.forward = primarySide caller client c := by
  rcases forward_eq c with same | ⟨s, item, inbound, same⟩
  · rw [same]
  · rw [same, primarySide_send rfl, primarySide_modifySlot rfl rfl]
    rfl

theorem primarySide_enqueue_of_ne {item : Item} (other : item.slot ≠ SlotId.primary) :
    primarySide caller client (c.enqueue item) = primarySide caller client c := by
  rw [enqueue, SlotId.isPrimary, if_neg (by simpa using other)]
  exact primarySide_pushOutbound_of_ne other item

/-- What is handed to the client is no longer queued. -/
theorem primarySide_handOver {call : CallId} (own : caller call = (SlotId.primary, client)) :
    primarySide caller client ((c.modifySlot SlotId.primary fun state =>
      { state with waiter := none, outbound := [], clientBusy := some c.busy }).send
        (.resolve call (.ok ⟨c.busy, (c.slot SlotId.primary).outbound⟩))) =
      primarySide caller client c := by
  have got : handed caller client
      [.resolve call (.ok ⟨c.busy, (c.slot SlotId.primary).outbound⟩)] =
        (c.slot SlotId.primary).outbound := by
    rw [handed, List.flatMap_singleton]
    exact if_pos own
  rw [primarySide, slot_send, slot_modifySlot_self, send, handed_append, got, List.append_nil]
  rfl

/-- What is handed to other calls is not for the client. -/
theorem handed_of_ne {call : CallId} {batch : Batch}
    (other : caller call ≠ (SlotId.primary, client)) :
    handed caller client [.resolve call (.ok batch)] = [] := by
  rw [handed, List.flatMap_singleton]
  exact if_neg other

/-! ### What is accepted for the primary slot -/

/-- Console output goes through the buffer unless the engine waits for an answer to it. -/
def markOf (item : Item) (wait : Bool) : Mark :=
  match wait, item.kind with
  | false, .writeOut text => .text text
  | _, _ => .item item

/-- What the coordinator accepts for the primary slot when it receives an event. -/
def accepted : Event → List Mark
  | .submit item wait => if item.slot.isPrimary then [markOf item wait] else []
  | .executed item => if item.slot.isPrimary then [.item item] else []
  | _ => []

/-- What an act adds to what there is for the primary client. When requests are handed out, the
innermost question may be sent again. -/
def Adds (c : Coordinator) : Act → List Mark → Prop
  | .receive e, marks => marks = if c.running then accepted e else []
  | .pump _, marks => marks = [] ∨ ∃ top ∈ c.pending.head?,
      top.question.slot = SlotId.primary ∧ marks = [.again top.question]

/-- What comes during a run. -/
inductive Comes : Coordinator → List Act → List Mark → Prop
  | nil {c : Coordinator} : Comes c [] []
  | cons {c : Coordinator} {a : Act} {run : List Act} {now later : List Mark}
      (adds : c.Adds a now) (rest : Comes (c.act a) run later) :
      Comes c (a :: run) (now ++ later)

/-- A client stays attached to the primary slot. -/
def Stays (client : ClientId) : Act → Prop
  | .receive (.connect slot _) => slot ≠ SlotId.primary
  | .receive (.disconnect slot who) => ¬(slot = SlotId.primary ∧ who = client)
  | .receive .shutdown => False
  | _ => True

/-- The client has got or will get what there is for it. -/
structure InOrder (caller : CallId → SlotId × ClientId) (client : ClientId) (marks : List Mark)
    (c : Coordinator) : Prop where
  tidy : c.Tidy caller
  attached : (primarySide caller client c).client = some client
  flows : Flows marks (primarySide caller client c).items (primarySide caller client c).stdout.text

/-- An idle client has nothing to get, not even output. -/
theorem text_eq_of_primaryIsIdle (idle : c.primaryIsIdle = true) : c.stdout.text = "" := by
  simp only [primaryIsIdle, isDeliverable, SlotId.isPrimary, OutputBuffer.isEmpty,
    Bool.and_eq_true, Bool.not_eq_true', Bool.or_eq_false_iff, beq_self_eq_true,
    Bool.true_and, Bool.not_eq_false'] at idle
  exact String.isEmpty_iff.mp idle.2.2.1

theorem pending_forward (c : Coordinator) : c.forward.pending = c.pending := by
  rw [forward]
  split
  · rfl
  · split <;> rfl

namespace InOrder

theorem of_primarySide_eq (h : InOrder caller client marks c) (tidy : d.Tidy caller)
    (same : primarySide caller client d = primarySide caller client c) :
    InOrder caller client marks d := by
  refine ⟨tidy, ?_, ?_⟩
  · rw [same]
    exact h.attached
  · rw [same]
    exact h.flows

theorem of_nothing (h : InOrder caller client marks c) (nothing : now = [])
    (tidy : d.Tidy caller) (same : primarySide caller client d = primarySide caller client c) :
    InOrder caller client (marks ++ now) d := by
  rw [nothing, List.append_nil]
  exact h.of_primarySide_eq tidy same

/-- Taking out the collected output. -/
theorem flushOutput (h : InOrder caller client marks c) :
    InOrder caller client marks c.flushOutput ∧
      (primarySide caller client c.flushOutput).stdout.text = "" := by
  have flushed := primarySide_flushOutput h.attached
  refine ⟨⟨h.tidy.flushOutput, ?_, ?_⟩, ?_⟩
  · rw [flushed]
    exact h.attached
  · rw [flushed]
    exact h.flows.take
  · rw [flushed]
    exact OutputBuffer.text_take _

/-- An item that is no output is queued when no output is collected. -/
theorem pushOutbound (h : InOrder caller client marks c)
    (none : (primarySide caller client c).stdout.text = "") {item : Item}
    (arrives : Arrives now [item]) :
    InOrder caller client (marks ++ now) (c.pushOutbound SlotId.primary item) := by
  have pushed := primarySide_pushOutbound h.attached item
  refine ⟨h.tidy.pushOutbound _ _, ?_, ?_⟩
  · rw [pushed]
    exact h.attached
  · have flows := h.flows
    rw [none] at flows
    rw [pushed, none]
    exact flows.close arrives

theorem enqueue (h : InOrder caller client marks c) (item : Item) :
    InOrder caller client (marks ++ if item.slot.isPrimary then [.item item] else [])
      (c.enqueue item) := by
  by_cases primary : item.slot = SlotId.primary
  · have isPrimary : item.slot.isPrimary = true := beq_iff_eq.mpr primary
    rw [Coordinator.enqueue, if_pos isPrimary, if_pos isPrimary, primary]
    obtain ⟨flushed, none⟩ := h.flushOutput
    exact flushed.pushOutbound none (.item item .nil)
  · rw [if_neg (by simpa [SlotId.isPrimary] using primary), List.append_nil]
    exact h.of_primarySide_eq (h.tidy.enqueue item) (primarySide_enqueue_of_ne primary)

theorem write (h : InOrder caller client marks c) (text : String) :
    InOrder caller client (marks ++ [.text text]) (c.write text) := by
  have written := primarySide_write h.attached text
  refine ⟨h.tidy.write text, ?_, ?_⟩
  · rw [written]
    exact h.attached
  · rw [written]
    exact h.flows.push text

theorem tell (h : InOrder caller client marks c) (item : Item) :
    InOrder caller client (marks ++ accepted (.submit item false)) (c.tell item) := by
  have queued := h.enqueue item
  rw [Coordinator.tell, accepted]
  unfold markOf
  cases primary : item.slot.isPrimary with
  | false =>
    rw [primary] at queued
    exact queued
  | true =>
    rw [primary] at queued
    cases item.kind with
    | writeOut text => exact h.write text
    | _ => exact queued

theorem ask (h : InOrder caller client marks c) (item : Item) :
    InOrder caller client (marks ++ accepted (.submit item true)) (c.ask item) := by
  have attached : (c.slot SlotId.primary).client = some client := h.attached
  have asked : InOrder caller client marks { c with pending := ⟨item, false⟩ :: c.pending } :=
    h.of_primarySide_eq (h.tidy.of_slots_eq rfl) rfl
  rw [Coordinator.ask]
  split
  · next nobody =>
    -- The question is not for the primary slot, where the client is attached.
    have other : item.slot ≠ SlotId.primary := by
      intro primary
      rw [Bool.and_eq_true, primary] at nobody
      have none : (c.slot SlotId.primary).client.isNone = true := nobody.1
      rw [attached] at none
      cases none
    rw [accepted, SlotId.isPrimary, if_neg (by simpa using other), List.append_nil]
    exact asked.of_primarySide_eq (asked.tidy.of_slots_eq (slots_failTop ..))
      (primarySide_failTop ..)
  · exact asked.enqueue item

theorem finish (h : InOrder caller client marks c) (item : Item) :
    InOrder caller client (marks ++ accepted (.executed item)) (c.finish item) := by
  have ended : InOrder caller client marks { c with executing := c.executing.tail } :=
    h.of_primarySide_eq (h.tidy.of_slots_eq rfl) rfl
  have free := ended.of_primarySide_eq (ended.tidy.modifySlot_of_eq (s := item.slot)
    (f := fun state => { state with executing := false }) rfl rfl) (primarySide_modifySlot rfl rfl)
  exact free.enqueue item

/-- Receiving an event adds what is accepted with it. -/
theorem handle (h : InOrder caller client marks c) {e : Event}
    (own : CallOwned caller (.receive e)) (stays : Stays client (.receive e)) :
    InOrder caller client (marks ++ if c.running then accepted e else []) (c.handle e) := by
  have tidy := h.tidy.handle own
  rw [Coordinator.handle] at tidy ⊢
  split
  · next running =>
    rw [if_pos running] at tidy
    cases e with
    | submit item wait =>
      cases wait with
      | false => exact h.tell item
      | true => exact h.ask item
    | executed item => exact h.finish item
    | shutdown => exact stays.elim
    | busy busy => exact h.of_nothing rfl tidy rfl
    | call slot who items call => exact h.of_nothing rfl tidy (primarySide_serveCall ..)
    | connect slot call => exact h.of_nothing rfl tidy (primarySide_connect stays call)
    | disconnect slot who => exact h.of_nothing rfl tidy (primarySide_disconnect h.attached stays)
  · next stopped =>
    rw [if_neg stopped] at tidy
    refine h.of_nothing rfl tidy ?_
    cases e with
    | call slot who items call => exact primarySide_send rfl
    | connect slot call => exact primarySide_send rfl
    | _ => rfl

/-- A question is sent again only when there is nothing else for the client. -/
theorem retryIfRequested (h : InOrder caller client marks c) (gone : CallId → Bool) :
    ∃ now, c.Adds (.pump gone) now ∧ InOrder caller client (marks ++ now) c.retryIfRequested := by
  have unchanged {d : Coordinator} (tidy : d.Tidy caller)
      (same : primarySide caller client d = primarySide caller client c) :
      ∃ now, c.Adds (.pump gone) now ∧ InOrder caller client (marks ++ now) d :=
    ⟨[], .inl rfl, h.of_nothing rfl tidy same⟩
  have taken : ({ c with retryRequested := false } : Coordinator).Tidy caller :=
    h.tidy.of_slots_eq rfl
  rw [Coordinator.retryIfRequested]
  split
  · rw [retry]
    split
    · exact unchanged taken rfl
    · next idle =>
      split
      · exact unchanged taken rfl
      · next top rest pending =>
        split
        · exact unchanged taken rfl
        · next primary =>
          split
          · exact unchanged (taken.of_slots_eq (slots_failTop ..)) (primarySide_failTop ..)
          · have innermost : c.pending.head? = some top := congrArg List.head? pending
            have slot : top.question.slot = SlotId.primary := by
              simpa [SlotId.isPrimary] using primary
            refine ⟨[.again top.question], .inr ⟨top, innermost, slot, rfl⟩, ?_⟩
            have retried : InOrder caller client marks { c with
                retryRequested := false
                pending := { top with retried := true } :: rest } :=
              h.of_primarySide_eq (h.tidy.of_slots_eq rfl) rfl
            -- The client is idle, so nothing has been collected that would have to come first.
            have none : c.stdout.text = "" := by
              rw [Bool.not_eq_true, Bool.not_eq_false', Bool.and_eq_true] at idle
              exact text_eq_of_primaryIsIdle idle.2
            have pushed := retried.pushOutbound none (.again top.question .nil)
            rw [pushOutbound_of_attached retried.attached] at pushed
            exact pushed
  · exact unchanged h.tidy rfl

theorem deliver (h : InOrder caller client marks c) (gone : CallId → Bool) (s : SlotId) :
    InOrder caller client marks (c.deliver gone s) := by
  rw [Coordinator.deliver]
  generalize flushed : (if s.isPrimary then c.flushOutput else c) = d
  have inOrder : InOrder caller client marks d := by
    rw [← flushed]
    split
    · exact h.flushOutput.1
    · exact h
  split
  · exact inOrder
  · next call waiting =>
    split
    · exact inOrder.of_primarySide_eq (inOrder.tidy.modifySlot_of_waiter_none rfl)
        (primarySide_modifySlot rfl rfl)
    · -- The call that waits is one of the client of its slot.
      obtain ⟨who, attached, own⟩ := inOrder.tidy.waits s call waiting
      refine inOrder.of_primarySide_eq ((inOrder.tidy.modifySlot_of_waiter_none rfl).send _) ?_
      by_cases primary : s = SlotId.primary
      · subst primary
        obtain rfl : who = client := Option.some.inj (attached.symm.trans inOrder.attached)
        exact primarySide_handOver own
      · rw [primarySide_send (handed_of_ne ?_), primarySide_modifySlot_of_ne primary]
        rw [own]
        exact fun same => primary (Prod.mk.inj same).1

theorem foldl_deliver (h : InOrder caller client marks c) (gone : CallId → Bool)
    (ready : List SlotId) :
    InOrder caller client marks (ready.foldl (Coordinator.deliver gone) c) := by
  induction ready generalizing c with
  | nil => exact h
  | cons s ready ih => exact ih (h.deliver gone s)

/-- Handing out adds at most a copy of a question. -/
theorem pump (h : InOrder caller client marks c) (gone : CallId → Bool) :
    ∃ now, c.Adds (.pump gone) now ∧ InOrder caller client (marks ++ now) (c.pump gone) := by
  have forwarded : InOrder caller client marks c.forward :=
    h.of_primarySide_eq h.tidy.forward (primarySide_forward c)
  obtain ⟨now, adds, retried⟩ := forwarded.retryIfRequested gone
  refine ⟨now, ?_, ?_⟩
  · rw [Adds] at adds ⊢
    rw [pending_forward] at adds
    exact adds
  · exact retried.foldl_deliver gone _

theorem act (h : InOrder caller client marks c) {a : Act} (own : CallOwned caller a)
    (stays : Stays client a) :
    ∃ now, c.Adds a now ∧ InOrder caller client (marks ++ now) (c.act a) := by
  cases a with
  | receive e => exact ⟨_, rfl, h.handle own stays⟩
  | pump gone =>
    rw [Coordinator.act]
    split
    · exact h.pump gone
    · exact ⟨[], .inl rfl, h.of_nothing rfl h.tidy rfl⟩

/-- A run adds what comes during the run. -/
theorem acts (h : InOrder caller client marks c) {run : List Act}
    (own : ∀ a ∈ run, CallOwned caller a) (stays : ∀ a ∈ run, Stays client a) :
    ∃ now, Comes c run now ∧ InOrder caller client (marks ++ now) (c.acts run) := by
  induction run generalizing c marks with
  | nil => exact ⟨[], .nil, h.of_nothing rfl h.tidy rfl⟩
  | cons a run ih =>
    rw [List.forall_mem_cons] at own stays
    obtain ⟨now, adds, next⟩ := h.act own.1 stays.1
    obtain ⟨later, comes, last⟩ := ih next own.2 stays.2
    refine ⟨now ++ later, .cons adds comes, ?_⟩
    rw [← List.append_assoc]
    exact last

end InOrder

/-! ### Runs -/

/-- In a run in which a client stays attached to the primary slot, what its calls get, then what is
queued for it, then what output is collected, is what had been queued and collected before, followed
by what the coordinator accepts from the engine for this slot, in this order. (What has been sent
before the run does not matter for it.) -/
theorem arrives_in_order {capacity : Nat} {before run : List Act}
    (own : ∀ a ∈ before ++ run, CallOwned caller a)
    (reached : (ofCapacity capacity).acts before = c)
    (attached : (c.slot SlotId.primary).client = some client)
    (stays : ∀ a ∈ run, Stays client a)
    (result : { c with sent := [] }.acts run = d) :
    ∃ marks, Comes { c with sent := [] } run marks ∧
      Arrives ((c.slot SlotId.primary).outbound.map .item ++ .text c.stdout.text :: marks)
        (handed caller client d.sent ++ (d.slot SlotId.primary).outbound ++ buffered d.stdout) := by
  rw [List.forall_mem_append] at own
  -- At the start, what is queued has arrived, and the collected output is the last text.
  have start : InOrder caller client
      ((c.slot SlotId.primary).outbound.map .item ++ [.text c.stdout.text])
      { c with sent := [] } := by
    refine ⟨?_, attached, (c.slot SlotId.primary).outbound.map .item, [c.stdout.text], rfl, ?_, ?_⟩
    · rw [← reached]
      exact ((tidy_ofCapacity caller capacity).acts own.1).of_slots_eq rfl
    · exact arrives_items _
    · rw [String.join_cons, String.join_nil, String.append_empty]
      rfl
  obtain ⟨marks, comes, final⟩ := start.acts own.2 stays
  have all := final.flows.arrives
  rw [List.append_assoc, List.singleton_append, result] at all
  exact ⟨marks, comes, all⟩

/-- The engine tells the primary client something. -/
def toldOutput (text : String) : Act :=
  .receive (.submit (.new SlotId.primary (.writeOut text)) false)

/-- The engine writes a text in two parts and asks a question; the first call of the client goes
away, and the third one asks for the question again. -/
def outputRun : List Act :=
  [toldOutput "hel", .receive (.call SlotId.primary ⟨1⟩ [] 1), toldOutput "lo",
    .receive (.submit { Item.new SlotId.primary (.consoleRead "> " true) with id := some 1 } true),
    .pump (· == 1), .receive (.call SlotId.primary ⟨1⟩ [] 2), .pump fun _ => false,
    .receive (.call SlotId.primary ⟨1⟩ [] 3), .pump fun _ => false, toldOutput "!"]

theorem arrives_in_order_output :
    ∃ c d marks, (ofCapacity 64).acts [.receive (.connect SlotId.primary 0)] = c ∧
      { c with sent := [] }.acts outputRun = d ∧
      (handed (fun _ => (SlotId.primary, ⟨1⟩)) ⟨1⟩ d.sent).map Item.id = [none, some 1, some 1] ∧
      Comes { c with sent := [] } outputRun marks ∧
      Arrives ((c.slot SlotId.primary).outbound.map .item ++ .text c.stdout.text :: marks)
        (handed (fun _ => (SlotId.primary, ⟨1⟩)) ⟨1⟩ d.sent ++
          (d.slot SlotId.primary).outbound ++ buffered d.stdout) := by
  have own : ∀ a ∈ [.receive (.connect SlotId.primary 0)] ++ outputRun,
      CallOwned (fun _ => (SlotId.primary, ⟨1⟩)) a := by
    simp [CallOwned, outputRun, toldOutput]
  have attached : (((ofCapacity 64).acts [.receive (.connect SlotId.primary 0)]).slot
      SlotId.primary).client = some ⟨1⟩ := rfl
  have stays : ∀ a ∈ outputRun, Stays ⟨1⟩ a := by
    simp [Stays, outputRun, toldOutput]
  obtain ⟨marks, comes, arrives⟩ := arrives_in_order own rfl attached stays rfl
  exact ⟨_, _, marks, rfl, rfl, rfl, comes, arrives⟩

end EngineLink.Coordinator
