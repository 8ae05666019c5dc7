import EngineLink.Exchange.OutputBuffer
import EngineLink.Exchange.SlotTable

/-!
# The coordinator

The coordinator alone decides about order. It receives events from the engine and from clients one
after another, keeps the questions of the engine and the queues of all slots, and sends answers and
requests to the engine and batches to the calls of clients.

The engine can be asked to execute a request of a client while it waits for an answer, and can then
ask a question of its own. The questions that wait for answers therefore form a stack. An answer to
a question that is not the innermost one is held back until the question becomes the innermost.

## Main definitions

* `Event`, `Effect` — what the coordinator receives and what it sends
* `Coordinator` — its state
* `Coordinator.handle` — receive one event
* `Coordinator.pump` — hand out what can be handed out
* `Coordinator.turn` — receive a group of events and hand out
-/

namespace EngineLink

/-- What the coordinator receives. -/
inductive Event where
  /-- The engine tells something or asks a question. -/
  | submit (item : Item) (wait : Bool)
  /-- The engine has executed a request. -/
  | executed (item : Item)
  /-- The engine becomes busy or free. -/
  | busy (busy : Bool)
  /-- A client submits items and waits for others. -/
  | call (slot : SlotId) (client : ClientId) (items : List Item) (call : CallId)
  /-- A client wants to be attached to a slot. -/
  | connect (slot : SlotId) (call : CallId)
  | disconnect (slot : SlotId) (client : ClientId)
  | shutdown

/-- What the engine gets while it waits. -/
inductive Wake where
  | answer (item : Item)
  /-- A request of a client to execute. -/
  | execute (item : Item)

/-- What the coordinator sends. -/
inductive Effect where
  | wake (wake : Wake)
  /-- The result of a call. -/
  | resolve (call : CallId) (result : Except Status Batch)
  /-- The result of attaching to a slot. -/
  | attach (call : CallId) (result : Except Status ClientId)

/-- A question of the engine that waits for its answer. -/
structure Pending where
  question : Item
  /-- Whether it has been sent again since the last submission of the client. -/
  retried : Bool := false

/-- The state of the coordinator. -/
structure Coordinator where
  /-- Whether events are still served. -/
  running : Bool := true
  slots : SlotTable := {}
  /-- The questions that wait for answers, the innermost first. -/
  pending : List Pending := []
  /-- Answers to questions that are not the innermost. -/
  stash : List (RequestId × Item) := []
  /-- The slots whose requests the engine is executing, the innermost first. -/
  executing : List SlotId := []
  /-- Console output for the primary slot. -/
  stdout : OutputBuffer
  /-- Whether the engine is busy. -/
  busy : Bool := false
  /-- Whether the primary client came back without an answer. -/
  retryRequested : Bool := false
  /-- The identity of the next client. -/
  nextClient : Nat := 1
  /-- What has been sent, in order. -/
  sent : List Effect := []

namespace Coordinator

/-- A coordinator that has not received anything. -/
def ofCapacity (stdoutCapacity : Nat) : Coordinator := { stdout := .ofCapacity stdoutCapacity }

/-- The state of a slot. -/
def slot (c : Coordinator) (s : SlotId) : SlotState := c.slots.get s

/-- Change the state of a slot. -/
def modifySlot (c : Coordinator) (s : SlotId) (f : SlotState → SlotState) : Coordinator :=
  { c with slots := c.slots.set s (f (c.slot s)) }

/-- Send something. -/
def send (c : Coordinator) (e : Effect) : Coordinator := { c with sent := c.sent ++ [e] }

/-- End the waiting call of a slot, if there is one. -/
def release (c : Coordinator) (s : SlotId) (result : Except Status Batch) : Coordinator :=
  match (c.slot s).waiter with
  | none => c
  | some call =>
    (c.modifySlot s fun state => { state with waiter := none }).send (.resolve call result)

/-! ### Queues of items for clients -/

/-- An item with console output. -/
def outputItem (text : String) : Item := .new SlotId.primary (.writeOut text)

/-- Queue an item for a slot. Without a client it is dropped. -/
def pushOutbound (c : Coordinator) (s : SlotId) (item : Item) : Coordinator :=
  if (c.slot s).client.isNone then c
  else c.modifySlot s fun state => { state with outbound := state.outbound ++ [item] }

/-- Queue the collected console output. -/
def flushOutput (c : Coordinator) : Coordinator :=
  match c.stdout.take with
  | (none, _) => c
  | (some text, stdout) => { c with stdout }.pushOutbound SlotId.primary (outputItem text)

/-- Queue an item behind the console output that came before it. -/
def enqueue (c : Coordinator) (item : Item) : Coordinator :=
  (if item.slot.isPrimary then c.flushOutput else c).pushOutbound item.slot item

/-- Collect console output, and queue what does not fit. -/
def write (c : Coordinator) (text : String) : Coordinator :=
  let (chunks, stdout) := c.stdout.push text
  chunks.foldl (fun c chunk => c.pushOutbound SlotId.primary (outputItem chunk)) { c with stdout }

/-! ### Answers -/

/-- The cancellation of a question whose client went away. -/
def clientGone : Status := .cancel Status.Code.disconnected "client disconnected"

/-- The cancellation of a question to a slot without a client. -/
def nobodyThere : Status := .cancel Status.Code.disconnected "no client attached"

/-- The failure of a question that stays without an answer. -/
def unanswered : Status :=
  .error Status.Code.unanswered "request was not answered by the client"

/-- The end of a call that a newer one replaces. -/
def superseded : Status :=
  .cancel Status.Code.cancelled "superseded by a newer call on the same slot"

/-- The end of a call whose slot another client takes. -/
def slotTaken : Status := .cancel Status.Code.disconnected "another client attached to this slot"

/-- The answer that is held back for a question. -/
def stashed? (c : Coordinator) (question : Item) : Option (RequestId × Item) := do
  let id ← question.id
  return (id, ← c.stash.lookup id)

/-- Answer the innermost of the given questions, and those below it that can be answered at once:
because their answer has been held back, or because they are nested questions to a primary slot
without a client. -/
def answerFrom (c : Coordinator) (answer : Item) : List Pending → Coordinator
  | [] => c
  | _ :: rest =>
    let c := { c with pending := rest }.send (.wake (.answer answer))
    match rest.head? with
    | none => c
    | some top =>
      match c.stashed? top.question with
      | some (id, held) => answerFrom { c with stash := c.stash.filter (·.1 != id) } held rest
      | none =>
        if top.question.slot.isPrimary && 1 < rest.length
            && (c.slot SlotId.primary).client.isNone then
          answerFrom c (top.question.answered (.status clientGone)) rest
        else c

/-- Answer the innermost question. -/
def answerTop (c : Coordinator) (answer : Item) : Coordinator := c.answerFrom answer c.pending

/-- Answer the innermost question with a status. -/
def failTop (c : Coordinator) (question : Item) (status : Status) : Coordinator :=
  c.answerTop (question.answered (.status status))

/-- Hold back an answer, in place of an earlier one to the same question. -/
def holdBack (c : Coordinator) (id : RequestId) (answer : Item) : Coordinator :=
  { c with stash := (id, answer) :: c.stash.filter (·.1 != id) }

/-- The place of a question in the stack: the outermost one with the given number. -/
def depthOf? (c : Coordinator) (id : RequestId) : Option Nat :=
  (c.pending.reverse.findIdx? (·.question.id == some id)).map (c.pending.length - 1 - ·)

/-- Take an answer from a client. Answers to no question are dropped. -/
def accept (c : Coordinator) (answer : Item) : Coordinator :=
  match answer.id with
  | none => c
  | some id =>
    match c.depthOf? id with
    | some 0 => c.answerTop answer
    | some _ => c.holdBack id answer
    | none => c

/-! ### Events -/

/-- The engine tells something. -/
def tell (c : Coordinator) (item : Item) : Coordinator :=
  match item.slot.isPrimary, item.kind with
  | true, .writeOut text => c.write text
  | _, _ => c.enqueue item

/-- The engine asks a question. Only the outermost question can wait for a client to come. -/
def ask (c : Coordinator) (item : Item) : Coordinator :=
  let c := { c with pending := ⟨item, false⟩ :: c.pending }
  if (c.slot item.slot).client.isNone && (!item.slot.isPrimary || 1 < c.pending.length) then
    c.failTop item nobodyThere
  else c.enqueue item

/-- The engine has executed a request. -/
def finish (c : Coordinator) (item : Item) : Coordinator :=
  ({ c with executing := c.executing.tail }.modifySlot item.slot fun state =>
    { state with executing := false }).enqueue item

/-- The primary client is active, so the innermost question may be sent again once more. -/
def renewRetry (c : Coordinator) : Coordinator :=
  match c.pending with
  | [] => c
  | top :: rest => { c with pending := { top with retried := false } :: rest }

/-- Take an item from a client: an answer, or a request to execute. -/
def receive (c : Coordinator) (s : SlotId) (item : Item) : Coordinator :=
  let item := { item with slot := s }
  if item.isAnswered then c.accept item
  else c.modifySlot s fun state => { state with inbound := state.inbound ++ [item] }

/-- A client calls. A call without items on the primary slot asks for open questions again. -/
def serveCall (c : Coordinator) (s : SlotId) (client : ClientId) (items : List Item)
    (call : CallId) : Coordinator :=
  if (c.slot s).client ≠ some client then c.send (.resolve call (.error .disconnected))
  else
    let c := c.release s (.error superseded)
    let c := c.modifySlot s fun state => { state with waiter := some call }
    if items.isEmpty then { c with retryRequested := c.retryRequested || s.isPrimary }
    else
      let c := if s.isPrimary then c.renewRetry else c
      items.foldl (·.receive s ·) c

/-- The open questions to a slot, the outermost first. -/
def questionsTo (c : Coordinator) (s : SlotId) : List Item :=
  (c.pending.reverse.map (·.question)).filter (·.slot == s)

/-- Queue a question, unless an item with its number is queued already. -/
def requeue (outbound : List Item) (question : Item) : List Item :=
  if outbound.any (·.id == question.id) then outbound else outbound ++ [question]

/-- Attach a new client to a slot. It gets the open questions of the slot. -/
def connect (c : Coordinator) (s : SlotId) (call : CallId) : Coordinator :=
  let client : ClientId := ⟨c.nextClient⟩
  let questions := c.questionsTo s
  let c := c.release s (.error slotTaken)
  let c := c.modifySlot s fun state =>
    { state with
      client := some client
      clientBusy := none
      outbound := questions.foldl requeue state.outbound }
  { c with nextClient := c.nextClient + 1 }.send (.attach call (.ok client))

/-- Detach a client. A client that is not the attached one is ignored. -/
def disconnect (c : Coordinator) (s : SlotId) (client : ClientId) : Coordinator :=
  if (c.slot s).client ≠ some client then c
  else
    let c := c.release s (.error clientGone)
    let c := c.modifySlot s fun state =>
      { state with client := none, clientBusy := none, inbound := [], outbound := [] }
    match c.pending with
    | top :: _ :: _ =>
      if s.isPrimary && top.question.slot.isPrimary then c.failTop top.question clientGone else c
    | _ => c

/-- Release the waiting call of a slot at the end, with all items that are queued for it. -/
def releaseLast (c : Coordinator) (s : SlotId) : Coordinator :=
  match (c.slot s).outbound with
  | [] => c.release s (.error .stopped)
  | outbound =>
    if (c.slot s).waiter.isNone then c
    else (c.release s (.ok ⟨c.busy, outbound⟩)).modifySlot s fun state =>
      { state with outbound := [] }

/-- Stop serving events. -/
def stop (c : Coordinator) : Coordinator :=
  let c := { c with running := false }.flushOutput
  (c.slots.filter fun _ _ => true).foldl releaseLast c

/-- Receive an event after the end: calls are refused and all else is dropped. -/
def refuse (c : Coordinator) : Event → Coordinator
  | .call _ _ _ call => c.send (.resolve call (.error .stopped))
  | .connect _ call => c.send (.attach call (.error .stopped))
  | _ => c

/-- Serve an event. -/
def serve (c : Coordinator) : Event → Coordinator
  | .submit item true => c.ask item
  | .submit item false => c.tell item
  | .executed item => c.finish item
  | .busy busy => { c with busy }
  | .call slot client items call => c.serveCall slot client items call
  | .connect slot call => c.connect slot call
  | .disconnect slot client => c.disconnect slot client
  | .shutdown => c.stop

/-- Receive an event. -/
def handle (c : Coordinator) (e : Event) : Coordinator :=
  if c.running then c.serve e else c.refuse e

/-! ### Handing out -/

/-- Whether the engine waits with nothing of its own running. -/
def engineWaits (c : Coordinator) : Bool := c.executing.length < c.pending.length

/-- Whether a request of a slot can be executed. -/
def canExecute (_ : SlotId) (state : SlotState) : Bool :=
  !state.executing && !state.inbound.isEmpty

/-- Hand the next request of the lowest possible slot to the engine, if the engine waits. -/
def forward (c : Coordinator) : Coordinator :=
  if !c.engineWaits then c
  else
    match c.slots.find? canExecute with
    | some (s, state@{ inbound := item :: inbound, .. }) =>
      { c with
        slots := c.slots.set s { state with executing := true, inbound }
        executing := s :: c.executing }.send (.wake (.execute item))
    | _ => c

/-- Whether there is something to deliver to a slot. -/
def isDeliverable (c : Coordinator) (s : SlotId) (state : SlotState) : Bool :=
  !state.outbound.isEmpty
    || (s.isPrimary && (!c.stdout.isEmpty || state.clientBusy != some c.busy))

/-- Whether the primary client waits and there is nothing to do for it. -/
def primaryIsIdle (c : Coordinator) : Bool :=
  let state := c.slot SlotId.primary
  state.waiter.isSome && state.inbound.isEmpty && !state.executing
    && !c.isDeliverable SlotId.primary state

/-- Send the innermost question to the primary client again. The second time it fails. -/
def retry (c : Coordinator) : Coordinator :=
  if !(c.engineWaits && c.primaryIsIdle) then c
  else
    match c.pending with
    | [] => c
    | top :: rest =>
      if !top.question.slot.isPrimary then c
      else if top.retried then c.failTop top.question unanswered
      else
        { c with pending := { top with retried := true } :: rest }.modifySlot SlotId.primary
          fun state => { state with outbound := state.outbound ++ [top.question] }

/-- Send the innermost question again if that has been asked for. -/
def retryIfRequested (c : Coordinator) : Coordinator :=
  if c.retryRequested then { c with retryRequested := false }.retry else c

/-- Deliver all items of a slot to its waiting call. If the caller has gone, the items stay for its
next call. -/
def deliver (gone : CallId → Bool) (c : Coordinator) (s : SlotId) : Coordinator :=
  let c := if s.isPrimary then c.flushOutput else c
  let state := c.slot s
  match state.waiter with
  | none => c
  | some call =>
    if gone call then c.modifySlot s fun state => { state with waiter := none }
    else
      (c.modifySlot s fun state =>
        { state with waiter := none, outbound := [], clientBusy := some c.busy }).send
          (.resolve call (.ok ⟨c.busy, state.outbound⟩))

/-- The slots with a waiting call and something to deliver. -/
def readySlots (c : Coordinator) : List SlotId :=
  c.slots.filter fun s state => state.waiter.isSome && c.isDeliverable s state

/-- Hand out a request to the engine, questions again, and items to clients. -/
def pump (gone : CallId → Bool) (c : Coordinator) : Coordinator :=
  let c := c.forward.retryIfRequested
  c.readySlots.foldl (deliver gone) c

/-- Receive a group of events and hand out. -/
def turn (gone : CallId → Bool) (c : Coordinator) (events : List Event) : Coordinator :=
  let c := events.foldl handle c
  if c.running then c.pump gone else c

end Coordinator

end EngineLink
