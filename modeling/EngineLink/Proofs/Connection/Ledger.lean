import EngineLink.Proofs.Connection.Course

/-!
# The ledger of a connection

The client sends frames, and the connection takes one after another. A turn is what has become of a
frame: most get a reply at once, a batch gets the result of a call of the exchange, and a status
gets none. The ledger of a connection ties its turns to the bytes that have arrived, to the results
and requests that have gone between it and the exchange, and to the bytes that have been sent.

## Main definitions

* `Turn`, `Turn.Proper` — what has become of a frame, and that it is what the frame asks for
* `Connection.Unhindered` — nothing keeps the connection from sending its replies
* `Connection.Ledger` — what the turns of a connection have to do with its state

## Main results

* `Connection.Ledger.send`, `Connection.Ledger.react` — replies that are sent, and frames that are
  taken
* `Connection.Ledger.meet`, `Connection.Ledger.follow` — a ledger is kept by each event, and along
  each course
* `Connection.Unattached.follow` — a course on which a connection is attached has a ledger
-/

namespace EngineLink

/-- What has become of a frame that was taken from the stream. -/
inductive Turn where
  /-- It got a reply without the exchange. -/
  | told (payload : Bytes) (reply : Message)
  /-- Its items went to the exchange, which has given a result or has not yet. -/
  | called (payload : Bytes) (items : List Item) (result : Option (Except Status Batch))
  | ignored (payload : Bytes)

namespace Turn

/-- The payload of the frame. -/
def payload : Turn → Bytes
  | told payload _ | called payload _ _ | ignored payload => payload

/-- The message that the client gets back. -/
def reply? : Turn → Option Message
  | told _ m => some m
  | called _ _ result => result.map Message.ofResult
  | ignored _ => none

/-- What the exchange was asked for. -/
def request? (client : ClientId) : Turn → Option ConnectionRequest
  | told _ _ | ignored _ => none
  | called _ items _ => some (.call client items)

/-- What the exchange has given. -/
def result? : Turn → Option (Except Status Batch)
  | told _ _ | ignored _ => none
  | called _ _ result => result

/-- The exchange still works on it. -/
def Open : Turn → Prop
  | called _ _ none => True
  | _ => False

/-- The reply tells that the session has been stopped. -/
def TellsStop (t : Turn) : Prop := ∃ m ∈ t.reply?, Connection.tellsStop m = true

/-- The connection goes on after it. -/
def Over (t : Turn) : Prop := ¬ t.Open ∧ ¬ t.TellsStop

/-- The turn is what the payload of the frame asks for. -/
inductive Proper (L : Limits) : Turn → Prop
  /-- A payload that is no message is told with the fault. -/
  | malformed {payload : Bytes} {fault : WireFault} (h : Message.decode L payload = .error fault) :
    Proper L (told payload (.status ⟨.error, Status.Code.protocol, some fault.message⟩))
  /-- A ping is acknowledged. -/
  | ping {payload : Bytes} (h : Message.decode L payload = .ok .ping) :
    Proper L (told payload (.status .ok))
  /-- A file is sent back. -/
  | file {payload : Bytes} {name : String} {data : List UInt8}
    (h : Message.decode L payload = .ok (.file name data)) :
    Proper L (told payload (.file name data))
  /-- The items of a batch go to the exchange. -/
  | batch {payload : Bytes} {b : Batch} (h : Message.decode L payload = .ok (.batch b))
    (result : Option (Except Status Batch)) :
    Proper L (called payload b.items result)
  /-- A status is ignored. -/
  | status {payload : Bytes} {s : Status} (h : Message.decode L payload = .ok (.status s)) :
    Proper L (ignored payload)

theorem over_of_ignored (payload : Bytes) : (ignored payload).Over :=
  ⟨id, by rintro ⟨m, ⟨⟩, -⟩⟩

/-- A turn with a reply is not open. -/
theorem not_open_of_reply {t : Turn} {m : Message} (h : t.reply? = some m) : ¬ t.Open := by
  rintro isOpen
  match t with
  | told .. | ignored _ | called _ _ (some _) => exact isOpen
  | called _ _ none => cases h

end Turn

namespace Connection

variable {L : Limits} {client : ClientId} {es : List ConnectionEvent} {c c' : Connection}
  {turns turns' before : List Turn} {t : Turn} {m : Message} {payloads : List Bytes}
  {requests : List ConnectionRequest} {request : Option ConnectionRequest}

/-- What holds of all turns holds of those before the latest one and of the latest one. -/
theorem forall_mem_concat {P : Turn → Prop} :
    (∀ u ∈ before ++ [t], P u) ↔ (∀ u ∈ before, P u) ∧ P t := by
  rw [List.forall_mem_append, List.forall_mem_singleton]

/-! ### What a connection has sent -/

/-- The replies of turns. -/
def replies (turns : List Turn) : List Message := turns.filterMap Turn.reply?

/-- The message has a frame. -/
def Sendable (L : Limits) (m : Message) : Prop := ∃ frame, m.frame L = .ok frame

/-- Nothing has hindered the connection to send: all replies have frames, and the stream can be
written. -/
structure Unhindered (L : Limits) (turns : List Turn) (c : Connection) : Prop where
  sendable : ∀ m ∈ replies turns, Sendable L m
  writable : c.outputFault = none

/-- Unless it was hindered, the connection has sent the replies and nothing else. -/
def Sent (L : Limits) (turns : List Turn) (c : Connection) : Prop :=
  Unhindered L turns c → c.output = Message.frames L (replies turns)

/-! ### The ledger -/

/-- What the turns tell about what the connection is doing. -/
inductive Stage (client : ClientId) (turns : List Turn) : ConnectionPhase → Prop
  | reading (settled : ∀ t ∈ turns, t.Over) : Stage client turns (.reading client)
  | calling {before : List Turn} {payload : Bytes} {items : List Item}
    (latest : turns = before ++ [.called payload items none]) (settled : ∀ t ∈ before, t.Over) :
    Stage client turns (.calling client)
  | ended {fault : Option ConnectionFault} (settled : ∀ t ∈ turns.dropLast, t.Over)
    (closed : ∀ t ∈ turns, ¬ t.Open) : Stage client turns (.ended fault)

/-- What the exchange was asked for in turns. -/
def calls (client : ClientId) (turns : List Turn) : List ConnectionRequest :=
  turns.filterMap (Turn.request? client)

/-- What the exchange is told in the end. -/
def goodbye (client : ClientId) : ConnectionPhase → List ConnectionRequest
  | .ended _ => [.disconnect client]
  | _ => []

@[simp] theorem goodbye_reading (client client' : ClientId) :
    goodbye client (.reading client') = [] := rfl

@[simp] theorem goodbye_calling (client client' : ClientId) :
    goodbye client (.calling client') = [] := rfl

/-- How a connection comes to its end: a reply has told of the stop, a frame is too long, or the
input is at its end. -/
def Finished (turns : List Turn) (c : Connection) : Prop :=
  (∃ t, turns.getLast? = some t ∧ t.TellsStop) ∨
    (∃ n bytes, c.input.unread = Wire.putCount n ++ bytes ∧ n < UInt32.size ∧ maxPayload < n) ∨
    (c.InputOver ∧ ∃ input, c.input.next = .wait input)

/-- What has come in: the turns are those of the frames at the beginning of the stream, and what is
behind them is unread. -/
structure Intake (L : Limits) (es : List ConnectionEvent) (turns : List Turn) (c : Connection) :
    Prop where
  limits : c.limits = L
  announced : c.input.Announced
  small : ∀ t ∈ turns, t.payload.length ≤ maxPayload
  bytes : arrived es = (turns.map Turn.payload).flatMap framed ++ c.input.unread
  proper : ∀ t ∈ turns, t.Proper L
  answered : turns.filterMap Turn.result? = results es

/-- What the turns of a connection have to do with its state and with what it wanted of the
exchange. -/
structure Ledger (L : Limits) (client : ClientId) (es : List ConnectionEvent) (turns : List Turn)
    (c : Connection) (requests : List ConnectionRequest) : Prop extends Intake L es turns c where
  stage : Stage client turns c.phase
  requested : requests = calls client turns ++ goodbye client c.phase
  sent : Sent L turns c
  ended : ∀ fault, c.phase = .ended fault → Unhindered L turns c → Finished turns c

theorem Stage.ne_attaching {phase : ConnectionPhase} (stage : Stage client turns phase) :
    phase ≠ .attaching := by
  cases stage <;> simp

theorem calls_append (client : ClientId) (turns : List Turn) (t : Turn) :
    calls client (turns ++ [t]) = calls client turns ++ (t.request? client).toList := by
  cases h : t.request? client <;> simp [calls, h]

theorem replies_append (turns : List Turn) (t : Turn) :
    replies (turns ++ [t]) = replies turns ++ t.reply?.toList := by
  cases h : t.reply? <;> simp [replies, h]

/-- What has come in does not depend on what has been sent. -/
theorem Intake.of_eq (intake : Intake L es turns c) (limits : c'.limits = c.limits)
    (input : c'.input = c.input) : Intake L es turns c' := by
  refine ⟨limits.trans intake.limits, ?_, intake.small, ?_, intake.proper, intake.answered⟩
  · rw [input]
    exact intake.announced
  · rw [input]
    exact intake.bytes

/-- What hinders depends on the replies and on the stream. -/
theorem Unhindered.of_eq (unhindered : Unhindered L turns c)
    (same : replies turns' = replies turns) (writable : c'.outputFault = c.outputFault) :
    Unhindered L turns' c' :=
  ⟨same ▸ unhindered.sendable, writable.trans unhindered.writable⟩

/-- What has been sent does not depend on what comes in. -/
theorem Sent.of_eq (sent : Sent L turns c) (same : replies turns' = replies turns)
    (writable : c'.outputFault = c.outputFault) (output : c'.output = c.output) :
    Sent L turns' c' := by
  intro unhindered
  rw [output, same]
  exact sent (unhindered.of_eq same.symm writable.symm)

/-- The frame of a reply is put behind those of the replies before. -/
theorem Sent.append {frame : Bytes} (sent : Sent L before c) (reply : t.reply? = some m)
    (framed : m.frame L = .ok frame) (writable : c'.outputFault = c.outputFault)
    (output : c'.output = c.output ++ frame) : Sent L (before ++ [t]) c' := by
  intro unhindered
  have sendable := unhindered.sendable
  rw [replies_append, reply] at sendable ⊢
  have earlier := sent ⟨fun m mem => sendable m (List.mem_append_left _ mem),
    writable.symm.trans unhindered.writable⟩
  rw [output, earlier]
  simp [Message.frames, framed, Except.toOption]

/-- A turn without a reply asks for nothing to be sent. -/
theorem sent_silent (reply : t.reply? = none) : Sent L (before ++ [t]) c ↔ Sent L before c := by
  have same : replies (before ++ [t]) = replies before := by
    rw [replies_append, reply, Option.toList_none, List.append_nil]
  constructor
  · intro sent
    exact sent.of_eq same.symm rfl rfl
  · intro sent
    exact sent.of_eq same rfl rfl

/-- A connection that ends tells the exchange so. -/
theorem Ledger.stop {fault : Option ConnectionFault} (intake : Intake L es turns c)
    (settled : ∀ t ∈ turns.dropLast, t.Over) (closed : ∀ t ∈ turns, ¬ t.Open)
    (sent : Sent L turns c) (finished : Unhindered L turns c → Finished turns c) :
    Ledger L client es turns (c.stop client fault).1
      (calls client turns ++ (c.stop client fault).2.toList) := by
  refine ⟨intake.of_eq rfl rfl, .ended settled closed, rfl, sent.of_eq rfl rfl rfl, ?_⟩
  intro fault ended unhindered
  exact finished (unhindered.of_eq rfl rfl)

/-- Only the latest turn can be one that the connection does not go on from. -/
theorem Stage.settled {phase : ConnectionPhase} (stage : Stage client turns phase) :
    ∀ t ∈ turns.dropLast, t.Over := by
  cases stage with
  | reading settled => exact fun t mem => settled t (List.dropLast_subset turns mem)
  | calling latest settled =>
    rw [latest, List.dropLast_concat]
    exact settled
  | ended settled => exact settled

/-- A turn is open only while the exchange works on it. -/
theorem Stage.calling_of_open {phase : ConnectionPhase} (stage : Stage client turns phase)
    (mem : t ∈ turns) (isOpen : t.Open) : phase = .calling client := by
  cases stage with
  | reading settled => exact absurd isOpen (settled t mem).1
  | calling => rfl
  | ended settled closed => exact absurd isOpen (closed t mem)

/-- A reply that is sent completes its turn. -/
theorem Ledger.send (client : ClientId) (intake : Intake L es (before ++ [t]) c)
    (settled : ∀ t ∈ before, t.Over) (sent : Sent L before c) (reply : t.reply? = some m) :
    Ledger L client es (before ++ [t]) (c.send client m).1
      (calls client (before ++ [t]) ++ (c.send client m).2.toList) := by
  have closed : ∀ u ∈ before ++ [t], ¬ u.Open :=
    forall_mem_concat.mpr ⟨fun u mem => (settled u mem).1, Turn.not_open_of_reply reply⟩
  have dropped : ∀ u ∈ (before ++ [t]).dropLast, u.Over := by
    rwa [List.dropLast_concat]
  obtain ⟨frame, framed, writable, sending⟩ | ⟨output, fault, unsent, sending⟩ :=
    c.send_cases client m
  · rw [intake.limits] at framed
    by_cases stops : tellsStop m = true
    · rw [sending, if_pos stops]
      refine Ledger.stop (intake.of_eq rfl rfl) dropped closed (sent.append reply framed rfl rfl) ?_
      intro unhindered
      exact .inl ⟨t, List.getLast?_concat .., m, reply, stops⟩
    · rw [sending, if_neg stops]
      have goesOn : ¬ t.TellsStop := by
        rintro ⟨m', replied, stops'⟩
        rw [reply] at replied
        cases replied
        exact stops stops'
      have latest : t.Over := ⟨Turn.not_open_of_reply reply, goesOn⟩
      refine ⟨intake.of_eq rfl rfl, .reading (forall_mem_concat.mpr ⟨settled, latest⟩), rfl,
        sent.append reply framed rfl rfl, ?_⟩
      rintro fault ⟨⟩
  · -- The fault is that of a message without a frame, or of a stream that cannot be written.
    have hindered : ¬ Unhindered L (before ++ [t]) { c with output } := by
      rintro ⟨sendable, writable⟩
      rcases unsent with unsent | faulty
      · rw [replies_append, reply] at sendable
        obtain ⟨frame, framed⟩ := sendable m (by simp)
        rw [← intake.limits] at framed
        exact unsent frame framed
      · exact faulty writable
    rw [sending]
    refine Ledger.stop (intake.of_eq rfl rfl) dropped closed ?_ ?_
    · intro unhindered
      exact absurd unhindered hindered
    · intro unhindered
      exact absurd unhindered hindered

/-! ### Steps -/

/-- An event that brings neither bytes nor a result is no part of what has come in. -/
theorem Intake.event {e : ConnectionEvent} (intake : Intake L es turns c)
    (noBytes : arrived [e] = []) (noResult : results [e] = []) : Intake L (es ++ [e]) turns c := by
  refine ⟨intake.limits, intake.announced, intake.small, ?_, intake.proper, ?_⟩
  · rw [arrived_append, noBytes, List.append_nil, intake.bytes]
  · rw [results_append, noResult, List.append_nil, intake.answered]

/-- Bytes that arrive are unread. -/
theorem Intake.received (intake : Intake L es turns c) (bytes : Bytes) :
    Intake L (es ++ [.received bytes]) turns (c.receive bytes) := by
  refine ⟨intake.limits, intake.announced.received bytes, intake.small, ?_, intake.proper, ?_⟩
  · rw [arrived_append, intake.bytes, List.append_assoc]
    simp [receive, arrived]
  · rw [results_append, intake.answered]
    simp [results]

/-- What happens to the input alone changes no turn. -/
theorem Ledger.input {es' : List ConnectionEvent} (ledger : Ledger L client es turns c requests)
    (intake : Intake L es' turns c') (phase : c'.phase = c.phase)
    (writable : c'.outputFault = c.outputFault) (output : c'.output = c.output)
    (finished : Finished turns c → Finished turns c') : Ledger L client es' turns c' requests := by
  refine ⟨intake, ?_, ?_, ledger.sent.of_eq rfl writable output, ?_⟩
  · rw [phase]
    exact ledger.stage
  · rw [phase]
    exact ledger.requested
  · intro fault ended unhindered
    exact finished (ledger.ended fault (phase ▸ ended) (unhindered.of_eq rfl writable.symm))

theorem Ledger.received (ledger : Ledger L client es turns c requests) (more : ¬ c.InputOver)
    (bytes : Bytes) :
    Ledger L client (es ++ [.received bytes]) turns (c.receive bytes) requests := by
  refine ledger.input (ledger.toIntake.received bytes) rfl rfl rfl ?_
  rintro (stopped | ⟨n, rest, unread, long⟩ | ⟨inputOver, -⟩)
  · exact .inl stopped
  · refine .inr (.inl ⟨n, rest ++ bytes, ?_, long⟩)
    rw [receive, FrameBuffer.unread_received, unread, List.append_assoc]
  · exact absurd inputOver more

/-- The client closes its direction, or the stream cannot be read any more: what is unread is
read all the same. -/
theorem Ledger.endInput {e : ConnectionEvent} (ledger : Ledger L client es turns c requests)
    (noBytes : arrived [e] = []) (noResult : results [e] = []) {inputEnded : Bool}
    {inputFault : Option String} (inputOver : { c with inputEnded, inputFault }.InputOver) :
    Ledger L client (es ++ [e]) turns { c with inputEnded, inputFault } requests := by
  have intake : Intake L (es ++ [e]) turns { c with inputEnded, inputFault } :=
    (ledger.toIntake.event noBytes noResult).of_eq rfl rfl
  apply ledger.input intake rfl rfl rfl
  rintro (stopped | long | ⟨-, waits⟩)
  · exact .inl stopped
  · exact .inr (.inl long)
  · exact .inr (.inr ⟨inputOver, waits⟩)

theorem Ledger.unwritable (ledger : Ledger L client es turns c requests) (fault : WriteFault) :
    Ledger L client (es ++ [.unwritable fault]) turns { c with outputFault := some fault }
      requests := by
  have hindered : ¬ Unhindered L turns { c with outputFault := some fault } := by
    rintro ⟨-, ⟨⟩⟩
  refine ⟨(ledger.toIntake.event rfl rfl).of_eq rfl rfl, ledger.stage, ledger.requested, ?_, ?_⟩
  · intro unhindered
    exact absurd unhindered hindered
  · intro _ _ unhindered
    exact absurd unhindered hindered

/-- The result of a call goes to the turn that is open. -/
theorem Intake.answer {payload : Bytes} {items : List Item} (result : Except Status Batch)
    (intake : Intake L es (before ++ [.called payload items none]) c) :
    Intake L (es ++ [.returned result]) (before ++ [.called payload items (some result)]) c := by
  obtain ⟨small, fits⟩ := forall_mem_concat.mp intake.small
  obtain ⟨proper, asked⟩ := forall_mem_concat.mp intake.proper
  have replied : Turn.Proper L (.called payload items (some result)) := by
    cases asked with
    | batch decoded => exact .batch decoded (some result)
  refine ⟨intake.limits, intake.announced, forall_mem_concat.mpr ⟨small, fits⟩, ?_,
    forall_mem_concat.mpr ⟨proper, replied⟩, ?_⟩
  · rw [arrived_append, intake.bytes]
    simp [arrived, Turn.payload]
  · have answered := intake.answered
    rw [List.filterMap_append] at answered ⊢
    rw [results_append, ← answered]
    simp [results, Turn.result?]

/-- The result of a call closes the latest turn. -/
theorem Ledger.returned {result : Except Status Batch}
    (ledger : Ledger L client es turns c requests)
    (met : c.meet (.returned result) = some (c', request)) :
    ∃ turns, Ledger L client (es ++ [.returned result]) turns c' (requests ++ request.toList) := by
  obtain ⟨client', calling, sending⟩ := meet_returned met
  have requested := ledger.requested
  have stage := ledger.stage
  rw [calling] at stage requested
  cases stage with
  | @calling before payload items latest settled =>
    -- The call of the latest turn was counted when the turn began: its result asks for nothing new.
    subst latest
    refine ⟨before ++ [.called payload items (some result)], ?_⟩
    have sent : Sent L before c := (sent_silent rfl).mp ledger.sent
    have closing := Ledger.send (m := .ofResult result) client
      (ledger.toIntake.answer result) settled sent rfl
    rw [← sending] at closing
    rw [calls_append] at closing requested
    rw [requested, goodbye_calling, List.append_nil]
    exact closing

/-- What a connection makes of a payload is what the payload asks for. -/
theorem react_cases (c : Connection) (client : ClientId) (payload : Bytes) :
    (∃ m, Turn.Proper c.limits (.told payload m) ∧ c.react client payload = c.send client m) ∨
      (∃ items, Turn.Proper c.limits (.called payload items none) ∧
        c.react client payload =
          ({ c with phase := .calling client }, some (.call client items))) ∨
      (Turn.Proper c.limits (.ignored payload) ∧ c.react client payload = (c, none)) := by
  rw [react, Reaction.ofPayload]
  cases decoded : Message.decode c.limits payload with
  | error fault => exact .inl ⟨_, .malformed decoded, rfl⟩
  | ok m =>
    cases m with
    | ping => exact .inl ⟨_, .ping decoded, rfl⟩
    | file name data => exact .inl ⟨_, .file decoded, rfl⟩
    | batch b => exact .inr (.inl ⟨_, .batch decoded none, rfl⟩)
    | status s => exact .inr (.inr ⟨.status decoded, rfl⟩)

/-- The frame that comes next begins a turn. -/
theorem Intake.next {input : FrameBuffer} (intake : Intake L es turns c)
    (next : c.input.next = .payload t.payload input) (proper : t.Proper L)
    (fresh : t.result? = none) : Intake L es (turns ++ [t]) { c with input } := by
  obtain ⟨unread, small, idle⟩ := FrameBuffer.next_payload intake.announced next
  refine ⟨intake.limits, ?_, forall_mem_concat.mpr ⟨intake.small, small⟩, ?_,
    forall_mem_concat.mpr ⟨intake.proper, proper⟩, ?_⟩
  · intro n mem
    rw [show input.awaited = none from idle] at mem
    cases mem
  · rw [intake.bytes, unread]
    simp
  · rw [List.filterMap_append, intake.answered]
    simp [fresh]

/-- A payload that is taken begins a turn. -/
theorem Ledger.react {payload : Bytes} {input : FrameBuffer} (intake : Intake L es turns c)
    (settled : ∀ t ∈ turns, t.Over) (sent : Sent L turns c) (reading : c.phase = .reading client)
    (next : c.input.next = .payload payload input) :
    ∃ turns', Ledger L client es turns' (({ c with input } : Connection).react client payload).1
      (calls client turns ++ (({ c with input } : Connection).react client payload).2.toList) := by
  have sent : Sent L turns { c with input } := sent.of_eq rfl rfl rfl
  obtain ⟨m, proper, reaction⟩ | ⟨items, proper, reaction⟩ | ⟨proper, reaction⟩ :=
    react_cases { c with input } client payload
  · -- The reply is sent at once.
    have taken := intake.next (t := .told payload m) next (intake.limits ▸ proper) rfl
    have telling := Ledger.send client taken settled sent rfl
    rw [calls_append, Turn.request?, Option.toList_none, List.append_nil] at telling
    rw [reaction]
    exact ⟨_, telling⟩
  · -- The turn stays open until the exchange gives its result.
    have taken := intake.next (t := .called payload items none) next (intake.limits ▸ proper) rfl
    rw [reaction]
    refine ⟨_, taken.of_eq rfl rfl, .calling rfl settled, ?_,
      (sent_silent rfl).mpr (sent.of_eq rfl rfl rfl), ?_⟩
    · rw [calls_append, goodbye_calling, List.append_nil]
      rfl
    · rintro fault ⟨⟩
  · -- Nothing is sent, and the connection reads on.
    have taken := intake.next (t := .ignored payload) next (intake.limits ▸ proper) rfl
    have reads : ({ c with input } : Connection).phase = .reading client := reading
    rw [reaction]
    refine ⟨_, taken, ?_, ?_, (sent_silent rfl).mpr sent, ?_⟩
    · rw [reads]
      exact .reading (forall_mem_concat.mpr ⟨settled, Turn.over_of_ignored payload⟩)
    · rw [reads, calls_append, goodbye_reading, List.append_nil]
      rfl
    · intro fault ended
      rw [reads] at ended
      cases ended

/-- Reading begins a turn, or finds that there is nothing more to read. -/
theorem Ledger.read (ledger : Ledger L client es turns c requests)
    (met : c.meet .read = some (c', request)) :
    ∃ turns, Ledger L client (es ++ [.read]) turns c' (requests ++ request.toList) := by
  obtain ⟨client', reading, come⟩ := read_cases met
  have intake := ledger.toIntake.event (e := .read) rfl rfl
  have requested := ledger.requested
  have stage := ledger.stage
  rw [reading] at stage requested
  rw [goodbye_reading, List.append_nil] at requested
  cases stage with
  | reading settled =>
    have before : ∀ t ∈ turns.dropLast, t.Over :=
      fun t mem => settled t (List.dropLast_subset turns mem)
    have closed : ∀ t ∈ turns, ¬ t.Open := fun t mem => (settled t mem).1
    rw [requested]
    obtain ⟨payload, input, next, reacted⟩ | ⟨next, stopped⟩ |
      ⟨input, fault, next, inputOver, stopped⟩ := come
    · have taking := Ledger.react intake settled ledger.sent reading next
      rwa [← reacted] at taking
    · obtain ⟨rfl, rfl⟩ := Prod.mk.inj stopped
      refine ⟨turns, Ledger.stop intake before closed ledger.sent fun _ => ?_⟩
      exact .inr (.inl (FrameBuffer.next_tooLong next))
    · obtain ⟨rfl, rfl⟩ := Prod.mk.inj stopped
      -- Waiting may have taken a length from the buffer, which is unread all the same.
      obtain ⟨unread, announced, waits⟩ := FrameBuffer.next_wait next
      refine ⟨turns, Ledger.stop ⟨intake.limits, announced intake.announced, intake.small, ?_,
        intake.proper, intake.answered⟩ before closed (ledger.sent.of_eq rfl rfl rfl) fun _ => ?_⟩
      · rw [intake.bytes, unread]
      · exact .inr (.inr ⟨inputOver, input, waits⟩)

/-- What a connection meets is kept in its ledger. -/
theorem Ledger.meet {e : ConnectionEvent} (ledger : Ledger L client es turns c requests)
    (met : c.meet e = some (c', request)) :
    ∃ turns, Ledger L client (es ++ [e]) turns c' (requests ++ request.toList) := by
  cases e with
  | received bytes =>
    obtain ⟨more, rfl, rfl⟩ := meet_received met
    exact ⟨turns, by simpa using ledger.received more bytes⟩
  | closed =>
    cases met
    exact ⟨turns, by simpa using ledger.endInput (e := .closed) rfl rfl (.inl rfl)⟩
  | unreadable text =>
    cases met
    have faulty : some text ≠ none := Option.some_ne_none text
    exact ⟨turns, by simpa using ledger.endInput (e := .unreadable text) rfl rfl (.inr faulty)⟩
  | unwritable fault =>
    cases met
    exact ⟨turns, by simpa using ledger.unwritable fault⟩
  | attached result => exact absurd (meet_attached met).1 ledger.stage.ne_attaching
  | returned result => exact ledger.returned met
  | read => exact ledger.read met

/-! ### Courses -/

/-- A ledger is kept along a course. -/
theorem Ledger.follow {es' : List ConnectionEvent} {requests' : List ConnectionRequest}
    (ledger : Ledger L client es turns c requests)
    (followed : c.follow es' = some (c', requests')) :
    ∃ turns, Ledger L client (es ++ es') turns c' (requests ++ requests') := by
  -- The ledger of the events so far is that of the events to come, once they are behind.
  induction es' generalizing es turns c requests requests' with
  | nil =>
    cases followed
    exact ⟨turns, by simpa using ledger⟩
  | cons e es' ih =>
    obtain ⟨c₁, request, later, met, rest, rfl⟩ := follow_cons.mp followed
    obtain ⟨turns, ledger⟩ := ledger.meet met
    obtain ⟨turns, ledger⟩ := ih ledger rest
    refine ⟨turns, ?_⟩
    rwa [List.append_assoc, List.append_assoc] at ledger

/-- A connection that waits to be attached leaves unread what arrives. -/
structure Unattached (L : Limits) (es : List ConnectionEvent) (c : Connection) : Prop where
  phase : c.phase = .attaching
  limits : c.limits = L
  announced : c.input.Announced
  bytes : arrived es = c.input.unread
  answered : results es = []
  output : c.output = []

/-- With the slot, a connection gets a ledger without turns. -/
theorem Unattached.attached (start : Unattached L es c) (client : ClientId) :
    Ledger L client (es ++ [.attached (.ok client)]) [] (c.attached (.ok client)) [] := by
  have none : ∀ t ∈ ([] : List Turn), False := fun t mem => List.not_mem_nil mem
  refine ⟨⟨start.limits, start.announced, fun t mem => (none t mem).elim, ?_,
    fun t mem => (none t mem).elim, ?_⟩, .reading fun t mem => (none t mem).elim, rfl,
    fun _ => start.output, ?_⟩
  · rw [arrived_append, start.bytes]
    simp [arrived, Connection.attached]
  · rw [results_append, start.answered]
    rfl
  · rintro fault ⟨⟩

/-- Until it is attached, a connection only lets bytes arrive and the stream fail. -/
theorem Unattached.meet {e : ConnectionEvent} (start : Unattached L es c)
    (met : c.meet e = some (c', request)) (unattached : ∀ result, e ≠ .attached result) :
    Unattached L (es ++ [e]) c' ∧ request = none := by
  have bytes : ∀ e, arrived [e] = [] → arrived (es ++ [e]) = c.input.unread := by
    intro e noBytes
    rw [arrived_append, noBytes, List.append_nil, start.bytes]
  have answered : ∀ e, results [e] = [] → results (es ++ [e]) = [] := by
    intro e noResult
    rw [results_append, noResult, List.append_nil, start.answered]
  -- What is received stays in the buffer: without a client nothing is read.
  cases e with
  | received chunk =>
    obtain ⟨-, rfl, rfl⟩ := meet_received met
    refine ⟨⟨start.phase, start.limits, start.announced.received chunk, ?_, answered _ rfl,
      start.output⟩, rfl⟩
    rw [arrived_append, start.bytes, receive, FrameBuffer.unread_received]
    simp [arrived]
  | closed | unreadable | unwritable =>
    cases met
    exact ⟨⟨start.phase, start.limits, start.announced, bytes _ rfl, answered _ rfl, start.output⟩,
      rfl⟩
  | attached result => exact absurd rfl (unattached result)
  | returned result =>
    obtain ⟨client, calling, -⟩ := meet_returned met
    rw [start.phase] at calling
    cases calling
  | read =>
    obtain ⟨client, reading, -⟩ := read_cases met
    rw [start.phase] at reading
    cases reading

theorem phase_attached_ne_attaching (c : Connection) (result : Except Status ClientId) :
    (c.attached result).phase ≠ .attaching := by
  cases result with
  | ok client => simp [attached]
  | error status =>
    rw [attached]
    split <;> simp

/-- A course on which a connection is attached has a ledger. -/
theorem Unattached.follow {es' : List ConnectionEvent} (start : Unattached L es c)
    (followed : c.follow es' = some (c', requests))
    (attached : ConnectionEvent.attached (.ok client) ∈ es') :
    ∃ turns, Ledger L client (es ++ es') turns c' requests := by
  induction es' generalizing es c requests with
  | nil => cases attached
  | cons e es' ih =>
    obtain ⟨c₁, request, later, met, rest, rfl⟩ := follow_cons.mp followed
    by_cases isAttached : ∃ result, e = .attached result
    · obtain ⟨result, rfl⟩ := isAttached
      obtain ⟨-, rfl, rfl⟩ := meet_attached met
      -- Afterwards the connection is not attached again, so that this is the event.
      have once := follow_of_ne_attaching (c.phase_attached_ne_attaching result) rest
      rcases List.mem_cons.mp attached with same | mem
      · cases same
        obtain ⟨turns, ledger⟩ := (start.attached client).follow rest
        refine ⟨turns, ?_⟩
        rwa [List.append_assoc] at ledger
      · exact absurd mem (once (.ok client))
    · rw [not_exists] at isAttached
      obtain ⟨start, rfl⟩ := start.meet met isAttached
      rcases List.mem_cons.mp attached with same | mem
      · exact absurd same.symm (isAttached (.ok client))
      · obtain ⟨turns, ledger⟩ := ih start rest mem
        refine ⟨turns, ?_⟩
        rwa [List.append_assoc] at ledger

end Connection

end EngineLink
