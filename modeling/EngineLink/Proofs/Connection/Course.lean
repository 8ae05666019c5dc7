import EngineLink.Connection.Service
import EngineLink.Proofs.Message.Framing

/-!
# Courses of a connection

The client and the exchange decide what a connection meets, and when: bytes arrive in any pieces and
at any time, the exchange takes its time for a result and may give any, and the stream may fail in
either direction. A course of a connection is a list of events that it meets one after another; what
it wants of the exchange meanwhile is gathered.

## Main definitions

* `ConnectionEvent` — what a connection can meet
* `Connection.meet`, `Connection.follow` — one event, and a course of events
* `Connection.arrived`, `Connection.results` — the bytes and the results of a course
* `Connection.InputOver` — nothing more arrives

## Main results

* `Connection.send_cases` — how sending a message can come out
* `Connection.read_cases` — how reading can come out
* `Connection.attached_only_once` — a connection is attached once
* `Service.advance_follow` — a connection that is served on an exchange follows a course
-/

namespace EngineLink

/-- What a connection can meet. -/
inductive ConnectionEvent where
  /-- Bytes of the client arrive. -/
  | received (bytes : Bytes)
  /-- The client closes its direction. -/
  | closed
  /-- From now on the stream cannot be read. -/
  | unreadable (text : String)
  /-- From now on the stream cannot be written. -/
  | unwritable (fault : WriteFault)
  /-- The exchange tells whether the slot can be had. -/
  | attached (result : Except Status ClientId)
  /-- The exchange gives the result of a call. -/
  | returned (result : Except Status Batch)
  /-- The connection reads on. -/
  | read

namespace Connection

variable {c c' : Connection} {client : ClientId} {m : Message}

/-- Nothing more arrives: the client has closed its direction, or the stream cannot be read. -/
def InputOver (c : Connection) : Prop := c.inputEnded = true ∨ c.inputFault ≠ none

/-- What a connection does with an event, and what it wants of the exchange then, if the event can
happen. -/
def meet (c : Connection) : ConnectionEvent → Option (Connection × Option ConnectionRequest)
  | .received bytes =>
    if c.inputEnded || c.inputFault.isSome then none else some (c.receive bytes, none)
  | .closed => some ({ c with inputEnded := true }, none)
  | .unreadable text => some ({ c with inputFault := some text }, none)
  | .unwritable fault => some ({ c with outputFault := some fault }, none)
  | .attached result =>
    match c.phase with
    | .attaching => some (c.attached result, none)
    | _ => none
  | .returned result =>
    match c.phase with
    | .calling _ => some (c.returned result)
    | _ => none
  | .read => c.read

/-- What a connection does with events one after another, and all that it wants of the exchange,
if the events can happen. -/
def follow (c : Connection) : List ConnectionEvent → Option (Connection × List ConnectionRequest)
  | [] => some (c, [])
  | e :: es => do
    let (c, request) ← c.meet e
    let (c, requests) ← c.follow es
    return (c, request.toList ++ requests)

/-- The bytes that arrive. -/
def arrived (es : List ConnectionEvent) : Bytes :=
  es.flatMap fun
    | .received bytes => bytes
    | _ => []

/-- The results of calls. -/
def results (es : List ConnectionEvent) : List (Except Status Batch) :=
  es.filterMap fun
    | .returned result => some result
    | _ => none

@[simp] theorem arrived_append (es es' : List ConnectionEvent) :
    arrived (es ++ es') = arrived es ++ arrived es' :=
  List.flatMap_append

@[simp] theorem results_append (es es' : List ConnectionEvent) :
    results (es ++ es') = results es ++ results es' :=
  List.filterMap_append

/-- A course begins with what can be met. -/
theorem follow_cons {e : ConnectionEvent} {es : List ConnectionEvent}
    {requests : List ConnectionRequest} :
    c.follow (e :: es) = some (c', requests) ↔
      ∃ c₁ request requests', c.meet e = some (c₁, request) ∧
        c₁.follow es = some (c', requests') ∧ requests = request.toList ++ requests' := by
  simp only [follow, Option.bind_eq_bind, Option.bind_eq_some_iff, Option.pure_def,
    Option.some.injEq, Prod.mk.injEq, Prod.exists]
  grind

/-- A single event is a course. -/
theorem follow_of_meet {e : ConnectionEvent} {step : Connection × Option ConnectionRequest}
    (h : c.meet e = some step) : ∃ es requests, c.follow es = some (step.1, requests) :=
  ⟨[e], step.2.toList ++ [], follow_cons.mpr ⟨step.1, step.2, [], h, rfl, rfl⟩⟩

/-! ### How a step comes out -/

/-- Sending puts the frame of the message behind the output and goes on or, after the message that
tells of the stop, ends. It ends the connection with a fault if the message has no frame or the
stream cannot be written. -/
theorem send_cases (c : Connection) (client : ClientId) (m : Message) :
    (∃ frame, m.frame c.limits = .ok frame ∧ c.outputFault = none ∧
      c.send client m =
        if tellsStop m then { c with output := c.output ++ frame }.stop client none
        else ({ c with output := c.output ++ frame, phase := .reading client }, none)) ∨
    (∃ output fault, ((∀ frame, m.frame c.limits ≠ .ok frame) ∨ c.outputFault ≠ none) ∧
      c.send client m = { c with output }.stop client (some (.send fault))) := by
  have encoded := Message.run_encode c.limits m []
  rw [send, transmit]
  cases framed : m.frame c.limits with
  | error fault =>
    -- Encoding fails before anything is written.
    rw [framed] at encoded
    rw [encoded]
    refine .inr ⟨c.output, .frame fault, .inl ?_, rfl⟩
    rintro frame ⟨⟩
  | ok frame =>
    rw [framed] at encoded
    rw [encoded]
    cases faulty : c.outputFault with
    | none => exact .inl ⟨frame, rfl, rfl, rfl⟩
    | some fault => exact .inr ⟨_, .write fault.text, .inr (Option.some_ne_none fault), rfl⟩

/-- Reading takes a payload and reacts to it, refuses a frame that is too long, or finds the stream
failed or at its end. -/
theorem read_cases {request : Option ConnectionRequest} (h : c.read = some (c', request)) :
    ∃ client, c.phase = .reading client ∧
      ((∃ payload input, c.input.next = .payload payload input ∧
          (c', request) = { c with input }.react client payload) ∨
        (c.input.next = .tooLong ∧ (c', request) = c.stop client (some .longFrame)) ∨
        (∃ input fault, c.input.next = .wait input ∧ c.InputOver ∧
          (c', request) = { c with input }.stop client fault)) := by
  rw [read] at h
  split at h
  · next client reading =>
    refine ⟨client, reading, ?_⟩
    split at h
    · next payload input next =>
      exact .inl ⟨payload, input, next, (Option.some.inj h).symm⟩
    · next next =>
      exact .inr (.inl ⟨next, (Option.some.inj h).symm⟩)
    · next input next =>
      -- A fault of the input is met before its end.
      split at h
      · next text failed =>
        have inputOver : c.InputOver := .inr (by rw [failed]; exact Option.some_ne_none text)
        exact .inr (.inr ⟨input, _, next, inputOver, (Option.some.inj h).symm⟩)
      · split at h
        · cases h
        · next ended =>
          simp only [Bool.not_eq_true, Bool.not_eq_false'] at ended
          exact .inr (.inr ⟨input, _, next, .inl ended, (Option.some.inj h).symm⟩)
  · cases h

/-- Bytes arrive until the client has closed its direction or the stream cannot be read. -/
theorem meet_received {bytes : Bytes} {request : Option ConnectionRequest}
    (h : c.meet (.received bytes) = some (c', request)) :
    ¬ c.InputOver ∧ c' = c.receive bytes ∧ request = none := by
  rw [meet] at h
  split at h
  · cases h
  · next more =>
    cases h
    refine ⟨?_, rfl, rfl⟩
    rw [InputOver]
    simpa using more

/-- It is told once whether the slot can be had. -/
theorem meet_attached {result : Except Status ClientId} {request : Option ConnectionRequest}
    (h : c.meet (.attached result) = some (c', request)) :
    c.phase = .attaching ∧ c' = c.attached result ∧ request = none := by
  rw [meet] at h
  split at h
  · next attaching =>
    cases h
    exact ⟨attaching, rfl, rfl⟩
  · cases h

/-- The result of a call is sent to the client. -/
theorem meet_returned {result : Except Status Batch} {request : Option ConnectionRequest}
    (h : c.meet (.returned result) = some (c', request)) :
    ∃ client, c.phase = .calling client ∧ (c', request) = c.send client (.ofResult result) := by
  rw [meet] at h
  split at h
  · next client calling =>
    rw [returned, calling] at h
    exact ⟨client, calling, (Option.some.inj h).symm⟩
  · cases h

/-- A connection that reads and finds nothing to do has received no frame that is complete, and the
client may send more. -/
theorem waits_of_read_eq_none (reading : c.phase = .reading client) (idle : c.read = none) :
    ∃ input, c.input.next = .wait input := by
  rw [read, reading] at idle
  cases next : c.input.next with
  | wait input => exact ⟨input, rfl⟩
  | tooLong =>
    rw [next] at idle
    cases idle
  | payload payload input =>
    rw [next] at idle
    cases idle

/-! ### Attaching -/

theorem phase_send_ne_attaching (c : Connection) (client : ClientId) (m : Message) :
    (c.send client m).1.phase ≠ .attaching := by
  obtain ⟨frame, -, -, sent⟩ | ⟨output, fault, -, sent⟩ := c.send_cases client m
  · rw [sent]
    split <;> simp [stop]
  · rw [sent]
    simp [stop]

theorem phase_react_ne_attaching (client : ClientId) (payload : Bytes)
    (past : c.phase ≠ .attaching) :
    (c.react client payload).1.phase ≠ .attaching := by
  rw [react]
  split
  · exact c.phase_send_ne_attaching client _
  · simp
  · exact past

/-- A connection that has been attached, or was refused, is not attached again. -/
theorem meet_of_ne_attaching {e : ConnectionEvent} {request : Option ConnectionRequest}
    (past : c.phase ≠ .attaching) (h : c.meet e = some (c', request)) :
    c'.phase ≠ .attaching ∧ ∀ result, e ≠ .attached result := by
  cases e with
  | received bytes =>
    obtain ⟨-, rfl, -⟩ := meet_received h
    exact ⟨past, by rintro result ⟨⟩⟩
  | closed | unreadable | unwritable =>
    cases h
    exact ⟨past, by rintro result ⟨⟩⟩
  | attached result => exact absurd (meet_attached h).1 past
  | returned result =>
    obtain ⟨client, -, sent⟩ := meet_returned h
    refine ⟨?_, by rintro result ⟨⟩⟩
    have sending := c.phase_send_ne_attaching client (.ofResult result)
    rwa [← sent] at sending
  | read =>
    refine ⟨?_, by rintro result ⟨⟩⟩
    obtain ⟨client, -, ⟨payload, input, -, reacted⟩ | ⟨-, stopped⟩ |
      ⟨input, fault, -, -, stopped⟩⟩ := read_cases h
    · have stays : { c with input }.phase ≠ .attaching := past
      have reacting := phase_react_ne_attaching client payload stays
      rwa [← reacted] at reacting
    · cases stopped
      simp
    · cases stopped
      simp

theorem follow_of_ne_attaching {es : List ConnectionEvent} {requests : List ConnectionRequest}
    (past : c.phase ≠ .attaching) (h : c.follow es = some (c', requests)) :
    ∀ result, ConnectionEvent.attached result ∉ es := by
  induction es generalizing c requests with
  | nil =>
    intro result mem
    cases mem
  | cons e es ih =>
    obtain ⟨c₁, request, requests', met, followed, -⟩ := follow_cons.mp h
    obtain ⟨past', other⟩ := meet_of_ne_attaching past met
    intro result mem
    rcases List.mem_cons.mp mem with same | mem
    · exact other result same.symm
    · exact ih past' followed result mem

end Connection

/-! ### Service on an exchange -/

namespace Service

/-- Doing what the connection wants leaves the connection alone. -/
theorem connection_request (s : Service) (step : Connection × Option ConnectionRequest) :
    (s.request step).connection = step.1 := by
  obtain ⟨c, request⟩ := step
  rcases request with _ | _ | _ <;> rfl

/-- A move of an exchange and of the connection that it serves is a course of the connection. -/
theorem advance_follow {s s' : Service} (h : s.advance = some s') :
    ∃ es requests, s.connection.follow es = some (s'.connection, requests) := by
  have idle : ∃ es requests, s.connection.follow es = some (s.connection, requests) :=
    ⟨[], [], rfl⟩
  -- The exchange may act on its own, or give a result that nobody waits for: then the course is
  -- empty.
  rw [advance] at h
  split at h
  · cases h
    exact idle
  · next effect results _ _ =>
    cases h
    cases effect with
    | attach call result =>
      rw [Service.result]
      split
      · next attaching =>
        have met : s.connection.meet (.attached result) =
            some (s.connection.attached result, none) := by
          rw [Connection.meet, show s.connection.phase = .attaching from attaching]
        exact Connection.follow_of_meet met
      · exact idle
    | resolve call result =>
      rw [Service.result, connection_request]
      cases phase : s.connection.phase with
      | calling client =>
        have met : s.connection.meet (.returned result) = some (s.connection.returned result) := by
          rw [Connection.meet, phase]
        exact Connection.follow_of_meet met
      | attaching | reading | ended =>
        have unmoved : s.connection.returned result = (s.connection, none) := by
          rw [Connection.returned, phase]
        show ∃ es requests, s.connection.follow es =
          some ((s.connection.returned result).1, requests)
        rw [unmoved]
        exact idle
    | wake slot => exact idle
  · obtain ⟨step, met, rfl⟩ := Option.map_eq_some_iff.mp h
    rw [connection_request]
    exact Connection.follow_of_meet (e := .read) met

end Service

end EngineLink
