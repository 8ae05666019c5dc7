import EngineLink.Proofs.Connection.Ledger

/-!
# One reply for each frame

A ledger speaks of all bytes that have arrived. When they are those of frames that a client sends,
the ledger becomes an account that the client can rely on: no frame is passed over, answered twice
or answered out of its turn, and the exchange is told once that the client has left.

## Main definitions

* `Connection.Account` — what a client can rely on

## Main results

* `Connection.Ledger.account` — with the frames that the client sends, a ledger is an account
* `Connection.one_for_one` — each course of a connection that has been attached has an account
-/

namespace EngineLink

namespace Connection

variable {L : Limits} {client : ClientId} {es : List ConnectionEvent} {c : Connection}
  {turns : List Turn} {payloads : List Bytes} {requests : List ConnectionRequest}

/-- Every frame that has arrived in full has been taken. -/
def TakenAll (payloads : List Bytes) (es : List ConnectionEvent) (turns : List Turn) : Prop :=
  ∀ whole, whole <+: payloads → whole.flatMap framed <+: arrived es →
    whole <+: turns.map Turn.payload

/-- What a client that sends payloads can rely on. -/
structure Account (L : Limits) (client : ClientId) (payloads : List Bytes)
    (es : List ConnectionEvent) (turns : List Turn) (c : Connection)
    (requests : List ConnectionRequest) : Prop where
  /-- The frames are taken in the order in which they were sent, and none is passed over. -/
  inOrder : turns.map Turn.payload <+: payloads
  /-- Each frame gets what its payload asks for. -/
  proper : ∀ t ∈ turns, t.Proper L
  /-- The results of the exchange go to the batches, in their order. -/
  answered : turns.filterMap Turn.result? = results es
  /-- The connection goes on to the next frame after the reply to the one before, and not after a
  reply that tells of a stop. -/
  settled : ∀ t ∈ turns.dropLast, t.Over
  /-- A batch lacks its reply only while the exchange works on it. -/
  pending : ∀ t ∈ turns, t.Open → c.phase = .calling client
  /-- The replies are sent in the order of the frames, each once, and nothing else is sent. -/
  sent : Sent L turns c
  /-- A connection that waits for bytes has taken all frames. -/
  idle : c.phase = .reading client → c.read = none → TakenAll payloads es turns
  /-- A connection ends after a reply that tells of a stop, or when nothing more arrives and all
  frames have been taken. -/
  ended : ∀ fault, c.phase = .ended fault → Unhindered L turns c →
    (∃ t, turns.getLast? = some t ∧ t.TellsStop) ∨ (c.InputOver ∧ TakenAll payloads es turns)
  /-- Only batches go to the exchange, under the client that was attached. When the connection ends,
  however it does, the exchange is told once that the client has left. -/
  requested : requests = calls client turns ++ goodbye client c.phase

/-- A connection that waits has taken all frames that have arrived. -/
theorem Intake.takenAll {input : FrameBuffer} (intake : Intake L es turns c)
    (small : ∀ p ∈ payloads, p.length ≤ maxPayload) (inOrder : turns.map Turn.payload <+: payloads)
    (waits : c.input.next = .wait input) : TakenAll payloads es turns := by
  intro whole within full
  rcases List.prefix_or_prefix_of_prefix within inOrder with done | ⟨more, rfl⟩
  · exact done
  · cases more with
    | nil => simp
    | cons p more =>
      -- The frame behind those that were taken is unread, so that the connection would not wait.
      obtain ⟨rest, full⟩ := full
      rw [intake.bytes, List.flatMap_append, List.append_assoc, List.append_cancel_left_eq,
        List.flatMap_cons, List.append_assoc] at full
      have fits : p.length ≤ maxPayload := small p (within.subset (by simp))
      have next := FrameBuffer.next_of_framed intake.announced fits full.symm
      rw [waits] at next
      cases next

/-- With the frames that the client sends, a ledger is an account. -/
theorem Ledger.account (ledger : Ledger L client es turns c requests)
    (small : ∀ p ∈ payloads, p.length ≤ maxPayload)
    (stream : arrived es <+: payloads.flatMap framed) :
    Account L client payloads es turns c requests := by
  obtain ⟨tail, stream⟩ := stream
  rw [ledger.bytes, List.append_assoc] at stream
  obtain ⟨left, rfl, rest⟩ := flatMap_framed_append small (by simpa using ledger.small) stream
  have inOrder : turns.map Turn.payload <+: turns.map Turn.payload ++ left := List.prefix_append ..
  refine ⟨inOrder, ledger.proper, ledger.answered, ledger.stage.settled,
    fun t => ledger.stage.calling_of_open, ledger.sent, ?_, ?_, ledger.requested⟩
  · intro reading idle
    obtain ⟨input, waits⟩ := waits_of_read_eq_none reading idle
    exact ledger.toIntake.takenAll small inOrder waits
  · intro fault ended unhindered
    rcases ledger.ended fault ended unhindered with stopped | ⟨n, bytes, unread, fits, long⟩ |
      ⟨inputOver, input, waits⟩
    · exact .inl stopped
    · -- What is unread begins frames of the client, whose lengths are within the limit.
      exact absurd long
        (not_long_of_stream (fun p mem => small p (List.mem_append_right _ mem)) rest unread fits)
    · exact .inr ⟨inputOver, ledger.toIntake.takenAll small inOrder waits⟩

/-- A connection that has been attached takes the frames of its client in their order and gives each
of them one reply, or none if it is a status. It ends early only after a reply that tells of a stop.
Only batches go to the exchange, and at the end, however it comes, the exchange is told once that
the client has left. -/
theorem one_for_one {slot : SlotId}
    (course : ({ slot, limits := L } : Connection).follow es = some (c, requests))
    (attached : ConnectionEvent.attached (.ok client) ∈ es)
    (small : ∀ p ∈ payloads, p.length ≤ maxPayload)
    (stream : arrived es <+: payloads.flatMap framed) :
    ∃ turns, Account L client payloads es turns c requests := by
  have start : Unattached L [] { slot, limits := L } :=
    ⟨rfl, rfl, FrameBuffer.announced_none [], rfl, rfl, rfl⟩
  obtain ⟨turns, ledger⟩ := start.follow course attached
  exact ⟨turns, ledger.account small stream⟩

/-- The client of the visit. -/
def visitor : ClientId := ⟨7⟩

/-- The payloads of a ping, of no message, of a status, of a batch without items, of another one,
and of a ping that comes too late. -/
def visitPayloads : List Bytes :=
  [[0x01], [0x7F], [0x02, 0, 0, 0, 0, 0, 0xFF, 0xFF, 0xFF, 0xFF], [0x03, 0, 0, 0, 0, 0],
    [0x03, 0, 0, 0, 0, 0], [0x01]]

/-- A visit in which the session is stopped while a batch waits: the ping after it has arrived. -/
def visit : List ConnectionEvent :=
  [.received [0, 0, 0], .attached (.ok visitor),
    .received ((visitPayloads.flatMap framed).drop 3), .read, .read, .read, .read,
    .returned (.ok ⟨true, []⟩), .read, .returned (.error .stopped)]

/-- The connection after the visit. -/
def visited : Connection where
  slot := 0
  limits := {}
  phase := .ended none
  input := ⟨none, framed [0x01]⟩
  output := Message.frames {}
    [.status .ok, .status (.error Status.Code.protocol "unknown message tag: 0x7f"),
      .batch ⟨true, []⟩, .status .stopped]

/-- Four of the five frames that are taken get a reply, and the status gets none. The reply that
tells of the stop is the last one. -/
theorem one_for_one_visit :
    ({ slot := 0, limits := {} } : Connection).follow visit =
        some (visited, [.call visitor [], .call visitor [], .disconnect visitor]) ∧
      ConnectionEvent.attached (.ok visitor) ∈ visit ∧
      (∀ p ∈ visitPayloads, p.length ≤ maxPayload) ∧
      arrived visit <+: visitPayloads.flatMap framed ∧
      ∃ turns, Account {} visitor visitPayloads visit turns visited
        [.call visitor [], .call visitor [], .disconnect visitor] := by
  have course : ({ slot := 0, limits := {} } : Connection).follow visit =
      some (visited, [.call visitor [], .call visitor [], .disconnect visitor]) := rfl
  have attached : ConnectionEvent.attached (.ok visitor) ∈ visit := .tail _ (.head _)
  have small : ∀ p ∈ visitPayloads, p.length ≤ maxPayload := by decide
  have stream : arrived visit <+: visitPayloads.flatMap framed := by decide
  exact ⟨course, attached, small, stream, one_for_one course attached small stream⟩

end Connection

end EngineLink
