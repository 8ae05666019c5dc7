import EngineLink.Message.Form

/-!
# Framed streams

On a connection each message is one frame: four bytes with the length of the payload, and the
payload. A receiver collects bytes in a buffer and takes frames from it as they become complete. A
payload that is no message costs only its own frame.

What messages say is up to `Message.put` and `Message.decode`. How payloads are framed is up to a
library for length-delimited streams, which is not part of this development: `framed` and
`FrameBuffer` are assumptions about it.

## Main definitions

* `StreamFault` — what can go wrong with a frame
* `Message.frame` — the frame of a message
* `Message.encode`, `Message.encodeAll` — write messages at the end of a buffer
* `FrameBuffer` — the bytes of a stream that have not been taken yet
* `FrameBuffer.next`, `FrameBuffer.drain` — the next frame, and all frames that are complete
-/

namespace EngineLink

/-- The longest payload of a frame. -/
def maxPayload : Nat := 8 * 1024 * 1024

/-- What can go wrong with a frame. -/
inductive StreamFault where
  /-- The payload is no message, or the message has no payload. -/
  | content (fault : WireFault)
  /-- The payload that was announced is too long. -/
  | longFrame
  /-- The payload that was to be sent is too long. -/
  | longMessage
  deriving DecidableEq, Repr

/-- The text of a fault. -/
def StreamFault.message : StreamFault → String
  | content fault => fault.message
  | longFrame | longMessage => "frame size too big"

/-- A payload behind its length, as the library writes it. -/
def framed (payload : Bytes) : Bytes := Wire.putCount payload.length ++ payload

/-- The frame of a message. -/
def Message.frame (L : Limits) (m : Message) : Except StreamFault Bytes :=
  match m.put L with
  | .error fault => .error (.content fault)
  | .ok payload => if maxPayload < payload.length then .error .longMessage else .ok (framed payload)

/-- Writing at the end of a buffer. What one step has written stays there if a later one fails. -/
abbrev Sending := ExceptT StreamFault (StateM Bytes)

/-- Write a message at the end of a buffer. The payload is made apart from the buffer, and its
length is checked before anything is written. -/
def Message.encode (L : Limits) (m : Message) : Sending Unit :=
  match m.put L with
  | .error fault => throw (.content fault)
  | .ok payload => do
    if maxPayload < payload.length then throw .longMessage
    modify (· ++ Wire.putCount payload.length)
    modify (· ++ payload)

/-- Write one message after another at the end of a buffer, whatever becomes of each. -/
def Message.encodeAll (L : Limits) (ms : List Message) :
    StateM Bytes (List (Except StreamFault Unit)) :=
  ms.mapM fun m => (m.encode L).run

/-- The bytes of a stream that have not been taken yet. A buffer follows the length-delimited framing
of a library outside this development, of which all that is assumed is stated here: the length comes
first, in four bytes of which the highest is the first one, and does not count itself; it is taken
off once these bytes are there, and the payload once all of it is there; a length above `maxPayload`
is refused, and then the buffer stays as it is. -/
structure FrameBuffer where
  /-- The length of the payload that comes next, once it is known. -/
  awaited : Option Nat := none
  bytes : Bytes := []
  deriving DecidableEq, Repr

namespace FrameBuffer

/-- What taking the next frame comes to. -/
inductive Next where
  /-- The frame is not complete yet. -/
  | wait (buffer : FrameBuffer)
  /-- The frame is too long. The buffer stays as it is. -/
  | tooLong
  /-- A payload. -/
  | payload (payload : Bytes) (buffer : FrameBuffer)
  deriving DecidableEq, Repr

/-- Take a payload of known length. -/
def take (n : Nat) (bytes : Bytes) : Next :=
  if bytes.length < n then .wait ⟨some n, bytes⟩
  else .payload (bytes.take n) ⟨none, bytes.drop n⟩

/-- Take the next frame. -/
def next (b : FrameBuffer) : Next :=
  match b.awaited, b.bytes with
  | some n, bytes => take n bytes
  | none, w :: x :: y :: z :: rest =>
    let n := (Wire.joinU32 w x y z).toNat
    if maxPayload < n then .tooLong else take n rest
  | none, bytes => .wait ⟨none, bytes⟩

/-- The bytes that are left, counted so that taking a frame makes them fewer. -/
def size (b : FrameBuffer) : Nat := b.bytes.length + (if b.awaited.isSome then 1 else 0)

theorem size_le_of_take {n : Nat} {bytes p : Bytes} {b : FrameBuffer}
    (h : take n bytes = .payload p b) : b.size ≤ bytes.length := by
  unfold take at h
  split at h
  · cases h
  · cases h
    simp [size]

/-- Taking a frame leaves fewer bytes. -/
theorem size_lt_of_next {b b' : FrameBuffer} {p : Bytes} (h : b.next = .payload p b') :
    b'.size < b.size := by
  unfold next at h
  split at h
  · next n hn =>
    have hb : b.size = b.bytes.length + 1 := by rw [size, hn]; rfl
    exact hb ▸ Nat.lt_succ_of_le (size_le_of_take h)
  · next w x y z rest _ hb =>
    dsimp only at h
    split at h
    · cases h
    · have hrest : rest.length < b.size := by
        rw [size, hb]
        simp only [List.length_cons]
        omega
      exact Nat.lt_of_le_of_lt (size_le_of_take h) hrest
  · cases h

/-- All payloads that are complete, in their order, and `longFrame` if a frame that is too long
comes after them. -/
def drain (b : FrameBuffer) : List (Except StreamFault Bytes) × FrameBuffer :=
  match h : b.next with
  | .wait b => ([], b)
  | .tooLong => ([.error .longFrame], b)
  | .payload p b' =>
    have := size_lt_of_next h
    let (ps, rest) := drain b'
    (.ok p :: ps, rest)
termination_by b.size

/-- Add received bytes and take all payloads that are complete. -/
def receive (b : FrameBuffer) (chunk : Bytes) : List (Except StreamFault Bytes) × FrameBuffer :=
  drain { b with bytes := b.bytes ++ chunk }

/-- The message of a payload that was taken. -/
def toMessage (L : Limits) (p : Except StreamFault Bytes) : Except StreamFault Message :=
  match p with
  | .error fault => .error fault
  | .ok payload =>
    match Message.decode L payload with
    | .ok m => .ok m
    | .error fault => .error (.content fault)

/-- The messages of a stream that arrives in chunks, and the bytes that are left. -/
def receiveAll (L : Limits) (b : FrameBuffer) :
    List Bytes → List (Except StreamFault Message) × FrameBuffer
  | [] => ([], b)
  | chunk :: rest =>
    let (ps, b) := b.receive chunk
    let (more, b) := receiveAll L b rest
    (ps.map (toMessage L) ++ more, b)

end FrameBuffer

end EngineLink
