import EngineLink.Message.Stream
import EngineLink.Proofs.Wire.Reads

/-!
# What a stream of frames carries

A receiver that knows the length of the next payload has taken the four bytes of the length from its
buffer. The unread bytes of the stream are those of the buffer with the length put back. Taking the
next frame then splits the unread bytes or leaves them as they are, and since no frame continues
another one, they are split where the sender has joined them. So it does not matter how the bytes
were cut on their way, nor whether the payloads are messages.

## Main definitions

* `FrameBuffer.unread` — the bytes of the stream that no payload has been taken from
* `FrameBuffer.Announced` — the payload that is awaited is not too long
* `Message.frames` — what messages put into the stream

## Main results

* `framed_append_inj`, `flatMap_framed_append` — frames that are joined are joined in one way only
* `FrameBuffer.next_wait`, `next_tooLong`, `next_payload` — what taking the next frame does to the
  unread bytes
* `Message.run_encode` — a message that cannot be encoded adds nothing to the buffer
* `FrameBuffer.drain_framed` — draining takes the frames that are complete
* `Message.stream_in_sync` — a stream gives its payloads in order, however it is cut
-/

namespace EngineLink

open Wire

/-! ### Frames -/

/-- The length of a payload that is not too long fits its four bytes. -/
theorem lt_of_le_maxPayload {n : Nat} (small : n ≤ maxPayload) : n < UInt32.size :=
  Nat.lt_of_le_of_lt small (by decide)

/-- A length is read in one way only. -/
theorem putCount_append_inj {n m : Nat} {r s : Bytes} (hn : n < UInt32.size)
    (hm : m < UInt32.size) (same : putCount n ++ r = putCount m ++ s) : n = m ∧ r = s := by
  obtain ⟨counts, rest⟩ := List.append_inj same (by simp)
  exact ⟨putCount_inj hn hm counts, rest⟩

/-- Frames that are joined are joined in one way only. -/
theorem framed_append_inj {p q r s : Bytes} (hp : p.length ≤ maxPayload)
    (hq : q.length ≤ maxPayload) (same : framed p ++ r = framed q ++ s) : p = q ∧ r = s := by
  rw [framed, framed, List.append_assoc, List.append_assoc] at same
  obtain ⟨lengths, rest⟩ :=
    putCount_append_inj (lt_of_le_maxPayload hp) (lt_of_le_maxPayload hq) same
  exact List.append_inj rest lengths

theorem framed_ne_nil (p : Bytes) : framed p ≠ [] := by
  intro empty
  have four := congrArg List.length empty
  simp [framed] at four

/-- Where a stream of frames goes on after some frames, it goes on with frames. -/
theorem flatMap_framed_append {ps qs : List Bytes} {r : Bytes}
    (hp : ∀ p ∈ ps, p.length ≤ maxPayload) (hq : ∀ q ∈ qs, q.length ≤ maxPayload)
    (same : qs.flatMap framed ++ r = ps.flatMap framed) :
    ∃ left, ps = qs ++ left ∧ r = left.flatMap framed := by
  induction qs generalizing ps with
  | nil => exact ⟨ps, rfl, same⟩
  | cons q qs ih =>
    rw [List.forall_mem_cons] at hq
    rw [List.flatMap_cons, List.append_assoc] at same
    cases ps with
    | nil => exact absurd (List.append_eq_nil_iff.mp same).1 (framed_ne_nil q)
    | cons p ps =>
      rw [List.forall_mem_cons] at hp
      rw [List.flatMap_cons] at same
      obtain ⟨rfl, later⟩ := framed_append_inj hq.1 hp.1 same
      obtain ⟨left, rfl, rest⟩ := ih hp.2 hq.2 later
      exact ⟨left, rfl, rest⟩

/-- A stream of frames does not begin with a length that is too long. -/
theorem not_long_of_stream {n : Nat} {unread bytes tail : Bytes} {payloads : List Bytes}
    (small : ∀ p ∈ payloads, p.length ≤ maxPayload)
    (stream : unread ++ tail = payloads.flatMap framed) (head : unread = putCount n ++ bytes)
    (fits : n < UInt32.size) : ¬ maxPayload < n := by
  intro long
  cases payloads with
  | nil =>
    have four := congrArg List.length (List.append_eq_nil_iff.mp stream).1
    rw [head] at four
    simp at four
  | cons p ps =>
    rw [List.forall_mem_cons] at small
    rw [head, List.flatMap_cons, framed, List.append_assoc, List.append_assoc] at stream
    obtain ⟨rfl, -⟩ := putCount_append_inj fits (lt_of_le_maxPayload small.1) stream
    exact absurd long (Nat.not_lt.mpr small.1)

namespace FrameBuffer

variable {b b' : FrameBuffer} {p q rest tail : Bytes} {n : Nat}

/-! ### Unread bytes -/

/-- The bytes of the stream that no payload has been taken from: those of the buffer, behind the
length that was taken from it. -/
def unread (b : FrameBuffer) : Bytes := (b.awaited.map putCount).getD [] ++ b.bytes

/-- A payload that is awaited is not too long. -/
def Announced (b : FrameBuffer) : Prop := ∀ n ∈ b.awaited, n ≤ maxPayload

@[simp] theorem unread_none (bytes : Bytes) : unread ⟨none, bytes⟩ = bytes := rfl

@[simp] theorem unread_some (n : Nat) (bytes : Bytes) :
    unread ⟨some n, bytes⟩ = putCount n ++ bytes := rfl

/-- What is received is read after all that is there. -/
@[simp] theorem unread_received (b : FrameBuffer) (chunk : Bytes) :
    unread { b with bytes := b.bytes ++ chunk } = b.unread ++ chunk :=
  (List.append_assoc ..).symm

theorem announced_none (bytes : Bytes) : Announced ⟨none, bytes⟩ := by
  rintro n ⟨⟩

theorem Announced.received (h : b.Announced) (chunk : Bytes) :
    Announced { b with bytes := b.bytes ++ chunk } := h

/-- Only the buffer of a new stream has no unread bytes. -/
theorem eq_of_unread_eq_nil (h : b.unread = []) : b = {} := by
  obtain ⟨awaited, bytes⟩ := b
  cases awaited with
  | none => rw [unread_none] at h; rw [h]
  | some n =>
    have four := congrArg List.length h
    simp at four

/-! ### The next frame -/

theorem take_of_le (n : Nat) (bytes : Bytes) (enough : n ≤ bytes.length) :
    take n bytes = .payload (bytes.take n) ⟨none, bytes.drop n⟩ :=
  if_neg (Nat.not_lt.mpr enough)

theorem take_of_lt (n : Nat) (bytes : Bytes) (short : bytes.length < n) :
    take n bytes = .wait ⟨some n, bytes⟩ :=
  if_pos short

/-- Taking the next frame, by what the buffer begins with. -/
theorem next_cases (b : FrameBuffer) :
    (∃ n bytes, b.unread = putCount n ++ bytes ∧ n < UInt32.size ∧ maxPayload < n ∧
        b.awaited = none ∧ b.next = .tooLong) ∨
      (∃ n bytes, b.unread = putCount n ++ bytes ∧ (b.Announced → n ≤ maxPayload) ∧
        b.next = take n bytes) ∨
      (b.unread.length < 4 ∧ b.awaited = none ∧ b.next = .wait b) := by
  obtain ⟨awaited, bytes⟩ := b
  match awaited, bytes with
  | some n, bytes => exact .inr (.inl ⟨n, bytes, rfl, fun announced => announced n rfl, rfl⟩)
  | none, w :: x :: y :: z :: bytes =>
    have head : unread ⟨none, w :: x :: y :: z :: bytes⟩ =
        putCount (joinU32 w x y z).toNat ++ bytes := by
      rw [putCount_toNat_joinU32]
      rfl
    by_cases long : maxPayload < (joinU32 w x y z).toNat
    · exact .inl ⟨_, bytes, head, UInt32.toNat_lt _, long, rfl, if_pos long⟩
    · exact .inr (.inl ⟨_, bytes, head, fun _ => Nat.not_lt.mp long, if_neg long⟩)
  | none, [] | none, [_] | none, [_, _] | none, [_, _, _] =>
    exact .inr (.inr ⟨by simp, rfl, rfl⟩)

/-- A receiver that waits has lost nothing, and goes on waiting. -/
theorem next_wait (h : b.next = .wait b') :
    b'.unread = b.unread ∧ (b.Announced → b'.Announced) ∧ b'.next = .wait b' := by
  obtain ⟨n, bytes, -, -, -, -, next⟩ | ⟨n, bytes, unread, small, next⟩ | ⟨-, -, next⟩ :=
    b.next_cases
  · rw [next] at h
    cases h
  · rw [next] at h
    by_cases short : bytes.length < n
    · rw [take_of_lt n bytes short] at h
      cases h
      refine ⟨unread.symm, ?_, take_of_lt n bytes short⟩
      rintro announced m ⟨⟩
      exact small announced
    · rw [take_of_le n bytes (Nat.not_lt.mp short)] at h
      cases h
  · rw [next] at h
    cases h
    exact ⟨rfl, id, next⟩

/-- A length that is too long stays in the buffer. -/
theorem next_tooLong (h : b.next = .tooLong) :
    ∃ n bytes, b.unread = putCount n ++ bytes ∧ n < UInt32.size ∧ maxPayload < n := by
  obtain ⟨n, bytes, unread, fits, long, -, -⟩ | ⟨n, bytes, -, -, next⟩ | ⟨-, -, next⟩ :=
    b.next_cases
  · exact ⟨n, bytes, unread, fits, long⟩
  · rw [next, take] at h
    split at h <;> cases h
  · rw [next] at h
    cases h

/-- A payload is taken from the front of the unread bytes, with its length. -/
theorem next_payload (announced : b.Announced) (h : b.next = .payload p b') :
    b.unread = framed p ++ b'.unread ∧ p.length ≤ maxPayload ∧ b'.awaited = none := by
  obtain ⟨n, bytes, -, -, -, -, next⟩ | ⟨n, bytes, unread, small, next⟩ | ⟨-, -, next⟩ :=
    b.next_cases
  · rw [next] at h
    cases h
  · rw [next] at h
    by_cases short : bytes.length < n
    · rw [take_of_lt n bytes short] at h
      cases h
    · have length : (bytes.take n).length = n := List.length_take_of_le (Nat.not_lt.mp short)
      rw [take_of_le n bytes (Nat.not_lt.mp short)] at h
      cases h
      refine ⟨?_, by rw [length]; exact small announced, rfl⟩
      rw [unread, framed, length, unread_none, List.append_assoc, List.take_append_drop]
  · rw [next] at h
    cases h

/-- Where a frame comes next in the stream, the buffer knows its length or has less than that. -/
theorem next_of_stream (announced : b.Announced) (small : p.length ≤ maxPayload)
    (h : b.unread ++ tail = framed p ++ rest) :
    (∃ bytes, b.unread = putCount p.length ++ bytes ∧ bytes ++ tail = p ++ rest ∧
        b.next = take p.length bytes) ∨
      (b.unread.length < 4 ∧ b.next = .wait b) := by
  rw [framed, List.append_assoc] at h
  obtain ⟨n, bytes, unread, fits, long, -, -⟩ | ⟨n, bytes, unread, bound, next⟩ |
    ⟨short, -, next⟩ := b.next_cases
  · rw [unread, List.append_assoc] at h
    have same := (putCount_append_inj fits (lt_of_le_maxPayload small) h).1
    omega
  · rw [unread, List.append_assoc] at h
    obtain ⟨rfl, left⟩ :=
      putCount_append_inj (lt_of_le_maxPayload (bound announced)) (lt_of_le_maxPayload small) h
    exact .inl ⟨bytes, unread, left, next⟩
  · exact .inr ⟨short, next⟩

/-- A frame at the front of the unread bytes is the next one. -/
theorem next_of_framed (announced : b.Announced) (small : p.length ≤ maxPayload)
    (h : b.unread = framed p ++ rest) : b.next = .payload p ⟨none, rest⟩ := by
  have whole : b.unread ++ [] = framed p ++ rest := by rw [List.append_nil, h]
  obtain ⟨bytes, -, left, next⟩ | ⟨short, -⟩ := next_of_stream announced small whole
  · rw [List.append_nil] at left
    rw [next, left, take_of_le _ _ (by simp), List.take_left, List.drop_left]
  · rw [h, framed, List.append_assoc, List.length_append, length_putCount] at short
    omega

/-- A receiver waits for the rest of a frame. -/
theorem next_of_partial (announced : b.Announced) (small : p.length ≤ maxPayload)
    (h : b.unread ++ tail = framed p) (more : tail ≠ []) : ∃ b', b.next = .wait b' := by
  have stream : b.unread ++ tail = framed p ++ [] := by rw [List.append_nil, h]
  obtain ⟨bytes, -, left, next⟩ | ⟨-, next⟩ := next_of_stream announced small stream
  · have missing := List.length_pos_iff.mpr more
    have length := congrArg List.length left
    rw [List.length_append, List.append_nil] at length
    exact ⟨_, next.trans (take_of_lt _ _ (by omega))⟩
  · exact ⟨b, next⟩

/-! ### Draining -/

theorem drain_of_wait (h : b.next = .wait b') : b.drain = ([], b') := by
  rw [drain]
  split
  · next next =>
    rw [h] at next
    cases next
    rfl
  · next next =>
    rw [h] at next
    cases next
  · next next =>
    rw [h] at next
    cases next

theorem drain_of_payload (h : b.next = .payload p b') :
    b.drain = (.ok p :: b'.drain.1, b'.drain.2) := by
  rw [drain]
  split
  · next next =>
    rw [h] at next
    cases next
  · next next =>
    rw [h] at next
    cases next
  · next next =>
    rw [h] at next
    cases next
    rfl

/-- In a stream, the frame that comes next has arrived, or more bytes of it are to come. -/
theorem arrived_or_partial (h : b.unread ++ tail = framed p ++ rest) :
    (∃ r, b.unread = framed p ++ r ∧ r ++ tail = rest) ∨
      (∃ r, b.unread ++ r = framed p ∧ r ≠ []) := by
  obtain ⟨r, frame, later⟩ | ⟨r, unread, later⟩ := List.append_eq_append_iff.mp h
  · by_cases none : r = []
    · subst none
      rw [List.append_nil] at frame
      exact .inl ⟨[], by rw [List.append_nil, frame], later⟩
    · exact .inr ⟨r, frame.symm, none⟩
  · exact .inl ⟨r, unread, later.symm⟩

/-- Draining takes the frames that are complete, and waits with the bytes of the others. -/
theorem drain_framed {payloads : List Bytes} (announced : b.Announced)
    (small : ∀ p ∈ payloads, p.length ≤ maxPayload)
    (h : b.unread ++ tail = payloads.flatMap framed) :
    ∃ taken left b', payloads = taken ++ left ∧ b.drain = (taken.map .ok, b') ∧
      b'.next = .wait b' ∧ b'.Announced ∧ b'.unread ++ tail = left.flatMap framed := by
  induction payloads generalizing b with
  | nil =>
    obtain ⟨unread, none⟩ := List.append_eq_nil_iff.mp h
    obtain rfl := eq_of_unread_eq_nil unread
    exact ⟨[], [], {}, rfl, drain_of_wait rfl, rfl, announced, h⟩
  | cons p ps ih =>
    rw [List.forall_mem_cons] at small
    rw [List.flatMap_cons] at h
    obtain ⟨r, unread, later⟩ | ⟨r, frame, more⟩ := arrived_or_partial h
    · -- What is unread behind the frame begins the frames that are left.
      have next := next_of_framed announced small.1 unread
      obtain ⟨taken, left, b', rfl, drained, settled⟩ := ih (announced_none r) small.2 later
      refine ⟨p :: taken, left, b', rfl, ?_, settled⟩
      rw [drain_of_payload next, drained, List.map_cons]
    · obtain ⟨b', next⟩ := next_of_partial announced small.1 frame more
      obtain ⟨unread, announced', settled⟩ := next_wait next
      refine ⟨[], p :: ps, b', rfl, drain_of_wait next, settled, announced' announced, ?_⟩
      rw [unread, h, List.flatMap_cons]

/-- What is made of a payload is its message, or what is wrong with its content. -/
theorem toMessage_ok (L : Limits) (p : Bytes) :
    toMessage L (.ok p) = (Message.decode L p).mapError .content := by
  rw [toMessage]
  cases Message.decode L p <;> rfl

/-- A receiver that waits with unread bytes takes the frames of a stream that goes on with the
chunks. -/
theorem receiveAll_framed (L : Limits) {payloads chunks : List Bytes} (waits : b.next = .wait b)
    (announced : b.Announced) (small : ∀ p ∈ payloads, p.length ≤ maxPayload)
    (h : b.unread ++ chunks.flatten = payloads.flatMap framed) :
    receiveAll L b chunks = (payloads.map fun p => (Message.decode L p).mapError .content, {}) := by
  -- From one chunk to the next, the unread bytes and the chunks to come make up the frames that are
  -- left. Between them the buffer waits, so that with no chunk left there is no frame left either.
  induction chunks generalizing b payloads with
  | nil =>
    rw [List.flatten_nil, List.append_nil] at h
    cases payloads with
    | nil =>
      obtain rfl := eq_of_unread_eq_nil h
      rfl
    | cons p ps =>
      -- The first frame would be complete, and the receiver would not wait for it.
      rw [List.forall_mem_cons] at small
      rw [next_of_framed announced small.1 h] at waits
      cases waits
  | cons chunk chunks ih =>
    have stream : unread { b with bytes := b.bytes ++ chunk } ++ chunks.flatten =
        payloads.flatMap framed := by
      rw [unread_received, List.append_assoc, ← List.flatten_cons, h]
    obtain ⟨taken, left, b', rfl, drained, waits', announced', later⟩ :=
      drain_framed (announced.received chunk) small stream
    have rest := ih waits' announced' (fun p mem => small p (List.mem_append_right _ mem)) later
    rw [receiveAll, receive, drained]
    simp only [rest, List.map_append, List.map_map, Function.comp_def, toMessage_ok]

end FrameBuffer

namespace Message

/-! ### Sending -/

/-- The frames of the messages that have one, one behind another. -/
def frames (L : Limits) (ms : List Message) : Bytes :=
  (ms.filterMap fun m => (m.frame L).toOption).flatten

/-- A message that has a frame adds the frame to the buffer, and any other one adds nothing. -/
theorem run_encode (L : Limits) (m : Message) (buffer : Bytes) :
    (m.encode L).run.run buffer =
      ((m.frame L).map fun _ => (), buffer ++ ((m.frame L).toOption).getD []) := by
  rw [encode, frame]
  cases m.put L with
  | error fault =>
    rw [Except.toOption, Option.getD_none, List.append_nil]
    rfl
  | ok payload =>
    dsimp only
    by_cases long : maxPayload < payload.length
    · rw [if_pos long, if_pos long]
      rw [Except.toOption, Option.getD_none, List.append_nil]
      rfl
    · rw [if_neg long, if_neg long]
      rw [Except.toOption, Option.getD_some, framed, ← List.append_assoc]
      rfl

/-- The buffer of several messages has the frames of those that have one, in their order. -/
theorem run_encodeAll (L : Limits) (ms : List Message) (buffer : Bytes) :
    (encodeAll L ms).run buffer =
      (ms.map fun m => (m.frame L).map fun _ => (), buffer ++ frames L ms) := by
  induction ms generalizing buffer with
  | nil =>
    rw [encodeAll, List.mapM_nil, frames, List.filterMap_nil, List.flatten_nil, List.append_nil]
    rfl
  | cons m ms ih =>
    -- Each message finds the buffer as the one before has left it.
    have step : (encodeAll L (m :: ms)).run buffer =
        let (outcome, buffer) := (m.encode L).run.run buffer
        let (outcomes, buffer) := (encodeAll L ms).run buffer
        (outcome :: outcomes, buffer) := by
      rw [encodeAll, List.mapM_cons]
      rfl
    rw [step, run_encode]
    simp only [ih]
    cases h : m.frame L with
    | error fault => simp [frames, h, Except.toOption, Except.map]
    | ok frame => simp [frames, h, Except.toOption, Except.map]

/-- Messages that are sent one after another put their frames into the stream, and those that cannot
be sent leave no trace in it. However a stream of payloads within the limit is cut into chunks, the
receiver takes from it what each payload is read as, in their order, and has nothing left. -/
theorem stream_in_sync (L : Limits) :
    (∀ (ms : List Message) (buffer : Bytes),
      (encodeAll L ms).run buffer =
        (ms.map fun m => (m.frame L).map fun _ => (), buffer ++ frames L ms)) ∧
      ∀ payloads chunks : List Bytes, (∀ p ∈ payloads, p.length ≤ maxPayload) →
        chunks.flatten = payloads.flatMap framed →
        FrameBuffer.receiveAll L {} chunks =
          (payloads.map fun p => (decode L p).mapError .content, {}) := by
  constructor
  · exact run_encodeAll L
  · intro payloads chunks small stream
    exact FrameBuffer.receiveAll_framed L rfl (FrameBuffer.announced_none []) small stream

/-- A request that assigns a shape, which cannot be sent. -/
def shapeBatch : Message :=
  .batch ⟨false, [⟨0, none, .data (.assign "x" (.ofStore (.shape ⟨.raw, 1, none⟩))), none⟩]⟩

/-- The payloads of a request that is answered and of a file, and between them two that are no
messages. -/
def mixedPayloads : List Bytes := [[0x01], [0x7F], [], [0x04, 0, 0, 0, 0, 0, 0, 0, 1, 7]]

/-- The stream of these payloads, cut within a length, between a length and its payload, and within
a payload. -/
def cutStream : List Bytes :=
  [[0, 0], [0, 1, 0x01, 0, 0, 0, 1], [0x7F, 0, 0, 0, 0, 0, 0, 0, 10, 0x04, 0], [],
    [0, 0, 0, 0, 0, 0, 1, 7]]

/-- Between two messages that are sent, one that has no frame leaves no trace, and the payloads that
are no messages are told in their places. -/
theorem stream_in_sync_garbage :
    (encodeAll {} [.ping, shapeBatch, .file "" [7]]).run [] =
        ([.ok (), .error (.content .shapeOnly), .ok ()],
          [0, 0, 0, 1, 0x01, 0, 0, 0, 10, 0x04, 0, 0, 0, 0, 0, 0, 0, 1, 7]) ∧
      (∀ p ∈ mixedPayloads, p.length ≤ maxPayload) ∧
      cutStream.flatten = mixedPayloads.flatMap framed ∧
      FrameBuffer.receiveAll {} {} cutStream =
        ([.ok .ping, .error (.content (.unknownByte "message" 0x7F)),
          .error (.content (.endOfInput 1 0)), .ok (.file "" [7])], {}) := by
  have small : ∀ p ∈ mixedPayloads, p.length ≤ maxPayload := by decide
  have stream : cutStream.flatten = mixedPayloads.flatMap framed := by decide
  obtain ⟨sent, received⟩ := stream_in_sync {}
  refine ⟨?_, small, stream, ?_⟩
  · rw [sent]
    rfl
  · rw [received mixedPayloads cutStream small stream]
    rfl

end Message

end EngineLink
