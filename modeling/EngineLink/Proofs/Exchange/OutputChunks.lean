import Mathlib.Data.List.Induction
import EngineLink.Exchange.OutputBuffer

/-!
# Console output in chunks

Calls push texts into a buffer or take out what it has collected, and get chunks of output. However
they come one after another, no text is lost, doubled or moved: the chunks and the collected text
are together what has been pushed. The collected text stays within the capacity, and only a text
that is too large for the buffer by itself makes a chunk that is larger.

## Main definitions

* `OutputBuffer.Call`, `OutputBuffer.run` — calls, and the chunks that they return
* `OutputBuffer.pushed` — the texts that calls push
* `OutputBuffer.Kept` — what chunks and buffer have to do with the calls so far

## Main results

* `OutputBuffer.push_of_fits`, `OutputBuffer.push_of_full`, `OutputBuffer.push_of_large` — the ways
  in which a text is pushed
* `OutputBuffer.Kept.serve` — what one call keeps
* `OutputBuffer.bounded_and_lossless` — what holds after any calls
-/

namespace EngineLink.OutputBuffer

variable {b : OutputBuffer} {text : String}

/-! ### Taking out -/

theorem take_of_text_eq (empty : b.text = "") : b.take = (none, b) :=
  if_pos (String.isEmpty_iff.mpr empty)

theorem take_of_text_ne (visible : b.text ≠ "") :
    b.take = (some b.text, { b with text := "" }) :=
  if_neg fun empty => visible (String.isEmpty_iff.mp empty)

theorem text_take (b : OutputBuffer) : b.take.2.text = "" := by
  by_cases empty : b.text = ""
  · rwa [take_of_text_eq empty]
  · rw [take_of_text_ne empty]

theorem capacity_take (b : OutputBuffer) : b.take.2.capacity = b.capacity := by
  by_cases empty : b.text = ""
  · rw [take_of_text_eq empty]
  · rw [take_of_text_ne empty]

/-! ### Texts -/

theorem join_singleton (text : String) : String.join [text] = text := by
  rw [String.join_cons, String.join_nil, String.append_empty]

theorem ne_empty_of_lt_size {n : Nat} (large : n < text.utf8ByteSize) : text ≠ "" := by
  rintro rfl
  exact Nat.not_lt_zero n large

/-! ### Pushing -/

/-- A text joins what has been collected if there is room behind it. -/
theorem push_of_fits (room : b.text.utf8ByteSize + text.utf8ByteSize ≤ b.capacity) :
    b.push text = ([], { b with text := b.text ++ text }) := by
  have notFull : ¬b.capacity < b.text.utf8ByteSize + text.utf8ByteSize := Nat.not_lt.mpr room
  have notLarge : ¬b.capacity < text.utf8ByteSize := by omega
  simp [push, notFull, notLarge]

/-- Without room there, it is collected by itself once the rest has gone out. -/
theorem push_of_full (full : b.capacity < b.text.utf8ByteSize + text.utf8ByteSize)
    (fits : text.utf8ByteSize ≤ b.capacity) :
    b.push text = (b.take.1.toList, { b.take.2 with text := b.take.2.text ++ text }) := by
  simp [push, full, capacity_take, Nat.not_lt.mpr fits]

/-- A text that is too large for the buffer goes out behind the rest. -/
theorem push_of_large (large : b.capacity < text.utf8ByteSize) :
    b.push text = (b.take.1.toList ++ [text], b.take.2) := by
  have full : b.capacity < b.text.utf8ByteSize + text.utf8ByteSize := by omega
  simp [push, full, capacity_take, large]

/-! ### Calls -/

/-- A call on a buffer. -/
inductive Call where
  | push (text : String)
  | take
  deriving DecidableEq, Repr

/-- The texts that calls push, in order. -/
def pushed (calls : List Call) : List String :=
  calls.filterMap fun
    | .push text => some text
    | .take => none

@[simp] theorem pushed_append (calls more : List Call) :
    pushed (calls ++ more) = pushed calls ++ pushed more := List.filterMap_append

/-- The chunks that a call returns, and the buffer after it. -/
def serve (b : OutputBuffer) : Call → List String × OutputBuffer
  | .push text => b.push text
  | .take => (b.take.1.toList, b.take.2)

/-- The chunks that calls have returned so far, in order, and the buffer after them. -/
def run (b : OutputBuffer) (calls : List Call) : List String × OutputBuffer :=
  calls.foldl (fun (chunks, b) call => (chunks ++ (b.serve call).1, (b.serve call).2)) ([], b)

theorem run_concat (b : OutputBuffer) (calls : List Call) (call : Call) :
    b.run (calls ++ [call]) =
      ((b.run calls).1 ++ ((b.run calls).2.serve call).1, ((b.run calls).2.serve call).2) :=
  List.foldl_append

/-! ### What is kept -/

/-- The chunk is a text that some call pushes, and the chunks before it are together the texts that
were pushed before this call. -/
def PushedAfter (calls : List Call) (before : List String) (chunk : String) : Prop :=
  ∃ earlier, earlier ++ [.push chunk] <+: calls ∧ String.join before = String.join (pushed earlier)

theorem PushedAfter.append {calls : List Call} {before : List String} {chunk : String}
    (h : PushedAfter calls before chunk) (more : List Call) :
    PushedAfter (calls ++ more) before chunk := by
  obtain ⟨earlier, there, same⟩ := h
  exact ⟨earlier, there.trans (List.prefix_append ..), same⟩

/-- What the chunks so far and the buffer have to do with the calls so far. -/
structure Kept (bound : Nat) (calls : List Call) (chunks : List String) (b : OutputBuffer) :
    Prop where
  capacity : b.capacity = bound
  bounded : b.text.utf8ByteSize ≤ bound
  lossless : String.join chunks ++ b.text = String.join (pushed calls)
  visible : ∀ chunk ∈ chunks, chunk ≠ ""
  single : ∀ before chunk, before ++ [chunk] <+: chunks → bound < chunk.utf8ByteSize →
    PushedAfter calls before chunk

namespace Kept

variable {bound : Nat} {calls : List Call} {chunks : List String}

theorem ofCapacity (capacity : Nat) : Kept (max capacity 1) [] [] (.ofCapacity capacity) where
  capacity := rfl
  bounded := Nat.zero_le _
  lossless := rfl
  visible := by simp
  single := by simp

/-- What has been collected becomes a chunk, which is within the capacity. -/
theorem take (h : Kept bound calls chunks b) :
    Kept bound calls (chunks ++ b.take.1.toList) b.take.2 := by
  by_cases empty : b.text = ""
  · rw [take_of_text_eq empty, Option.toList_none, List.append_nil]
    exact h
  · rw [take_of_text_ne empty, Option.toList_some]
    refine ⟨h.capacity, Nat.zero_le _, ?_, ?_, fun before chunk part large => ?_⟩
    · rw [String.join_append, join_singleton, String.append_empty]
      exact h.lossless
    · exact List.forall_mem_append.mpr ⟨h.visible, List.forall_mem_singleton.mpr empty⟩
    · obtain last | part := List.prefix_concat_iff.mp part
      · obtain ⟨-, rfl⟩ : before = chunks ∧ chunk = b.text := by simpa using last
        exact absurd h.bounded (Nat.not_le.mpr large)
      · exact h.single before chunk part large

/-- A call that pushes nothing. -/
theorem idle (h : Kept bound calls chunks b) : Kept bound (calls ++ [.take]) chunks b where
  capacity := h.capacity
  bounded := h.bounded
  lossless := by
    rw [pushed_append, String.join_append]
    simpa [pushed] using h.lossless
  visible := h.visible
  single before chunk part large := (h.single before chunk part large).append _

/-- A text joins what has been collected. -/
theorem collect (h : Kept bound calls chunks b)
    (room : b.text.utf8ByteSize + text.utf8ByteSize ≤ bound) :
    Kept bound (calls ++ [.push text]) chunks { b with text := b.text ++ text } where
  capacity := h.capacity
  bounded := by rwa [String.utf8ByteSize_append]
  lossless := by
    rw [← String.append_assoc, h.lossless, pushed_append, String.join_append]
    simp [pushed]
  visible := h.visible
  single before chunk part large := (h.single before chunk part large).append _

/-- A text beyond the capacity becomes a chunk of its own when nothing is collected. -/
theorem send (h : Kept bound calls chunks b) (empty : b.text = "")
    (large : bound < text.utf8ByteSize) :
    Kept bound (calls ++ [.push text]) (chunks ++ [text]) b where
  capacity := h.capacity
  bounded := h.bounded
  lossless := by
    have before := h.lossless
    rw [empty, String.append_empty] at before ⊢
    rw [String.join_append, before, pushed_append, String.join_append]
    rfl
  visible := List.forall_mem_append.mpr
    ⟨h.visible, List.forall_mem_singleton.mpr (ne_empty_of_lt_size large)⟩
  single before chunk part beyond := by
    obtain last | part := List.prefix_concat_iff.mp part
    · -- The new chunk: nothing is collected, so that all texts before it have been returned.
      obtain ⟨rfl, rfl⟩ : before = chunks ∧ chunk = text := by simpa using last
      refine ⟨calls, List.prefix_rfl, ?_⟩
      rw [← h.lossless, empty, String.append_empty]
    · exact (h.single before chunk part beyond).append _

/-- A pushed text is collected or sent, if there is no room once the collected text has gone out. -/
theorem push (h : Kept bound calls chunks b) (text : String) :
    Kept bound (calls ++ [.push text]) (chunks ++ (b.push text).1) (b.push text).2 := by
  by_cases full : b.capacity < b.text.utf8ByteSize + text.utf8ByteSize
  · -- The collected text goes out in both cases, and leaves the whole buffer to the new one.
    by_cases large : b.capacity < text.utf8ByteSize
    · rw [push_of_large large, ← List.append_assoc]
      exact h.take.send (text_take b) (h.capacity ▸ large)
    · have fits := Nat.not_lt.mp large
      rw [push_of_full full fits]
      refine h.take.collect ?_
      rw [text_take, String.utf8ByteSize_empty, Nat.zero_add, ← h.capacity]
      exact fits
  · have room := Nat.not_lt.mp full
    rw [push_of_fits room, List.append_nil]
    exact h.collect (h.capacity ▸ room)

/-- Every call keeps this. -/
theorem serve (h : Kept bound calls chunks b) (call : Call) :
    Kept bound (calls ++ [call]) (chunks ++ (b.serve call).1) (b.serve call).2 := by
  cases call with
  | push text => exact h.push text
  | take => exact h.take.idle

/-- After any calls on a new buffer it is so. -/
theorem run (capacity : Nat) (calls : List Call) :
    Kept (max capacity 1) calls ((OutputBuffer.ofCapacity capacity).run calls).1
      ((OutputBuffer.ofCapacity capacity).run calls).2 := by
  induction calls using List.reverseRecOn with
  | nil => exact .ofCapacity capacity
  | append_singleton calls call ih =>
    rw [run_concat]
    exact ih.serve call

end Kept

/-- After any calls on a new buffer, the collected text is within the capacity; the chunks returned
so far and the collected text are together the texts that were pushed, in their order; no chunk is
empty; and a chunk beyond the capacity is exactly one pushed text, before which just the texts
pushed earlier have been returned. A buffer is one for at least one byte. -/
theorem bounded_and_lossless (capacity : Nat) (calls : List Call) :
    ∃ chunks b, (ofCapacity capacity).run calls = (chunks, b) ∧
      b.text.utf8ByteSize ≤ max capacity 1 ∧
      String.join chunks ++ b.text = String.join (pushed calls) ∧
      (∀ chunk ∈ chunks, chunk ≠ "") ∧
      ∀ before chunk, before ++ [chunk] <+: chunks → max capacity 1 < chunk.utf8ByteSize →
        ∃ earlier, earlier ++ [.push chunk] <+: calls ∧
          String.join before = String.join (pushed earlier) := by
  have kept := Kept.run capacity calls
  exact ⟨_, _, rfl, kept.bounded, kept.lossless, kept.visible, kept.single⟩

/-- The third text is too large for a buffer of two bytes. -/
def tightCalls : List Call := [.push "ab", .push "c", .push "0123", .take, .push "de"]

/-- It comes by itself, after the two texts that were collected before it. -/
theorem bounded_and_lossless_tight :
    ∃ chunks b, (ofCapacity 2).run tightCalls = (chunks, b) ∧ b.text.utf8ByteSize ≤ 2 ∧
      String.join chunks ++ b.text = String.join (pushed tightCalls) ∧
      ∃ earlier, earlier ++ [.push "0123"] <+: tightCalls ∧
        String.join ["ab", "c"] = String.join (pushed earlier) := by
  obtain ⟨chunks, b, reached, bounded, lossless, -, single⟩ := bounded_and_lossless 2 tightCalls
  have returned : (ofCapacity 2).run tightCalls = (["ab", "c", "0123"], ⟨"de", 2⟩) := by decide
  obtain ⟨rfl, rfl⟩ := Prod.mk.inj (returned.symm.trans reached)
  exact ⟨_, _, reached, bounded, lossless, single ["ab", "c"] "0123" List.prefix_rfl (by decide)⟩

end EngineLink.OutputBuffer
