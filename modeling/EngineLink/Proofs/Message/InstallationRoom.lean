import EngineLink.Proofs.Message.RoundTrip
import EngineLink.Proofs.Wire.Stable

/-!
# Room for installation requests

A position without a path and a reference to the source takes 17 bytes, but the reader of the
positions in an element asks for 20 bytes for each of them before it reads the first. What a longer
position takes beyond that makes up for it, and so does whatever follows the positions. Where all of
this is not enough, at the end of the input, a request is refused that has been written in full.

## Main definitions

* `Reader.ReadsIf` — a reader succeeds under a condition, and finds the input too short otherwise
* `TracepointPosition.size` — the number of bytes of a position
* `InstallationRequest.Roomy` — there are as many bytes as the reader asks for in each element

## Main results

* `InstallationRequest.readsIf_get` — a request is read back if and only if it is roomy
* `InstallationRequest.roomy_of_located` — with paths or references it is roomy
* `InstallationRequest.read_iff_roomy` — the same, also within the last item of a batch
-/

namespace EngineLink

open Wire

/-! ### Reading under a condition -/

namespace Reader

variable {α β : Type} {r : Reader α} {f : α → Reader β} {P Q : Prop} {a b input rest mid : Bytes}
  {x : α} {y : β}

/-- The reader gives a result if a condition holds, and finds the input too short if not. -/
def ReadsIf (r : Reader α) (P : Prop) (input : Bytes) (x : α) (rest : Bytes) : Prop :=
  (P → r input = .ok (x, rest)) ∧ (¬P → EndsEarly (r input))

namespace ReadsIf

theorem of_reads (h : r.Reads a x) (rest : Bytes) : r.ReadsIf True (a ++ rest) x rest :=
  ⟨fun _ => h rest, fun h => absurd trivial h⟩

/-- If the first step finds the input too short, the second one is not reached. -/
theorem bind (h : r.ReadsIf P input x mid) (h' : P → (f x).ReadsIf Q mid y rest) :
    (r >>= f).ReadsIf (P ∧ Q) input y rest := by
  have step : (r >>= f) input = (r input >>= fun p => f p.1 p.2) := rfl
  by_cases first : P
  · have both : (r >>= f) input = f x mid := by
      rw [step, h.1 first]
      rfl
    refine ⟨fun conditions => ?_, fun fails => ?_⟩
    · rw [both]
      exact (h' first).1 conditions.2
    · rw [both]
      exact (h' first).2 fun second => fails ⟨first, second⟩
  · refine ⟨fun conditions => absurd conditions.1 first, fun _ => ?_⟩
    obtain ⟨needed, remaining, left, early⟩ := h.2 first
    refine ⟨needed, remaining, left, ?_⟩
    rw [step, early]
    rfl

/-- What is read in any case comes last. -/
theorem bind_reads (h : r.ReadsIf P input x (b ++ rest)) (h' : (f x).Reads b y) :
    (r >>= f).ReadsIf P input y rest := by
  have both := h.bind fun _ => of_reads h' rest
  rwa [and_true] at both

theorem bind_pure (h : r.ReadsIf P input x rest) (g : α → β) :
    (r >>= fun x => pure (g x)).ReadsIf P input (g x) rest :=
  h.bind_reads (.of_pure (g x))

theorem map (h : r.ReadsIf P input x rest) (g : α → β) :
    (g <$> r).ReadsIf P input (g x) rest := by
  rw [← bind_pure_comp]
  exact h.bind_pure g

end ReadsIf

/-- What is read in any case comes first. -/
theorem Reads.bind_if (h : r.Reads a x) (h' : (f x).ReadsIf P input y rest) :
    (r >>= f).ReadsIf P (a ++ input) y rest := by
  have both := (ReadsIf.of_reads h input).bind fun _ => h'
  rwa [true_and] at both

/-- A reader that is run once more at the end. -/
theorem times_succ_last (r : Reader α) (n : Nat) :
    r.times (n + 1) = (do
      let xs ← r.times n
      let x ← r
      pure (xs ++ [x])) := by
  induction n with
  | zero => simp [times]
  | succ n ih =>
    show (do let x ← r; let xs ← r.times (n + 1); pure (x :: xs)) =
      ((do let x ← r; let xs ← r.times n; pure (x :: xs)) >>= fun xs => do
        let x ← r
        pure (xs ++ [x]))
    simp only [ih, bind_assoc, pure_bind, List.cons_append]

end Reader

namespace Wire

open Reader

/-- A count is accepted if there are as many bytes as its elements are taken to need. -/
theorem readsIf_getCount (what : String) {size n : Nat} (small : size ≤ countBound)
    (h : n < countBound) (input : Bytes) :
    (getCount what size).ReadsIf (n * size ≤ input.length) (putCount n ++ input) n input := by
  refine (reads_getI32 (UInt32.ofNat n).toInt32).bind_if ?_
  -- The check asks for less than the largest number of bytes that it can ask for.
  have exact : min (n * size) maxNeed = n * size := by
    have product := Nat.mul_le_mul (Nat.le_of_lt h) small
    exact Nat.min_eq_left (Nat.le_trans product (by decide))
  rw [checkCount_ofNat what size h, exact]
  have check : (need (n * size)).ReadsIf (n * size ≤ input.length) input () input := by
    refine ⟨fun room => if_neg (Nat.not_lt.mpr room), fun short => ?_⟩
    exact ⟨n * size, input.length, input, if_pos (Nat.not_le.mp short)⟩
  exact check.bind_pure fun _ => n

end Wire

open Reader

/-! ### Positions and elements -/

/-- The number of bytes that are written for a position. -/
def TracepointPosition.size (p : TracepointPosition) : Nat :=
  17 + 4 * p.index.length + if p.srcref.isSome then 24 else 0

theorem TracepointPosition.length_put (p : TracepointPosition) :
    (WireForm.put p).length = p.size := by
  have type : (WireForm.put p.type).length = 4 := rfl
  have index : (p.index.flatMap putI32).length = 4 * p.index.length := by
    simp [List.length_flatMap, List.map_const', Nat.mul_comm]
  have srcref : (WireForm.put p.srcref).length = 1 + if p.srcref.isSome then 24 else 0 := by
    cases p.srcref <;> rfl
  show (WireForm.put p.type ++ putI64 p.id ++ putInts p.index ++ WireForm.put p.srcref).length = _
  simp only [List.length_append, length_putI64, putInts, length_putCount, size]
  omega

/-- The number of bytes that are written for positions one after another. -/
def TracepointPosition.sizeAll : List TracepointPosition → Nat
  | [] => 0
  | p :: ps => p.size + sizeAll ps

theorem TracepointPosition.length_put_all (ps : List TracepointPosition) :
    (ps.flatMap WireForm.put).length = sizeAll ps := by
  induction ps with
  | nil => rfl
  | cons p ps ih => rw [List.flatMap_cons, List.length_append, length_put, ih, sizeAll]

theorem ElementPositions.readsIf_get {e : ElementPositions} (fits : Fits e.lengths)
    (rest : Bytes) :
    (WireForm.get : Reader ElementPositions).ReadsIf
      (e.positions.length * 20 ≤ TracepointPosition.sizeAll e.positions + rest.length)
      (WireForm.put e ++ rest) e rest := by
  simp only [lengths, fits_append, fits_cons] at fits
  obtain ⟨file, element, count, paths⟩ := fits
  rw [← TracepointPosition.length_put_all, ← List.length_append]
  show ReadsIf _ _ ((WireForm.put e.file ++ putText e.elementId ++ WireForm.put e.srcref ++
    putCount e.positions.length ++ e.positions.flatMap WireForm.put) ++ rest) e rest
  simp only [List.append_assoc]
  refine (SourceFile.reads_get file).bind_if ?_
  refine (reads_getText element).bind_if ?_
  refine (SourceRef.reads_get? e.srcref).bind_if ?_
  refine (readsIf_getCount "tracepoint positions" (by decide) count _).bind_reads ?_
  refine (Reads.times fun p hp => TracepointPosition.reads_get ?_).bind_pure _
  exact paths _ (List.mem_map_of_mem hp)

namespace InstallationRequest

/-- There are as many bytes as the reader asks for in front of the positions of each element, given
the number of bytes behind the request. -/
def Roomy (r : InstallationRequest) (behind : Nat) : Prop :=
  ∀ before e after, r.elements = before ++ e :: after →
    e.positions.length * 20 ≤ TracepointPosition.sizeAll e.positions +
      (after.flatMap WireForm.put).length + behind

theorem roomy_nil (behind : Nat) : Roomy ⟨[]⟩ behind := by
  intro before e after split
  simp at split

theorem roomy_cons {e : ElementPositions} {es : List ElementPositions} {behind : Nat} :
    Roomy ⟨e :: es⟩ behind ↔
      e.positions.length * 20 ≤ TracepointPosition.sizeAll e.positions +
        ((es.flatMap WireForm.put).length + behind) ∧ Roomy ⟨es⟩ behind := by
  constructor
  · intro roomy
    refine ⟨?_, fun before e' after split => ?_⟩
    · rw [← Nat.add_assoc]
      exact roomy [] e es rfl
    · exact roomy (e :: before) e' after (congrArg (e :: ·) split)
  · rintro ⟨first, others⟩ before e' after split
    -- The element is the first one, or one of the others.
    cases before with
    | nil =>
      obtain ⟨rfl, rfl⟩ := List.cons.inj split
      rw [Nat.add_assoc]
      exact first
    | cons => exact others _ e' after (List.cons.inj split).2

/-- Positions with a path or a reference need nothing behind them. -/
theorem roomy_of_located {r : InstallationRequest} (located : ∀ p ∈ r.positions, p.Located)
    (behind : Nat) : r.Roomy behind := by
  intro before e after split
  have member : e ∈ r.elements := split ▸ List.mem_append_right before List.mem_cons_self
  have room := room_flatMap fun p (inside : p ∈ e.positions) =>
    TracepointPosition.le_length_put (located p (List.mem_flatMap.mpr ⟨e, member, inside⟩))
  rw [TracepointPosition.length_put_all] at room
  omega

theorem readsIf_times {es : List ElementPositions} (fits : ∀ e ∈ es, Fits e.lengths)
    (rest : Bytes) :
    ((WireForm.get : Reader ElementPositions).times es.length).ReadsIf (Roomy ⟨es⟩ rest.length)
      (es.flatMap WireForm.put ++ rest) es rest := by
  induction es with
  | nil =>
    have always := ReadsIf.of_reads (.of_pure ([] : List ElementPositions)) rest
    rwa [← iff_true_intro (roomy_nil rest.length)] at always
  | cons e es ih =>
    rw [List.forall_mem_cons] at fits
    rw [roomy_cons, ← List.length_append, List.flatMap_cons, List.append_assoc]
    refine (ElementPositions.readsIf_get fits.1 _).bind fun _ => ?_
    exact (ih fits.2).bind_pure _

/-- A request is read back if there are as many bytes as the reader asks for, and is refused if not,
whatever follows. -/
theorem readsIf_get {r : InstallationRequest} (fits : Fits r.lengths) (rest : Bytes) :
    (WireForm.get : Reader InstallationRequest).ReadsIf (r.Roomy rest.length)
      (WireForm.put r ++ rest) r rest := by
  rw [lengths, fits_cons, fits_flatMap] at fits
  show ReadsIf _ _ ((putCount r.elements.length ++ r.elements.flatMap WireForm.put) ++ rest) r rest
  rw [List.append_assoc]
  -- No element takes less than the reader asks for, so only positions can be too many.
  have room : r.elements.length * 21 ≤ (r.elements.flatMap WireForm.put ++ rest).length := by
    have elements := room_flatMap fun e (_ : e ∈ r.elements) => e.le_length_put
    rw [List.length_append]
    omega
  have small : 21 ≤ countBound := by decide
  have count := readsIf_getCount "installation elements" small fits.1
    (r.elements.flatMap WireForm.put ++ rest)
  rw [iff_true_intro room] at count
  rw [← true_and (r.Roomy rest.length)]
  exact count.bind fun _ => (readsIf_times fits.2 rest).map InstallationRequest.mk

end InstallationRequest

/-! ### Batches -/

theorem Item.putAll_append (L : Limits) (items others : List Item) :
    putAll L (items ++ others) = (do
      let a ← putAll L items
      let b ← putAll L others
      .ok (a ++ b)) := by
  induction items with
  | nil => cases h : putAll L others <;> simp [putAll, h] <;> rfl
  | cons item items ih =>
    rw [List.cons_append, putAll, putAll, ih]
    cases item.put L <;> cases putAll L items <;> cases putAll L others <;> simp [bind, Except.bind]

namespace InstallationRequest

variable {L : Limits} {r : InstallationRequest} {slot : SlotId} {id : Option RequestId}
  {answer : Option Answer}

/-- An item that asks for an installation. -/
def item (r : InstallationRequest) (slot : SlotId) (id : Option RequestId)
    (answer : Option Answer) : Item :=
  ⟨slot, id, .debug (.installTracepoints r), answer⟩

/-- A batch whose last item asks for an installation. -/
def batch (r : InstallationRequest) (busy : Bool) (items : List Item) (slot : SlotId)
    (id : Option RequestId) (answer : Option Answer) : Message :=
  .batch ⟨busy, items ++ [r.item slot id answer]⟩

/-- An item that could be sent if it asked for nothing is read back if there are as many bytes
behind the request as its reader asks for. -/
theorem readsIf_getItem (fits : Fits r.lengths)
    (others : Fits ((item ⟨[]⟩ slot id answer).lengths L))
    (sendable : (item ⟨[]⟩ slot id answer).Sendable L) :
    ∃ bytes answerBytes, (r.item slot id answer).put L = .ok bytes ∧
      Answer.put? L answer = .ok answerBytes ∧ 10 ≤ bytes.length ∧
      ∀ rest, (Item.get L).ReadsIf (r.Roomy (answerBytes ++ rest).length) (bytes ++ rest)
        ((r.item slot id answer).normalize L) rest := by
  obtain ⟨answerBytes, written, read⟩ := Item.readsBack_answer others sendable
  refine ⟨putU32 slot ++ Item.putId id ++ 0x30 :: 0x05 :: WireForm.put r ++ answerBytes,
    answerBytes, ?_, written, ?_, fun rest => ?_⟩
  · show (do .ok (_ ++ (← Answer.put? L answer))) = _
    rw [show Answer.put? L answer = .ok answerBytes from written]
    rfl
  · simp only [List.length_append, List.length_cons, length_putU32, Item.putId]
    omega
  · have command : (WireForm.get : Reader DebugCommand).ReadsIf
        (r.Roomy (answerBytes ++ rest).length) (0x05 :: WireForm.put r ++ (answerBytes ++ rest))
        (.installTracepoints r) (answerBytes ++ rest) :=
      (reads_getU8 0x05).bind_if ((readsIf_get fits _).map _)
    have kind : (ItemKind.get L).ReadsIf (r.Roomy (answerBytes ++ rest).length)
        (0x30 :: 0x05 :: WireForm.put r ++ (answerBytes ++ rest))
        (.debug (.installTracepoints r)) (answerBytes ++ rest) :=
      (reads_getU8 0x30).bind_if (command.map _)
    simp only [List.append_assoc]
    refine (reads_getU32 slot).bind_if ?_
    refine (Item.reads_getId sendable.numbered).bind_if ?_
    exact kind.bind_reads (read.bind_pure _)

/-- A batch that could be sent if its last item asked for nothing is read back if there are as many
bytes behind the request as its reader asks for. -/
theorem readsIf_getBatch {busy : Bool} {items : List Item} (fits : Fits r.lengths)
    (sendable : (batch ⟨[]⟩ busy items slot id answer).Sendable L) :
    ∃ payload answerBytes, (r.batch busy items slot id answer).put L = .ok payload ∧
      Answer.put? L answer = .ok answerBytes ∧
      (Message.get L).ReadsIf (r.Roomy answerBytes.length) payload
        ((r.batch busy items slot id answer).normalize L) [] := by
  obtain ⟨lengths, each⟩ := sendable
  rw [batch, Message.lengths, fits_cons, List.flatMap_append, fits_append,
    List.flatMap_singleton, List.length_append, List.length_singleton] at lengths
  rw [batch, Message.items, List.forall_mem_append, List.forall_mem_singleton] at each
  obtain ⟨count, itemsFit, lastFits⟩ := lengths
  obtain ⟨itemsBytes, itemsWritten, itemsRead, itemsSize⟩ := Item.readsBack_putAll itemsFit each.1
  obtain ⟨bytes, answerBytes, written, answerWritten, size, read⟩ :=
    readsIf_getItem fits lastFits each.2
  refine ⟨0x03 :: (putBool busy ++ (putCount (items.length + 1) ++ (itemsBytes ++ bytes))),
    answerBytes, ?_, answerWritten, ?_⟩
  · rw [batch, Message.put, Item.putAll_append, itemsWritten, Item.putAll, written,
      List.length_append]
    simp [Item.putAll, bind, Except.bind]
  · -- The items take as many bytes as their number asks for, roomy or not.
    have room : (items.length + 1) * 10 ≤ (itemsBytes ++ bytes).length := by
      rw [List.length_append]
      omega
    have small : 10 ≤ countBound := by decide
    have counted := readsIf_getCount "command batch" small count (itemsBytes ++ bytes)
    have last := read []
    rw [iff_true_intro room] at counted
    rw [List.append_nil, List.append_nil] at last
    rw [← true_and (r.Roomy answerBytes.length)]
    refine (reads_getU8 0x03).bind_if ?_
    refine (reads_getBool busy).bind_if ?_
    refine counted.bind fun _ => ?_
    rw [times_succ_last, batch, Message.normalize, List.map_append]
    exact (itemsRead.bind_if (last.bind_pure _)).bind_pure _

/-- A request is read back, with nothing of what follows it taken away, if there is as much room as
its reader asks for, and is refused otherwise. So is a batch that asks for it in the last item,
where only the answer of the item makes room. -/
theorem read_iff_roomy (fits : Fits r.lengths) :
    (∀ rest : Bytes,
        (r.Roomy rest.length →
          (WireForm.get : Reader InstallationRequest) (WireForm.put r ++ rest) = .ok (r, rest)) ∧
        (¬r.Roomy rest.length →
          EndsEarly ((WireForm.get : Reader InstallationRequest) (WireForm.put r ++ rest)))) ∧
      ∀ (L : Limits) (busy : Bool) (items : List Item) (slot : SlotId) (id : Option RequestId)
        (answer : Option Answer), (batch ⟨[]⟩ busy items slot id answer).Sendable L →
        ∃ payload answerBytes, (r.batch busy items slot id answer).put L = .ok payload ∧
          Answer.put? L answer = .ok answerBytes ∧
          (r.Roomy answerBytes.length →
            Message.decode L payload = .ok ((r.batch busy items slot id answer).normalize L)) ∧
          (¬r.Roomy answerBytes.length →
            ∃ needed left, Message.decode L payload = .error (.endOfInput needed left)) := by
  refine ⟨readsIf_get fits, fun L busy items slot id answer sendable => ?_⟩
  obtain ⟨payload, answerBytes, written, answerWritten, roomy, short⟩ :=
    readsIf_getBatch fits sendable
  refine ⟨payload, answerBytes, written, answerWritten, fun room => ?_, fun tight => ?_⟩
  · rw [Message.decode, Reader.all, roomy room]
  · obtain ⟨needed, left, rest, early⟩ := short tight
    refine ⟨needed, left, ?_⟩
    rw [Message.decode, Reader.all, early]

/-- A breakpoint at the start of a function. -/
def atRoot : InstallationRequest :=
  ⟨[⟨⟨none, none, 0⟩, "f", none, [⟨.functionBreakpoint, 1, [], none⟩]⟩]⟩

/-- Three bytes are missing for a single position without a path. -/
theorem roomy_atRoot (behind : Nat) : atRoot.Roomy behind ↔ 3 ≤ behind := by
  rw [atRoot, roomy_cons, iff_true_intro (roomy_nil behind)]
  simp [TracepointPosition.sizeAll, TracepointPosition.size]
  omega

/-- A request for a breakpoint at the start of a function is refused at the end of the input, and in
the last item of a batch. -/
theorem refused_at_end :
    Fits atRoot.lengths ∧
      (∃ left, (WireForm.get : Reader InstallationRequest) (WireForm.put atRoot) =
        .error ⟨.endOfInput 20 17, left⟩) ∧
      ∃ payload, (atRoot.batch false [] 0 (some 7) none).put {} = .ok payload ∧
        Message.decode {} payload = .error (.endOfInput 20 18) :=
  ⟨by decide +kernel, ⟨_, rfl⟩, _, rfl, rfl⟩

/-- With three bytes behind it the request is read back, but an item without an answer has only one
byte behind it. -/
theorem read_iff_roomy_atRoot :
    Fits atRoot.lengths ∧
      (WireForm.get : Reader InstallationRequest) (WireForm.put atRoot ++ [0, 0, 0]) =
        .ok (atRoot, [0, 0, 0]) ∧
      ∃ payload, (atRoot.batch false [] 0 (some 7) none).put {} = .ok payload ∧
        ∃ needed left, Message.decode {} payload = .error (.endOfInput needed left) := by
  have fits : Fits atRoot.lengths := by decide +kernel
  have sendable : (batch ⟨[]⟩ false [] 0 (some 7) none).Sendable {} :=
    ⟨by decide +kernel, by decide +kernel⟩
  refine ⟨fits, ((read_iff_roomy fits).1 [0, 0, 0]).1 ((roomy_atRoot 3).mpr (by decide)), ?_⟩
  obtain ⟨payload, answerBytes, written, none, -, short⟩ :=
    (read_iff_roomy fits).2 {} false [] 0 (some 7) none sendable
  obtain rfl : answerBytes = [0x00] := (Except.ok.inj none).symm
  refine ⟨payload, written, short ?_⟩
  rw [roomy_atRoot]
  decide

end InstallationRequest

end EngineLink
