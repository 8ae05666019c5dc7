import EngineLink.Message.Form
import EngineLink.Proofs.Debug.TracepointForms
import EngineLink.Proofs.Value.RoundTrip
import Mathlib.Tactic.MkIffOfInductiveProp

/-!
# Messages are read back

A message that can be sent is written, and read back as its normal form. What is asked of it is
what the layout cannot express: request numbers that are not negative, lengths that are counts,
values with payload in requests, stacks in their order and positions that are told.

## Main definitions

* `Message.lengths` — the lengths that are written for a message
* `Item.Sendable`, `Message.Sendable` — what is asked of items and messages

## Main results

* `Message.roundTrip` — the round trip of messages
-/

namespace EngineLink

open Wire Reader

variable {L : Limits}

/-! ### Debug commands and replies -/

/-- The lengths that are written for a command. -/
def DebugCommand.lengths : DebugCommand → List Nat
  | setDebug r => r.lengths
  | installTracepoints r => r.lengths
  | installFlagTracepoints r => [r.tracepoints.length]
  | updateTracepoints u => u.lengths
  | notifyEvent e => e.lengths
  | _ => []

/-- The positions that a command wants. -/
def DebugCommand.positions : DebugCommand → List TracepointPosition
  | installTracepoints r => r.positions
  | _ => []

theorem DebugCommand.reads_get {c : DebugCommand} (fits : Fits c.lengths)
    (located : ∀ p ∈ c.positions, p.Located) :
    (WireForm.get : Reader DebugCommand).Reads (WireForm.put c) c.normalize := by
  cases c with
  | loadFrameList => exact reads_tagged 0x01 (.of_pure _)
  | loadFrameContext r => exact reads_tagged 0x02 (r.reads_get.map _)
  | setDebug r => exact reads_tagged 0x03 ((SetDebugRequest.reads_get fits).map _)
  | requestSuspend => exact reads_tagged 0x04 (.of_pure _)
  | installTracepoints r =>
    exact reads_tagged 0x05 ((InstallationRequest.reads_get fits located).map _)
  | installFlagTracepoints r =>
    have count : r.tracepoints.length < countBound := fits _ List.mem_cons_self
    exact reads_tagged 0x06 ((FlagInstallationRequest.reads_get count).map _)
  | control r => exact reads_tagged 0x07 (r.reads_get.map _)
  | setEnablement e => exact reads_tagged 0x08 (e.reads_get.map _)
  | resetFilter f => exact reads_tagged 0x09 (f.reads_get.map _)
  | updateTracepoints u => exact reads_tagged 0x0A ((TracepointUpdate.reads_get fits).map _)
  | notifyEvent e => exact reads_tagged 0x11 ((TracepointEvent.reads_get fits).map _)

/-- The lengths that are written for a reply. -/
def DebugReply.lengths : DebugReply → List Nat
  | callStack s => s.lengths
  | frameContext c => c.lengths
  | installation r => [r.results.length]
  | _ => []

/-- The stack of a reply. -/
def DebugReply.callStack? : DebugReply → Option CallStack
  | callStack s => some s
  | _ => none

theorem DebugReply.reads_get {r : DebugReply} (fits : Fits r.lengths)
    (numbered : ∀ s ∈ r.callStack?, s.Numbered) :
    (WireForm.get : Reader DebugReply).Reads (WireForm.put r) r := by
  cases r with
  | callStack s => exact reads_tagged 1 ((CallStack.reads_get fits (numbered s rfl)).map _)
  | frameContext c => exact reads_tagged 2 ((FrameContext.reads_get fits).map _)
  | setDebug r => exact reads_tagged 3 (r.reads_get.map _)
  | control r => exact reads_tagged 4 (r.reads_get.map _)
  | installation r =>
    have count : r.results.length < countBound := fits _ List.mem_cons_self
    exact reads_tagged 5 ((InstallationReport.reads_get count).map _)

/-! ### Values in messages -/

/-- A value with payload is read back with its references. -/
theorem Value.readsBack_full {v : Value} (fits : Wire.Fits ((v.degrade L).lengths .full))
    (plain : v.hasShape = false) (within : v.ListsWithin L.maxList) :
    (Value.get L).ReadsBack (v.put L .full) (v.degrade L) := by
  have refused := refusedIf_encode (L := L) .full v
  rw [hasShape_degrade plain] at refused
  obtain ⟨bytes, written⟩ := refused
  exact ⟨bytes, written, reads_put written fits within.degrade nofun⟩

/-- A value in an answer is read back in the form that its shapes decide. -/
theorem Value.readsBack_coding {v : Value}
    (fits : Wire.Fits ((v.degrade L).lengths (Answer.coding v)))
    (within : v.ListsWithin L.maxList) (complete : v.ShapesComplete) :
    (Value.get L).ReadsBack (v.put L (Answer.coding v)) (v.normalize L) := by
  rw [Answer.coding] at fits ⊢
  rw [normalize]
  by_cases shape : v.hasShape = true
  · rw [if_pos shape] at fits ⊢
    rw [if_pos shape]
    obtain ⟨bytes, written⟩ := refusedIf_encode (L := L) .shape v
    exact ⟨bytes, written, reads_put written fits within.degrade fun _ => complete.degrade⟩
  · rw [if_neg shape] at fits ⊢
    rw [if_neg shape]
    exact readsBack_full fits (Bool.eq_false_iff.mpr shape) within

/-- The lengths that are written for a request. -/
def DataRequest.lengths (L : Limits) : DataRequest → List Nat
  | evalVoid expr | evalData expr | evalShape expr => [expr.utf8ByteSize]
  | resolveData _ | resolveShape _ => []
  | assign target value => target.utf8ByteSize :: (value.degrade L).lengths .full

/-- The value in a request. -/
def DataRequest.value? : DataRequest → Option Value
  | assign _ value => some value
  | _ => none

theorem DataRequest.readsBack {r : DataRequest} (fits : Fits (r.lengths L))
    (plain : ∀ v ∈ r.value?, v.hasShape = false)
    (within : ∀ v ∈ r.value?, v.ListsWithin L.maxList) :
    (DataRequest.get L).ReadsBack (r.put L) (r.normalize L) := by
  cases r with
  | evalVoid expr =>
    exact ⟨_, rfl, reads_tagged 0x01 ((reads_getText (fits _ List.mem_cons_self)).map _)⟩
  | evalData expr =>
    exact ⟨_, rfl, reads_tagged 0x02 ((reads_getText (fits _ List.mem_cons_self)).map _)⟩
  | evalShape expr =>
    exact ⟨_, rfl, reads_tagged 0x03 ((reads_getText (fits _ List.mem_cons_self)).map _)⟩
  | resolveData handle => exact ⟨_, rfl, reads_tagged 0x04 ((reads_getU64 handle).map _)⟩
  | resolveShape handle => exact ⟨_, rfl, reads_tagged 0x05 ((reads_getU64 handle).map _)⟩
  | assign target value =>
    rw [lengths, fits_cons] at fits
    obtain ⟨bytes, written, read⟩ := Value.readsBack_full fits.2 (plain _ rfl) (within _ rfl)
    refine ⟨_, by rw [DataRequest.put, written]; rfl, reads_tagged 0x06 ?_⟩
    exact (reads_getText fits.1).bind (read.bind_pure _)

/-! ### Kinds -/

namespace ItemKind

/-- The lengths that are written for a kind. -/
def lengths (L : Limits) : ItemKind → List Nat
  | consoleRead prompt _ => [prompt.utf8ByteSize]
  | writeOut text | writeErr text | notice text => [text.utf8ByteSize]
  | data request => request.lengths L
  | extUi name arg _ =>
    name.utf8ByteSize :: (arg.map fun v => (v.degrade L).lengths .full).getD []
  | debug command => command.lengths

/-- The value in a request. -/
def value? : ItemKind → Option Value
  | data request => request.value?
  | extUi _ arg _ => arg
  | _ => none

/-- The positions at which tracepoints are wanted. -/
def positions : ItemKind → List TracepointPosition
  | debug command => command.positions
  | _ => []

theorem readsBack {k : ItemKind} (fits : Fits (k.lengths L))
    (plain : ∀ v ∈ k.value?, v.hasShape = false)
    (within : ∀ v ∈ k.value?, v.ListsWithin L.maxList)
    (located : ∀ p ∈ k.positions, p.Located) :
    (ItemKind.get L).ReadsBack (k.put L) (k.normalize L) := by
  cases k with
  | consoleRead prompt addToHistory =>
    refine ⟨_, rfl, reads_tagged 0x01 ((reads_getText (fits _ List.mem_cons_self)).bind ?_)⟩
    exact (reads_getBool addToHistory).bind_pure _
  | writeOut text =>
    exact ⟨_, rfl, reads_tagged 0x02 ((reads_getText (fits _ List.mem_cons_self)).map _)⟩
  | writeErr text =>
    exact ⟨_, rfl, reads_tagged 0x03 ((reads_getText (fits _ List.mem_cons_self)).map _)⟩
  | notice text =>
    exact ⟨_, rfl, reads_tagged 0x04 ((reads_getText (fits _ List.mem_cons_self)).map _)⟩
  | data request =>
    obtain ⟨bytes, written, read⟩ := DataRequest.readsBack fits plain within
    exact ⟨_, by rw [put, written]; rfl, reads_tagged 0x10 (read.map _)⟩
  | extUi name arg wait =>
    rw [lengths, fits_cons] at fits
    cases arg with
    | none =>
      refine ⟨_, rfl, reads_tagged 0x20 ?_⟩
      simp only [List.append_assoc]
      refine (reads_getText fits.1).bind ?_
      refine (reads_getBool wait).bind ?_
      exact (reads_getBool false).bind_nil (.of_pure _)
    | some v =>
      obtain ⟨bytes, written, read⟩ := Value.readsBack_full fits.2 (plain _ rfl) (within _ rfl)
      refine ⟨_, by rw [put, written]; rfl, reads_tagged 0x20 ?_⟩
      simp only [List.append_assoc]
      refine (reads_getText fits.1).bind ?_
      refine (reads_getBool wait).bind ?_
      refine (reads_getBool true).bind ?_
      exact (read.map some).bind_pure _
  | debug command =>
    exact ⟨_, rfl, reads_tagged 0x30 ((DebugCommand.reads_get fits located).map _)⟩

end ItemKind

/-! ### Answers -/

namespace Answer

/-- The lengths that are written for an answer. -/
def lengths (L : Limits) : Answer → List Nat
  | done => []
  | value v => (v.degrade L).lengths (coding v)
  | text s => [s.utf8ByteSize]
  | debug reply => reply.lengths
  | status s => textLengths? s.text

/-- The value in an answer. -/
def value? : Answer → Option Value
  | value v => some v
  | _ => none

/-- The stack in an answer. -/
def callStack? : Answer → Option CallStack
  | debug reply => reply.callStack?
  | _ => none

theorem readsBack? {answer : Option Answer} (fits : Fits ((answer.map (lengths L)).getD []))
    (within : ∀ a ∈ answer, ∀ v ∈ a.value?, v.ListsWithin L.maxList)
    (complete : ∀ a ∈ answer, ∀ v ∈ a.value?, v.ShapesComplete)
    (numbered : ∀ a ∈ answer, ∀ s ∈ a.callStack?, s.Numbered) :
    (Answer.get? L).ReadsBack (Answer.put? L answer) (answer.map (·.normalize L)) := by
  cases answer with
  | none => exact ⟨_, rfl, reads_tagged 0x00 (.of_pure _)⟩
  | some a =>
    cases a with
    | done => exact ⟨_, rfl, reads_tagged 0x01 (.of_pure _)⟩
    | value v =>
      obtain ⟨bytes, written, read⟩ :=
        Value.readsBack_coding fits (within _ rfl v rfl) (complete _ rfl v rfl)
      exact ⟨_, by rw [put?, written]; rfl, reads_tagged 0x02 (read.map _)⟩
    | text s =>
      exact ⟨_, rfl, reads_tagged 0x03 ((reads_getText (fits _ List.mem_cons_self)).map _)⟩
    | debug reply =>
      exact ⟨_, rfl, reads_tagged 0x04 ((DebugReply.reads_get fits (numbered _ rfl)).map _)⟩
    | status s => exact ⟨_, rfl, reads_tagged 0x05 ((Status.reads_get fits).map _)⟩

end Answer

/-! ### Items -/

namespace Item

/-- The lengths that are written for an item. -/
def lengths (L : Limits) (item : Item) : List Nat :=
  item.kind.lengths L ++ (item.answer.map (Answer.lengths L)).getD []

/-- The values in an item: that of the request and that of the answer. -/
def values (item : Item) : List Value :=
  item.kind.value?.toList ++ (item.answer.bind Answer.value?).toList

/-- What is asked of an item, lengths apart, so that it is read back. -/
@[mk_iff]
structure Sendable (L : Limits) (item : Item) : Prop where
  /-- The number of the request is not negative as a signed number. -/
  numbered : item.id.all (·.toNat < countBound)
  /-- The value in the request has its payload. -/
  plain : ∀ v ∈ item.kind.value?, v.hasShape = false
  within : ∀ v ∈ item.values, v.ListsWithin L.maxList
  complete : ∀ v ∈ item.values, v.ShapesComplete
  stacked : ∀ s ∈ item.answer.bind Answer.callStack?, s.Numbered
  located : ∀ p ∈ item.kind.positions, p.Located

instance (L : Limits) (item : Item) : Decidable (item.Sendable L) :=
  decidable_of_iff' _ (sendable_iff L item)

theorem reads_getId {id : Option RequestId} (numbered : id.all (·.toNat < countBound)) :
    getId.Reads (putId id) id := by
  cases id with
  | none => exact (reads_getI32 (-1)).bind_nil (.of_pure none)
  | some n =>
    have fits : n.toNat < countBound := by simpa using numbered
    -- Numbers below the bound are not negative, unlike the mark of an absent one.
    have value : n.toInt32.toInt = n.toNat := by
      simpa using toInt_ofNat fits
    have known : n.toInt32 ≠ -1 := by
      intro absent
      rw [absent] at value
      have negative : (-1 : Int32).toInt = -1 := by decide
      omega
    have natural : 0 ≤ n.toInt32 := by
      rw [Int32.le_iff_toInt_le, value]
      simp
    refine (reads_getI32 n.toInt32).bind_nil ?_
    rw [if_neg known, if_pos natural]
    exact .of_pure _

theorem readsBack_kind {item : Item} (fits : Fits (item.lengths L)) (sendable : item.Sendable L) :
    (ItemKind.get L).ReadsBack (item.kind.put L) (item.kind.normalize L) := by
  obtain ⟨-, plain, within, -, -, located⟩ := sendable
  rw [lengths, fits_append] at fits
  simp only [values, List.forall_mem_append, Option.mem_toList] at within
  exact ItemKind.readsBack fits.1 plain within.1 located

theorem readsBack_answer {item : Item} (fits : Fits (item.lengths L))
    (sendable : item.Sendable L) :
    (Answer.get? L).ReadsBack (Answer.put? L item.answer) (item.answer.map (·.normalize L)) := by
  obtain ⟨-, -, within, complete, stacked, -⟩ := sendable
  rw [lengths, fits_append] at fits
  simp only [values, List.forall_mem_append, Option.mem_toList, Option.mem_def,
    Option.bind_eq_some_iff, forall_exists_index, and_imp] at within complete stacked
  exact Answer.readsBack? fits.2 (fun a ha v hv => within.2 v a ha hv)
    (fun a ha v hv => complete.2 v a ha hv) (fun a ha s hs => stacked s a ha hs)

theorem readsBack {item : Item} (fits : Fits (item.lengths L)) (sendable : item.Sendable L) :
    ∃ bytes, item.put L = .ok bytes ∧ (Item.get L).Reads bytes (item.normalize L) ∧
      10 ≤ bytes.length := by
  -- The size matters to the reader of a batch, which checks the number of items in advance.
  obtain ⟨kindBytes, kindWritten, kindRead⟩ := readsBack_kind fits sendable
  obtain ⟨answerBytes, answerWritten, answerRead⟩ := readsBack_answer fits sendable
  refine ⟨putU32 item.slot ++ putId item.id ++ kindBytes ++ answerBytes, ?_, ?_, ?_⟩
  · rw [put, kindWritten, answerWritten]
    rfl
  · simp only [List.append_assoc]
    refine (reads_getU32 item.slot).bind ?_
    refine (reads_getId sendable.numbered).bind ?_
    exact kindRead.bind (answerRead.bind_pure _)
  · have kindSize := length_pos_of_reads kindRead rfl
    have answerSize := length_pos_of_reads answerRead rfl
    simp only [List.length_append, length_putU32, putId]
    omega

theorem readsBack_putAll {items : List Item} (fits : Fits (items.flatMap (lengths L)))
    (sendable : ∀ item ∈ items, item.Sendable L) :
    ∃ bytes, putAll L items = .ok bytes ∧
      ((Item.get L).times items.length).Reads bytes (items.map (·.normalize L)) ∧
        items.length * 10 ≤ bytes.length := by
  induction items with
  | nil => exact ⟨[], rfl, .of_pure [], Nat.le_refl 0⟩
  | cons item items ih =>
    rw [List.flatMap_cons, fits_append] at fits
    rw [List.forall_mem_cons] at sendable
    obtain ⟨first, firstWritten, firstRead, firstSize⟩ := readsBack fits.1 sendable.1
    obtain ⟨others, othersWritten, othersRead, othersSize⟩ := ih fits.2 sendable.2
    refine ⟨first ++ others, ?_, firstRead.bind (othersRead.bind_pure _), ?_⟩
    · rw [putAll, firstWritten, othersWritten]
      rfl
    · rw [List.length_cons, List.length_append]
      omega

end Item

/-! ### Messages -/

namespace Message

/-- The items of a message. -/
def items : Message → List Item
  | batch b => b.items
  | _ => []

/-- The lengths that are written for a message. -/
def lengths (L : Limits) : Message → List Nat
  | ping => []
  | status s => textLengths? s.text
  | batch b => b.items.length :: b.items.flatMap (Item.lengths L)
  | file name data => [name.utf8ByteSize, data.length]

/-- What is asked of a message so that it is read back. -/
structure Sendable (L : Limits) (m : Message) : Prop where
  fits : Fits (m.lengths L)
  items : ∀ item ∈ m.items, item.Sendable L

/-- A message that can be sent is written, and read back as its normal form. -/
theorem roundTrip (L : Limits) (m : Message) (sendable : m.Sendable L) :
    ∃ bytes, m.put L = .ok bytes ∧ Message.decode L bytes = .ok (m.normalize L) := by
  obtain ⟨fits, items⟩ := sendable
  suffices back : (Message.get L).ReadsBack (m.put L) (m.normalize L) by
    obtain ⟨bytes, written, read⟩ := back
    exact ⟨bytes, written, read.all⟩
  cases m with
  | ping => exact ⟨_, rfl, reads_tagged 0x01 (.of_pure _)⟩
  | status s => exact ⟨_, rfl, reads_tagged 0x02 ((Status.reads_get fits).map _)⟩
  | batch b =>
    rw [lengths, fits_cons] at fits
    obtain ⟨bytes, written, read, size⟩ := Item.readsBack_putAll fits.2 items
    refine ⟨_, by rw [put, written]; rfl, reads_tagged 0x03 ?_⟩
    simp only [List.append_assoc]
    refine (reads_getBool b.busy).bind ?_
    rw [← bind_assoc]
    exact (reads_getCount_bind "command batch" fits.1 size read).bind_pure _
  | file name data =>
    rw [lengths, fits_cons, fits_cons] at fits
    refine ⟨_, rfl, reads_tagged 0x04 ?_⟩
    exact (reads_getText fits.1).bind ((reads_getBytes fits.2.1).bind_pure _)

/-- A request whose value nests too deep, and a deletion answered by a shape, in one batch. -/
theorem roundTrip_batch :
    ∃ bytes, (batch ⟨true,
        [⟨0, some 3, .data (.assign "x" (.ofList [.ofList [.ofList []]])), none⟩,
          ⟨1, none,
            .debug (.updateTracepoints ⟨true, [⟨.deleted, 7, "f", "e", [], none, 1, none⟩]⟩),
            some (.value (.ofList [.ofStore (.raw [1, 2]), .ofStore (.shape ⟨.raw, 4, none⟩)]))⟩]⟩
        : Message).put ⟨1, 2, 2⟩ = .ok bytes ∧
      Message.decode ⟨1, 2, 2⟩ bytes = .ok (batch ⟨true,
        [⟨0, some 3, .data (.assign "x" (.ofList [.ofList [.reference 0 (some "list")]])), none⟩,
          ⟨1, none, .debug (.updateTracepoints ⟨true, [.deleted "f" 7]⟩),
            some (.value (.ofList [.ofStore (.shape ⟨.raw, 2, none⟩),
              .ofStore (.shape ⟨.raw, 4, none⟩)]))⟩]⟩) :=
  roundTrip ⟨1, 2, 2⟩ (batch ⟨true,
    [⟨0, some 3, .data (.assign "x" (.ofList [.ofList [.ofList []]])), none⟩,
      ⟨1, none, .debug (.updateTracepoints ⟨true, [⟨.deleted, 7, "f", "e", [], none, 1, none⟩]⟩),
        some (.value (.ofList [.ofStore (.raw [1, 2]), .ofStore (.shape ⟨.raw, 4, none⟩)]))⟩]⟩)
    ⟨by decide +kernel, by decide +kernel⟩

end Message

end EngineLink
