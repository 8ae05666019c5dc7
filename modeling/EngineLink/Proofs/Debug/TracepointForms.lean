import EngineLink.Debug.Installation
import EngineLink.Proofs.Debug.Forms

/-!
# Tracepoints are read back

A list of states leaves out paths and elements that repeat the last ones; writer and reader carry
the same last ones along, so that the list is read back with deletions reduced to what they tell.
The sizes that the readers take counted elements to have are no larger than the elements are, apart
from positions that neither have a path nor a reference.

## Main definitions

* `TracepointPosition.Located` — positions with a path or a reference to the source

## Main results

* `TracepointUpdate.reads_get` — an update is read back as its normal form
* `InstallationRequest.reads_get` — a request is read back if its positions are located
-/

namespace EngineLink

open Wire Reader

theorem le_length_putOptional {α : Type} [WireForm α] (o : Option α) :
    1 ≤ (WireForm.put o).length := by
  cases o with
  | none => exact Nat.le_refl 1
  | some x => exact Nat.le_add_left 1 _

/-! ### Types and events -/

theorem TracepointType.reads_get (t : TracepointType) :
    (WireForm.get : Reader TracepointType).Reads (WireForm.put t) t := by
  refine (reads_getI32 t.code).bind_nil ?_
  rw [ofCode, ofCode?_code]
  exact .of_pure t

theorem TracepointEventKind.reads_get (k : TracepointEventKind) :
    (WireForm.get : Reader TracepointEventKind).Reads (WireForm.put k) k :=
  reads_getTag "tracepoint event" (by cases k; rfl)

/-- The lengths that are written for an event. -/
def TracepointEvent.lengths (e : TracepointEvent) : List Nat :=
  textLengths? e.filePath ++ textLengths? e.label ++ textLengths? e.text

theorem TracepointEvent.reads_get {e : TracepointEvent} (fits : Fits e.lengths) :
    (WireForm.get : Reader TracepointEvent).Reads (WireForm.put e) e := by
  simp only [lengths, fits_append] at fits
  obtain ⟨⟨filePath, label⟩, text⟩ := fits
  show Reads _ (WireForm.put e.kind ++ WireForm.put e.type ++ putText? e.filePath ++
    putI64 e.id ++ putText? e.label ++ putU32 e.flags ++ putText? e.text) e
  simp only [List.append_assoc]
  refine (TracepointEventKind.reads_get e.kind).bind ?_
  refine (TracepointType.reads_get e.type).bind ?_
  refine (reads_getText? filePath).bind ?_
  refine (reads_getI64 e.id).bind ?_
  refine (reads_getText? label).bind ?_
  refine (reads_getU32 e.flags).bind ?_
  exact (reads_getText? text).bind_pure _

/-! ### Lists of states -/

namespace TracepointState

variable {last lastPath lastElement : Option String} {s : TracepointState}

/-- A text is read back whether it was left out or not. -/
theorem reads_getShared (what : String) {text : String} (fits : text.utf8ByteSize < countBound) :
    (getShared last what).Reads (putShared last text) text := by
  rw [putShared]
  by_cases repeated : last = some text
  · rw [if_pos repeated, repeated]
    exact (reads_getText? (s := none) fits_nil).bind_nil (.of_pure text)
  · rw [if_neg repeated]
    exact (reads_getText? (s := some text) (by simpa using fits)).bind_nil (.of_pure text)

theorem le_length_putShared (last : Option String) (text : String) :
    4 ≤ (putShared last text).length := le_length_putText? _

/-- The lengths that are written for a state. -/
def lengths (s : TracepointState) : List Nat :=
  if s.type = .deleted then [s.filePath.utf8ByteSize]
  else s.filePath.utf8ByteSize :: s.elementId.utf8ByteSize :: s.index.length ::
    (textLengths? s.elementLabel ++ textLengths? s.condition)

theorem reads_getAll {states : List TracepointState} (fits : Fits (states.flatMap lengths))
    (lastPath lastElement : Option String) :
    (getAll lastPath lastElement states.length).Reads (putAll lastPath lastElement states)
      (states.map normalize) := by
  -- The last path and element change from state to state, alike for writer and reader.
  induction states generalizing lastPath lastElement with
  | nil => exact .of_pure []
  | cons s states ih =>
    rw [List.flatMap_cons, fits_append] at fits
    rw [putAll, List.map_cons]
    by_cases gone : s.type = .deleted
    · -- A deletion has no element, so the last one stays.
      rw [lengths, if_pos gone, fits_cons] at fits
      rw [if_pos gone, normalize, if_pos gone]
      simp only [List.append_assoc]
      refine s.type.reads_get.bind ?_
      refine (reads_getI64 s.id).bind ?_
      refine (reads_getShared "file path" fits.1.1).bind ?_
      rw [if_pos gone]
      exact (ih fits.2 (some s.filePath) lastElement).bind_pure _
    · rw [lengths, if_neg gone, fits_cons, fits_cons, fits_cons, fits_append] at fits
      obtain ⟨⟨path, element, index, label, condition⟩, rest⟩ := fits
      rw [if_neg gone, normalize, if_neg gone]
      simp only [List.append_assoc]
      refine s.type.reads_get.bind ?_
      refine (reads_getI64 s.id).bind ?_
      refine (reads_getShared "file path" path).bind ?_
      rw [if_neg gone]
      refine (reads_getShared "element id" element).bind ?_
      refine (reads_getInts index).bind ?_
      refine (reads_getText? label).bind ?_
      refine (reads_getU32 s.flags).bind ?_
      refine (reads_getText? condition).bind ?_
      exact (ih rest (some s.filePath) (some s.elementId)).bind_pure _

theorem le_length_putAll (states : List TracepointState) (lastPath lastElement : Option String) :
    states.length * 16 ≤ (putAll lastPath lastElement states).length := by
  induction states generalizing lastPath lastElement with
  | nil => exact Nat.zero_le _
  | cons s states ih =>
    have type : (WireForm.put s.type).length = 4 := rfl
    have path := le_length_putShared lastPath s.filePath
    rw [putAll, List.length_cons]
    split
    · have rest := ih (some s.filePath) lastElement
      simp only [List.length_append, length_putI64]
      omega
    · have rest := ih (some s.filePath) (some s.elementId)
      simp only [List.length_append, length_putI64]
      omega

end TracepointState

/-- The lengths that are written for an update. -/
def TracepointUpdate.lengths (u : TracepointUpdate) : List Nat :=
  u.states.length :: u.states.flatMap TracepointState.lengths

/-- An update is read back as its normal form. -/
theorem TracepointUpdate.reads_get {u : TracepointUpdate} (fits : Fits u.lengths) :
    (WireForm.get : Reader TracepointUpdate).Reads (WireForm.put u) u.normalize := by
  rw [lengths, fits_cons] at fits
  show Reads _ (putU32 (if u.reset then 1 else 0) ++ putCount u.states.length ++
    TracepointState.putAll none none u.states) _
  rw [List.append_assoc]
  refine (reads_getU32 _).bind ?_
  refine reads_getCount_bind "tracepoint states" fits.1
    (TracepointState.le_length_putAll u.states none none) ?_
  refine (TracepointState.reads_getAll fits.2 none none).bind_nil ?_
  have reset : ((if u.reset then 1 else 0 : UInt32) &&& 1 != 0) = u.reset := by
    cases u.reset <;> decide
  rw [reset]
  exact .of_pure _

/-! ### Positions -/

namespace TracepointPosition

/-- The position is told by a path or by a reference to the source. -/
def Located (p : TracepointPosition) : Prop := p.index ≠ [] ∨ p.srcref.isSome

instance (p : TracepointPosition) : Decidable p.Located := by
  unfold TracepointPosition.Located
  infer_instance

theorem reads_get {p : TracepointPosition} (fits : p.index.length < countBound) :
    (WireForm.get : Reader TracepointPosition).Reads (WireForm.put p) p := by
  show Reads _ (WireForm.put p.type ++ putI64 p.id ++ putInts p.index ++ WireForm.put p.srcref) p
  simp only [List.append_assoc]
  refine p.type.reads_get.bind ?_
  refine (reads_getI64 p.id).bind ?_
  refine (reads_getInts fits).bind ?_
  exact (SourceRef.reads_get? p.srcref).bind_pure _

theorem le_length_put {p : TracepointPosition} (located : p.Located) :
    20 ≤ (WireForm.put p).length := by
  have type : (WireForm.put p.type).length = 4 := rfl
  have index : p.index.length * 4 ≤ (p.index.flatMap putI32).length :=
    room_flatMap fun x _ => Nat.le_of_eq (length_putI32 x).symm
  show 20 ≤ (WireForm.put p.type ++ putI64 p.id ++ putInts p.index ++ WireForm.put p.srcref).length
  simp only [List.length_append, length_putI64, putInts, length_putCount]
  rcases located with path | reference
  · -- Without a reference, the four bytes that are missing are those of the first index.
    have some := List.length_pos_iff.mpr path
    omega
  · obtain ⟨s, h⟩ := Option.isSome_iff_exists.mp reference
    have long : (WireForm.put p.srcref).length = 25 := by
      rw [h]
      rfl
    omega

end TracepointPosition

/-! ### Requests -/

/-- The lengths that are written for a file. -/
def SourceFile.lengths (f : SourceFile) : List Nat := textLengths? f.path ++ textLengths? f.name

theorem SourceFile.reads_get {f : SourceFile} (fits : Fits f.lengths) :
    (WireForm.get : Reader SourceFile).Reads (WireForm.put f) f := by
  rw [lengths, fits_append] at fits
  show Reads _ (putText? f.path ++ putText? f.name ++ putI64 f.timestamp) f
  rw [List.append_assoc]
  refine (reads_getText? fits.1).bind ?_
  refine (reads_getText? fits.2).bind ?_
  exact (reads_getI64 f.timestamp).bind_pure _

namespace ElementPositions

/-- The lengths that are written for the positions in an element. -/
def lengths (e : ElementPositions) : List Nat :=
  e.file.lengths ++ e.elementId.utf8ByteSize :: e.positions.length ::
    e.positions.map (·.index.length)

theorem reads_get {e : ElementPositions} (fits : Fits e.lengths)
    (located : ∀ p ∈ e.positions, p.Located) :
    (WireForm.get : Reader ElementPositions).Reads (WireForm.put e) e := by
  simp only [lengths, fits_append, fits_cons] at fits
  obtain ⟨file, element, count, paths⟩ := fits
  show Reads _ (WireForm.put e.file ++ putText e.elementId ++ WireForm.put e.srcref ++
    putCount e.positions.length ++ e.positions.flatMap WireForm.put) e
  simp only [List.append_assoc]
  refine (SourceFile.reads_get file).bind ?_
  refine (reads_getText element).bind ?_
  refine (SourceRef.reads_get? e.srcref).bind ?_
  refine reads_getCount_bind "tracepoint positions" count
    (room_flatMap fun p hp => TracepointPosition.le_length_put (located p hp)) ?_
  refine (Reads.times fun p hp => TracepointPosition.reads_get ?_).bind_pure _
  exact paths _ (List.mem_map_of_mem hp)

theorem le_length_put (e : ElementPositions) : 21 ≤ (WireForm.put e).length := by
  have path := le_length_putText? e.file.path
  have name := le_length_putText? e.file.name
  have element := le_length_putText e.elementId
  have srcref := le_length_putOptional e.srcref
  show 21 ≤ ((putText? e.file.path ++ putText? e.file.name ++ putI64 e.file.timestamp) ++
    putText e.elementId ++ WireForm.put e.srcref ++ putCount e.positions.length ++
      e.positions.flatMap WireForm.put).length
  simp only [List.length_append, length_putI64, length_putCount]
  omega

end ElementPositions

/-- The lengths that are written for a request. -/
def InstallationRequest.lengths (r : InstallationRequest) : List Nat :=
  r.elements.length :: r.elements.flatMap ElementPositions.lengths

/-- All positions of a request. -/
def InstallationRequest.positions (r : InstallationRequest) : List TracepointPosition :=
  r.elements.flatMap (·.positions)

/-- A request is read back if its positions are located. -/
theorem InstallationRequest.reads_get {r : InstallationRequest} (fits : Fits r.lengths)
    (located : ∀ p ∈ r.positions, p.Located) :
    (WireForm.get : Reader InstallationRequest).Reads (WireForm.put r) r := by
  rw [lengths, fits_cons, fits_flatMap] at fits
  refine reads_getCount_bind "installation elements" fits.1
    (room_flatMap fun e _ => e.le_length_put) ?_
  refine (Reads.times fun e he => ElementPositions.reads_get (fits.2 e he) ?_).map _
  exact fun p hp => located p (List.mem_flatMap.mpr ⟨e, he, hp⟩)

theorem InstallationReport.reads_get {r : InstallationReport}
    (fits : r.results.length < countBound) :
    (WireForm.get : Reader InstallationReport).Reads (WireForm.put r) r := by
  show Reads _ (putCount r.results.length ++ r.results.map InstallationResult.tag) r
  rw [← List.flatMap_singleton' (r.results.map _), List.flatMap_map]
  refine reads_getCount_bind "installation results" fits
    (room_flatMap fun x _ => Nat.le_refl 1) ?_
  have results := Reads.times_of r.results fun x =>
    reads_getTag "installation result" (InstallationResult.ofTag?_tag x)
  exact results.map InstallationReport.mk

/-! ### Tracepoints without a position -/

theorem FlagTracepoint.reads_get (t : FlagTracepoint) :
    (WireForm.get : Reader FlagTracepoint).Reads (WireForm.put t) t :=
  t.type.reads_get.bind ((reads_getU32 t.flags).bind_pure _)

theorem FlagInstallationRequest.reads_get {r : FlagInstallationRequest}
    (fits : r.tracepoints.length < countBound) :
    (WireForm.get : Reader FlagInstallationRequest).Reads (WireForm.put r) r := by
  refine reads_getCount_bind "flag tracepoints" fits
    (room_flatMap fun t _ => Nat.le_refl 8) ?_
  exact (Reads.times_of r.tracepoints FlagTracepoint.reads_get).map FlagInstallationRequest.mk

end EngineLink
