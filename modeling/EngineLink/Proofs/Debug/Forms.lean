import EngineLink.Debug.CallStack
import EngineLink.Debug.Control
import EngineLink.Debug.FrameContext
import EngineLink.Debug.Switch
import EngineLink.Proofs.Wire.Reads
import EngineLink.Status

/-!
# Debug requests and reports are read back

Each form is read back if the lengths in it are counts. The frames of a stack are written without
their positions, so that they have to be numbered in their order.

## Main definitions

* `SetDebugRequest.lengths`, `Frame.lengths` and the like — the lengths that are written
* `CallStack.Numbered` — frames at their own positions

## Main results

* `reads_optional` — an optional part is read back if the part is
* `CallStack.reads_get`, `FrameContext.reads_get` and the like — each form is read back
-/

namespace EngineLink

open Wire Reader

/-- What a tag decides is read back behind the tag. -/
theorem reads_tagged {α : Type} {f : UInt8 → Reader α} {bytes : Bytes} {x : α} (tag : UInt8)
    (h : (f tag).Reads bytes x) : (getU8 >>= f).Reads (tag :: bytes) x :=
  (reads_getU8 tag).bind h

/-- An optional part is read back if the part is. -/
theorem reads_optional {α : Type} [WireForm α] {o : Option α}
    (h : ∀ x ∈ o, (WireForm.get : Reader α).Reads (WireForm.put x) x) :
    (WireForm.get : Reader (Option α)).Reads (WireForm.put o) o := by
  cases o with
  | none => exact (reads_getBool false).bind_nil (.of_pure none)
  | some x => exact (reads_getBool true).bind ((h x rfl).map some)

/-! ### Source references and statuses -/

theorem SourceRef.reads_get (s : SourceRef) :
    (WireForm.get : Reader SourceRef).Reads (WireForm.put s) s := by
  -- Lines and bytes of both ends come first, then their columns.
  refine (reads_getI32 s.start.line).bind ?_
  refine (reads_getI32 s.start.byte).bind ?_
  refine (reads_getI32 s.stop.line).bind ?_
  refine (reads_getI32 s.stop.byte).bind ?_
  refine (reads_getI32 s.start.column).bind ?_
  exact (reads_getI32 s.stop.column).bind (.of_pure s)

theorem SourceRef.reads_get? (s : Option SourceRef) :
    (WireForm.get : Reader (Option SourceRef)).Reads (WireForm.put s) s :=
  reads_optional fun s _ => s.reads_get

theorem Status.reads_get {s : Status} (fits : Fits (textLengths? s.text)) :
    (WireForm.get : Reader Status).Reads (WireForm.put s) s := by
  obtain ⟨severity, code, text⟩ := s
  simp only [WireForm.put, List.append_assoc]
  refine (reads_getTag "severity" (Severity.ofTag?_tag severity)).bind ?_
  refine (reads_getI32 code).bind ?_
  exact (reads_getText? fits).bind_pure _

/-! ### Switches -/

/-- The lengths that are written for a request. -/
def SetDebugRequest.lengths (r : SetDebugRequest) : List Nat :=
  match r.target with
  | .frame _ => []
  | .function _ name => [name.utf8ByteSize]

/-- Kind of the target and both switches are told by different bits. -/
theorem SetDebugRequest.bits {kind : UInt32} (known : kind = frameBit ∨ kind = functionBit)
    (enable temporary : Bool) {word : UInt32}
    (h : word = (kind ||| (if enable then enableBit else 0) |||
      (if temporary then temporaryBit else 0))) :
    (word &&& frameBit != 0) = (kind == frameBit) ∧
      (word &&& functionBit != 0) = (kind == functionBit) ∧
      (word &&& enableBit != 0) = enable ∧ (word &&& temporaryBit != 0) = temporary := by
  subst h
  rcases known with rfl | rfl <;> cases enable <;> cases temporary <;> decide

theorem SetDebugRequest.reads_get {r : SetDebugRequest} (fits : Fits r.lengths) :
    (WireForm.get : Reader SetDebugRequest).Reads (WireForm.put r) r := by
  obtain ⟨target, enable, temporary⟩ := r
  -- The word tells whether a frame or a function is behind it.
  refine (reads_getU32 _).bind ?_
  cases target with
  | frame handle =>
    obtain ⟨frame, -, enabled, temporarily⟩ := bits (.inl rfl) enable temporary rfl
    rw [getTarget, properties, frame, enabled, temporarily]
    have target := (reads_getU64 handle).map DebugTarget.frame
    exact target.bind_pure fun target => (⟨target, enable, temporary⟩ : SetDebugRequest)
  | function position name =>
    obtain ⟨frame, function, enabled, temporarily⟩ := bits (.inr rfl) enable temporary rfl
    rw [getTarget, properties, frame, function, enabled, temporarily]
    rw [lengths, fits_cons] at fits
    have target : (do return DebugTarget.function (← getI32) (← getText)).Reads
        (putI32 position ++ putText name) (.function position name) :=
      (reads_getI32 position).bind ((reads_getText fits.1).bind_pure _)
    exact target.bind_pure fun target => (⟨target, enable, temporary⟩ : SetDebugRequest)

theorem SetDebugReport.reads_get (r : SetDebugReport) :
    (WireForm.get : Reader SetDebugReport).Reads (WireForm.put r) r :=
  (reads_getBool r.changed).map SetDebugReport.mk

theorem Enablement.reads_get (e : Enablement) :
    (WireForm.get : Reader Enablement).Reads (WireForm.put e) e := by
  obtain ⟨breakpoints⟩ := e
  cases breakpoints <;> exact (reads_getU32 _).map _

theorem FilterState.reads_get (f : FilterState) :
    (WireForm.get : Reader FilterState).Reads (WireForm.put f) f := by
  obtain ⟨stepFilter⟩ := f
  cases stepFilter <;> exact (reads_getU32 _).map _

/-! ### Control -/

theorem ControlOp.reads_get (op : ControlOp) :
    (WireForm.get : Reader ControlOp).Reads (WireForm.put op) op :=
  reads_getTag "control op" (ControlOp.ofTag?_tag op)

theorem FrameRef.reads_get (ref : FrameRef) :
    (WireForm.get : Reader FrameRef).Reads (WireForm.put ref) ref := by
  cases ref with
  | position p => exact (reads_getI32 1).bind ((reads_getI32 p).map FrameRef.position)
  | handle h => exact (reads_getI32 2).bind ((reads_getU64 h).map FrameRef.handle)

theorem ControlRequest.reads_get (r : ControlRequest) :
    (WireForm.get : Reader ControlRequest).Reads (WireForm.put r) r := by
  refine (ControlOp.reads_get r.op).bind ?_
  cases r with
  | resume | stepInto | stepOver => exact .of_pure _
  | stepReturn target => exact target.reads_get.map ControlRequest.stepReturn

/-- Operation, outcome and suspension are told by different bits. -/
theorem ControlReport.code_parts (r : ControlReport) :
    ControlOp.ofTag? r.code.toUInt8 = some r.op ∧ outcomeOf r.code = r.outcome ∧
      (r.code &&& suspendedBit != 0) = r.suspended := by
  obtain ⟨op, outcome, suspended⟩ := r
  cases op <;> cases outcome <;> cases suspended <;> decide

theorem ControlReport.reads_get (r : ControlReport) :
    (WireForm.get : Reader ControlReport).Reads (WireForm.put r) r := by
  obtain ⟨op, outcome, suspended⟩ := r.code_parts
  refine (reads_getU32 r.code).bind_nil ?_
  rw [op, outcome, suspended]
  exact .of_pure r

/-! ### Details of a frame -/

theorem FrameContextRequest.reads_get (r : FrameContextRequest) :
    (WireForm.get : Reader FrameContextRequest).Reads (WireForm.put r) r :=
  (reads_getI32 r.position).map FrameContextRequest.mk

theorem SourceType.reads_get? (t : Option SourceType) :
    SourceType.get?.Reads (SourceType.put? t) t := by
  refine (reads_getI32 _).bind_nil ?_
  rcases t with _ | _ | _ | _ | _ <;> exact .of_pure _

/-- The lengths that are written for the details of a frame. -/
def FrameContext.lengths (c : FrameContext) : List Nat :=
  textLengths? c.call ++ textLengths? c.fileName ++ textLengths? c.fileEncoding ++
    textLengths? c.filePath ++ textLengths? c.sourceCode

theorem FrameContext.reads_get {c : FrameContext} (fits : Fits c.lengths) :
    (WireForm.get : Reader FrameContext).Reads (WireForm.put c) c := by
  simp only [lengths, fits_append] at fits
  obtain ⟨⟨⟨⟨call, fileName⟩, fileEncoding⟩, filePath⟩, sourceCode⟩ := fits
  simp only [WireForm.put, List.append_assoc]
  refine (reads_getI32 c.position).bind ?_
  refine (reads_getText? call).bind ?_
  refine (reads_getText? fileName).bind ?_
  refine (reads_getI64 c.fileTimestamp).bind ?_
  refine (reads_getText? fileEncoding).bind ?_
  refine (reads_getText? filePath).bind ?_
  refine (SourceType.reads_get? c.sourceType).bind ?_
  refine (reads_getText? sourceCode).bind ?_
  refine (SourceRef.reads_get? c.sourceSrcref).bind ?_
  refine (SourceRef.reads_get? c.firstSrcref).bind ?_
  refine (SourceRef.reads_get? c.lastSrcref).bind ?_
  exact (SourceRef.reads_get? c.exprSrcref).bind_pure _

/-! ### Call stacks -/

/-- The lengths that are written for a frame. -/
def Frame.lengths (f : Frame) : List Nat := textLengths? f.call ++ textLengths? f.fileName

theorem Frame.reads_get {f : Frame} (fits : Fits f.lengths) :
    (Frame.get f.position).Reads f.put f := by
  simp only [lengths, fits_append] at fits
  simp only [put, List.append_assoc]
  refine (reads_getText? fits.1).bind ?_
  refine (reads_getU64 f.handle).bind ?_
  refine (reads_getText? fits.2).bind ?_
  refine (reads_getI64 f.fileTimestamp).bind ?_
  refine (SourceRef.reads_get? f.exprSrcref).bind ?_
  exact (reads_getU32 f.flags).bind_pure _

theorem Frame.le_length_put (f : Frame) : 25 ≤ f.put.length := by
  have call := le_length_putText? f.call
  have fileName := le_length_putText? f.fileName
  simp only [put, List.length_append, length_putU64, length_putI64, length_putU32]
  omega

namespace CallStack

/-- The lengths that are written for a stack. -/
def lengths (s : CallStack) : List Nat := s.frames.length :: s.frames.flatMap Frame.lengths

/-- Each frame is at the position that its place in the stack tells. -/
def Numbered (s : CallStack) : Prop :=
  ∀ p ∈ s.frames.zipIdx, p.1.position = Int32.ofNat p.2

instance (s : CallStack) : Decidable s.Numbered := by
  unfold CallStack.Numbered
  infer_instance

theorem reads_getFrames {frames : List Frame} (fits : Fits (frames.flatMap Frame.lengths))
    (position : Nat) (numbered : ∀ p ∈ frames.zipIdx position, p.1.position = Int32.ofNat p.2) :
    (getFrames position frames.length).Reads (frames.flatMap Frame.put) frames := by
  -- The reader counts the positions, which are not written.
  induction frames generalizing position with
  | nil => exact .of_pure []
  | cons f frames ih =>
    rw [List.flatMap_cons, fits_append] at fits
    rw [List.zipIdx_cons, List.forall_mem_cons] at numbered
    have first : (Frame.get (Int32.ofNat position)).Reads f.put f := by
      rw [← numbered.1]
      exact Frame.reads_get fits.1
    exact first.bind ((ih fits.2 (position + 1) numbered.2).bind_pure _)

theorem reads_get {s : CallStack} (fits : Fits s.lengths) (numbered : s.Numbered) :
    (WireForm.get : Reader CallStack).Reads (WireForm.put s) s := by
  rw [lengths, fits_cons] at fits
  refine reads_getCount_bind "call stack" fits.1 (room_flatMap fun f _ => f.le_length_put) ?_
  exact (reads_getFrames fits.2 0 numbered).map CallStack.mk

end CallStack

end EngineLink
