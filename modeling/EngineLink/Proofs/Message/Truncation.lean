import EngineLink.Message.Form
import EngineLink.Proofs.Wire.Stable

/-!
# Truncated and extended messages

A message takes up all bytes of its frame. If some of its last bytes are missing, the reader tells
that the input is too short; if bytes are left, it tells their number. It never finds another fault
or another message, wherever the cut is. So no message begins with all bytes of another one.

A part of a message need not be read from its own bytes alone: a count that takes its elements to be
larger than they are asks for bytes behind them. What is shown of each reader is therefore only that
it finds its input too short or does not depend on what follows.

## Main results

* `Value.stable_getTree` — a tree of values is read without looking ahead
* `Message.stable_get` — and so is a message
* `Message.prefixFree_decode` — what becomes of truncated and of extended messages
-/

namespace EngineLink

open Wire Reader

/-! ### Stores -/

instance Real.stable_get : Real.get.Stable := Stable.map _

instance Complex.stable_getAll (n : Nat) : (Complex.getAll n).Stable := by
  unfold Complex.getAll
  infer_instance

instance stable_getLength (what : String) : (getLength what).Stable := by
  unfold getLength
  infer_instance

instance Factor.stable_get : Factor.get.Stable := by
  unfold Factor.get
  infer_instance

instance StoreShape.stable_get (kind : StoreKind) : (StoreShape.get kind).Stable := by
  unfold StoreShape.get
  apply Stable.andThen
  intro length
  -- A match is no composed reader, but each of its branches is one.
  split <;> infer_instance

instance Store.stable_getElements (kind : StoreKind) : (Store.getElements kind).Stable := by
  cases kind <;> unfold Store.getElements <;> infer_instance

instance Store.stable_get (mode : Coding) : (Store.get mode).Stable := by
  unfold Store.get
  apply Stable.andThen
  intro kind
  split <;> infer_instance

/-! ### Values -/

namespace Value

variable {L : Limits} {mode : Coding}

instance stable_getOptions : getOptions.Stable := by
  unfold getOptions
  infer_instance

instance stable_getEntries (what : String) (limit : Nat) : (getEntries what limit).Stable := by
  unfold getEntries
  infer_instance

section

variable {child : Reader Value} [child.Stable]

instance stable_getPairs (what : String) (limit : Nat) : (getPairs child what limit).Stable := by
  unfold getPairs
  infer_instance

instance stable_getAttrs (options : UInt32) : (getAttrs L child options).Stable := by
  unfold getAttrs
  infer_instance

/-- A node is read without looking ahead if the values in it are. -/
instance stable_getNode (kind : ValueKind) : (getNode L mode child kind).Stable := by
  cases kind <;> unfold getNode <;> infer_instance

end

/-- A tree is read without looking ahead, however many levels it may have. -/
instance stable_getTree (levels : Nat) : (getTree L mode levels).Stable := by
  induction levels with
  | zero =>
    unfold getTree
    apply Stable.andThen
    intro t
    split <;> infer_instance
  | succ levels ih =>
    unfold getTree
    infer_instance

instance stable_get : (Value.get L).Stable := by
  unfold Value.get
  infer_instance

end Value

/-! ### Statuses -/

instance Severity.stable_get : (WireForm.get : Reader Severity).Stable := stable_getTag _ _

instance Status.stable_get : (WireForm.get : Reader Status).Stable := by
  apply Stable.andThen
  infer_instance

/-! ### Debug commands and replies -/

instance SourceRef.stable_get : (WireForm.get : Reader SourceRef).Stable := by
  apply Stable.andThen
  infer_instance

instance Option.stable_get {α : Type} [WireForm α] [(WireForm.get : Reader α).Stable] :
    (WireForm.get : Reader (Option α)).Stable := by
  apply Stable.andThen
  infer_instance

instance ControlOp.stable_get : (WireForm.get : Reader ControlOp).Stable := stable_getTag _ _

instance FrameRef.stable_get : (WireForm.get : Reader FrameRef).Stable := by
  apply Stable.andThen
  infer_instance

instance ControlRequest.stable_get : (WireForm.get : Reader ControlRequest).Stable := by
  apply Stable.andThen
  intro op
  split <;> infer_instance

instance ControlReport.stable_get : (WireForm.get : Reader ControlReport).Stable := by
  apply Stable.andThen
  intro code
  split <;> infer_instance

instance FrameContextRequest.stable_get : (WireForm.get : Reader FrameContextRequest).Stable := by
  apply Stable.map

instance SourceType.stable_get? : SourceType.get?.Stable := by
  apply Stable.andThen
  intro code
  split
  · infer_instance
  · split <;> infer_instance

instance FrameContext.stable_get : (WireForm.get : Reader FrameContext).Stable := by
  apply Stable.andThen
  infer_instance

instance SetDebugRequest.stable_getTarget (properties : UInt32) :
    (SetDebugRequest.getTarget properties).Stable := by
  unfold SetDebugRequest.getTarget
  infer_instance

instance SetDebugRequest.stable_get : (WireForm.get : Reader SetDebugRequest).Stable := by
  apply Stable.andThen
  infer_instance

instance SetDebugReport.stable_get : (WireForm.get : Reader SetDebugReport).Stable := by
  apply Stable.map

instance Enablement.stable_get : (WireForm.get : Reader Enablement).Stable := by
  apply Stable.map

instance FilterState.stable_get : (WireForm.get : Reader FilterState).Stable := by
  apply Stable.map

instance Frame.stable_get (position : Int32) : (Frame.get position).Stable := by
  unfold Frame.get
  infer_instance

instance CallStack.stable_getFrames (position n : Nat) :
    (CallStack.getFrames position n).Stable := by
  induction n generalizing position with
  | zero => exact .of_pure []
  | succ n ih =>
    unfold getFrames
    infer_instance

instance CallStack.stable_get : (WireForm.get : Reader CallStack).Stable := by
  apply Stable.andThen
  infer_instance

instance TracepointType.stable_get : (WireForm.get : Reader TracepointType).Stable := by
  apply Stable.andThen
  intro code
  split <;> infer_instance

instance TracepointPosition.stable_get : (WireForm.get : Reader TracepointPosition).Stable := by
  apply Stable.andThen
  infer_instance

instance TracepointState.stable_getShared (last : Option String) (what : String) :
    (getShared last what).Stable := by
  unfold getShared
  apply Stable.andThen
  intro s
  split
  · infer_instance
  · split <;> infer_instance

/-- States are read one after another, each with what the earlier ones share with it. -/
instance TracepointState.stable_getAll (lastPath lastElement : Option String) (n : Nat) :
    (getAll lastPath lastElement n).Stable := by
  induction n generalizing lastPath lastElement with
  | zero => exact .of_pure []
  | succ n ih =>
    unfold getAll
    infer_instance

instance TracepointUpdate.stable_get : (WireForm.get : Reader TracepointUpdate).Stable := by
  apply Stable.andThen
  infer_instance

instance TracepointEventKind.stable_get : (WireForm.get : Reader TracepointEventKind).Stable :=
  stable_getTag _ _

instance TracepointEvent.stable_get : (WireForm.get : Reader TracepointEvent).Stable := by
  apply Stable.andThen
  infer_instance

instance SourceFile.stable_get : (WireForm.get : Reader SourceFile).Stable := by
  apply Stable.andThen
  infer_instance

instance ElementPositions.stable_get : (WireForm.get : Reader ElementPositions).Stable := by
  apply Stable.andThen
  infer_instance

instance InstallationRequest.stable_get : (WireForm.get : Reader InstallationRequest).Stable := by
  apply Stable.andThen
  infer_instance

instance InstallationReport.stable_get : (WireForm.get : Reader InstallationReport).Stable := by
  apply Stable.andThen
  infer_instance

instance FlagTracepoint.stable_get : (WireForm.get : Reader FlagTracepoint).Stable := by
  apply Stable.andThen
  infer_instance

instance FlagInstallationRequest.stable_get :
    (WireForm.get : Reader FlagInstallationRequest).Stable := by
  apply Stable.andThen
  infer_instance

instance DebugCommand.stable_get : (WireForm.get : Reader DebugCommand).Stable := by
  apply Stable.andThen
  intro t
  split <;> infer_instance

instance DebugReply.stable_get : (WireForm.get : Reader DebugReply).Stable := by
  apply Stable.andThen
  intro t
  split <;> infer_instance

/-! ### Messages -/

variable {L : Limits}

instance DataRequest.stable_get : (DataRequest.get L).Stable := by
  unfold DataRequest.get
  apply Stable.andThen
  intro t
  split <;> infer_instance

instance ItemKind.stable_get : (ItemKind.get L).Stable := by
  unfold ItemKind.get
  apply Stable.andThen
  intro t
  split <;> infer_instance

instance Answer.stable_get? : (Answer.get? L).Stable := by
  unfold Answer.get?
  apply Stable.andThen
  intro t
  split <;> infer_instance

instance Item.stable_getId : Item.getId.Stable := by
  unfold Item.getId
  infer_instance

instance Item.stable_get : (Item.get L).Stable := by
  unfold Item.get
  infer_instance

namespace Message

instance stable_get : (Message.get L).Stable := by
  unfold Message.get
  apply Stable.andThen
  intro t
  split <;> infer_instance

/-- Of the bytes of a message, no strict beginning is read as anything: the reader tells that the
input is too short. With further bytes behind them, it tells their number. -/
theorem prefixFree_decode {payload : Bytes} {m : Message} (accepted : decode L payload = .ok m) :
    (∀ start, start <+: payload → start ≠ payload →
        ∃ needed remaining, decode L start = .error (.endOfInput needed remaining)) ∧
      ∀ more, more ≠ [] → decode L (payload ++ more) = .error (.trailingBytes more.length) := by
  constructor
  · intro start begins shorter
    exact Stable.all_prefix accepted begins shorter
  · intro more further
    exact Stable.all_append accepted further

/-- The bytes of a request for one tracepoint, in an element of a file without a name. -/
def tracepointBytes : Bytes :=
  [0, 0, 0, 0, 0xFF, 0xFF, 0xFF, 0xFF, 0x30, 0x05, 0, 0, 0, 1, 0xFF, 0xFF, 0xFF, 0xFF, 0xFF, 0xFF,
    0xFF, 0xFF, 0, 0, 0, 0, 0, 0, 0, 0, 0, 0, 0, 0, 0, 0, 0, 0, 1, 0, 0, 0, 2, 0, 0, 0, 0, 0, 0, 0,
    7, 0, 0, 0, 0, 0, 0]

/-- The bytes of a request to suspend the engine. -/
def suspensionBytes : Bytes := [0, 0, 0, 0, 0xFF, 0xFF, 0xFF, 0xFF, 0x30, 0x04, 0]

/-- The request for the tracepoint and the one to suspend the engine, in one batch. -/
def tracepointBatch : Batch :=
  ⟨false, [⟨0, none, .debug (.installTracepoints
      ⟨[⟨⟨none, none, 0⟩, "", none, [⟨.lineBreakpoint, 7, [], none⟩]⟩]⟩), none⟩,
    ⟨0, none, .debug .requestSuspend, none⟩]⟩

/-- The position of the tracepoint takes 17 bytes, while the count of positions asks for 20. They
are there in the whole batch because of the request behind it; between the two requests a cut is
found. -/
theorem prefixFree_decode_tracepoint :
    decode {} ([0x03, 0, 0, 0, 0, 2] ++ tracepointBytes ++ suspensionBytes) =
        .ok (batch tracepointBatch) ∧
      (∃ needed remaining, decode {} ([0x03, 0, 0, 0, 0, 2] ++ tracepointBytes) =
        .error (.endOfInput needed remaining)) ∧
      decode {} ([0x03, 0, 0, 0, 0, 2] ++ tracepointBytes ++ suspensionBytes ++ [0]) =
        .error (.trailingBytes 1) := by
  have accepted : decode {} ([0x03, 0, 0, 0, 0, 2] ++ tracepointBytes ++ suspensionBytes) =
      .ok (batch tracepointBatch) := rfl
  obtain ⟨truncated, extended⟩ := prefixFree_decode accepted
  refine ⟨accepted, ?_, ?_⟩
  · apply truncated
    · exact List.prefix_append _ _
    · decide
  · apply extended
    decide

end Message

end EngineLink
