import EngineLink.Debug.SourceRef

/-!
# Call stacks

The frames of the engine, the outermost first. Some frames do not come from the user's code but
from the calls that run it; they are marked with the role they have in such a wrapper.

## Main definitions

* `Frame`, `CallStack` — frames and stacks of them
* `FrameFlag` — the marks of frames
* `CallStack.classify` — the stack of given frames with wrappers and the innermost frame marked
-/

namespace EngineLink

/-! ### Frames -/

namespace FrameFlag

/-- The innermost frame. -/
def top : UInt32 := 0x00001000
/-- Stepping passes over the frame. -/
def noStepping : UInt32 := 0x00000100
/-- The frame belongs to a call that reads a source file; low bits tell its place there. -/
def source : UInt32 := 0x00000010
/-- The frame belongs to a call that runs a console command; low bits tell its place there. -/
def command : UInt32 := 0x00000020

/-- Whether a flag is set. -/
def isSet (flags flag : UInt32) : Bool := flags &&& flag != 0

end FrameFlag

/-- A frame of the engine. -/
structure Frame where
  /-- The place in the stack, 0 for the outermost frame. -/
  position : Int32
  call : Option String
  /-- A handle that stays the same while the frame exists. -/
  handle : UInt64
  fileName : Option String
  fileTimestamp : Int64
  exprSrcref : Option SourceRef
  flags : UInt32
  deriving DecidableEq, Repr

namespace Frame

/-- Whether the frame is marked as the innermost one. -/
def isTop (f : Frame) : Bool := FrameFlag.isSet f.flags FrameFlag.top

/-- Whether the frame is the innermost one of the call that runs a console command. -/
def isTopLevelCommand (f : Frame) : Bool :=
  f.position == 3 && f.flags &&& 0xff == (FrameFlag.command ||| 2)

/-- Whether stepping passes over the frame. -/
def isFiltered (f : Frame) : Bool := FrameFlag.isSet f.flags FrameFlag.noStepping

/-- Whether the text of the call begins in a given way. -/
def callBegins (f : Frame) (start : String) : Bool :=
  match f.call with
  | some call => start.toList.isPrefixOf call.toList
  | none => false

/-- The frame with a flag and its place in a wrapper added. -/
def mark (f : Frame) (flag : UInt32) (place : Nat) : Frame :=
  { f with flags := f.flags ||| (flag ||| UInt32.ofNat place) }

instance : JsonForm Frame where
  toJson f := .obj [("position", toJson f.position), ("call", toJson f.call),
    ("handle", toJson f.handle), ("file_name", toJson f.fileName),
    ("file_timestamp", toJson f.fileTimestamp), ("expr_srcref", toJson f.exprSrcref),
    ("flags", toJson f.flags)]
  ofInput? x := do
    let fields ← x.record? ["position", "call", "handle", "file_name", "file_timestamp",
      "expr_srcref", "flags"]
    some ⟨← fields.get? "position", ← fields.get? "call",
      ← fields.get? "handle", ← fields.get? "file_name",
      ← fields.get? "file_timestamp", ← fields.get? "expr_srcref",
      ← fields.get? "flags"⟩

/-- A frame without its position. -/
def put (f : Frame) : Bytes :=
  Wire.putText? f.call ++ Wire.putU64 f.handle ++ Wire.putText? f.fileName ++
    Wire.putI64 f.fileTimestamp ++ WireForm.put f.exprSrcref ++ Wire.putU32 f.flags

/-- The frame at a given position. -/
def get (position : Int32) : Reader Frame := do
  let call ← Wire.getText?
  let handle ← Wire.getU64
  let fileName ← Wire.getText?
  let fileTimestamp ← Wire.getI64
  let exprSrcref ← WireForm.get
  let flags ← Wire.getU32
  pure ⟨position, call, handle, fileName, fileTimestamp, exprSrcref, flags⟩

end Frame

/-! ### Stacks -/

/-- The frames of the engine, the outermost first. -/
structure CallStack where
  frames : List Frame
  deriving DecidableEq, Repr

namespace CallStack

/-- The first frame at a position. -/
def byPosition? (s : CallStack) (position : Int32) : Option Frame :=
  s.frames.find? (·.position == position)

/-- The first frame with a handle. -/
def byHandle? (s : CallStack) (handle : UInt64) : Option Frame :=
  s.frames.find? (·.handle == handle)

/-- The innermost frame. -/
def top? (s : CallStack) : Option Frame := s.frames.getLast?

/-! ### Classification -/

/-- How many of the leading frames, at most `limit`, have calls that begin in a given way. -/
def leading (limit : Nat) (start : String) (frames : List Frame) : Nat :=
  ((frames.take limit).takeWhile (·.callBegins start)).length

/-- How many frames, counted from a call of `source`, belong to its wrapper. The argument are the
frames inside that call. -/
def sourceRun : List Frame → Nat
  | f :: rest =>
    if f.callBegins "eval.with.vis(" then 2 + leading 1 "eval.with.vis(" rest
    else if f.callBegins "withVisible(" then
      match rest with
      | g :: rest => if g.callBegins "eval(" then 3 + leading 1 "eval(" rest else 0
      | [] => 0
    else 0
  | [] => 0

/-- How many frames, counted from the call that runs a console command, belong to its wrapper. The
argument are the frames inside that call. -/
def commandRun (inside : List Frame) : Nat := 1 + leading 2 "eval(" inside

/-- The flag and the number of frames of the wrapper whose outermost frame is `f`. -/
def wrapper (f : Frame) (inside : List Frame) : UInt32 × Nat :=
  if f.callBegins "source(" then (FrameFlag.source, sourceRun inside)
  else if f.callBegins "rj:::.statet.evalCommand(" || f.callBegins ".statet.evalCommand(" then
    (FrameFlag.command, commandRun inside)
  else (0, 0)

/-- Mark wrappers from the outermost frame on. `left` frames ahead belong to a wrapper that was met
before; they get its flag and their places from `place` on. -/
def markWrappers (flag : UInt32) (place left : Nat) : List Frame → List Frame
  | [] => []
  | f :: rest =>
    match left with
    | left + 1 => f.mark flag place :: markWrappers flag (place + 1) left rest
    | 0 =>
      match wrapper f rest with
      | (_, 0) => f :: markWrappers 0 0 0 rest
      | (flag, n + 1) => f.mark flag 0 :: markWrappers flag 1 n rest

/-- Mark the innermost frame. -/
def markTop : List Frame → List Frame
  | [] => []
  | [f] => [f.mark FrameFlag.top 0]
  | f :: rest => f :: markTop rest

/-- The stack of given frames, with the frames of wrappers and the innermost frame marked. -/
def classify (frames : List Frame) : CallStack := ⟨markTop (markWrappers 0 0 0 frames)⟩

/-! ### Forms -/

/-- `n` frames at positions from `position` on. -/
def getFrames (position : Nat) : Nat → Reader (List Frame)
  | 0 => pure []
  | n + 1 => do
    let f ← Frame.get (Int32.ofNat position)
    let rest ← getFrames (position + 1) n
    pure (f :: rest)

instance : WireForm CallStack where
  put s := Wire.putCount s.frames.length ++ s.frames.flatMap Frame.put
  get := do
    let n ← Wire.getCount "call stack" 25
    CallStack.mk <$> getFrames 0 n

instance : JsonForm CallStack where
  toJson s := .obj [("frames", toJson s.frames)]
  ofInput? x := do
    let fields ← x.record? ["frames"]
    some ⟨← fields.get? "frames"⟩

end CallStack

end EngineLink
