import EngineLink.Json.Basic
import EngineLink.Wire.Primitive

/-!
# Control of the engine

A client resumes, steps or suspends the engine, and gets a report for each attempt.

## Main definitions

* `ControlOp` — the operations
* `FrameRef` — the frame into which a step returns
* `ControlRequest` — an operation on a suspended engine
* `ControlReport` — what became of an operation
-/

namespace EngineLink

/-- The operations by which the engine is controlled. -/
inductive ControlOp where
  | resume | stepInto | stepOver | stepReturn | suspend
  deriving DecidableEq, Repr

namespace ControlOp

/-- All operations. -/
def all : List ControlOp := [resume, stepInto, stepOver, stepReturn, suspend]

/-- The byte that stands for an operation. -/
def tag : ControlOp → UInt8
  | resume => 1
  | stepInto => 2
  | stepOver => 3
  | stepReturn => 4
  | suspend => 5

/-- The operation that a byte stands for. -/
def ofTag? (tag : UInt8) : Option ControlOp := all.find? (·.tag == tag)

@[simp] theorem ofTag?_tag (op : ControlOp) : ofTag? op.tag = some op := by cases op <;> decide

/-- The word of an operation in documents. -/
def word : ControlOp → String
  | resume => "resume"
  | stepInto => "step_into"
  | stepOver => "step_over"
  | stepReturn => "step_return"
  | suspend => "suspend"

instance : JsonForm ControlOp := .ofWords word all

instance : WireForm ControlOp where
  put op := [op.tag]
  get := Wire.getTag "control op" ofTag?

end ControlOp

/-- The frame into which a step returns. A position refers to the stack that the client loaded last;
a handle refers to its frame as long as that exists. -/
inductive FrameRef where
  | position (position : Int32)
  | handle (handle : UInt64)
  deriving DecidableEq, Repr

namespace FrameRef

instance : WireForm FrameRef where
  put
    | position p => Wire.putI32 1 ++ Wire.putI32 p
    | handle h => Wire.putI32 2 ++ Wire.putU64 h
  get := do
    let t ← Wire.getI32
    if t = 1 then position <$> Wire.getI32
    else if t = 2 then handle <$> Wire.getU64
    else Reader.fail (.unknownTag "frame ref" t)

instance : JsonForm FrameRef where
  toJson
    | position p => .obj [("type", .str "position"), ("value", toJson p)]
    | handle h => .obj [("type", .str "handle"), ("value", toJson h)]
  ofInput? x := do
    match ← x.labelled? "type" "value" ["position", "handle"] with
    | ("position", some x) => position <$> ofInput? x
    | ("handle", some x) => handle <$> ofInput? x
    | _ => none

end FrameRef

/-- An operation on a suspended engine. -/
inductive ControlRequest where
  | resume
  | stepInto
  | stepOver
  | stepReturn (target : FrameRef)
  deriving DecidableEq, Repr

namespace ControlRequest

/-- The operation of a request. -/
def op : ControlRequest → ControlOp
  | resume => .resume
  | stepInto => .stepInto
  | stepOver => .stepOver
  | stepReturn _ => .stepReturn

instance : WireForm ControlRequest where
  put r := WireForm.put r.op ++
    match r with
    | stepReturn target => WireForm.put target
    | _ => []
  get := do
    let op : ControlOp ← WireForm.get
    match op with
    | .resume => pure resume
    | .stepInto => pure stepInto
    | .stepOver => pure stepOver
    | .stepReturn => stepReturn <$> WireForm.get
    | .suspend => Reader.fail (.unknownByte "debug request" op.tag)

instance : JsonForm ControlRequest where
  toJson
    | stepReturn target => .obj [("type", .str "step_return"), ("target", toJson target)]
    | r => .obj [("type", .str r.op.word)]
  ofInput? x := do
    let (word, rest) ← x.tagged? "type" ["resume", "step_into", "step_over", "step_return"]
    if word == "step_return" then
      let fields ← rest.record? ["target"]
      some (stepReturn (← fields.get? "target"))
    else if rest.isBare then [resume, stepInto, stepOver].find? (·.op.word == word)
    else none

end ControlRequest

/-- What became of an operation. -/
inductive ControlOutcome where
  | executed
  /-- The engine was in no state in which the operation makes sense. -/
  | notApplicable
  | notSupported
  deriving DecidableEq, Repr

instance : JsonForm ControlOutcome :=
  .ofWords
    (fun
      | .executed => "executed"
      | .notApplicable => "not_applicable"
      | .notSupported => "not_supported")
    [.executed, .notApplicable, .notSupported]

/-- The report on an operation. -/
structure ControlReport where
  op : ControlOp
  outcome : ControlOutcome
  /-- Whether the engine is suspended after the operation. -/
  suspended : Bool
  deriving DecidableEq, Repr

namespace ControlReport

/-- The operation was carried out. -/
def executedBit : UInt32 := 0x01000000
/-- The engine is suspended. -/
def suspendedBit : UInt32 := 0x02000000
/-- The operation is not supported. -/
def notSupportedBit : UInt32 := 0x04000000

/-- A report as one word, with the operation in the low byte. -/
def code (r : ControlReport) : UInt32 :=
  r.op.tag.toUInt32 |||
    (match r.outcome with
      | .executed => executedBit
      | .notApplicable => 0
      | .notSupported => notSupportedBit) |||
    (if r.suspended then suspendedBit else 0)

/-- The outcome that a word tells. -/
def outcomeOf (code : UInt32) : ControlOutcome :=
  if code &&& executedBit != 0 then .executed
  else if code &&& notSupportedBit != 0 then .notSupported
  else .notApplicable

instance : WireForm ControlReport where
  put r := Wire.putU32 r.code
  get := do
    let code ← Wire.getU32
    match ControlOp.ofTag? code.toUInt8 with
    | some op => pure ⟨op, outcomeOf code, code &&& suspendedBit != 0⟩
    | none => Reader.fail (.unknownByte "control op" code.toUInt8)

instance : JsonForm ControlReport where
  toJson r := .obj [("op", toJson r.op), ("outcome", toJson r.outcome),
    ("suspended", toJson r.suspended)]
  ofInput? x := do
    let fields ← x.record? ["op", "outcome", "suspended"]
    some ⟨← fields.get? "op", ← fields.get? "outcome",
      ← fields.get? "suspended"⟩

end ControlReport

end EngineLink
