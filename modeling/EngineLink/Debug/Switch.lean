import EngineLink.Json.Basic
import EngineLink.Wire.Primitive

/-!
# Switches of the debugger

## Main definitions

* `DebugTarget`, `SetDebugRequest`, `SetDebugReport` — debugging of single functions
* `Enablement` — whether breakpoints stop at all
* `FilterState` — whether stepping passes over filtered frames
-/

namespace EngineLink

/-- A function whose debugging is switched. -/
inductive DebugTarget where
  /-- The function that runs in the frame with this handle. -/
  | frame (handle : UInt64)
  /-- The function of this name, as seen from the frame at this position. -/
  | function (position : Int32) (name : String)
  deriving DecidableEq, Repr

instance : JsonForm DebugTarget where
  toJson
    | .frame handle => .obj [("type", .str "frame"), ("handle", toJson handle)]
    | .function position name =>
      .obj [("type", .str "function"), ("position", toJson position), ("name", toJson name)]
  ofInput? x := do
    match ← x.tagged? "type" ["frame", "function"] with
    | ("frame", rest) =>
      let fields ← rest.record? ["handle"]
      some (.frame (← fields.get? "handle"))
    | ("function", rest) =>
      let fields ← rest.record? ["position", "name"]
      some (.function (← fields.get? "position") (← fields.get? "name"))
    | _ => none

/-- The wish to switch debugging of a function. -/
structure SetDebugRequest where
  target : DebugTarget
  enable : Bool
  /-- Whether only the next call is debugged. -/
  temporary : Bool
  deriving DecidableEq, Repr

namespace SetDebugRequest

/-- The target is a frame. -/
def frameBit : UInt32 := 0x00000001
/-- The target is a named function. -/
def functionBit : UInt32 := 0x00000002
/-- Only the next call is debugged. -/
def temporaryBit : UInt32 := 0x00000100
/-- Debugging is switched on. -/
def enableBit : UInt32 := 0x01000000

/-- The properties of a request as bits. -/
def properties (r : SetDebugRequest) : UInt32 :=
  (match r.target with
    | .frame _ => frameBit
    | .function .. => functionBit) |||
    (if r.enable then enableBit else 0) ||| (if r.temporary then temporaryBit else 0)

/-- The target that the properties announce. A frame wins over a function. -/
def getTarget (properties : UInt32) : Reader DebugTarget :=
  if properties &&& frameBit != 0 then DebugTarget.frame <$> Wire.getU64
  else if properties &&& functionBit != 0 then do
    let position ← Wire.getI32
    let name ← Wire.getText
    pure (.function position name)
  else Reader.fail (.unknownTag "set debug target" (properties &&& 0xff).toInt32)

instance : WireForm SetDebugRequest where
  put r := Wire.putU32 r.properties ++
    match r.target with
    | .frame handle => Wire.putU64 handle
    | .function position name => Wire.putI32 position ++ Wire.putText name
  get := do
    let properties ← Wire.getU32
    let target ← getTarget properties
    pure ⟨target, properties &&& enableBit != 0, properties &&& temporaryBit != 0⟩

instance : JsonForm SetDebugRequest where
  toJson r := .obj [("target", toJson r.target), ("enable", toJson r.enable),
    ("temporary", toJson r.temporary)]
  ofInput? x := do
    let fields ← x.record? ["target", "enable", "temporary"]
    some ⟨← fields.get? "target", ← fields.get? "enable",
      ← fields.get? "temporary"⟩

end SetDebugRequest

/-- Whether debugging of a function has changed. -/
structure SetDebugReport where
  changed : Bool
  deriving DecidableEq, Repr

namespace SetDebugReport

instance : WireForm SetDebugReport where
  put r := Wire.putBool r.changed
  get := SetDebugReport.mk <$> Wire.getBool

instance : JsonForm SetDebugReport where
  toJson r := .obj [("changed", toJson r.changed)]
  ofInput? x := do
    let fields ← x.record? ["changed"]
    some ⟨← fields.get? "changed"⟩

end SetDebugReport

/-- Whether breakpoints stop at all. -/
structure Enablement where
  breakpoints : Bool := true
  deriving DecidableEq, Repr

namespace Enablement

instance : WireForm Enablement where
  put e := Wire.putU32 (if e.breakpoints then 1 else 0)
  get := (fun bits => ⟨bits &&& 1 != 0⟩) <$> Wire.getU32

instance : JsonForm Enablement where
  toJson e := .obj [("breakpoints_enabled", toJson e.breakpoints)]
  ofInput? x := do
    let fields ← x.record? ["breakpoints_enabled"]
    some ⟨← fields.get? "breakpoints_enabled"⟩

end Enablement

/-- Whether stepping passes over filtered frames. -/
structure FilterState where
  stepFilter : Bool := false
  deriving DecidableEq, Repr

namespace FilterState

instance : WireForm FilterState where
  put f := Wire.putU32 (if f.stepFilter then 1 else 0)
  get := (fun bits => ⟨bits != 0⟩) <$> Wire.getU32

instance : JsonForm FilterState where
  toJson f := .obj [("step_filter", toJson f.stepFilter)]
  ofInput? x := do
    let fields ← x.record? ["step_filter"]
    some ⟨← fields.get? "step_filter"⟩

end FilterState

end EngineLink
