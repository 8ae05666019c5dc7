import EngineLink.Debug.SourceRef

/-!
# Tracepoints

A client asks the engine to watch points of the code. It sends the states of its tracepoints in
lists, and the engine tells it when one is about to be hit.

## Main definitions

* `TracepointType`, `TracepointFlag` — kinds and flags of tracepoints
* `TracepointPosition` — where a tracepoint sits inside an element of a file
* `TracepointState` — what the client knows about a tracepoint
* `TracepointUpdate` — a list of states, in which repeated paths and elements are left out
* `TracepointEvent` — the notice that a tracepoint is about to be hit
-/

namespace EngineLink

/-! ### Types and flags -/

/-- The kinds of tracepoints. A deleted one only takes another away. -/
inductive TracepointType where
  | functionBreakpoint | lineBreakpoint | topLevelLineBreakpoint | exceptionBreakpoint | deleted
  deriving DecidableEq, Repr, Ord, Inhabited

namespace TracepointType

/-- All types. -/
def all : List TracepointType :=
  [functionBreakpoint, lineBreakpoint, topLevelLineBreakpoint, exceptionBreakpoint, deleted]

/-- The number that stands for a type. -/
def code : TracepointType → Int32
  | functionBreakpoint => 0x00000001
  | lineBreakpoint => 0x00000002
  | topLevelLineBreakpoint => 0x00000004
  | exceptionBreakpoint => 0x00000010
  | deleted => 0x01000000

/-- The type that a number stands for. -/
def ofCode? (code : Int32) : Option TracepointType := all.find? (·.code == code)

@[simp] theorem ofCode?_code (t : TracepointType) : ofCode? t.code = some t := by
  cases t <;> decide

/-- The type that a number stands for, or the fault of meeting the number. -/
def ofCode (code : Int32) : Except WireFault TracepointType :=
  match ofCode? code with
  | some t => .ok t
  | none => .error (.unknownTag "tracepoint type" code)

/-- Whether the type stops at a place in the code. -/
def isBreakpoint : TracepointType → Bool
  | functionBreakpoint | lineBreakpoint | topLevelLineBreakpoint => true
  | _ => false

/-- The word of a type in documents. -/
def word : TracepointType → String
  | functionBreakpoint => "function_breakpoint"
  | lineBreakpoint => "line_breakpoint"
  | topLevelLineBreakpoint => "top_level_line_breakpoint"
  | exceptionBreakpoint => "exception_breakpoint"
  | deleted => "deleted"

instance : JsonForm TracepointType := .ofWords word all

instance : WireForm TracepointType where
  put t := Wire.putI32 t.code
  get := do
    match ofCode (← Wire.getI32) with
    | .ok t => pure t
    | .error fault => Reader.fail fault

end TracepointType

namespace TracepointFlag

/-- The tracepoint may fire. -/
def enabled : UInt32 := 0x00000001
/-- The tracepoint fires once. -/
def temporary : UInt32 := 0x00000002
/-- The condition is not an expression. -/
def conditionInvalid : UInt32 := 0x01000000
/-- The condition could not be evaluated. -/
def conditionFailed : UInt32 := 0x02000000

/-- Whether a flag is set. -/
def isSet (flags flag : UInt32) : Bool := flags &&& flag != 0

end TracepointFlag

/-! ### Positions -/

/-- Where a tracepoint sits: a path of indices into the parsed element, and perhaps a reference to
the source. -/
structure TracepointPosition where
  type : TracepointType
  id : Int64
  index : List Int32
  srcref : Option SourceRef
  deriving DecidableEq, Repr

namespace TracepointPosition

/-- Positions are ordered by path, where a path comes before all that extend it, then by type,
number and source reference. -/
def compare (a b : TracepointPosition) : Ordering :=
  (Ord.compare a.index b.index).then <| (Ord.compare a.type b.type).then <|
    (Ord.compare a.id b.id).then <|
      Ord.compare (a.srcref.map SourceRef.coords) (b.srcref.map SourceRef.coords)

instance : WireForm TracepointPosition where
  put p := WireForm.put p.type ++ Wire.putI64 p.id ++ Wire.putInts p.index ++ WireForm.put p.srcref
  get := do
    let type ← WireForm.get
    let id ← Wire.getI64
    let index ← Wire.getInts
    let srcref ← WireForm.get
    pure ⟨type, id, index, srcref⟩

instance : JsonForm TracepointPosition where
  toJson p := .obj [("tp_type", toJson p.type), ("id", toJson p.id), ("index", toJson p.index),
    ("srcref", toJson p.srcref)]
  ofInput? x := do
    let fields ← x.record? ["tp_type", "id", "index", "srcref"]
    some ⟨← fields.get? "tp_type", ← fields.get? "id",
      ← fields.get? "index", ← fields.get? "srcref"⟩

end TracepointPosition

/-! ### States -/

/-- What the client knows about a tracepoint. -/
structure TracepointState where
  type : TracepointType
  id : Int64
  filePath : String
  elementId : String
  index : List Int32
  elementLabel : Option String
  flags : UInt32
  /-- The condition under which the tracepoint fires. -/
  condition : Option String
  deriving DecidableEq, Repr

namespace TracepointState

/-- The entry that takes a tracepoint away. -/
def deleted (filePath : String) (id : Int64) : TracepointState :=
  ⟨.deleted, id, filePath, "", [], none, 0, none⟩

/-- The entry as it is after sending it: of a deletion only the file and the number are left. -/
def normalize (s : TracepointState) : TracepointState :=
  if s.type = .deleted then deleted s.filePath s.id else s

/-- Whether the tracepoint may fire. -/
def isEnabled (s : TracepointState) : Bool :=
  s.type != .deleted && TracepointFlag.isSet s.flags TracepointFlag.enabled

/-- Whether the tracepoint fires only once. -/
def isTemporary (s : TracepointState) : Bool :=
  TracepointFlag.isSet s.flags TracepointFlag.temporary

/-- States are ordered by file, element and number first. -/
def compare (a b : TracepointState) : Ordering :=
  (Ord.compare a.filePath b.filePath).then <| (Ord.compare a.elementId b.elementId).then <|
    (Ord.compare a.id b.id).then <| (Ord.compare a.type b.type).then <|
      (Ord.compare a.index b.index).then <| (Ord.compare a.flags b.flags).then <|
        (Ord.compare a.elementLabel b.elementLabel).then <|
          Ord.compare a.condition b.condition

instance : JsonForm TracepointState where
  toJson s := .obj [("tp_type", toJson s.type), ("id", toJson s.id),
    ("file_path", toJson s.filePath), ("element_id", toJson s.elementId),
    ("index", toJson s.index), ("element_label", toJson s.elementLabel),
    ("flags", toJson s.flags), ("expr", toJson s.condition)]
  ofInput? x := do
    let fields ← x.record? ["tp_type", "id", "file_path", "element_id", "index", "element_label",
      "flags", "expr"]
    some ⟨← fields.get? "tp_type", ← fields.get? "id",
      ← fields.get? "file_path", ← fields.get? "element_id",
      ← fields.get? "index", ← fields.get? "element_label",
      ← fields.get? "flags", ← fields.get? "expr"⟩

/-! ### Lists of states

A text that is the same as the last one written for its purpose is left out. -/

/-- A text, or nothing if it is the last one already. -/
def putShared (last : Option String) (s : String) : Bytes :=
  Wire.putText? (if last = some s then none else some s)

/-- A text, or the last one if it was left out. -/
def getShared (last : Option String) (what : String) : Reader String := do
  match ← Wire.getText? with
  | some s => pure s
  | none =>
    match last with
    | some s => pure s
    | none => Reader.fail (.badLength what Wire.absentCount.toInt)

/-- The states after those whose last path and element are given. -/
def putAll (lastPath lastElement : Option String) : List TracepointState → Bytes
  | [] => []
  | s :: rest =>
    let head := WireForm.put s.type ++ Wire.putI64 s.id ++ putShared lastPath s.filePath
    if s.type = .deleted then head ++ putAll (some s.filePath) lastElement rest
    else
      head ++ putShared lastElement s.elementId ++ Wire.putInts s.index ++
        Wire.putText? s.elementLabel ++ Wire.putU32 s.flags ++ Wire.putText? s.condition ++
        putAll (some s.filePath) (some s.elementId) rest

/-- `n` states after those whose last path and element are given. -/
def getAll (lastPath lastElement : Option String) : Nat → Reader (List TracepointState)
  | 0 => pure []
  | n + 1 => do
    let type : TracepointType ← WireForm.get
    let id ← Wire.getI64
    let filePath ← getShared lastPath "file path"
    if type = .deleted then
      let rest ← getAll (some filePath) lastElement n
      pure (deleted filePath id :: rest)
    else
      let elementId ← getShared lastElement "element id"
      let index ← Wire.getInts
      let elementLabel ← Wire.getText?
      let flags ← Wire.getU32
      let condition ← Wire.getText?
      let rest ← getAll (some filePath) (some elementId) n
      pure (⟨type, id, filePath, elementId, index, elementLabel, flags, condition⟩ :: rest)

end TracepointState

/-- A change to the states that the engine knows. -/
structure TracepointUpdate where
  /-- Whether all states that are known are forgotten first. -/
  reset : Bool
  states : List TracepointState
  deriving DecidableEq, Repr

namespace TracepointUpdate

/-- The update as it is after sending it. -/
def normalize (u : TracepointUpdate) : TracepointUpdate :=
  { u with states := u.states.map TracepointState.normalize }

instance : WireForm TracepointUpdate where
  put u := Wire.putU32 (if u.reset then 1 else 0) ++ Wire.putCount u.states.length ++
    TracepointState.putAll none none u.states
  get := do
    let properties ← Wire.getU32
    let n ← Wire.getCount "tracepoint states" 16
    let states ← TracepointState.getAll none none n
    pure ⟨properties &&& 1 != 0, states⟩

instance : JsonForm TracepointUpdate where
  toJson u := .obj [("reset", toJson u.reset), ("states", toJson u.states)]
  ofInput? x := do
    let fields ← x.record? ["reset", "states"]
    some ⟨← fields.get? "reset", ← fields.get? "states"⟩

end TracepointUpdate

/-! ### Events -/

/-- What happened at a tracepoint. -/
inductive TracepointEventKind where
  | aboutToHit
  deriving DecidableEq, Repr

namespace TracepointEventKind

/-- The byte that stands for a kind of event. -/
def tag : TracepointEventKind → UInt8
  | aboutToHit => 1

/-- The kind of event that a byte stands for. -/
def ofTag? (tag : UInt8) : Option TracepointEventKind := [aboutToHit].find? (·.tag == tag)

instance : JsonForm TracepointEventKind :=
  .ofWords (fun | aboutToHit => "about_to_hit") [aboutToHit]

instance : WireForm TracepointEventKind where
  put k := [k.tag]
  get := Wire.getTag "tracepoint event" ofTag?

end TracepointEventKind

/-- The notice that something happened at a tracepoint. -/
structure TracepointEvent where
  kind : TracepointEventKind
  type : TracepointType
  filePath : Option String
  id : Int64
  label : Option String
  flags : UInt32
  text : Option String
  deriving DecidableEq, Repr

namespace TracepointEvent

instance : WireForm TracepointEvent where
  put e := WireForm.put e.kind ++ WireForm.put e.type ++ Wire.putText? e.filePath ++
    Wire.putI64 e.id ++ Wire.putText? e.label ++ Wire.putU32 e.flags ++ Wire.putText? e.text
  get := do
    let kind ← WireForm.get
    let type ← WireForm.get
    let filePath ← Wire.getText?
    let id ← Wire.getI64
    let label ← Wire.getText?
    let flags ← Wire.getU32
    let text ← Wire.getText?
    pure ⟨kind, type, filePath, id, label, flags, text⟩

instance : JsonForm TracepointEvent where
  toJson e := .obj [("kind", toJson e.kind), ("tp_type", toJson e.type),
    ("file_path", toJson e.filePath), ("id", toJson e.id), ("label", toJson e.label),
    ("flags", toJson e.flags), ("message", toJson e.text)]
  ofInput? x := do
    let fields ← x.record? ["kind", "tp_type", "file_path", "id", "label", "flags", "message"]
    some ⟨← fields.get? "kind", ← fields.get? "tp_type",
      ← fields.get? "file_path", ← fields.get? "id", ← fields.get? "label",
      ← fields.get? "flags", ← fields.get? "message"⟩

end TracepointEvent

end EngineLink
