import EngineLink.Debug.CallStack
import EngineLink.Debug.Control
import EngineLink.Debug.FrameContext
import EngineLink.Debug.Installation
import EngineLink.Debug.Switch

/-!
# Debug commands and replies

## Main definitions

* `DebugCommand` — what a client can ask of the debugger, and the one notice of the engine
* `DebugReply` — the replies
-/

namespace EngineLink

/-- A command to the debugger. -/
inductive DebugCommand where
  | loadFrameList
  | loadFrameContext (request : FrameContextRequest)
  | setDebug (request : SetDebugRequest)
  | requestSuspend
  | control (request : ControlRequest)
  | installTracepoints (request : InstallationRequest)
  | installFlagTracepoints (request : FlagInstallationRequest)
  | updateTracepoints (update : TracepointUpdate)
  | setEnablement (enablement : Enablement)
  | resetFilter (filter : FilterState)
  /-- The notice of a tracepoint, which only the engine sends. -/
  | notifyEvent (event : TracepointEvent)
  deriving DecidableEq, Repr

namespace DebugCommand

/-- The name of a command. -/
def name : DebugCommand → String
  | loadFrameList => "load_frame_list"
  | loadFrameContext _ => "load_frame_context"
  | setDebug _ => "set_debug"
  | requestSuspend => "request_suspend"
  | control _ => "control"
  | installTracepoints _ => "install_tracepoints"
  | installFlagTracepoints _ => "install_flag_tracepoints"
  | updateTracepoints _ => "update_tracepoint_states"
  | setEnablement _ => "set_enablement"
  | resetFilter _ => "reset_filter_state"
  | notifyEvent _ => "notify_tracepoint_event"

/-- The names of all commands, in their order. -/
def names : List String :=
  ["load_frame_list", "load_frame_context", "set_debug", "request_suspend", "control",
    "install_tracepoints", "install_flag_tracepoints", "update_tracepoint_states",
    "set_enablement", "reset_filter_state", "notify_tracepoint_event"]

/-- The command as it is after sending it. -/
def normalize : DebugCommand → DebugCommand
  | updateTracepoints update => updateTracepoints update.normalize
  | c => c

instance : WireForm DebugCommand where
  put
    | loadFrameList => [0x01]
    | loadFrameContext r => 0x02 :: WireForm.put r
    | setDebug r => 0x03 :: WireForm.put r
    | requestSuspend => [0x04]
    | installTracepoints r => 0x05 :: WireForm.put r
    | installFlagTracepoints r => 0x06 :: WireForm.put r
    | control r => 0x07 :: WireForm.put r
    | setEnablement e => 0x08 :: WireForm.put e
    | resetFilter f => 0x09 :: WireForm.put f
    | updateTracepoints u => 0x0A :: WireForm.put u
    | notifyEvent e => 0x11 :: WireForm.put e
  get := do
    match ← Wire.getU8 with
    | 0x01 => pure loadFrameList
    | 0x02 => loadFrameContext <$> WireForm.get
    | 0x03 => setDebug <$> WireForm.get
    | 0x04 => pure requestSuspend
    | 0x05 => installTracepoints <$> WireForm.get
    | 0x06 => installFlagTracepoints <$> WireForm.get
    | 0x07 => control <$> WireForm.get
    | 0x08 => setEnablement <$> WireForm.get
    | 0x09 => resetFilter <$> WireForm.get
    | 0x0A => updateTracepoints <$> WireForm.get
    | 0x11 => notifyEvent <$> WireForm.get
    | t => Reader.fail (.unknownByte "debug op" t)

instance : JsonForm DebugCommand where
  toJson c :=
    let op : String × Json := ("op", .str c.name)
    match c with
    | loadFrameList | requestSuspend => .obj [op]
    | loadFrameContext r => .obj [op, ("data", toJson r)]
    | setDebug r => .obj [op, ("data", toJson r)]
    | control r => .obj [op, ("data", toJson r)]
    | installTracepoints r => .obj [op, ("data", toJson r)]
    | installFlagTracepoints r => .obj [op, ("data", toJson r)]
    | updateTracepoints u => .obj [op, ("data", toJson u)]
    | setEnablement e => .obj [op, ("data", toJson e)]
    | resetFilter f => .obj [op, ("data", toJson f)]
    | notifyEvent e => .obj [op, ("data", toJson e)]
  ofInput? x := do
    match ← x.labelled? "op" "data" names with
    | ("load_frame_list", data) => if Json.Input.isNothing data then some loadFrameList else none
    | ("request_suspend", data) => if Json.Input.isNothing data then some requestSuspend else none
    | ("load_frame_context", some data) => loadFrameContext <$> ofInput? data
    | ("set_debug", some data) => setDebug <$> ofInput? data
    | ("control", some data) => control <$> ofInput? data
    | ("install_tracepoints", some data) => installTracepoints <$> ofInput? data
    | ("install_flag_tracepoints", some data) => installFlagTracepoints <$> ofInput? data
    | ("update_tracepoint_states", some data) => updateTracepoints <$> ofInput? data
    | ("set_enablement", some data) => setEnablement <$> ofInput? data
    | ("reset_filter_state", some data) => resetFilter <$> ofInput? data
    | ("notify_tracepoint_event", some data) => notifyEvent <$> ofInput? data
    | _ => none

end DebugCommand

/-- A reply of the debugger. -/
inductive DebugReply where
  | callStack (stack : CallStack)
  | frameContext (context : FrameContext)
  | setDebug (report : SetDebugReport)
  | control (report : ControlReport)
  | installation (report : InstallationReport)
  deriving DecidableEq, Repr

namespace DebugReply

instance : WireForm DebugReply where
  put
    | callStack s => 1 :: WireForm.put s
    | frameContext c => 2 :: WireForm.put c
    | setDebug r => 3 :: WireForm.put r
    | control r => 4 :: WireForm.put r
    | installation r => 5 :: WireForm.put r
  get := do
    match ← Wire.getU8 with
    | 1 => callStack <$> WireForm.get
    | 2 => frameContext <$> WireForm.get
    | 3 => setDebug <$> WireForm.get
    | 4 => control <$> WireForm.get
    | 5 => installation <$> WireForm.get
    | t => Reader.fail (.unknownByte "debug reply" t)

instance : JsonForm DebugReply where
  toJson
    | callStack s => .obj [("type", .str "call_stack"), ("data", toJson s)]
    | frameContext c => .obj [("type", .str "frame_context"), ("data", toJson c)]
    | setDebug r => .obj [("type", .str "set_debug"), ("data", toJson r)]
    | control r => .obj [("type", .str "ctrl"), ("data", toJson r)]
    | installation r => .obj [("type", .str "installation"), ("data", toJson r)]
  ofInput? x := do
    match ← x.labelled? "type" "data"
      ["call_stack", "frame_context", "set_debug", "ctrl", "installation"] with
    | ("call_stack", some data) => callStack <$> ofInput? data
    | ("frame_context", some data) => frameContext <$> ofInput? data
    | ("set_debug", some data) => setDebug <$> ofInput? data
    | ("ctrl", some data) => control <$> ofInput? data
    | ("installation", some data) => installation <$> ofInput? data
    | _ => none

end DebugReply

end EngineLink
