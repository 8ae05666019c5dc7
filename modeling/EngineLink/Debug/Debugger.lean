import EngineLink.Debug.Command
import EngineLink.Debug.Registry

/-!
# The debugger

The debugger serves the debug commands of clients with what the interpreter offers for debugging.
Positions of frames in requests refer to the stack that a client has loaded last; it is forgotten
when the engine moves on.

## Main definitions

* `DebugBackend` — what an interpreter offers for debugging
* `Debugger` — what the debugger keeps between commands
* `Debugger.handle` — serve a command
-/

namespace EngineLink

/-- What an interpreter offers for debugging, in a monad `m` that keeps its state. -/
structure DebugBackend (m : Type → Type) where
  /-- The frames, the outermost first. -/
  callStack : ExceptT EvalFault m (List Frame)
  frameContext : Frame → ExceptT EvalFault m FrameContext
  /-- Switch debugging of a function or frame, telling whether that changed anything. -/
  setDebug : SetDebugRequest → ExceptT EvalFault m Bool
  isSuspended : m Bool
  /-- Ask for a suspension, telling whether it is accepted. -/
  requestSuspend : m Bool
  /-- Carry out an operation, with a frame to return into, telling whether it is accepted. -/
  control : ControlOp → Option UInt64 → m Bool
  /-- Whether a position of an element of a file exists. -/
  locate : String → String → TracepointPosition → m Bool

/-- What the debugger keeps between commands. -/
structure Debugger where
  /-- The stack that was loaded last, as long as the engine has not moved on. -/
  lastStack : Option CallStack := none
  enablement : Enablement := {}
  filter : FilterState := {}
  registry : Registry := {}

/-- The innermost frame at or outside the one with the given handle that a step can return into. -/
def CallStack.stepTarget? (stack : CallStack) (handle : UInt64) : Option UInt64 := do
  let at_ ← stack.frames.findIdx? (·.handle == handle)
  let frame ← (stack.frames.take (at_ + 1)).reverse.find? (!·.isFiltered)
  return frame.handle

namespace Debugger

variable {m : Type → Type} [Monad m]

/-- Commands that need a backend fail without one. -/
def need (backend : Option (DebugBackend m)) : ExceptT EvalFault (StateT Debugger m)
    (DebugBackend m) :=
  match backend with
  | some b => pure b
  | none => throw (.notSupported "debugging")

/-- Use the backend. -/
def use {α : Type} (action : ExceptT EvalFault m α) : ExceptT EvalFault (StateT Debugger m) α :=
  ExceptT.mk (StateT.lift action.run)

/-- Use a part of the backend that does not fail. -/
def ask {α : Type} (action : m α) : ExceptT EvalFault (StateT Debugger m) α :=
  ExceptT.lift (StateT.lift action)

/-- The stack as it is now. -/
def freshStack (b : DebugBackend m) : ExceptT EvalFault m CallStack :=
  CallStack.classify <$> b.callStack

/-- The frame at a position of the stack that was loaded last, or of the present one if there is
none. -/
def frameAt (b : DebugBackend m) (position : Int32) :
    ExceptT EvalFault (StateT Debugger m) Frame := do
  let stack ← match (← get).lastStack with
    | some stack => pure stack
    | none => use (freshStack b)
  match stack.byPosition? position with
  | some frame => pure frame
  | none => throw (.eval s!"no frame at position {position}")

/-- Ask a running engine to suspend. -/
def suspend (b : DebugBackend m) : m ControlReport := do
  if ← b.isSuspended then return ⟨.suspend, .notApplicable, true⟩
  let accepted ← b.requestSuspend
  return ⟨.suspend, if accepted then .executed else .notApplicable, ← b.isSuspended⟩

/-- The handle of the frame that a step is to return into. A position counts only in the stack that
was loaded last. With the step filter, filtered frames are left as well. -/
def resolveTarget (d : Debugger) (b : DebugBackend m) (target : FrameRef) :
    m (Option UInt64) := do
  let found : Option (CallStack × Frame) ← match target with
    | .position position => pure do
      let stack ← d.lastStack
      return (stack, ← stack.byPosition? position)
    | .handle handle => do
      match ← (freshStack b).run with
      | .ok stack => pure ((stack.byHandle? handle).map (stack, ·))
      | .error _ => pure none
  return do
    let (stack, frame) ← found
    if d.filter.stepFilter then stack.stepTarget? frame.handle else some frame.handle

/-- Carry out an operation on a suspended engine. When it is accepted, the loaded stack is
forgotten. -/
def control (b : DebugBackend m) (request : ControlRequest) :
    StateT Debugger m ControlReport := do
  let op := request.op
  if !(← b.isSuspended) then return ⟨op, .notApplicable, false⟩
  let target ← match request with
    | .stepReturn target => do
      let handle ← StateT.lift (resolveTarget (← get) b target)
      pure (handle.map some)
    | _ => pure (some none)
  match target with
  | none => return ⟨op, .notApplicable, true⟩
  | some target =>
    if ← b.control op target then
      modify fun d => { d with lastStack := none }
      return ⟨op, .executed, ← b.isSuspended⟩
    else return ⟨op, .notApplicable, ← b.isSuspended⟩

/-- Change the registry. -/
def modifyRegistry (f : Registry → Registry) : ExceptT EvalFault (StateT Debugger m) Unit :=
  modify fun d => { d with registry := f d.registry }

/-- Change the registry, with a report. -/
def installing (f : Registry → List InstallationResult × Registry) :
    ExceptT EvalFault (StateT Debugger m) (Option DebugReply) := do
  let (results, registry) := f (← get).registry
  modify fun d => { d with registry }
  return some (.installation ⟨results⟩)

/-- Serve a command. Commands that only change the debugger have no reply. -/
def handle (backend : Option (DebugBackend m)) :
    DebugCommand → ExceptT EvalFault (StateT Debugger m) (Option DebugReply)
  | .loadFrameList => do
    let stack ← use (freshStack (← need backend))
    modify fun d => { d with lastStack := some stack }
    return some (.callStack stack)
  | .loadFrameContext request => do
    let b ← need backend
    let frame ← frameAt b request.position
    return some (.frameContext (← use (b.frameContext frame)))
  | .setDebug request => do
    return some (.setDebug ⟨← use ((← need backend).setDebug request)⟩)
  | .requestSuspend =>
    match backend with
    | some b => return some (.control (← ask (suspend b)))
    | none => return some (.control ⟨.suspend, .notSupported, false⟩)
  | .control request =>
    match backend with
    | some b => return some (.control (← ExceptT.lift (control b request)))
    | none => return some (.control ⟨request.op, .notSupported, false⟩)
  | .installTracepoints request => do
    let b ← need backend
    let located ← ask (request.locate b.locate)
    installing (·.install located)
  | .installFlagTracepoints request => installing (·.installFlags request.tracepoints)
  | .updateTracepoints update => do
    modifyRegistry (·.update update)
    return none
  | .setEnablement enablement => do
    modify fun d => { d with enablement }
    modifyRegistry fun r => { r with breakpointsEnabled := enablement.breakpoints }
    return none
  | .resetFilter filter => do
    modify fun d => { d with filter }
    return none
  | .notifyEvent _ => throw (.notSupported "tracepoint events are sent by the engine")

end Debugger

end EngineLink
