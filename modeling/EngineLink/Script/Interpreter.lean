import EngineLink.Script.Evaluation

/-!
# A scripted interpreter: debugging and assembly

## Main definitions

* `ScriptDebug.contextOf`, `ScriptDebug.switch` — details of frames, and switches of debugging
* `Script.debugBackend` — the debugging side of the interpreter
* `Script.interpreter` — the interpreter
* `Script.Trial` — code that runs without a session
-/

namespace EngineLink

namespace ScriptDebug

/-- The details of a frame: those given for its position, or what the frame itself tells. -/
def contextOf (d : ScriptDebug) (f : Frame) : FrameContext :=
  (d.contexts.reverse.find? (·.position == f.position)).getD
    ⟨f.position, f.call, f.fileName, f.fileTimestamp, none, none, none, none, none, none, none,
      f.exprSrcref⟩

/-- The number under which a switch of debugging is kept. -/
def switchKey : DebugTarget → Except EvalFault UInt64
  | .frame handle => .ok handle
  | .function position name =>
    if name.isEmpty then .error (.eval "no such function")
    else .ok position.toInt64.toUInt64

/-- Switch debugging, telling whether that changed anything. -/
def switch (d : ScriptDebug) (key : UInt64) (enable : Bool) : Bool × ScriptDebug :=
  let isOn := d.switched.contains key
  if isOn == enable then (false, d)
  else
    (true, { d with
      switched := if enable then key :: d.switched else d.switched.filter (· != key) })

end ScriptDebug

namespace Script

/-- Change the debugging side. -/
def modifyDebug (f : ScriptDebug → ScriptDebug) : StateM Script Unit :=
  modify fun s => { s with debug := s.debug.map f }

/-- The debugging side as it is now. -/
def getDebug : StateM Script ScriptDebug := return (← get).debug.getD {}

/-- The debugging side of the interpreter. -/
def backend : DebugBackend (StateM Script) where
  callStack := do
    let d ← ExceptT.lift getDebug
    match d.stackFault with
    | some fault => throw fault
    | none => return d.frames
  frameContext f := do return (← ExceptT.lift getDebug).contextOf f
  setDebug r := do
    let key ← liftExcept (ScriptDebug.switchKey r.target)
    let (changed, d) := (← ExceptT.lift getDebug).switch key r.enable
    ExceptT.lift (modifyDebug fun _ => d)
    return changed
  isSuspended := do return (← getDebug).suspended
  requestSuspend := do
    let accepted := (← getDebug).acceptSuspend
    modifyDebug fun d => { d with suspended := d.suspended || accepted }
    return accepted
  control op frame := do
    let accepted := (← getDebug).acceptControl
    modifyDebug fun d =>
      { d with
        log := d.log ++ [(op, frame)]
        suspended := d.suspended && !(accepted && op == .resume) }
    return accepted
  locate path elementId p := do
    return (← getDebug).live.contains (path, elementId, p.id)

/-- The interpreter. -/
def interpreter : Interpreter Script where
  parse := parse
  eval := eval
  assign := assign
  inspector := inspector
  create := create
  debugBackend s := s.debug.map fun _ => backend

/-- What code does that runs without a session. -/
structure Trial where
  state : Script
  /-- Whether code finds that it is interrupted. -/
  interrupted : Bool
  /-- What has been written, and whether to the error output. -/
  writes : List (Bool × String) := []

/-- Carry out a request without a session. Nobody answers questions, and there are no gates. -/
def Trial.serve : (r : EvalRequest Script) → StateM Trial r.Reply
  | .getState => return (← get).state
  | .setState state => modify fun t => { t with state }
  | .writeOut text => modify fun t => { t with writes := t.writes ++ [(false, text)] }
  | .writeErr text => modify fun t => { t with writes := t.writes ++ [(true, text)] }
  | .isInterrupted => return (← get).interrupted
  | .interrupt => return ()
  | .ask item _ => return item.answered (.status .stopped)
  | .gate _ => return ()

/-- Run code without a session. -/
def Trial.run {α : Type} (t : Trial) (code : Eval Script α) : α × Trial :=
  (code.interpret Trial.serve).run t

end Script

end EngineLink
