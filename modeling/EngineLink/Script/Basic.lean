import EngineLink.Engine.Object
import EngineLink.Debug.Debugger
import Std.Data.HashMap

/-!
# A scripted interpreter: its state

To try out sessions without a real interpreter, a scripted one keeps a table of objects and knows a
few expressions. Objects are given levels by level, as a session sees them, and can be made to fail
when they are looked at.

## Main definitions

* `ScriptObject` — what the interpreter shows of an object
* `Script` — the state of the interpreter
* `Script.inspector` — looking at objects
* `Script.create` — making objects of values
-/

namespace EngineLink

/-- What the interpreter shows of an object. -/
structure ScriptObject where
  view : Except EvalFault ObjectView
  attrs : Except EvalFault (List (String × Handle)) := .ok []

/-- The debugging side of the interpreter. -/
structure ScriptDebug where
  frames : List Frame := []
  /-- Why the stack cannot be read. -/
  stackFault : Option EvalFault := none
  /-- The details of frames by position. -/
  contexts : List FrameContext := []
  suspended : Bool := false
  acceptSuspend : Bool := true
  acceptControl : Bool := true
  /-- The positions that exist: file, element and number. -/
  live : List (String × String × Int64) := []
  /-- The frames and positions for which debugging is switched on. -/
  switched : List UInt64 := []
  /-- The operations that were asked for, in order. -/
  log : List (ControlOp × Option UInt64) := []

/-- Give the interpreter a stack, which can be read from then on. -/
def ScriptDebug.setFrames (d : ScriptDebug) (frames : List Frame) : ScriptDebug :=
  { d with frames, stackFault := none }

/-- The state of the interpreter. -/
structure Script where
  objects : Std.HashMap Handle ScriptObject := {}
  /-- The texts of parsed expressions. -/
  exprs : Std.HashMap Handle String := {}
  globals : Std.HashMap String Handle := {}
  /-- The variables of environments. -/
  envs : Std.HashMap Handle (Std.HashMap String Handle) := {}
  /-- The handle that was given out last. -/
  lastHandle : Handle := 1000
  debug : Option ScriptDebug := none
  /-- Whether code is held up at gates. -/
  gated : Bool := false

namespace Script

/-- The object of a handle. -/
def object (h : Handle) : ExceptT EvalFault (StateM Script) ScriptObject := do
  match (← get).objects[h]? with
  | some o => pure o
  | none => throw (.invalidReference h)

/-- Looking at objects. -/
def inspector : Inspector (StateM Script) where
  attr? h name := do return (← liftExcept (← object h).attrs).lookup name
  attrs h := do liftExcept (← object h).attrs
  view h := do liftExcept (← object h).view

/-- A new handle. -/
def freshHandle : StateM Script Handle := do
  modify fun s => { s with lastHandle := s.lastHandle + 1 }
  return (← get).lastHandle

/-- Keep an object under a new handle. -/
def keep (o : ScriptObject) : StateM Script Handle := do
  let h ← freshHandle
  modify fun s => { s with objects := s.objects.insert h o }
  return h

/-- Keep an object that consists of one level. -/
def keepView (v : ObjectView) (attrs : List (String × Handle)) :
    ExceptT EvalFault (StateM Script) Handle :=
  ExceptT.lift (keep ⟨.ok v, .ok attrs⟩)

/-- The class attribute of a new object. -/
def createClass : Option String → ExceptT EvalFault (StateM Script) (List (String × Handle))
  | none => return []
  | some cls => return [("class", ← keepView (.vector (.character [some cls]) none none none) [])]

mutual

/-- Make an object of a value: first what is in it, then its class, then its attributes, and the
object itself last. -/
def create : Value → ExceptT EvalFault (StateM Script) Handle
  | .null => keepView .null []
  | .missing => keepView .missing []
  | .vector cls store names attrs => do
    let cls ← createClass cls
    keepView (.vector store names none none) (cls ++ (← createAttrs attrs))
  | .array cls store dim dimnames attrs => do
    let cls ← createClass cls
    keepView (.vector store none (some dim) dimnames) (cls ++ (← createAttrs attrs))
  | .list cls elements names attrs => do
    let elements ← createList elements
    let cls ← createClass cls
    keepView (.list elements names) (cls ++ (← createAttrs attrs))
  | .dataFrame cls columns columnNames rowCount rowNames attrs => do
    let columns ← createList columns
    let cls ← createClass cls
    keepView (.dataFrame columns columnNames rowCount rowNames) (cls ++ (← createAttrs attrs))
  | .environment name _ bindings => do keepView (.environment name (← createPairs bindings)) []
  | .function header => keepView (.function header) []
  | .object cls slots => do keepView (.object cls (← createPairs slots)) []
  | .reference handle _ => do
    let _ ← object handle
    return handle
  | .other cls => keepView (.other cls) []

/-- Make an object of each value. -/
def createList : List Value → ExceptT EvalFault (StateM Script) (List Handle)
  | [] => return []
  | v :: vs => do
    let h ← create v
    return h :: (← createList vs)

/-- Make an object of each named value. -/
def createPairs : List (String × Value) →
    ExceptT EvalFault (StateM Script) (List (String × Handle))
  | [] => return []
  | (name, v) :: rest => do
    let h ← create v
    return (name, h) :: (← createPairs rest)

/-- Make an object of each attribute. -/
def createAttrs : Option (List (String × Value)) →
    ExceptT EvalFault (StateM Script) (List (String × Handle))
  | none => return []
  | some attrs => createPairs attrs

end

end Script

end EngineLink
