import EngineLink.Debug.Debugger
import EngineLink.Engine.Job
import EngineLink.Engine.Object
import EngineLink.Message.Item

/-!
# Interpreters

The session reaches the interpreter through a few operations. Those that run code can write to the
console, look whether they have been interrupted, be held up, and ask clients; all others only
depend on the state of the interpreter.

## Main definitions

* `EvalRequest`, `Eval` — what running code can do
* `Interpreter` — the operations of an interpreter
* `Interpreter.holds` — decide the condition of a tracepoint
* `Interpreter.hit` — decide whether a tracepoint fires
-/

namespace EngineLink

/-- Who executes the requests of clients that arrive while a question waits for its answer. -/
inductive Executor where
  /-- The session. -/
  | session
  /-- Someone outside the session. -/
  | outside
  deriving DecidableEq, Repr

/-- Where code can be held up. -/
inductive Gate where
  | parse (text : String)
  | write (text : String)
  deriving DecidableEq, Repr

/-- What running code can request, for an interpreter with states in `ι`. -/
inductive EvalRequest (ι : Type) where
  | getState
  | setState (state : ι)
  | writeOut (text : String)
  | writeErr (text : String)
  | isInterrupted
  | interrupt
  /-- Wait for a client to answer. -/
  | ask (item : Item) (executor : Executor)
  /-- Wait for the outside to let the code go on. -/
  | gate (gate : Gate)

/-- The replies to requests of running code. -/
def EvalRequest.Reply {ι : Type} : EvalRequest ι → Type
  | getState => ι
  | isInterrupted => Bool
  | ask .. => Item
  | _ => Unit

/-- Running code with a result in `α`. -/
abbrev Eval (ι : Type) : Type → Type := Job (EvalRequest ι) EvalRequest.Reply

namespace Eval

variable {ι : Type}

/-- The state of the interpreter. -/
def getState : Eval ι ι := Job.request (A := EvalRequest.Reply) .getState

/-- Replace the state of the interpreter. -/
def setState (state : ι) : Eval ι Unit := Job.request (A := EvalRequest.Reply) (.setState state)

/-- Write to the console. -/
def writeOut (text : String) : Eval ι Unit := Job.request (A := EvalRequest.Reply) (.writeOut text)

/-- Write errors to the console. -/
def writeErr (text : String) : Eval ι Unit := Job.request (A := EvalRequest.Reply) (.writeErr text)

/-- Whether an interrupt has been requested. -/
def isInterrupted : Eval ι Bool := Job.request (A := EvalRequest.Reply) .isInterrupted

/-- Request an interrupt. -/
def interrupt : Eval ι Unit := Job.request (A := EvalRequest.Reply) .interrupt

/-- Wait for the outside to let the code go on. -/
def gate (g : Gate) : Eval ι Unit := Job.request (A := EvalRequest.Reply) (.gate g)

/-- Use the state of the interpreter. -/
def ofState {α : Type} (f : StateM ι α) : Eval ι α := do
  let (a, state) := f.run (← getState)
  setState state
  return a

/-- Use the state of the interpreter for something that can fail. -/
def ofFallible {α : Type} (f : ExceptT EvalFault (StateM ι) α) : ExceptT EvalFault (Eval ι) α :=
  ExceptT.mk (ofState f.run)

end Eval

/-- The operations of an interpreter with states in `ι`. -/
structure Interpreter (ι : Type) where
  parse : String → ExceptT EvalFault (Eval ι) Handle
  /-- Evaluate a parsed expression, in an environment or globally. -/
  eval : Handle → Option Handle → ExceptT EvalFault (Eval ι) Handle
  /-- Assign an object to the target of an assignment. -/
  assign : String → Handle → ExceptT EvalFault (Eval ι) Unit
  inspector : Inspector (StateM ι)
  /-- Make an object of a value. -/
  create : Value → ExceptT EvalFault (StateM ι) Handle
  /-- What there is for debugging in a state of the interpreter. -/
  debugBackend : ι → Option (DebugBackend (StateM ι))

namespace Interpreter

variable {ι : Type} (I : Interpreter ι)

/-- Make an object of a value. A shape of a value cannot become an object. -/
def createWhole (v : Value) : ExceptT EvalFault (StateM ι) Handle :=
  if v.hasShape then throw (.wire .shapeOnly) else I.create v

/-- Whether the condition of a tracepoint holds: its first element has to be true. -/
def holds (condition : String) (environment : Option Handle) :
    ExceptT EvalFault (Eval ι) Bool := do
  let result ← I.eval (← I.parse condition) environment
  match ← Eval.ofFallible (I.inspector.view result) with
  | .vector (.logical values) .. => return values.head? == some (some true)
  | _ => throw (.eval s!"condition `{condition}` did not evaluate to a logical value")

/-- Reach a place with a tracepoint. It fires if it may and its condition holds or cannot be
decided. -/
def hit (r : Registry) (path elementId : String) (id : Int64) (environment : Option Handle) :
    Eval ι (Option TracepointEvent × Registry) := do
  match r.candidate? path elementId id with
  | none => return (none, r)
  | some s =>
    let decided ← match s.condition with
      | none => pure (.ok true)
      | some condition => (I.holds condition environment).run
    match decided with
    | .ok false => return (none, r)
    | .ok true =>
      let (event, r) := r.fire s none
      return (some event, r)
    | .error fault =>
      let (event, r) := r.fire s (some fault)
      return (some event, r)

end Interpreter

end EngineLink
