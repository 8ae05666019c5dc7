import EngineLink.Session.Task

/-!
# Serving requests of clients

The session executes the data requests and debug commands of clients one at a time. An interrupt
cancels only the evaluation during which it arrives.

## Main definitions

* `Task.dispatch` — execute a request
* `Task.reach` — reach a place with a tracepoint
-/

namespace EngineLink

namespace Task

variable {ι α : Type} (I : Interpreter ι) (L : Limits)

/-- Parse and evaluate a text in the global environment. -/
def evalText (text : String) : ExceptT EvalFault (Task ι) Handle := do
  let expr ← ofFallible (I.parse text)
  ofFallible (I.eval expr none)

/-- The value of an object as an answer. -/
def readValue (shapeOnly : Bool) (h : Handle) : ExceptT EvalFault (Task ι) Answer :=
  Answer.value <$> ofObjects (I.inspector.read L shapeOnly h)

/-- Execute a data request. -/
def serveData : DataRequest → ExceptT EvalFault (Task ι) Answer
  | .evalVoid expr => do
    let _ ← evalText I expr
    return .done
  | .evalData expr => do readValue I L false (← evalText I expr)
  | .evalShape expr => do readValue I L true (← evalText I expr)
  | .resolveData handle => readValue I L false handle
  | .resolveShape handle => readValue I L true handle
  | .assign target value => do
    let handle ← ofObjects (I.createWhole value)
    ofFallible (I.assign target handle)
    return .done

/-- Forget an interrupt that has ended some code. -/
def settleInterrupt (result : Except EvalFault α) : Task ι Unit :=
  match result with
  | .error .interrupted => clearInterrupt
  | _ => pure ()

/-- Execute a data request. Interrupts that came before do not count. -/
def data (request : DataRequest) : Task ι (Except EvalFault Answer) := do
  clearInterrupt
  let result ← (serveData I L request).run
  settleInterrupt result
  return result

/-- Execute a debug command. -/
def debug (command : DebugCommand) : Task ι (Except EvalFault (Option DebugReply)) := do
  let debugger ← (request .getDebugger : Task ι Debugger)
  let state ← (request (.code .getState) : Task ι ι)
  let ((result, debugger), state) :=
    (((Debugger.handle (I.debugBackend state) command).run.run debugger).run state :
      (Except EvalFault (Option DebugReply) × Debugger) × ι)
  request (.setDebugger debugger)
  request (.code (.setState state))
  return result

/-- The answer to a request of a client. -/
def answer : ItemKind → Task ι Answer
  | .data r => do
    match ← data I L r with
    | .ok answer => return answer
    | .error fault => return .status fault.status
  | .debug command => do
    match ← debug I command with
    | .ok (some reply) => return .debug reply
    | .ok none => return .done
    | .error fault => return .status fault.status
  | kind =>
    return .status
      (.error Status.Code.notSupported s!"{kind.name} is not a client request")

/-- Execute a request and give it back with its answer. -/
def dispatch (item : Item) : Task ι Item := item.answered <$> answer I L item.kind

/-- Execute a request that arrived while a question was waiting. -/
def serve (executor : Executor) (item : Item) : Task ι Unit := do
  let reply ← match executor with
    | .session => dispatch I L item
    | .outside => request (.delegate item)
  request (.reply reply)

/-- Reach a place with a tracepoint. The client learns about it if it fires. -/
def reach (path elementId : String) (id : Int64) (environment : Option Handle) : Task ι Bool := do
  let debugger ← (request .getDebugger : Task ι Debugger)
  let (event, registry) ← ofEval (I.hit debugger.registry path elementId id environment)
  request (.setDebugger { debugger with registry })
  match event with
  | some event =>
    tell (.debug (.notifyEvent event))
    return true
  | none => return false

end Task

end EngineLink
