import EngineLink.Engine.Interpreter

/-!
# Tasks of the engine

A task is code of the session itself. Besides what running code can do, it talks to clients, keeps
the debugger, and leaves requests of clients to the outside.

## Main definitions

* `TaskRequest`, `Task` — what tasks can do
* `Report` — what the outside learns from tasks
* `Task.ask` — ask the primary client
-/

namespace EngineLink

/-- What the outside learns when a call into the session returns. -/
inductive Report where
  | answered (item : Item)
  | lineRead (line : Except Status String)
  | extUi (answer : Option Answer)
  | consoleEnded
  | dispatched (item : Item)
  | hit (fires : Bool)

/-- What a task can request, for an interpreter with states in `ι`. -/
inductive TaskRequest (ι : Type) where
  /-- What running code can request. -/
  | code (request : EvalRequest ι)
  | getDebugger
  | setDebugger (debugger : Debugger)
  | tell (item : Item)
  | setBusy (busy : Bool)
  | clearInterrupt
  /-- Wait for the outside to execute a request. -/
  | delegate (request : Item)
  /-- Come back from the request that is being executed. -/
  | reply (item : Item)
  /-- Read and evaluate lines until the session stops. -/
  | console (prompt : String)
  | report (report : Report)

/-- The replies to requests of tasks. -/
def TaskRequest.Reply {ι : Type} : TaskRequest ι → Type
  | code request => request.Reply
  | getDebugger => Debugger
  | clearInterrupt => Bool
  | delegate _ => Item
  | _ => Unit

/-- Code of the session with a result in `α`. -/
abbrev Task (ι : Type) : Type → Type := Job (TaskRequest ι) TaskRequest.Reply

namespace Task

variable {ι α : Type}

/-- Make one request. -/
def request (r : TaskRequest ι) : Task ι r.Reply := Job.request r

/-- Run code of the interpreter. -/
def ofEval (code : Eval ι α) : Task ι α := code.interpret fun r => request (.code r)

/-- Run code of the interpreter that can fail. -/
def ofFallible (code : ExceptT EvalFault (Eval ι) α) : ExceptT EvalFault (Task ι) α :=
  ExceptT.mk (ofEval code.run)

/-- Use the state of the interpreter for something that can fail. -/
def ofObjects (f : ExceptT EvalFault (StateM ι) α) : ExceptT EvalFault (Task ι) α :=
  ofFallible (Eval.ofFallible f)

/-- Tell the primary client something. -/
def tell (kind : ItemKind) : Task ι Unit := request (.tell (.new SlotId.primary kind))

/-- Forget an interrupt. -/
def clearInterrupt : Task ι Unit := do
  let _ ← (request .clearInterrupt : Task ι Bool)

/-- Tell the outside something. -/
def report (r : Report) : Task ι Unit := request (.report r)

/-- Ask a question and wait for the answered item. -/
def askItem (item : Item) (executor : Executor) : Task ι Item :=
  request (.code (.ask item executor))

/-- Ask the primary client a question. The session executes requests in the meantime. -/
def ask (kind : ItemKind) : Task ι Answer := do
  let reply ← askItem (.new SlotId.primary kind) .session
  return reply.answer.getD (.status .stopped)

end Task

end EngineLink
