import EngineLink.Exchange.Basic
import EngineLink.Session.Console
import EngineLink.Settings

/-!
# Sessions

A session runs the code of the engine until it is held up: by a question that waits for its answer,
by a request that is left to the outside, or at a gate. Between the coordinator and the engine the
coordinator goes first, and it receives events one by one.

## Main definitions

* `Session` — the exchange, the code of the engine, the interpreter and the debugger
* `Session.perform`, `Session.run` — carry out one request, and run code until it is held up
* `Session.advance` — one move of the engine that does not need the outside
* `Session.settle` — all moves until nothing moves any more
* `Session.inject` — run code where the engine is held up
-/

namespace EngineLink

/-- How the engine goes on from a question. -/
structure Wait (ι : Type) where
  /-- Who executes requests in the meantime. -/
  executor : Executor
  /-- The code that takes the answer. -/
  resume : Item → Task ι Unit

/-- A session with an interpreter with states in `ι`. -/
structure Session (ι : Type) where
  exchange : Exchange (Wait ι)
  /-- The code in which the engine is held up. Code that waits for an answer is not here but on the
  stack of the exchange. -/
  current : Task ι Unit := .done ()
  /-- The state of the interpreter. -/
  state : ι
  debugger : Debugger := {}
  settings : Settings
  /-- What the outside has learned, in order. -/
  reports : List Report := []

/-- What the engine is held up by. -/
inductive Hold where
  /-- Nothing: it is free. -/
  | idle
  /-- A request that is left to the outside. -/
  | delegated (request : Item)
  | gate (gate : Gate)
  /-- A question that waits for its answer. -/
  | waiting

/-- Whether the engine is free. -/
def Hold.isIdle : Hold → Bool
  | idle => true
  | _ => false

namespace Session

variable {ι : Type}

/-- A session at its start. -/
def start (settings : Settings) (state : ι) : Session ι :=
  { exchange := .ofCapacity settings.stdoutBuffer, state, settings }

/-- Change the exchange. -/
def modifyExchange (s : Session ι) (f : Exchange (Wait ι) → Exchange (Wait ι)) : Session ι :=
  { s with exchange := f s.exchange }

/-- Carry out a request, unless it holds the engine up. -/
def perform (s : Session ι) : (r : TaskRequest ι) → Option (r.Reply × Session ι)
  | .code .getState => some (s.state, s)
  | .code (.setState state) => some ((), { s with state })
  | .code (.writeOut text) =>
    some ((), s.modifyExchange (·.tell (.new SlotId.primary (.writeOut text))))
  | .code (.writeErr text) =>
    some ((), s.modifyExchange (·.tell (.new SlotId.primary (.writeErr text))))
  | .code .isInterrupted => some (s.exchange.interrupted, s)
  | .code .interrupt => some ((), s.modifyExchange (·.interrupt))
  | .code (.ask item _) =>
    if s.exchange.isStopped then
      let (answered, x) := s.exchange.askStopped item
      some (answered, { s with exchange := x })
    else none
  | .code (.gate _) => none
  | .getDebugger => some (s.debugger, s)
  | .setDebugger debugger => some ((), { s with debugger })
  | .tell item => some ((), s.modifyExchange (·.tell item))
  | .setBusy busy => some ((), s.modifyExchange (·.setBusy busy))
  | .clearInterrupt =>
    let (was, x) := s.exchange.clearInterrupt
    some (was, { s with exchange := x })
  | .reply item => some ((), s.modifyExchange (·.finish item))
  | .report r => some ((), { s with reports := s.reports ++ [r] })
  | .delegate _ => none
  | .console _ => none

/-- Be held up by a request. Code that waits for an answer goes to the stack of the exchange. -/
def holdUp (s : Session ι) : (r : TaskRequest ι) → (r.Reply → Task ι Unit) → Session ι
  | .code (.ask item executor), next =>
    { s with exchange := s.exchange.ask item ⟨executor, next⟩, current := .done () }
  | r, next => { s with current := .call r next }

/-- Run code until it ends or is held up. -/
def run : Task ι Unit → Session ι → Session ι
  | .done _, s => { s with current := .done () }
  | .call r next, s =>
    match s.perform r with
    | some (reply, s) => run (next reply) s
    | none => s.holdUp r next

/-- What the engine is held up by. -/
def hold (s : Session ι) : Hold :=
  match s.current with
  | .call (.code (.gate gate)) _ => .gate gate
  | .call (.delegate request) _ => .delegated request
  | _ => if s.exchange.isWaiting then .waiting else .idle

/-- One move of the engine that does not need the outside, if there is one. The console reads and
evaluates one line after another until it ends. -/
def advance (I : Interpreter ι) (s : Session ι) : Option (Session ι) :=
  match s.current with
  | .call (.console prompt) next =>
    some <| s.run do
      if ← Task.consoleTurn I prompt then next () else .call (.console prompt) next
  | .call .. => none
  | .done _ =>
    match s.exchange.wakeUp with
    | none => none
    | some (.resume answer wait, x) => some ({ s with exchange := x }.run (wait.resume answer))
    | some (.execute request wait, x) =>
      some ({ s with exchange := x }.run
        (Task.serve I s.settings.limits wait.executor request))
    | some (.dropped, x) => some { s with exchange := x }

/-- Let the coordinator and the engine move until nothing moves any more, for at most `fuel` moves.
Plugins run once all is quiet. -/
def settle (I : Interpreter ι) : Nat → Session ι → Session ι
  | 0, s => s
  | fuel + 1, s =>
    if !s.exchange.events.isEmpty then settle I fuel (s.modifyExchange (·.coordinate 1))
    else
      match s.advance I with
      | some s => settle I fuel s
      | none => s.modifyExchange (·.runPlugins)

/-! ### The outside -/

/-- Run code where the engine is held up, and be held up there again. -/
def inject (s : Session ι) (job : Task ι Unit) : Session ι := s.run (job >>= fun _ => s.current)

/-- Let the engine go on from a gate. -/
def openGate (s : Session ι) : Session ι :=
  match s.current with
  | .call (.code (.gate _)) next => s.run (next ())
  | _ => s

/-- Execute the request that is left to the outside. -/
def finishDelegated (s : Session ι) (reply : Item) : Session ι :=
  match s.current with
  | .call (.delegate _) next => s.run (next reply)
  | _ => s

end Session

end EngineLink
