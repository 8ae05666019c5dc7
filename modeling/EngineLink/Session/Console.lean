import EngineLink.Message.Shown
import EngineLink.Session.Dispatch
import EngineLink.Text.Blank

/-!
# The console

The console reads lines from the primary client and evaluates them until the session stops.

## Main definitions

* `Task.readLine` — read a line from the primary client
* `Task.evalLine` — evaluate a line
* `Task.consoleTurn` — read and evaluate one line
* `Task.extUi` — call the user interface of the primary client
-/

namespace EngineLink

namespace Task

variable {ι : Type} (I : Interpreter ι)

/-- Read a line from the primary client. -/
def readLine (prompt : String) (addToHistory : Bool) : Task ι (Except Status String) := do
  match ← ask (.consoleRead prompt addToHistory) with
  | .text line => return .ok line
  | .status status => return .error status
  | other =>
    return .error (.error Status.Code.protocol s!"unexpected answer: {other.shown}")

/-- Evaluate a line. A blank line does nothing. Interrupts that came before do not count. -/
def evalLine (line : String) : ExceptT EvalFault (Task ι) Unit := do
  if Text.isAllBlank line then return
  ExceptT.lift clearInterrupt
  let expr ← ofFallible (I.parse line)
  let result ← ExceptT.lift (ofFallible (I.eval expr none)).run
  ExceptT.lift (settleInterrupt result)
  let _ ← ExceptT.mk (pure result)

/-- Read and evaluate one line, telling whether the session has stopped. Errors are shown. -/
def consoleTurn (prompt : String) : Task ι Bool := do
  request (.setBusy false)
  match ← readLine prompt true with
  | .error status => return status.code == Status.Code.stopped
  | .ok line =>
    request (.setBusy true)
    match ← (evalLine I line).run with
    | .ok () => pure ()
    | .error fault => tell (.writeErr s!"Error: {fault.message}\n")
    return false

/-- Call the user interface of the primary client. Without waiting there is no answer. -/
def extUi (name : String) (arg : Option Value) (wait : Bool) : Task ι (Option Answer) := do
  if wait then some <$> ask (.extUi name arg wait)
  else
    tell (.extUi name arg wait)
    return none

end Task

end EngineLink
