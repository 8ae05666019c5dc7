import EngineLink.Proofs.Session.Course

/-!
# Marks in the code of a session

Where an evaluation begins and where it has ended with an interrupt cannot be seen from what the
code of a session requests: an interrupt is forgotten at both places. So requests are marked there.
Marked code makes the same requests as the code that it is for.

## Main definitions

* `Mark` — the two places in an evaluation
* `Marked` — code with marks at some of its requests
* `Marked.forget` — the code without its marks
* `Marked.serve`, `Marked.consoleTurn`, `EngineCall.marked` — the code of the session with marks

## Main results

* `Marked.forget_serve`, `Marked.forget_turn`, `EngineCall.forget_marked` — without its marks it is
  the code of the session
-/

namespace EngineLink

/-- A place in an evaluation. -/
inductive Mark where
  /-- It begins: interrupts that came before are forgotten. -/
  | begins
  /-- It has ended with an interrupt. -/
  | interrupted
  deriving DecidableEq, Repr

/-- The mark where a fault becomes known. -/
def Mark.ofFault : EvalFault → Option Mark
  | .interrupted => some interrupted
  | _ => none

/-- Code of the session, with marks at some of its requests. -/
abbrev Marked (ι : Type) : Type → Type :=
  Job (TaskRequest ι × Option Mark) fun r => TaskRequest.Reply r.1

namespace Marked

variable {ι α β : Type}

/-- Make one request with a mark. -/
def request (r : TaskRequest ι) (mark : Mark) : Marked ι r.Reply :=
  Job.request (R := TaskRequest ι × Option Mark) (r, some mark)

/-- Code without marks. -/
def of (j : Task ι α) : Marked ι α :=
  j.interpret fun r => Job.request (R := TaskRequest ι × Option Mark) (r, none)

/-- The code without its marks. -/
def forget (j : Marked ι α) : Task ι α :=
  j.interpret fun r : TaskRequest ι × Option Mark => Task.request r.1

@[simp] theorem forget_bind (j : Marked ι α) (f : α → Marked ι β) :
    forget (j.bind f) = (forget j).bind fun a => forget (f a) :=
  j.interpret_bind _ f

@[simp] theorem forget_request (r : TaskRequest ι) (mark : Mark) :
    forget (request r mark) = Task.request r := rfl

@[simp] theorem forget_of (j : Task ι α) : forget (of j) = j := by
  induction j with
  | done a => rfl
  | call r next ih => exact congrArg (Job.call r) (funext ih)

/-- Code that makes a request without its marks makes the request with or without a mark. -/
theorem call_of_forget {j : Marked ι α} {r : TaskRequest ι} {next : r.Reply → Task ι α}
    (h : j.forget = .call r next) :
    ∃ mark, ∃ marked : r.Reply → Marked ι α, j = .call (r, mark) marked ∧
      next = fun reply => (marked reply).forget := by
  cases j with
  | done a => cases h
  | call r marked =>
    cases h
    exact ⟨r.2, marked, rfl, rfl⟩

theorem done_of_forget {j : Marked ι α} {a : α} (h : j.forget = .done a) : j = .done a := by
  cases j with
  | done b =>
    cases h
    rfl
  | call r marked => cases h

/-! ### Requests of clients -/

variable (I : Interpreter ι) (L : Limits)

/-- Execute a data request. -/
def data (r : DataRequest) : Marked ι (Except EvalFault Answer) := do
  let _ ← request .clearInterrupt .begins
  let result ← of (Task.serveData I L r).run
  match result with
  | .error .interrupted =>
    let _ ← request .clearInterrupt .interrupted
    return result
  | _ => return result

/-- The answer to a request of a client. -/
def answer : ItemKind → Marked ι Answer
  | .data r => do
    match ← data I L r with
    | .ok answer => return answer
    | .error fault => return .status fault.status
  | kind => of (Task.answer I L kind)

/-- Execute a request and give it back with its answer. -/
def dispatch (item : Item) : Marked ι Item := item.answered <$> answer I L item.kind

/-- Execute a request that arrived while a question was waiting. -/
def serve (executor : Executor) (item : Item) : Marked ι Unit := do
  let reply ← match executor with
    | .session => dispatch I L item
    | .outside => of (Task.request (.delegate item))
  of (Task.request (.reply reply))

theorem forget_data (r : DataRequest) : (data I L r).forget = Task.data I L r := by
  simp only [data, Task.data, Task.clearInterrupt, Task.settleInterrupt, Job.bind_eq, Job.pure_eq,
    Job.bind_assoc, Job.done_bind, forget_bind, forget_request, forget_of]
  refine congrArg (Job.bind _) (funext fun _ => congrArg (Job.bind _) (funext fun result => ?_))
  rcases result with (_ | _ | _ | _ | _ | _) | answer <;> rfl

theorem forget_answer (kind : ItemKind) : (answer I L kind).forget = Task.answer I L kind := by
  cases kind with
  | data r =>
    simp only [answer, Task.answer, Job.bind_eq, forget_bind, forget_data]
    refine congrArg (Job.bind _) (funext fun result => ?_)
    cases result <;> rfl
  | _ => exact forget_of _

theorem forget_dispatch (item : Item) : (dispatch I L item).forget = Task.dispatch I L item := by
  simp only [dispatch, Task.dispatch, map_eq_pure_bind, Job.bind_eq, forget_bind, forget_answer]
  rfl

theorem forget_serve (executor : Executor) (item : Item) :
    (serve I L executor item).forget = Task.serve I L executor item := by
  cases executor with
  | session =>
    exact (forget_bind _ _).trans
      (congrArg₂ Job.bind (forget_dispatch I L item) (funext fun _ => forget_of _))
  | outside =>
    exact (forget_bind _ _).trans (congrArg₂ Job.bind (forget_of _) (funext fun _ => forget_of _))

/-! ### The console -/

/-- Evaluate a line that is not blank. -/
def evalCode (line : String) : Marked ι (Except EvalFault Unit) := do
  let _ ← request .clearInterrupt .begins
  match ← of (Task.ofFallible (I.parse line)).run with
  | .error fault => return .error fault
  | .ok expr =>
    let result ← of (Task.ofFallible (I.eval expr none)).run
    of (Task.settleInterrupt result)
    return result.map fun _ => ()

/-- Evaluate a line. A blank line does nothing. -/
def evalLine (line : String) : Marked ι (Except EvalFault Unit) :=
  if Text.isAllBlank line then return .ok () else evalCode I line

/-- Read and evaluate one line, telling whether the session has stopped. A line that has been
interrupted has ended when its error is shown. -/
def consoleTurn (prompt : String) : Marked ι Bool := do
  of (Task.request (.setBusy false))
  match ← of (Task.readLine prompt true) with
  | .error status => return status.code == Status.Code.stopped
  | .ok line =>
    of (Task.request (.setBusy true))
    match ← evalLine I line with
    | .ok () => return false
    | .error fault =>
      let shown : TaskRequest ι :=
        .tell (.new SlotId.primary (.writeErr s!"Error: {fault.message}\n"))
      Job.request (R := TaskRequest ι × Option Mark) (shown, Mark.ofFault fault)
      return false

/-- One turn of the console, after which it ends or goes on. -/
def turn (prompt : String) (next : Unit → Marked ι Unit) : Marked ι Unit := do
  if ← consoleTurn I prompt then next ()
  else .call (.console prompt, none) next

theorem forget_evalLine (line : String) :
    (evalLine I line).forget = (Task.evalLine I line).run := by
  rw [evalLine, Task.evalLine]
  split
  · rfl
  · simp only [evalCode, Job.bind_eq, forget_bind, forget_request, forget_of]
    simp only [ExceptT.run_bind, ExceptT.run_lift, Task.clearInterrupt, map_eq_pure_bind,
      Job.bind_eq, Job.pure_eq, Job.bind_assoc, Job.done_bind]
    refine congrArg (Job.bind _) (funext fun _ => congrArg (Job.bind _) (funext fun parsed => ?_))
    cases parsed with
    | error fault => rfl
    | ok expr =>
      simp only [forget_bind, forget_of]
      refine congrArg (Job.bind _) (funext fun result => congrArg (Job.bind _) (funext fun _ => ?_))
      cases result <;> rfl

theorem forget_consoleTurn (prompt : String) :
    (consoleTurn I prompt).forget = Task.consoleTurn I prompt := by
  simp only [consoleTurn, Task.consoleTurn, Job.bind_eq, forget_bind, forget_of]
  refine congrArg (Job.bind _) (funext fun _ => congrArg (Job.bind _) (funext fun line => ?_))
  cases line with
  | error status => rfl
  | ok line =>
    simp only [forget_bind, forget_evalLine]
    refine congrArg (Job.bind _) (funext fun _ => congrArg (Job.bind _) (funext fun result => ?_))
    cases result <;> rfl

theorem forget_turn (prompt : String) (next : Unit → Marked ι Unit) :
    (turn I prompt next).forget = Session.turn I prompt fun _ => (next ()).forget := by
  simp only [turn, Session.turn, Job.bind_eq, forget_bind, forget_consoleTurn]
  refine congrArg (Job.bind _) (funext fun stops => ?_)
  cases stops <;> rfl

end Marked

/-- The code that a call runs, with marks. -/
def EngineCall.marked {ι : Type} (I : Interpreter ι) (L : Limits) : EngineCall → Marked ι Unit
  | dispatch item => do
    let reply ← Marked.dispatch I L item
    Marked.of (Task.report (.dispatched reply))
  | call => Marked.of (call.task I L)

theorem EngineCall.forget_marked {ι : Type} (I : Interpreter ι) (L : Limits) (call : EngineCall) :
    (call.marked I L).forget = call.task I L := by
  cases call with
  | dispatch item =>
    simp only [marked, task, Job.bind_eq, Marked.forget_bind, Marked.forget_dispatch,
      Marked.forget_of]
  | _ => exact Marked.forget_of _

end EngineLink
