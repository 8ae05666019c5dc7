import EngineLink.Exchange.Coordinator

/-!
# The exchange

The exchange ties the engine and the clients to the coordinator. Both sides only post events. The
engine waits inside each question that it asks: it goes on when the answer arrives, and executes
requests of clients until then. A request can ask a question of its own, so waits and executions
form a stack.

## Main definitions

* `EngineState` — what the engine is doing
* `Exchange` — the coordinator, the queues around it, and the stack of the engine
* `Exchange.tell`, `Exchange.ask`, `Exchange.wakeUp`, `Exchange.finish` — the side of the engine
* `Exchange.call`, `Exchange.connect`, `Exchange.disconnect` — the side of the clients
* `Exchange.coordinate` — let the coordinator take its turn
-/

namespace EngineLink

/-- What the engine is doing. -/
inductive EngineState where
  | notStarted
  /-- The engine runs code of its own. -/
  | running
  /-- The engine waits for an answer. -/
  | waiting
  | stopped
  deriving DecidableEq, Repr

/-- The word for what the engine is doing. -/
def EngineState.text : EngineState → String
  | notStarted => "NotStarted"
  | running => "Running"
  | waiting => "Waiting"
  | stopped => "Stopped"

/-- What the engine has not come back from, with what it resumes once it has an answer. -/
inductive Activity (κ : Type) where
  /-- A question that waits for its answer. -/
  | waiting (question : Item) (resume : κ)
  /-- A request that is being executed. -/
  | serving (request : Item)

/-- What is to run now and then while the engine waits. -/
structure Plugin where
  /-- Whether running it fails. -/
  fails : Bool
  deriving DecidableEq, Repr

/-- The coordinator, the queues around it, and the stack of the engine. -/
structure Exchange (κ : Type) where
  coordinator : Coordinator
  state : EngineState := .notStarted
  /-- The number of the next question. -/
  nextRequest : RequestId := 1
  /-- Whether an interrupt has been requested. -/
  interrupted : Bool := false
  plugins : List Plugin := []
  /-- Events that the coordinator has not received yet. -/
  events : List Event := []
  /-- What the engine gets when it waits. -/
  wakes : List Wake := []
  /-- What the engine has not come back from, the innermost first. -/
  stack : List (Activity κ) := []
  /-- Calls whose callers have gone. -/
  abandoned : List CallId := []
  /-- Results of calls, in order. -/
  results : List Effect := []

/-- What the engine turns to when it wakes up. -/
inductive Woken (κ : Type) where
  /-- The question has its answer. -/
  | resume (answer : Item) (resume : κ)
  /-- A request is to be executed while the question stays open. -/
  | execute (request : Item) (resume : κ)
  /-- The answer was for another question and is dropped. -/
  | dropped

namespace Exchange

variable {κ : Type}

/-- An exchange at its start. -/
def ofCapacity (stdoutCapacity : Nat) : Exchange κ := { coordinator := .ofCapacity stdoutCapacity }

/-- Whether the coordinator serves events. -/
def isRunning (x : Exchange κ) : Bool := x.coordinator.running

/-- Hand on what the coordinator has sent. -/
def collect (x : Exchange κ) : Exchange κ :=
  { x with
    coordinator := { x.coordinator with sent := [] }
    wakes := x.wakes ++ x.coordinator.sent.filterMap fun
      | .wake wake => some wake
      | _ => none
    results := x.results ++ x.coordinator.sent.filter fun
      | .wake _ => false
      | _ => true }

/-- Post an event. After the end it is refused at once. -/
def post (x : Exchange κ) (e : Event) : Exchange κ :=
  if x.isRunning then { x with events := x.events ++ [e] }
  else { x with coordinator := x.coordinator.refuse e }.collect

/-- Note what the engine is doing. A stopped session stays stopped. -/
def setState (x : Exchange κ) (state : EngineState) : Exchange κ :=
  if x.state = .stopped then x else { x with state }

/-! ### The coordinator's turn -/

/-- Let the coordinator receive the first `n` events as one group and hand out. When it stops, all
events behind are refused. -/
def coordinate (x : Exchange κ) (n : Nat) : Exchange κ :=
  let c := x.coordinator.turn x.abandoned.contains (x.events.take n)
  let later := x.events.drop n
  if c.running then { x with coordinator := c, events := later }.collect
  else
    { x with coordinator := later.foldl Coordinator.refuse c, events := [],
             state := .stopped }.collect

/-! ### The engine -/

/-- The first word of the engine starts the session. -/
def start (x : Exchange κ) : Exchange κ :=
  if x.state = .notStarted then { x with state := .running } else x

/-- Tell a client something. -/
def tell (x : Exchange κ) (item : Item) : Exchange κ := x.start.post (.submit item false)

/-- Whether questions are answered as stopped at once. -/
def isStopped (x : Exchange κ) : Bool := x.state = .stopped || !x.isRunning

/-- Give a question the next number. -/
def number (x : Exchange κ) (item : Item) : Item × Exchange κ :=
  ({ item with id := some x.nextRequest }, { x.start with nextRequest := x.nextRequest + 1 })

/-- Ask a question on a stopped session. -/
def askStopped (x : Exchange κ) (item : Item) : Item × Exchange κ :=
  let (question, x) := x.number item
  (question.answered (.status .stopped), x)

/-- Ask a question and wait. -/
def ask (x : Exchange κ) (item : Item) (resume : κ) : Exchange κ :=
  let (question, x) := x.number item
  let x := (x.post (.submit question true)).setState .waiting
  { x with stack := .waiting question resume :: x.stack }

/-- Let a waiting engine take what comes next. Without a coordinator the question is answered as
stopped. -/
def wakeUp (x : Exchange κ) : Option (Woken κ × Exchange κ) :=
  match x.stack with
  | .waiting question resume :: rest =>
    match x.wakes with
    | .answer answer :: wakes =>
      if answer.id == question.id then
        some (.resume answer resume, { x with wakes, stack := rest }.setState .running)
      else some (.dropped, { x with wakes })
    | .execute request :: wakes =>
      some (.execute request resume,
        { x with wakes, stack := .serving request :: x.stack }.setState .running)
    | [] =>
      if x.isRunning then none
      else
        some (.resume (question.answered (.status .stopped)) resume,
          { x with stack := rest }.setState .running)
  | _ => none

/-- Post the reply to the request that is being executed, and wait on. -/
def finish (x : Exchange κ) (reply : Item) : Exchange κ :=
  match x.stack with
  | .serving _ :: rest => ({ x with stack := rest }.setState .waiting).post (.executed reply)
  | _ => x

/-- Report that the engine becomes busy or free. -/
def setBusy (x : Exchange κ) (busy : Bool) : Exchange κ := x.post (.busy busy)

/-- Forget an interrupt, giving whether there was one. -/
def clearInterrupt (x : Exchange κ) : Bool × Exchange κ :=
  (x.interrupted, { x with interrupted := false })

/-- Whether the engine waits for an answer. -/
def isWaiting (x : Exchange κ) : Bool :=
  match x.stack with
  | .waiting .. :: _ => true
  | _ => false

/-- Run the plugins if the engine waits. One that fails is removed. -/
def runPlugins (x : Exchange κ) : Exchange κ :=
  if x.isWaiting then { x with plugins := x.plugins.filter (!·.fails) } else x

/-! ### Clients -/

/-- Attach a client to a slot. -/
def connect (x : Exchange κ) (slot : SlotId) (call : CallId) : Exchange κ :=
  x.post (.connect slot call)

/-- Detach a client from a slot. -/
def disconnect (x : Exchange κ) (slot : SlotId) (client : ClientId) : Exchange κ :=
  x.post (.disconnect slot client)

/-- Submit items and wait for others. -/
def call (x : Exchange κ) (slot : SlotId) (client : ClientId) (items : List Item)
    (call : CallId) : Exchange κ :=
  x.post (.call slot client items call)

/-- Let the caller of a call go away. -/
def abandon (x : Exchange κ) (call : CallId) : Exchange κ :=
  { x with abandoned := call :: x.abandoned }

/-- Request an interrupt of the running evaluation. -/
def interrupt (x : Exchange κ) : Exchange κ := { x with interrupted := true }

/-- Stop the session. -/
def shutdown (x : Exchange κ) : Exchange κ := { x with state := .stopped }.post .shutdown

end Exchange

end EngineLink
