import EngineLink.Session.Basic

/-!
# Scenarios

A scenario drives a session from outside, step by step: clients with names come, call and go, and
the engine is told what to do where it is held up. After each step the session comes to rest and
shows what has happened.

## Main definitions

* `ScenarioStep` — a step
* `Scenario` — a session with the names of its clients and calls
* `Observation` — what a step shows
* `Scenario.step` — take a step
-/

namespace EngineLink

/-- A step of a scenario on a session with states in `ι`. -/
inductive ScenarioStep (ι : Type) where
  /-- A client attaches to a slot under a name. -/
  | connect (name : String) (slot : SlotId)
  | disconnect (client : String)
  /-- A client submits items under the name of the call, to its own slot or to another. -/
  | submit (client call : String) (slot : Option SlotId) (items : List Item)
  /-- The caller of a call goes away. -/
  | drop (call : String)
  | interrupt
  | clearInterrupt
  | busy (busy : Bool)
  | shutdown
  | plugin (fails : Bool)
  /-- The interpreter changes. -/
  | change (state : ι)
  /-- The engine runs code where it is held up. -/
  | run (code : Task ι Unit)
  /-- The engine runs code, if it is free. -/
  | runIdle (code : Task ι Unit)
  /-- The free engine stops the session. -/
  | stopIdle
  /-- The free engine shows what it keeps. -/
  | inspect
  /-- The outside gives back a request, perhaps with an answer and for another slot. -/
  | finish (answer : Option Answer) (slot : Option SlotId)
  /-- The engine goes on from a gate. -/
  | go

/-- A session with the names of its clients and calls. -/
structure Scenario (ι : Type) where
  session : Session ι
  clients : List (String × SlotId × ClientId) := []
  /-- Calls without a result, in the order in which they were submitted. -/
  calls : List (String × CallId) := []
  lastCall : CallId := 0

/-- What a step shows. -/
structure Observation where
  /-- Whether the step was not possible and has been left out. -/
  skipped : Bool := false
  /-- Why a client was not attached. -/
  refused : Option Status := none
  /-- Whether there was an interrupt to forget. -/
  cleared : Option Bool := none
  /-- Whether the engine is to show what it keeps. -/
  inspected : Bool := false
  hold : Hold := .idle
  reports : List Report := []
  /-- Calls that came back, in the order in which they were submitted. -/
  calls : List (String × Except Status Batch) := []

namespace Scenario

variable {ι : Type} (I : Interpreter ι)

/-- More moves than a scenario of any length that can be written down needs between two steps. -/
def fuel : Nat := 1000000

/-- Let the session come to rest. -/
def settle (s : Scenario ι) : Scenario ι := { s with session := s.session.settle I fuel }

/-- Change the exchange. -/
def modifyExchange (s : Scenario ι) (f : Exchange (Wait ι) → Exchange (Wait ι)) : Scenario ι :=
  { s with session := s.session.modifyExchange f }

/-- Forget reports and results that have been shown. -/
def forget (s : Scenario ι) : Scenario ι :=
  { s with
    session := { s.session with reports := [] }.modifyExchange fun x => { x with results := [] } }

/-- The slot of the engine itself. -/
def engineSlot : SlotId := 0xFFFFFFFF

/-- A session whose engine has said its first word, to a slot of its own. -/
def start (settings : Settings) (state : ι) : Scenario ι :=
  let s : Scenario ι := { session := .start settings state }
  let s := settle I (s.modifyExchange (·.connect engineSlot 0))
  (settle I (s.modifyExchange (·.tell (.new engineSlot (.notice ""))))).forget

/-- The result of a call, if it has come. -/
def result? (s : Scenario ι) (call : CallId) : Option (Except Status Batch) :=
  s.session.exchange.results.findSome? fun
    | .resolve c result => if c == call then some result else none
    | _ => none

/-- What came of attaching a client. -/
def attached? (s : Scenario ι) (call : CallId) : Option (Except Status ClientId) :=
  s.session.exchange.results.findSome? fun
    | .attach c result => if c == call then some result else none
    | _ => none

/-- Attach a client under a name. -/
def connect (s : Scenario ι) (name : String) (slot : SlotId) : Scenario ι × Observation :=
  let call := s.lastCall + 1
  let s := settle I ({ s with lastCall := call }.modifyExchange (·.connect slot call))
  match s.attached? call with
  | some (.ok client) => ({ s with clients := (name, slot, client) :: s.clients }, {})
  | some (.error status) => (s, { refused := some status })
  | none => (s, { skipped := true })

/-- Detach the client of a name. -/
def disconnect (s : Scenario ι) (name : String) : Scenario ι :=
  match s.clients.lookup name with
  | some (slot, client) => s.modifyExchange (·.disconnect slot client)
  | none => s

/-- Submit items in the name of a client. -/
def submit (s : Scenario ι) (name call : String) (slot : Option SlotId) (items : List Item) :
    Scenario ι :=
  match s.clients.lookup name with
  | some (home, client) =>
    let id := s.lastCall + 1
    { s with lastCall := id, calls := s.calls ++ [(call, id)] }.modifyExchange
      (·.call (slot.getD home) client items id)
  | none => s

/-- Let the caller of a call go away. -/
def drop (s : Scenario ι) (name : String) : Scenario ι :=
  match s.calls.lookup name with
  | some id => { s with calls := s.calls.filter (·.2 != id) }.modifyExchange (·.abandon id)
  | none => s

/-- Change the session, if a condition holds for what it is held up by. -/
def onSession (s : Scenario ι) (possible : Hold → Bool) (f : Session ι → Session ι) :
    Option (Scenario ι) :=
  if possible s.session.hold then some { s with session := f s.session } else none

/-- What a step does before the session comes to rest again; nothing, if it is not possible. -/
def act (s : Scenario ι) : ScenarioStep ι → Option (Scenario ι)
  | .connect .. => none
  | .disconnect name => s.disconnect name
  | .submit name call slot items => s.submit name call slot items
  | .drop name => s.drop name
  | .interrupt => s.modifyExchange (·.interrupt)
  | .clearInterrupt => s.modifyExchange (·.clearInterrupt.2)
  | .busy busy => s.modifyExchange (·.setBusy busy)
  | .shutdown => s.modifyExchange (·.shutdown)
  | .plugin fails => s.modifyExchange fun x => { x with plugins := x.plugins ++ [⟨fails⟩] }
  | .change state => some { s with session := { s.session with state } }
  | .run code =>
    s.onSession
      (fun
        | .waiting => false
        | _ => true)
      (·.inject code)
  | .runIdle code => s.onSession Hold.isIdle (·.inject code)
  | .stopIdle => s.onSession Hold.isIdle (·.modifyExchange (·.shutdown))
  | .inspect => s.onSession Hold.isIdle id
  | .finish answer slot =>
    match s.session.hold with
    | .delegated request =>
      let reply := match answer with
        | some answer => request.answered answer
        | none => request
      some { s with
        session := s.session.finishDelegated { reply with slot := slot.getD reply.slot } }
    | _ => none
  | .go =>
    s.onSession
      (fun
        | .gate _ => true
        | _ => false)
      (·.openGate)

/-- What a step shows besides what the session shows at rest. -/
def remark (s : Scenario ι) : ScenarioStep ι → Observation
  | .clearInterrupt => { cleared := some s.session.exchange.interrupted }
  | .inspect => { inspected := true }
  | _ => {}

/-- Take a step and let the session come to rest. -/
def move (s : Scenario ι) (step : ScenarioStep ι) : Scenario ι × Observation :=
  match step with
  | .connect name slot => s.connect I name slot
  | _ =>
    match s.act step with
    | some after => (settle I after, s.remark step)
    | none => (settle I s, { skipped := true })

/-- Take a step and show what has happened. -/
def step (s : Scenario ι) (step : ScenarioStep ι) : Scenario ι × Observation :=
  let (s, o) := (s.forget).move I step
  let back := s.calls.filterMap fun (name, call) => (s.result? call).map ((name, call), ·)
  ({ s with calls := s.calls.filter fun c => !back.any (·.1.2 == c.2) },
    { o with
      hold := s.session.hold
      reports := s.session.reports
      calls := back.map fun ((name, _), result) => (name, result) })

end Scenario

end EngineLink
