import EngineLink.Connection.Basic
import EngineLink.Exchange.Basic

/-!
# Serving a connection

One connection is served on an exchange. The exchange goes first; the connection then takes the
results of its calls, and reads when it waits for nothing.

## Main definitions

* `Service` — an exchange with one connection
* `Service.settle` — all moves until nothing moves any more
-/

namespace EngineLink

/-- An exchange with one connection. -/
structure Service where
  exchange : Exchange Unit
  connection : Connection
  /-- The number of the latest call. -/
  lastCall : CallId := 0

namespace Service

/-- A call of the exchange under a new number. -/
def call (s : Service) (f : Exchange Unit → CallId → Exchange Unit) : Service :=
  { s with exchange := f s.exchange (s.lastCall + 1), lastCall := s.lastCall + 1 }

/-- Begin to serve a slot. -/
def start (exchange : Exchange Unit) (slot : SlotId) (limits : Limits) : Service :=
  call { exchange, connection := { slot, limits } } (·.connect slot ·)

/-- Let another client attach to the slot. -/
def replace (s : Service) : Service := s.call (·.connect s.connection.slot ·)

/-- Change the exchange. -/
def modifyExchange (s : Service) (f : Exchange Unit → Exchange Unit) : Service :=
  { s with exchange := f s.exchange }

/-- Let bytes of the client arrive. -/
def receive (s : Service) (bytes : Bytes) : Service :=
  { s with connection := s.connection.receive bytes }

/-- Let the client close its direction. -/
def close (s : Service) : Service :=
  { s with connection := { s.connection with inputEnded := true } }

/-- Do what the connection wants. -/
def request (s : Service) : Connection × Option ConnectionRequest → Service
  | (connection, none) => { s with connection }
  | (connection, some (.call client items)) =>
    { s with connection }.call (·.call connection.slot client items ·)
  | (connection, some (.disconnect client)) =>
    { s with connection }.modifyExchange (·.disconnect connection.slot client)

/-- Hand a result of the exchange to the connection. Other clients do not look at theirs. -/
def result (s : Service) : Effect → Service
  | .attach _ result =>
    if s.connection.phase = .attaching then
      { s with connection := s.connection.attached result }
    else s
  | .resolve _ result => s.request (s.connection.returned result)
  | .wake _ => s

/-- One move, if there is one. -/
def advance (s : Service) : Option Service :=
  match s.exchange.events, s.exchange.results with
  | _ :: _, _ => some (s.modifyExchange (·.coordinate 1))
  | [], effect :: results =>
    some ((s.modifyExchange fun x => { x with results }).result effect)
  | [], [] => s.connection.read.map s.request

/-- Move until nothing moves any more, for at most `fuel` moves. -/
def settle : Nat → Service → Service
  | 0, s => s
  | fuel + 1, s =>
    match s.advance with
    | some s => settle fuel s
    | none => s

end Service

end EngineLink
