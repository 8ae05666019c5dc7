import Mathlib.Data.List.Induction
import Mathlib.Logic.Relation
import EngineLink.Session.Basic

/-!
# Courses of a session

The code of the engine runs request by request, and in between anything can happen to the exchange:
the coordinator takes its turns, clients come, call and go, and interrupts are requested. The engine
is called when it is free, and while it is held up by the outside, items can be told and asked from
there.

## Main definitions

* `Session.step?`, `Session.Step` — one step of the engine, and what it can be
* `EngineCall`, `ExchangeMove`, `SessionMove` — what happens to a session
* `Session.move?`, `Session.Moved` — one move, and what it can be
* `Session.moves?` — moves one after another

## Main results

* `Session.step_of_step?`, `Session.moved_of_move?` — what a step and a move can be
* `Session.reaches_run`, `Session.reaches_of_advance` — running code is steps of the engine
* `Session.course_of_settle`, `Session.course_of_inject` — what a session does by itself is a
  course, and so is a call into the free engine
* `Session.moves?_induction` — what each move keeps holds along every course
-/

namespace EngineLink

variable {ι : Type}

namespace Session

/-! ### Steps -/

/-- One turn of the console, after which it ends or goes on. -/
def turn (I : Interpreter ι) (prompt : String) (next : Unit → Task ι Unit) : Task ι Unit := do
  if ← Task.consoleTurn I prompt then next () else .call (.console prompt) next

/-- Go on at a request that has no reply of its own, if the outside is not needed for it. -/
def goOn? (I : Interpreter ι) (s : Session ι) :
    (r : TaskRequest ι) → (r.Reply → Task ι Unit) → Option (Session ι)
  | .code (.ask item executor), next => some (s.holdUp (.code (.ask item executor)) next)
  | .console prompt, next => some { s with current := turn I prompt next }
  | _, _ => none

/-- One step of the engine, if it can take one: it makes one request, or wakes up. -/
def step? (I : Interpreter ι) (s : Session ι) : Option (Session ι) :=
  match s.current with
  | .call r next =>
    match s.perform r with
    | some (reply, s) => some { s with current := next reply }
    | none => s.goOn? I r next
  | .done _ =>
    match s.exchange.wakeUp with
    | none => none
    | some (.resume answer wait, x) => some { s with exchange := x, current := wait.resume answer }
    | some (.execute request wait, x) =>
      some { s with
        exchange := x
        current := Task.serve I s.settings.limits wait.executor request }
    | some (.dropped, x) => some { s with exchange := x }

/-- What a step can be. -/
inductive Step (I : Interpreter ι) (s : Session ι) : Session ι → Prop
  /-- A request is carried out. -/
  | perform {r : TaskRequest ι} {next : r.Reply → Task ι Unit} {reply : r.Reply} {t : Session ι} :
    s.current = .call r next → s.perform r = some (reply, t) →
    Step I s { t with current := next reply }
  /-- A question is asked and waits for its answer. -/
  | ask {item : Item} {executor : Executor} {next : Item → Task ι Unit} :
    s.current = .call (.code (.ask item executor)) next → s.exchange.isStopped = false →
    Step I s { s with exchange := s.exchange.ask item ⟨executor, next⟩, current := .done () }
  /-- The console takes its next turn. -/
  | turn {prompt : String} {next : Unit → Task ι Unit} :
    s.current = .call (.console prompt) next → Step I s { s with current := turn I prompt next }
  /-- The innermost question has its answer. -/
  | resume {answer : Item} {wait : Wait ι} {x : Exchange (Wait ι)} :
    s.current = .done () → s.exchange.wakeUp = some (.resume answer wait, x) →
    Step I s { s with exchange := x, current := wait.resume answer }
  /-- A request is executed while the question stays open. -/
  | execute {request : Item} {wait : Wait ι} {x : Exchange (Wait ι)} :
    s.current = .done () → s.exchange.wakeUp = some (.execute request wait, x) →
    Step I s { s with
      exchange := x
      current := Task.serve I s.settings.limits wait.executor request }
  /-- An answer to another question is dropped. -/
  | drop {x : Exchange (Wait ι)} :
    s.current = .done () → s.exchange.wakeUp = some (.dropped, x) →
    Step I s { s with exchange := x }

variable {I : Interpreter ι} {s s' : Session ι}

theorem step_of_step? (h : s.step? I = some s') : s.Step I s' := by
  rw [step?] at h
  split at h
  · next r next running =>
    split at h
    · next reply t performed =>
      cases h
      exact .perform running performed
    · next held =>
      unfold goOn? at h
      split at h
      · cases h
        rw [perform] at held
        split at held
        · cases held
        · next open_ => exact .ask running (Bool.eq_false_iff.mpr open_)
      · cases h
        exact .turn running
      · cases h
  · next ended =>
    split at h
    · cases h
    · next woken =>
      cases h
      exact .resume ended woken
    · next woken =>
      cases h
      exact .execute ended woken
    · next woken =>
      cases h
      exact .drop ended woken

/-! ### Running code is steps -/

/-- The engine comes from one state to another by steps. -/
def Reaches (I : Interpreter ι) : Session ι → Session ι → Prop :=
  Relation.ReflTransGen fun s s' => s.step? I = some s'

/-- What a request does does not depend on the code that makes it. -/
theorem perform_current (s : Session ι) (current : Task ι Unit) (r : TaskRequest ι) :
    ({ s with current := current } : Session ι).perform r =
      (s.perform r).map fun (reply, t) => (reply, { t with current := current }) := by
  cases r with
  | code q =>
    cases q with
    | ask item executor =>
      simp only [perform]
      split <;> rfl
    | _ => rfl
  | _ => rfl

/-- Running code until it is held up is a number of steps. -/
theorem reaches_run (I : Interpreter ι) (j : Task ι Unit) (s : Session ι) :
    Reaches I { s with current := j } (s.run j) := by
  induction j generalizing s with
  | done => exact .refl
  | call r next ih =>
    rw [run]
    cases performed : s.perform r with
    | some p =>
      obtain ⟨reply, t⟩ := p
      have step : ({ s with current := .call r next } : Session ι).step? I =
          some { t with current := next reply } := by
        simp only [step?, perform_current, performed]
        rfl
      exact .head step (ih reply t)
    | none =>
      have held : ({ s with current := .call r next } : Session ι).perform r = none := by
        rw [perform_current, performed]
        rfl
      have step : ({ s with current := .call r next } : Session ι).step? I =
          ({ s with current := .call r next } : Session ι).goOn? I r next := by
        rw [step?]
        dsimp only
        rw [held]
      -- Only a question takes a step before the code is held up.
      cases r with
      | code q =>
        cases q with
        | ask item executor => exact .single step
        | gate gate => exact .refl
        | _ => cases performed
      | delegate | console => exact .refl
      | _ => cases performed

/-- Code that has ended wakes up as the exchange tells. -/
theorem step?_of_done (ended : s.current = .done ()) :
    s.step? I = s.exchange.wakeUp.map fun
      | (.resume answer wait, x) => { s with exchange := x, current := wait.resume answer }
      | (.execute request wait, x) =>
        { s with
          exchange := x
          current := Task.serve I s.settings.limits wait.executor request }
      | (.dropped, x) => { s with exchange := x } := by
  rw [step?, ended]
  rcases s.exchange.wakeUp with - | ⟨⟨⟩, x⟩ <;> rfl

/-- A move of the engine is a number of steps. -/
theorem reaches_of_advance (advances : s.advance I = some s') : Reaches I s s' := by
  rw [advance] at advances
  split at advances
  · next prompt next running =>
    cases advances
    have step : s.step? I = some { s with current := turn I prompt next } := by
      rw [step?, running]
      rfl
    exact .head step (reaches_run I (turn I prompt next) s)
  · cases advances
  · next ended =>
    split at advances
    · cases advances
    · next answer wait x woken =>
      cases advances
      refine .head ?_ (reaches_run I (wait.resume answer) { s with exchange := x })
      rw [step?_of_done ended, woken, Option.map_some]
    · next request wait x woken =>
      cases advances
      refine .head ?_ (reaches_run I (Task.serve I s.settings.limits wait.executor request)
        { s with exchange := x })
      rw [step?_of_done ended, woken, Option.map_some]
    · next x woken =>
      cases advances
      refine .single ?_
      rw [step?_of_done ended, woken, Option.map_some]

end Session

/-! ### Moves -/

/-- A call into the engine. -/
inductive EngineCall where
  | tell (item : Item)
  | ask (item : Item)
  | readLine (prompt : String) (addToHistory : Bool)
  | extUi (name : String) (arg : Option Value) (wait : Bool)
  | console (prompt : String)
  | dispatch (item : Item)
  | reach (path elementId : String) (id : Int64) (environment : Option Handle)

/-- The code that a call runs. What it comes back with is reported. -/
def EngineCall.task (I : Interpreter ι) (L : Limits) : EngineCall → Task ι Unit
  | tell item => Task.request (.tell item)
  | ask item => do Task.report (.answered (← Task.askItem item .outside))
  | readLine prompt addToHistory => do
    Task.report (.lineRead (← Task.readLine prompt addToHistory))
  | extUi name arg wait => do Task.report (.extUi (← Task.extUi name arg wait))
  | console prompt => do
    Task.request (.console prompt)
    Task.report .consoleEnded
  | dispatch item => do Task.report (.dispatched (← Task.dispatch I L item))
  | reach path elementId id environment => do
    Task.report (.hit (← Task.reach I path elementId id environment))

/-- What others than the engine do to the exchange. -/
inductive ExchangeMove where
  /-- The coordinator takes a turn over some events. -/
  | coordinate (group : Nat)
  | connect (slot : SlotId) (call : CallId)
  | disconnect (slot : SlotId) (client : ClientId)
  | call (slot : SlotId) (client : ClientId) (items : List Item) (call : CallId)
  | abandon (call : CallId)
  | interrupt
  | clearInterrupt
  | setBusy (busy : Bool)
  | shutdown
  | addPlugin (plugin : Plugin)
  | runPlugins

/-- The exchange after it. -/
def ExchangeMove.apply {κ : Type} (x : Exchange κ) : ExchangeMove → Exchange κ
  | coordinate group => x.coordinate group
  | connect slot id => x.connect slot id
  | disconnect slot client => x.disconnect slot client
  | call slot client items id => x.call slot client items id
  | abandon id => x.abandon id
  | interrupt => x.interrupt
  | clearInterrupt => x.clearInterrupt.2
  | setBusy busy => x.setBusy busy
  | shutdown => x.shutdown
  | addPlugin plugin => { x with plugins := x.plugins ++ [plugin] }
  | runPlugins => x.runPlugins

/-- What happens to a session, for an interpreter with states in `ι`. -/
inductive SessionMove (ι : Type) where
  /-- The engine takes a step. -/
  | step
  /-- The engine is called while it is free. -/
  | enter (call : EngineCall)
  /-- Where the engine is held up by the outside, something is told or asked from there. -/
  | aside (item : Item) (wait : Bool)
  /-- The engine goes on from a gate. -/
  | openGate
  /-- The outside gives back a request that was left to it. -/
  | giveBack (reply : Item)
  | outside (move : ExchangeMove)
  /-- The interpreter changes. -/
  | change (state : ι)

namespace Session

/-- Run code where the engine is held up, and be held up there again. -/
def aside (I : Interpreter ι) (s : Session ι) (item : Item) (wait : Bool) : Session ι :=
  let call : EngineCall := if wait then .ask item else .tell item
  { s with current := call.task I s.settings.limits >>= fun _ => s.current }

/-- The session after a move, if it is possible. -/
def move? (I : Interpreter ι) (s : Session ι) : SessionMove ι → Option (Session ι)
  | .step => s.step? I
  | .enter call =>
    match s.current, s.exchange.stack with
    | .done _, [] => some { s with current := call.task I s.settings.limits }
    | _, _ => none
  | .aside item wait =>
    match s.current with
    | .call (.code (.gate _)) _ | .call (.delegate _) _ => some (s.aside I item wait)
    | _ => none
  | .openGate =>
    match s.current with
    | .call (.code (.gate _)) next => some { s with current := next () }
    | _ => none
  | .giveBack reply =>
    match s.current with
    | .call (.delegate _) next => some { s with current := next reply }
    | _ => none
  | .outside move => some (s.modifyExchange fun x => move.apply x)
  | .change state => some { s with state := state }

/-- What a move can be. -/
inductive Moved (I : Interpreter ι) (s : Session ι) : SessionMove ι → Session ι → Prop
  | step {t : Session ι} : s.Step I t → Moved I s .step t
  | enter {call : EngineCall} : s.current = .done () → s.exchange.stack = [] →
    Moved I s (.enter call) { s with current := call.task I s.settings.limits }
  | aside {item : Item} {wait : Bool} : Moved I s (.aside item wait) (s.aside I item wait)
  | openGate {gate : Gate} {next : Unit → Task ι Unit} :
    s.current = .call (.code (.gate gate)) next → Moved I s .openGate { s with current := next () }
  | giveBack {request reply : Item} {next : Item → Task ι Unit} :
    s.current = .call (.delegate request) next →
    Moved I s (.giveBack reply) { s with current := next reply }
  | outside {move : ExchangeMove} :
    Moved I s (.outside move) { s with exchange := move.apply s.exchange }
  | change {state : ι} : Moved I s (.change state) { s with state := state }

theorem moved_of_move? {I : Interpreter ι} {s t : Session ι} {move : SessionMove ι}
    (moved : s.move? I move = some t) : s.Moved I move t := by
  cases move with
  | step => exact .step (step_of_step? moved)
  | enter call =>
    rw [move?] at moved
    split at moved
    · next ended free =>
      cases moved
      exact .enter ended free
    · cases moved
  | aside item wait =>
    rw [move?] at moved
    split at moved
    · cases moved
      exact .aside
    · cases moved
      exact .aside
    · cases moved
  | openGate =>
    rw [move?] at moved
    split at moved
    · next held =>
      cases moved
      exact .openGate held
    · cases moved
  | giveBack reply =>
    rw [move?] at moved
    split at moved
    · next held =>
      cases moved
      exact .giveBack held
    · cases moved
  | outside move =>
    cases moved
    exact .outside
  | change state =>
    cases moved
    exact .change

/-- The session after moves one after another, if they are possible. -/
def moves? (I : Interpreter ι) (s : Session ι) (moves : List (SessionMove ι)) :
    Option (Session ι) :=
  moves.foldlM (move? I) s

theorem moves?_concat (I : Interpreter ι) (s : Session ι) (moves : List (SessionMove ι))
    (move : SessionMove ι) :
    s.moves? I (moves ++ [move]) = (s.moves? I moves).bind fun t => t.move? I move := by
  simp [moves?]

/-- One course after another. -/
theorem course_append {I : Interpreter ι} {s t u : Session ι} {moves more : List (SessionMove ι)}
    (course : s.moves? I moves = some t) (onward : t.moves? I more = some u) :
    s.moves? I (moves ++ more) = some u := by
  rw [moves?, List.foldlM_append]
  exact Option.bind_eq_some_iff.mpr ⟨t, course, onward⟩

/-- Steps are moves. -/
theorem course_of_reaches {I : Interpreter ι} {s t : Session ι} (reaches : Reaches I s t) :
    ∃ moves, s.moves? I moves = some t := by
  induction reaches with
  | refl => exact ⟨[], rfl⟩
  | tail _ step ih =>
    obtain ⟨moves, course⟩ := ih
    refine ⟨moves ++ [.step], ?_⟩
    rw [moves?_concat, course]
    exact step

/-- What a session does by itself until nothing moves any more is a course. -/
theorem course_of_settle (I : Interpreter ι) (fuel : Nat) (s : Session ι) :
    ∃ moves, s.moves? I moves = some (s.settle I fuel) := by
  induction fuel generalizing s with
  | zero => exact ⟨[], rfl⟩
  | succ fuel ih =>
    rw [settle]
    split
    · obtain ⟨more, onward⟩ := ih (s.modifyExchange (·.coordinate 1))
      have turn : s.moves? I [.outside (.coordinate 1)] =
          some (s.modifyExchange (·.coordinate 1)) := rfl
      exact ⟨_, course_append turn onward⟩
    · split
      · next t advances =>
        obtain ⟨moves, course⟩ := course_of_reaches (reaches_of_advance advances)
        obtain ⟨more, onward⟩ := ih t
        exact ⟨_, course_append course onward⟩
      · exact ⟨[.outside .runPlugins], rfl⟩

/-- A call into the free engine runs in a course. -/
theorem course_of_inject (I : Interpreter ι) {s : Session ι} (call : EngineCall)
    (ended : s.current = .done ()) (free : s.exchange.stack = []) :
    ∃ moves, s.moves? I moves = some (s.inject (call.task I s.settings.limits)) := by
  have entered : s.moves? I [.enter call] =
      some { s with current := call.task I s.settings.limits } := by
    simp [moves?, move?, ended, free]
  obtain ⟨more, onward⟩ := course_of_reaches (reaches_run I (call.task I s.settings.limits) s)
  have whole : s.inject (call.task I s.settings.limits) =
      s.run (call.task I s.settings.limits) := by
    rw [inject, ended]
    exact congrArg (fun job => s.run job) (Job.bind_done _)
  rw [whole]
  exact ⟨_, course_append entered onward⟩

/-- What holds at first, and after each move if it does before, holds along every course. -/
theorem moves?_induction {I : Interpreter ι} {s s' : Session ι} {moves : List (SessionMove ι)}
    {P : List (SessionMove ι) → Session ι → Prop} (start : P [] s)
    (move : ∀ moves t move u, P moves t → t.move? I move = some u → P (moves ++ [move]) u)
    (course : s.moves? I moves = some s') : P moves s' := by
  induction moves using List.reverseRecOn generalizing s' with
  | nil =>
    cases course
    exact start
  | append_singleton before last ih =>
    rw [moves?_concat, Option.bind_eq_some_iff] at course
    obtain ⟨t, earlier, onward⟩ := course
    exact move before t last s' (ih earlier) onward

end Session

end EngineLink
