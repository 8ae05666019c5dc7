import EngineLink.Proofs.Exchange.Run
import EngineLink.Proofs.Session.Course

/-!
# What the code of the engine depends on

Of all that happens to the exchange, little matters to the code of the engine: whether an interrupt
has been requested, and which code waits for answers. Only asking and waking up change what waits,
and only few requests and moves change whether an interrupt has been requested.

## Main definitions

* `Exchange.Outlook`, `Exchange.outlook` — what the code of the engine depends on
* `TaskRequest.flag`, `ExchangeMove.flag` — whether an interrupt has been requested afterwards

## Main results

* `Exchange.outlook_ask`, `Exchange.outlook_wakeUp` — what comes to wait, and what goes on
* `ExchangeMove.outlook_apply`, `Session.outlook_perform` — moves of others and requests
-/

namespace EngineLink

/-- The code that goes on when the engine wakes up, if any does. -/
def Woken.taken {κ : Type} : Woken κ → List κ
  | resume _ next => [next]
  | _ => []

namespace Exchange

variable {κ : Type}

/-- What the code of the engine depends on: whether an interrupt has been requested, and the code
that waits for answers, the innermost first. -/
structure Outlook (κ : Type) where
  interrupted : Bool
  waits : List κ

/-- The code that waits for answers, the innermost first. -/
def waits (x : Exchange κ) : List κ :=
  x.stack.filterMap fun
    | .waiting _ resume => some resume
    | .serving _ => none

/-- What the code of the engine depends on. -/
def outlook (x : Exchange κ) : Outlook κ := ⟨x.interrupted, x.waits⟩

@[simp] theorem outlook_post (x : Exchange κ) (e : Event) : (x.post e).outlook = x.outlook := by
  rw [post]
  split <;> rfl

@[simp] theorem outlook_setState (x : Exchange κ) (state : EngineState) :
    (x.setState state).outlook = x.outlook := by
  obtain ⟨now, same⟩ := exists_setState x state
  rw [same]
  rfl

@[simp] theorem outlook_start (x : Exchange κ) : x.start.outlook = x.outlook := by
  obtain ⟨now, same⟩ := exists_start x
  rw [same]
  rfl

@[simp] theorem outlook_coordinate (x : Exchange κ) (group : Nat) :
    (x.coordinate group).outlook = x.outlook := by
  rw [coordinate]
  split <;> rfl

@[simp] theorem outlook_tell (x : Exchange κ) (item : Item) :
    (x.tell item).outlook = x.outlook := by
  rw [tell, outlook_post, outlook_start]

@[simp] theorem outlook_runPlugins (x : Exchange κ) : x.runPlugins.outlook = x.outlook := by
  rw [runPlugins]
  split <;> rfl

/-- The reply to a request that has been executed takes nothing from what waits. -/
@[simp] theorem outlook_finish (x : Exchange κ) (reply : Item) :
    (x.finish reply).outlook = x.outlook := by
  rw [finish]
  split
  · next served rest top =>
    rw [outlook_post, outlook_setState, outlook, outlook, waits, waits, top]
    rfl
  · rfl

theorem outlook_ask (x : Exchange κ) (item : Item) (resume : κ) :
    (x.ask item resume).outlook = { x.outlook with waits := resume :: x.outlook.waits } := by
  have asked : (x.ask item resume).outlook =
      { (((x.number item).2.post (.submit (x.number item).1 true)).setState .waiting).outlook with
        waits := resume ::
          (((x.number item).2.post (.submit (x.number item).1 true)).setState .waiting).waits } :=
    rfl
  have numbered : (x.number item).2.outlook = x.outlook := outlook_start x
  have same : (((x.number item).2.post (.submit (x.number item).1 true)).setState
      .waiting).outlook = x.outlook := by
    rw [outlook_setState, outlook_post, numbered]
  rw [asked, ← same]
  rfl

theorem outlook_wakeUp {x y : Exchange κ} {woken : Woken κ} (woke : x.wakeUp = some (woken, y)) :
    x.outlook = { y.outlook with waits := woken.taken ++ y.outlook.waits } := by
  cases takesNext_of_wakeUp woke with
  | resume question resume rest answer wakes top =>
    rw [outlook_setState, outlook, waits, top]
    rfl
  | drop => rfl
  | serve =>
    rw [outlook_setState]
    rfl
  | stop question resume rest top =>
    rw [outlook_setState, outlook, waits, top]
    rfl

end Exchange

/-- Whether an interrupt has been requested after a request, given whether it had before. -/
def TaskRequest.flag {ι : Type} : TaskRequest ι → Bool → Bool
  | code .interrupt, _ => true
  | clearInterrupt, _ => false
  | _, interrupted => interrupted

/-- The reply to a request tells whether an interrupt has been requested, if that is asked. -/
def TaskRequest.Tells {ι : Type} : (r : TaskRequest ι) → Bool → r.Reply → Prop
  | .code .isInterrupted, interrupted, answer => answer = interrupted
  | _, _, _ => True

/-- Whether an interrupt has been requested after others have done something. -/
def ExchangeMove.flag : ExchangeMove → Bool → Bool
  | interrupt, _ => true
  | clearInterrupt, _ => false
  | _, interrupted => interrupted

theorem ExchangeMove.outlook_apply {κ : Type} (move : ExchangeMove) (x : Exchange κ) :
    (move.apply x).outlook = { x.outlook with interrupted := move.flag x.interrupted } := by
  cases move with
  | coordinate group => exact Exchange.outlook_coordinate x group
  | connect | disconnect | call | setBusy => exact Exchange.outlook_post x _
  | shutdown => exact Exchange.outlook_post _ _
  | runPlugins => exact Exchange.outlook_runPlugins x
  | interrupt | clearInterrupt | abandon | addPlugin => rfl

namespace Session

variable {ι : Type} {s t : Session ι}

/-- What a request that is carried out changes for the code of the engine. -/
theorem outlook_perform {r : TaskRequest ι} {reply : r.Reply}
    (performed : s.perform r = some (reply, t)) :
    t.settings = s.settings ∧ t.exchange.outlook =
      { s.exchange.outlook with interrupted := r.flag s.exchange.interrupted } := by
  cases r with
  | code q =>
    cases q with
    | ask item executor =>
      rw [perform] at performed
      split at performed
      · cases performed
        exact ⟨rfl, Exchange.outlook_start _⟩
      · cases performed
    | gate gate => cases performed
    | writeOut text | writeErr text =>
      cases performed
      exact ⟨rfl, Exchange.outlook_tell _ _⟩
    | _ =>
      cases performed
      exact ⟨rfl, rfl⟩
  | tell item =>
    cases performed
    exact ⟨rfl, Exchange.outlook_tell _ _⟩
  | setBusy busy =>
    cases performed
    exact ⟨rfl, Exchange.outlook_post _ _⟩
  | reply item =>
    cases performed
    exact ⟨rfl, Exchange.outlook_finish _ _⟩
  | delegate | console => cases performed
  | _ =>
    cases performed
    exact ⟨rfl, rfl⟩

theorem tells_of_perform {r : TaskRequest ι} {reply : r.Reply}
    (performed : s.perform r = some (reply, t)) : r.Tells s.exchange.interrupted reply := by
  cases r with
  | code q =>
    cases q with
    | isInterrupted =>
      cases performed
      exact rfl
    | _ => trivial
  | _ => trivial

end Session

end EngineLink
