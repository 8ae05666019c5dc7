import EngineLink.Proofs.Exchange.Shutdown
import EngineLink.Proofs.Session.Outlook
import EngineLink.Proofs.Session.Rules
import EngineLink.Script.Interpreter

/-!
# When the console ends

The console reads lines until the answer to its question is a status with the code of a stopped
session. The coordinator never makes such a status while it runs, and a stopped session stays
stopped. But a client that answers with a status chooses its code freely, and so it can end the
console of a session that runs.

## Main definitions

* `Answer.SaysStopped`, `Item.Continues` — an answer with the code of a stopped session, and an
  item with any other answer
* `Coordinator.Heard`, `Exchange.Heard` — no such answer is held back or on its way
* `Session.Loyal` — nothing that the engine runs or waits for will end the console

## Main results

* `Session.Loyal.step`, `Session.loyal_of_course` — the console goes on step by step, and in every
  course
* `Session.console_ended` — the console ends if the session is stopped, or if a client says so
* `Session.console_ended_while_running` — a client can end the console of a session that runs
-/

namespace EngineLink

/-- The answer is a status with the code of a stopped session. -/
def Answer.SaysStopped (a : Answer) : Prop :=
  ∃ status, a = .status status ∧ status.code = Status.Code.stopped

/-- The item has an answer that does not say that the session is stopped. -/
def Item.Continues (item : Item) : Prop := ∃ a, item.answer = some a ∧ ¬a.SaysStopped

/-- The coordinator answers with other statuses. -/
theorem continues_answered (question : Item) {status : Status}
    (other : status.code ≠ Status.Code.stopped) :
    (question.answered (.status status)).Continues := by
  refine ⟨.status status, rfl, ?_⟩
  rintro ⟨said, same, code⟩
  cases same
  exact other code

/-! ### Answers on their way -/

namespace Coordinator

variable {c : Coordinator}

/-- No answer that has been sent or is held back says that the session is stopped. -/
structure Heard (c : Coordinator) : Prop where
  held : c.Held fun answer => answer.Continues
  sent : ∀ answer, .answer answer ∈ wakesOf c.sent → answer.Continues

theorem heard_ofCapacity (capacity : Nat) : (ofCapacity capacity).Heard :=
  ⟨List.forall_mem_nil _, fun _ none => absurd none List.not_mem_nil⟩

namespace Heard

theorem of_speaks {d : Coordinator} (h : c.Heard)
    (speaks : Speaks (fun answer => answer.Continues) c d) : d.Heard := by
  obtain ⟨wakes, sent, good⟩ := speaks.answers
  refine ⟨speaks.held, fun answer member => ?_⟩
  rw [sent] at member
  rcases List.mem_append.mp member with old | new
  · exact h.sent answer old
  · exact good answer new

theorem handle {e : Event} (h : c.Heard) (given : ∀ answer ∈ given e, answer.Continues) :
    (c.handle e).Heard := by
  rw [Coordinator.handle]
  split
  · exact h.of_speaks (speaks_serve h.held
      (fun p _ => continues_answered p.question (by decide))
      (fun question _ => continues_answered question (by decide))
      fun answer takes => given answer takes.mem_given)
  · exact h.of_speaks (h.held.speaks.of_engineSide (engineSide_refuse c e))

theorem pump (h : c.Heard) (gone : CallId → Bool) : (c.pump gone).Heard :=
  h.of_speaks <| speaks_pump h.held
    (fun p _ => continues_answered p.question (by decide))
    (fun top _ _ _ => continues_answered top.question (by decide)) gone

theorem turn {events : List Event} (h : c.Heard)
    (given : ∀ e ∈ events, ∀ answer ∈ given e, answer.Continues) (gone : CallId → Bool) :
    (c.turn gone events).Heard := by
  have handled : (events.foldl Coordinator.handle c).Heard := by
    induction events generalizing c with
    | nil => exact h
    | cons e events ih =>
      rw [List.forall_mem_cons] at given
      exact ih (h.handle given.1) given.2
  rw [Coordinator.turn]
  split
  · exact handled.pump gone
  · exact handled

end Heard

end Coordinator

namespace Exchange

variable {κ : Type} {x y : Exchange κ}

/-- The coordinator runs, and no answer on its way says that the session is stopped. -/
structure Heard (x : Exchange κ) : Prop where
  running : x.isRunning = true
  coordinator : x.coordinator.Heard
  wakes : ∀ answer, .answer answer ∈ x.wakes → answer.Continues
  events : ∀ e ∈ x.events, ∀ answer ∈ Coordinator.given e, answer.Continues

theorem heard_ofCapacity (capacity : Nat) : (ofCapacity capacity : Exchange κ).Heard :=
  ⟨rfl, Coordinator.heard_ofCapacity capacity, fun _ none => absurd none List.not_mem_nil,
    List.forall_mem_nil _⟩

namespace Heard

/-- Only the coordinator and what is under way matter. -/
theorem of_eq (h : x.Heard) (coordinator : y.coordinator = x.coordinator)
    (events : y.events = x.events) (wakes : y.wakes ⊆ x.wakes) : y.Heard := by
  obtain ⟨running, heard, sent, posted⟩ := h
  refine ⟨?_, coordinator ▸ heard, fun answer member => sent answer (wakes member), ?_⟩
  · rwa [isRunning, coordinator]
  · rwa [events]

theorem setState (h : x.Heard) (state : EngineState) : (x.setState state).Heard := by
  obtain ⟨now, eq⟩ := exists_setState x state
  rw [eq]
  exact h.of_eq rfl rfl (List.Subset.refl _)

theorem start (h : x.Heard) : x.start.Heard := by
  obtain ⟨now, eq⟩ := exists_start x
  rw [eq]
  exact h.of_eq rfl rfl (List.Subset.refl _)

theorem post {e : Event} (h : x.Heard)
    (given : ∀ answer ∈ Coordinator.given e, answer.Continues) : (x.post e).Heard := by
  rw [post_of_running h.running]
  refine ⟨h.running, h.coordinator, h.wakes, ?_⟩
  rw [List.forall_mem_append, List.forall_mem_singleton]
  exact ⟨h.events, given⟩

theorem tell (h : x.Heard) (item : Item) : (x.tell item).Heard :=
  h.start.post (e := .submit item false) (List.forall_mem_nil _)

theorem setBusy (h : x.Heard) (busy : Bool) : (x.setBusy busy).Heard :=
  h.post (e := .busy busy) (List.forall_mem_nil _)

theorem ask (h : x.Heard) (item : Item) (resume : κ) : (x.ask item resume).Heard := by
  have numbered : (x.number item).2.Heard := h.start.of_eq rfl rfl (List.Subset.refl _)
  have posted := numbered.post (e := .submit (x.number item).1 true) (List.forall_mem_nil _)
  exact (posted.setState .waiting).of_eq rfl rfl (List.Subset.refl _)

theorem finish (h : x.Heard) (reply : Item) : (x.finish reply).Heard := by
  rw [Exchange.finish]
  split
  · next served rest top =>
    have popped : ({ x with stack := rest } : Exchange κ).Heard :=
      h.of_eq rfl rfl (List.Subset.refl _)
    exact (popped.setState _).post (e := .executed reply) (List.forall_mem_nil _)
  · exact h

/-- No answer that the engine takes up says that the session is stopped. -/
theorem wakeUp {woken : Woken κ} (h : x.Heard) (woke : x.wakeUp = some (woken, y)) :
    y.Heard ∧ ∀ answer k, woken = .resume answer k → answer.Continues := by
  have fewer {wake : Wake} {wakes : List Wake} (first : x.wakes = wake :: wakes) :
      wakes ⊆ x.wakes := by
    rw [first]
    exact List.subset_cons_self _ _
  cases takesNext_of_wakeUp woke with
  | resume question resume rest answer wakes top first own =>
    have popped : ({ x with wakes, stack := rest } : Exchange κ).Heard :=
      h.of_eq rfl rfl (fewer first)
    have inside : .answer answer ∈ x.wakes := by simp [first]
    refine ⟨popped.setState .running, ?_⟩
    rintro _ _ ⟨⟩
    exact h.wakes answer inside
  | drop question resume rest answer wakes top first other =>
    exact ⟨h.of_eq rfl rfl (fewer first), fun _ _ resumes => by cases resumes⟩
  | serve question resume rest request wakes top first =>
    have pushed : ({ x with wakes, stack := .serving request :: x.stack } : Exchange κ).Heard :=
      h.of_eq rfl rfl (fewer first)
    exact ⟨pushed.setState .running, fun _ _ resumes => by cases resumes⟩
  | stop question resume rest top none stopped =>
    rw [h.running] at stopped
    cases stopped

/-- A turn of the coordinator brings no such answer, unless it is the last one. -/
theorem coordinate (h : x.Heard) (group : Nat) :
    (x.coordinate group).state = .stopped ∨ (x.coordinate group).Heard := by
  obtain ⟨d, turned⟩ : ∃ d, x.coordinator.turn x.abandoned.contains (x.events.take group) = d :=
    ⟨_, rfl⟩
  have heard : d.Heard := turned ▸ h.coordinator.turn
    (fun e member => h.events e (List.mem_of_mem_take member)) x.abandoned.contains
  rw [coordinate_eq turned]
  split
  · next running =>
    right
    refine ⟨running, ⟨heard.held, fun _ none => absurd none List.not_mem_nil⟩, ?_, ?_⟩
    · intro answer member
      rcases List.mem_append.mp member with old | new
      · exact h.wakes answer old
      · exact heard.sent answer new
    · exact fun e member => h.events e (List.mem_of_mem_drop member)
  · exact .inl rfl

end Heard

end Exchange

/-! ### Code -/

namespace Task

variable {ι : Type}

/-- Rules under which the end of the console is not reported: it does not come back, and no answer
says that the session is stopped. -/
def loyalty : Job.Rules (TaskRequest ι) TaskRequest.Reply Unit where
  allowed
    | _, .report .consoleEnded => False
    | _, _ => True
  replies
    | .console _, _ => False
    | .code (.ask ..), answer => Item.Continues answer
    | _, _ => True
  after _ _ _ := ()

/-- Code that does not end the console. -/
abbrev Loyal (j : Task ι Unit) : Prop := j.Follows loyalty (fun _ _ => True) ()

open TaskRequest

/-- A request after which the end of the console has not been reported. -/
abbrev IsQuiet (r : TaskRequest ι) : Prop := loyalty.allowed () r

theorem isQuiet_of_isPlain {r : TaskRequest ι} (h : r.IsPlain) : IsQuiet r := by
  cases r with
  | report r => cases r <;> trivial
  | _ => trivial

theorem Only.loyal {α : Type} {j : Task ι α} (h : j.Only IsQuiet) :
    j.Follows loyalty (fun _ _ => True) () := by
  induction j with
  | done a => trivial
  | call r next ih => exact ⟨h.1, fun reply _ => ih reply (h.2 reply trivial)⟩

variable (I : Interpreter ι) (L : Limits)

theorem only_clearInterrupt : (clearInterrupt : Task ι Unit).Only IsQuiet :=
  Only.bind (only_request (p := IsQuiet) trivial) fun _ => only_pure ()

theorem only_settleInterrupt {α : Type} (result : Except EvalFault α) :
    (settleInterrupt result : Task ι Unit).Only IsQuiet := by
  unfold settleInterrupt
  split
  · exact only_clearInterrupt
  · exact only_pure ()

theorem only_data (r : DataRequest) : (data I L r).Only IsQuiet := by
  refine only_clearInterrupt.bind fun _ => ?_
  have served := (only_serveData I L r).mono fun _ h => isQuiet_of_isPlain h.isPlain
  exact served.bind fun result => (only_settleInterrupt result).bind fun _ => only_pure result

theorem only_dispatch (item : Item) : (dispatch I L item).Only IsQuiet := by
  refine Only.map ?_ _
  cases item.kind with
  | data r =>
    refine (only_data I L r).bind fun result => ?_
    cases result <;> exact only_pure _
  | debug command =>
    refine ((only_debug I command).mono fun _ => isQuiet_of_isPlain).bind fun result => ?_
    rcases result with fault | - | reply <;> exact only_pure _
  | _ => exact only_pure _

/-- Serving a request does not end the console. -/
theorem only_serve (executor : Executor) (item : Item) :
    (serve I L executor item).Only IsQuiet := by
  have reply (item : Item) : (request (.reply item) : Task ι Unit).Only IsQuiet :=
    only_request (p := IsQuiet) trivial
  cases executor with
  | session => exact (only_dispatch I L item).bind reply
  | outside => exact Only.bind (only_request (p := IsQuiet) trivial) reply

theorem only_evalLine (line : String) : (evalLine I line).run.Only IsQuiet := by
  have code {α : Type} (code : ExceptT EvalFault (Eval ι) α) :
      (ofFallible code).run.Only IsQuiet :=
    (only_ofFallible code).mono fun _ h => isQuiet_of_isPlain h.isPlain
  rw [evalLine]
  split
  · exact only_pure (Except.ok ())
  · refine Only.bindExcept (f := ExceptT.lift clearInterrupt) ?_ fun _ => ?_
    · exact only_clearInterrupt.map _
    refine (code _).bindExcept fun expr => ?_
    refine Only.bindExcept (f := ExceptT.lift _) ((code _).map _) fun result => ?_
    refine Only.bindExcept (f := ExceptT.lift _) ((only_settleInterrupt result).map _) fun _ => ?_
    exact Only.bindExcept (f := ExceptT.mk _) (only_pure result) fun _ => only_pure _

/-! ### The console -/

theorem follows_ask (kind : ItemKind) :
    (ask kind : Task ι Answer).Follows loyalty (fun _ a => ¬a.SaysStopped) () := by
  refine Job.Follows.bind (Job.Follows.request (T := loyalty) trivial) fun _ reply known => ?_
  obtain ⟨a, given, other⟩ := known.1
  change ¬Answer.SaysStopped (reply.answer.getD _)
  rwa [given]

theorem follows_readLine (prompt : String) (addToHistory : Bool) :
    (readLine prompt addToHistory : Task ι (Except Status String)).Follows loyalty
      (fun _ line => ∀ status, line = .error status → status.code ≠ Status.Code.stopped) () := by
  refine Job.Follows.bind (follows_ask _) fun _ answer other => ?_
  cases answer with
  | status status =>
    rintro _ ⟨⟩ code
    exact other ⟨status, rfl, code⟩
  | text line => exact nofun
  | _ =>
    rintro _ ⟨⟩
    exact (by decide : Status.Code.protocol ≠ Status.Code.stopped)

/-- A turn of the console does not end it. -/
theorem follows_consoleTurn (prompt : String) :
    (consoleTurn I prompt).Follows loyalty (fun _ stops => stops = false) () := by
  refine Job.Follows.bind (Job.Follows.request (T := loyalty) trivial) fun _ _ _ => ?_
  refine Job.Follows.bind (follows_readLine prompt true) fun _ line other => ?_
  cases line with
  | error status => exact beq_eq_false_iff_ne.mpr (other status rfl)
  | ok line =>
    refine Job.Follows.bind (Job.Follows.request (T := loyalty) trivial) fun _ _ _ => ?_
    refine Job.Follows.bind (only_evalLine I line).loyal fun _ result _ => ?_
    cases result with
    | ok => exact rfl
    | error fault =>
      exact Job.Follows.bind (Job.Follows.request (T := loyalty) trivial) fun _ _ _ => rfl

theorem loyal_turn (prompt : String) (next : Unit → Task ι Unit) :
    (Session.turn I prompt next).Loyal := by
  refine Job.Follows.bind (follows_consoleTurn I prompt) fun _ stops goesOn => ?_
  rw [goesOn]
  exact ⟨trivial, nofun⟩

theorem loyal_report {α : Type} {j : Task ι α} {r : α → Report} (h : j.Only IsQuiet)
    (other : ∀ a, IsQuiet (.report (r a) : TaskRequest ι)) :
    (j >>= fun a => report (r a)).Loyal :=
  Only.loyal (h.bind fun a => only_request (other a))

/-- A call into the engine reports the end of the console only when the console comes back. -/
theorem loyal_call (call : EngineCall) : (call.task I L).Loyal := by
  have plain {α : Type} {j : Task ι α} (h : j.Only IsPlain) : j.Only IsQuiet :=
    h.mono fun _ => isQuiet_of_isPlain
  cases call with
  | tell item => exact Only.loyal (only_request (p := IsQuiet) trivial)
  | ask item => exact loyal_report (only_request (p := IsQuiet) trivial) fun _ => trivial
  | readLine prompt addToHistory =>
    exact loyal_report (plain (only_readLine prompt addToHistory)) fun _ => trivial
  | extUi name arg wait => exact loyal_report (plain (only_extUi name arg wait)) fun _ => trivial
  | console prompt => exact ⟨trivial, nofun⟩
  | dispatch item => exact loyal_report (only_dispatch I L item) fun _ => trivial
  | reach path elementId id environment =>
    exact loyal_report (plain (only_reach I path elementId id environment)) fun _ => trivial

end Task

/-! ### Sessions -/

namespace Session

variable {ι : Type} {I : Interpreter ι} {s t : Session ι}

section Stopped

variable {x y : Exchange (Wait ι)}

theorem state_tell (stopped : x.state = .stopped) (item : Item) :
    (x.tell item).state = .stopped :=
  (Exchange.state_post ..).trans (Exchange.state_start stopped)

theorem state_finish (stopped : x.state = .stopped) (reply : Item) :
    (x.finish reply).state = .stopped := by
  rw [Exchange.finish]
  split
  · refine (Exchange.state_post ..).trans (Exchange.state_setState ?_ _)
    exact stopped
  · exact stopped

theorem stopped_of_perform {r : TaskRequest ι} {reply : r.Reply}
    (stopped : s.exchange.state = .stopped) (performed : s.perform r = some (reply, t)) :
    t.exchange.state = .stopped := by
  cases r with
  | code q =>
    cases q with
    | writeOut | writeErr =>
      cases performed
      exact state_tell stopped _
    | ask item executor =>
      rw [perform] at performed
      split at performed
      · cases performed
        exact Exchange.state_start stopped
      · cases performed
    | gate gate => cases performed
    | _ =>
      cases performed
      exact stopped
  | tell item =>
    cases performed
    exact state_tell stopped item
  | setBusy busy =>
    cases performed
    exact (Exchange.state_post ..).trans stopped
  | reply item =>
    cases performed
    exact state_finish stopped item
  | delegate | console => cases performed
  | _ =>
    cases performed
    exact stopped

theorem state_wakeUp {woken : Woken (Wait ι)} (stopped : x.state = .stopped)
    (woke : x.wakeUp = some (woken, y)) : y.state = .stopped := by
  cases Exchange.takesNext_of_wakeUp woke with
  | drop => exact stopped
  | _ =>
    refine Exchange.state_setState ?_ _
    exact stopped

theorem state_apply (stopped : x.state = .stopped) (move : ExchangeMove) :
    (move.apply x).state = .stopped := by
  cases move with
  | coordinate group =>
    rw [ExchangeMove.apply, Exchange.coordinate]
    split
    · exact stopped
    · rfl
  | connect | disconnect | call | setBusy => exact (Exchange.state_post ..).trans stopped
  | shutdown => exact Exchange.state_post ..
  | runPlugins =>
    rw [ExchangeMove.apply, Exchange.runPlugins]
    split <;> exact stopped
  | abandon | interrupt | clearInterrupt | addPlugin => exact stopped

theorem stopped_of_step (stopped : s.exchange.state = .stopped) (step : s.Step I t) :
    t.exchange.state = .stopped := by
  cases step with
  | @perform r next reply u running performed =>
    exact stopped_of_perform (t := u) stopped performed
  | ask running goesOn => simp [Exchange.isStopped, stopped] at goesOn
  | turn => exact stopped
  | resume ended woke => exact state_wakeUp stopped woke
  | execute ended woke => exact state_wakeUp stopped woke
  | drop ended woke => exact state_wakeUp stopped woke

/-- A stopped session stays stopped. -/
theorem stopped_of_moved {move : SessionMove ι} (stopped : s.exchange.state = .stopped)
    (moved : s.Moved I move t) : t.exchange.state = .stopped := by
  cases moved with
  | step step => exact stopped_of_step stopped step
  | outside => exact state_apply stopped _
  | _ => exact stopped

end Stopped

/-- The coordinator runs, nothing on its way says that the session is stopped, and neither the code
that the engine runs nor that which waits will report the end of the console before something
does. -/
structure Loyal (s : Session ι) : Prop where
  exchange : s.exchange.Heard
  code : s.current.Loyal
  waits : ∀ wait ∈ s.exchange.waits, ∀ answer : Item, answer.Continues → (wait.resume answer).Loyal
  silent : .consoleEnded ∉ s.reports

namespace Loyal

/-- Code that goes on where nothing else has changed. -/
theorem goOn (h : s.Loyal) {j : Task ι Unit} (loyal : j.Loyal) : { s with current := j }.Loyal :=
  ⟨h.exchange, loyal, h.waits, h.silent⟩

theorem modifyExchange (h : s.Loyal) {f : Exchange (Wait ι) → Exchange (Wait ι)}
    (heard : (f s.exchange).Heard) (waits : (f s.exchange).waits = s.exchange.waits) :
    (s.modifyExchange f).Loyal :=
  ⟨heard, h.code, fun wait waiting => h.waits wait (waits ▸ waiting), h.silent⟩

theorem isStopped (h : s.Loyal) (runs : s.exchange.state ≠ .stopped) :
    s.exchange.isStopped = false := by
  simp [Exchange.isStopped, runs, h.exchange.running]

/-- A request that is carried out while the session runs keeps everything, and its reply is one that
can come. -/
theorem perform {r : TaskRequest ι} {reply : r.Reply} (h : s.Loyal)
    (runs : s.exchange.state ≠ .stopped) (quiet : Task.IsQuiet r)
    (performed : s.perform r = some (reply, t)) : t.Loyal ∧ Task.loyalty.replies r reply := by
  have waits : t.exchange.waits = s.exchange.waits :=
    congrArg Exchange.Outlook.waits (outlook_perform performed).2
  cases r with
  | code q =>
    cases q with
    | writeOut | writeErr =>
      cases performed
      exact ⟨h.modifyExchange (h.exchange.tell _) waits, trivial⟩
    | ask item executor =>
      rw [Session.perform, h.isStopped runs] at performed
      cases performed
    | gate gate => cases performed
    | interrupt | setState =>
      cases performed
      exact ⟨⟨h.exchange.of_eq rfl rfl (List.Subset.refl _), h.code, h.waits, h.silent⟩, trivial⟩
    | _ =>
      cases performed
      exact ⟨h, trivial⟩
  | tell item =>
    cases performed
    exact ⟨h.modifyExchange (h.exchange.tell item) waits, trivial⟩
  | setBusy busy =>
    cases performed
    exact ⟨h.modifyExchange (h.exchange.setBusy busy) waits, trivial⟩
  | reply item =>
    cases performed
    exact ⟨h.modifyExchange (h.exchange.finish item) waits, trivial⟩
  | report r =>
    cases performed
    refine ⟨⟨h.exchange, h.code, h.waits, ?_⟩, trivial⟩
    change .consoleEnded ∉ s.reports ++ [r]
    rw [List.mem_append, List.mem_singleton, not_or]
    refine ⟨h.silent, ?_⟩
    rintro rfl
    exact quiet
  | delegate | console => cases performed
  | setDebugger | clearInterrupt =>
    cases performed
    exact ⟨⟨h.exchange.of_eq rfl rfl (List.Subset.refl _), h.code, h.waits, h.silent⟩, trivial⟩
  | getDebugger =>
    cases performed
    exact ⟨h, trivial⟩

theorem ask (h : s.Loyal) {item : Item} {executor : Executor} {next : Item → Task ι Unit}
    (running : s.current = .call (.code (.ask item executor)) next) :
    ({ s with
      exchange := s.exchange.ask item ⟨executor, next⟩
      current := .done () } : Session ι).Loyal := by
  have waits : (s.exchange.ask item ⟨executor, next⟩).waits =
      ⟨executor, next⟩ :: s.exchange.waits :=
    congrArg Exchange.Outlook.waits (Exchange.outlook_ask s.exchange item _)
  refine ⟨h.exchange.ask item _, trivial, fun wait waiting => ?_, h.silent⟩
  rcases List.mem_cons.mp (waits ▸ waiting) with rfl | older
  · have code := h.code
    rw [running] at code
    exact code.2
  · exact h.waits wait older

/-- The engine takes up what it is given. -/
theorem wakeUp {woken : Woken (Wait ι)} {x : Exchange (Wait ι)} (h : s.Loyal)
    (woke : s.exchange.wakeUp = some (woken, x)) :
    ({ s with exchange := x } : Session ι).Loyal ∧
      ∀ answer wait, woken = .resume answer wait → (wait.resume answer).Loyal := by
  obtain ⟨heard, resumed⟩ := h.exchange.wakeUp woke
  have waits : s.exchange.waits = woken.taken ++ x.waits :=
    congrArg Exchange.Outlook.waits (Exchange.outlook_wakeUp woke)
  refine ⟨⟨heard, h.code, fun wait waiting => ?_, h.silent⟩, ?_⟩
  · exact h.waits wait (waits ▸ List.mem_append_right _ waiting)
  · rintro answer wait rfl
    have waiting : wait ∈ s.exchange.waits := waits ▸ List.mem_cons_self
    exact h.waits wait waiting answer (resumed answer wait rfl)

theorem step (h : s.Loyal) (runs : s.exchange.state ≠ .stopped) (step : s.Step I t) : t.Loyal := by
  have code := h.code
  cases step with
  | @perform r next reply u running performed =>
    rw [running] at code
    obtain ⟨loyal, comes⟩ := h.perform runs code.1 performed
    exact loyal.goOn (code.2 reply comes)
  | ask running => exact h.ask running
  | turn running => exact h.goOn (Task.loyal_turn I _ _)
  | resume ended woke =>
    obtain ⟨loyal, resumed⟩ := h.wakeUp woke
    exact loyal.goOn (resumed _ _ rfl)
  | execute ended woke =>
    exact (h.wakeUp woke).1.goOn (Task.only_serve I _ _ _).loyal
  | drop ended woke => exact (h.wakeUp woke).1

theorem apply (h : s.Loyal) (move : ExchangeMove)
    (continues : ∀ slot client items call, move = .call slot client items call →
      ∀ item ∈ items, ∀ a, item.answer = some a → ¬a.SaysStopped) :
    (move.apply s.exchange).state = .stopped ∨
      (s.modifyExchange fun x => move.apply x).Loyal := by
  have waits : (move.apply s.exchange).waits = s.exchange.waits :=
    congrArg Exchange.Outlook.waits (move.outlook_apply s.exchange)
  have posted {e : Event} (given : ∀ a ∈ Coordinator.given e, a.Continues) :
      (s.exchange.post e).Heard := h.exchange.post given
  cases move with
  | coordinate group =>
    exact (h.exchange.coordinate group).imp_right fun heard => h.modifyExchange heard waits
  | connect slot id => exact .inr (h.modifyExchange (posted (List.forall_mem_nil _)) waits)
  | disconnect slot client => exact .inr (h.modifyExchange (posted (List.forall_mem_nil _)) waits)
  | call slot client items id =>
    refine .inr (h.modifyExchange (posted fun answer given => ?_) waits)
    obtain ⟨item, member, rfl⟩ := List.mem_map.mp given
    obtain ⟨member, answered⟩ := List.mem_filter.mp member
    obtain ⟨a, given⟩ := Option.isSome_iff_exists.mp answered
    exact ⟨a, given, continues slot client items id rfl item member a given⟩
  | setBusy busy => exact .inr (h.modifyExchange (posted (List.forall_mem_nil _)) waits)
  | shutdown => exact .inl (Exchange.state_post ..)
  | runPlugins =>
    have heard : s.exchange.runPlugins.Heard := by
      rw [Exchange.runPlugins]
      split
      · exact h.exchange.of_eq rfl rfl (List.Subset.refl _)
      · exact h.exchange
    exact .inr (h.modifyExchange heard waits)
  | abandon | interrupt | clearInterrupt | addPlugin =>
    exact .inr (h.modifyExchange (h.exchange.of_eq rfl rfl (List.Subset.refl _)) waits)

theorem moved {move : SessionMove ι} (h : s.Loyal) (runs : s.exchange.state ≠ .stopped)
    (continues : ∀ slot client items call, move = .outside (.call slot client items call) →
      ∀ item ∈ items, ∀ a, item.answer = some a → ¬a.SaysStopped)
    (moved : s.Moved I move t) : t.exchange.state = .stopped ∨ t.Loyal := by
  have code := h.code
  cases moved with
  | step step => exact .inr (h.step runs step)
  | enter => exact .inr (h.goOn (Task.loyal_call I _ _))
  | aside =>
    exact .inr (h.goOn (Job.Follows.bind (Task.loyal_call I _ _) fun _ _ _ => code))
  | openGate held | giveBack held =>
    rw [held] at code
    exact .inr (h.goOn (code.2 _ trivial))
  | outside =>
    exact h.apply _ fun slot client items call same =>
      continues slot client items call (congrArg SessionMove.outside same)
  | change => exact .inr ⟨h.exchange, h.code, h.waits, h.silent⟩

end Loyal

/-- In one of the moves a client answers a question with a status that has the code of a stopped
session. -/
def SaidStopped (moves : List (SessionMove ι)) : Prop :=
  ∃ slot client items call, .outside (.call slot client items call) ∈ moves ∧
    ∃ item ∈ items, ∃ a, item.answer = some a ∧ a.SaysStopped

/-- As long as the session is not stopped and no client says so, nothing will report the end of the
console. -/
theorem loyal_of_course {settings : Settings} {state : ι} {moves : List (SessionMove ι)}
    (course : (start settings state).moves? I moves = some s) :
    SaidStopped moves ∨ s.exchange.state = .stopped ∨ s.Loyal := by
  refine moves?_induction
    (P := fun moves s => SaidStopped moves ∨ s.exchange.state = .stopped ∨ s.Loyal) ?_ ?_ course
  · exact .inr (.inr ⟨Exchange.heard_ofCapacity _, trivial,
      fun _ none => absurd none List.not_mem_nil, List.not_mem_nil⟩)
  · intro moves t move u known moved
    -- Once a client has said so, or the session is stopped, this stays so.
    have became := moved_of_move? moved
    by_cases said : SaidStopped (moves ++ [move])
    · exact .inl said
    right
    rcases known with ⟨slot, client, items, call, member, answers⟩ | stopped | loyal
    · exact absurd ⟨slot, client, items, call, List.mem_append_left _ member, answers⟩ said
    · exact .inl (stopped_of_moved stopped became)
    · by_cases stopped : t.exchange.state = .stopped
      · exact .inl (stopped_of_moved stopped became)
      refine loyal.moved stopped ?_ became
      rintro slot client items call rfl item member a given ends
      exact said ⟨slot, client, items, call, by simp, item, member, a, given, ends⟩

/-- The console comes back only after the session has been stopped, or a client has answered a
question with a status that has the code of a stopped session. -/
theorem console_ended {settings : Settings} {state : ι} {moves : List (SessionMove ι)}
    (course : (start settings state).moves? I moves = some s)
    (ended : .consoleEnded ∈ s.reports) : s.exchange.state = .stopped ∨ SaidStopped moves := by
  rcases loyal_of_course course with said | stopped | loyal
  · exact .inr said
  · exact .inl stopped
  · exact absurd ended loyal.silent

/-- The question of the console with an answer that says that the session is stopped. -/
def falseAlarm : Item :=
  ⟨SlotId.primary, some 1, .consoleRead "> " true,
    some (.status ⟨.error, Status.Code.stopped, none⟩)⟩

/-- The console asks for a line, and the client answers that the session is stopped. -/
def alarmed : List (SessionMove Script) :=
  [.outside (.connect SlotId.primary 0), .outside (.coordinate 1), .enter (.console "> "), .step,
    .step, .step, .outside (.coordinate 2),
    .outside (.call SlotId.primary ⟨1⟩ [falseAlarm] 1), .outside (.coordinate 1), .step, .step]

/-- The console comes back, and the session runs on. -/
theorem course_alarmed : ∃ s, (start {} {}).moves? Script.interpreter alarmed = some s ∧
    s.exchange.state = .running ∧ s.reports = [.consoleEnded] :=
  ⟨_, rfl, rfl, rfl⟩

/-- The console that comes back at a false alarm. -/
theorem console_ended_alarmed : ∃ s, (start {} {}).moves? Script.interpreter alarmed = some s ∧
    .consoleEnded ∈ s.reports ∧ (s.exchange.state = .stopped ∨ SaidStopped alarmed) := by
  obtain ⟨s, course, -, reports⟩ := course_alarmed
  have ended : .consoleEnded ∈ s.reports := by
    rw [reports]
    exact List.mem_singleton_self _
  exact ⟨s, course, ended, console_ended course ended⟩

/-- Not only stopping the session ends the console. -/
theorem console_ended_while_running :
    ¬∀ moves s, (start {} {}).moves? Script.interpreter moves = some s →
      .consoleEnded ∈ s.reports → s.exchange.state = .stopped := by
  intro always
  obtain ⟨s, course, running, reports⟩ := course_alarmed
  have stopped := always alarmed s course (by rw [reports]; exact List.mem_singleton_self _)
  rw [running] at stopped
  cases stopped

end Session

end EngineLink
