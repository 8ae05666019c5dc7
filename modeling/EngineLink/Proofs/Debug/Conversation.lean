import EngineLink.Debug.Debugger

/-!
# Conversations about debugging

All that a debugger asks of its backend can be recorded. Serving commands with the record is serving
them: it gives the same replies and leads to the same states. So what happens between the debugger
and the engine can be told from the turns of a conversation, each of which is a command with the
calls that it makes and its reply.

## Main definitions

* `BackendCall`, `DebugBackend.logged` — calls of a backend, and a backend with a record of them
* `DebugTurn`, `Debugger.serve`, `Debugger.Course` — turns, and commands served one after another
* `Debugger.Records`, `Debugger.Quiet` — a part of the debugger does the same with the record
* `DebugCommand.IsQuiet` — commands that have nothing to do with steps

## Main results

* `Debugger.quiet_handle` — quiet commands carry out no operation and keep stack and filter
* `Debugger.serve_quiet`, `Debugger.serve_loadFrameList`, `Debugger.serve_resetFilter` — turns
-/

namespace EngineLink

variable {σ α β : Type}

/-! ### Calls of the backend -/

/-- What is asked of a backend, with the answer. -/
inductive BackendCall where
  | callStack (answer : Except EvalFault (List Frame))
  | frameContext (frame : Frame) (answer : Except EvalFault FrameContext)
  | setDebug (request : SetDebugRequest) (answer : Except EvalFault Bool)
  | isSuspended (answer : Bool)
  | requestSuspend (accepted : Bool)
  | control (op : ControlOp) (target : Option UInt64) (accepted : Bool)
  | locate (path elementId : String) (position : TracepointPosition) (found : Bool)

/-- An operation is to be carried out. -/
def BackendCall.IsControl : BackendCall → Prop
  | control .. => True
  | _ => False

/-- Ask, and keep the call with the answer. -/
def recorded (call : α → BackendCall) (action : StateM σ α) :
    StateM (σ × List BackendCall) α := fun (s, calls) =>
  let (answer, s) := action.run s
  (answer, s, calls ++ [call answer])

/-- The backend with a record of all calls. -/
def DebugBackend.logged (b : DebugBackend (StateM σ)) :
    DebugBackend (StateM (σ × List BackendCall)) where
  callStack := ExceptT.mk (recorded .callStack b.callStack.run)
  frameContext frame := ExceptT.mk (recorded (.frameContext frame) (b.frameContext frame).run)
  setDebug request := ExceptT.mk (recorded (.setDebug request) (b.setDebug request).run)
  isSuspended := recorded .isSuspended b.isSuspended
  requestSuspend := recorded .requestSuspend b.requestSuspend
  control op target := recorded (.control op target) (b.control op target)
  locate path elementId position :=
    recorded (.locate path elementId position) (b.locate path elementId position)

theorem run_logged_isSuspended (b : DebugBackend (StateM σ)) (s : σ) (calls : List BackendCall) :
    b.logged.isSuspended.run (s, calls) =
      ((b.isSuspended.run s).1, (b.isSuspended.run s).2,
        calls ++ [.isSuspended (b.isSuspended.run s).1]) := rfl

theorem run_logged_control (b : DebugBackend (StateM σ)) (op : ControlOp) (frame : Option UInt64)
    (s : σ) (calls : List BackendCall) :
    (b.logged.control op frame).run (s, calls) =
      (((b.control op frame).run s).1, ((b.control op frame).run s).2,
        calls ++ [.control op frame ((b.control op frame).run s).1]) := rfl

/-! ### Turns -/

/-- A command with all that is asked of the backend for it, and its reply. -/
structure DebugTurn where
  command : DebugCommand
  calls : List BackendCall
  reply : Except EvalFault (Option DebugReply)

/-- The command neither loads the frames nor is for an operation nor sets the filter. -/
def DebugCommand.IsQuiet : DebugCommand → Prop
  | loadFrameList | control _ | resetFilter _ => False
  | _ => True

namespace Debugger

/-- Serve a command with a backend in a given state. -/
def serve (b : DebugBackend (StateM σ)) (d : Debugger) (s : σ) (command : DebugCommand) :
    DebugTurn × Debugger × σ :=
  let ((reply, d), s, calls) := ((handle (some b.logged) command).run.run d).run (s, [])
  (⟨command, calls, reply⟩, d, s)

/-- Commands that are served one after another. In between the engine may do anything. -/
inductive Course (b : DebugBackend (StateM σ)) : List DebugTurn → Debugger → Prop
  | start : Course b [] {}
  | serve {history : List DebugTurn} {d : Debugger} (course : Course b history d) (s : σ)
    (command : DebugCommand) :
    Course b (history ++ [(d.serve b s command).1]) (d.serve b s command).2.1

/-! ### Records -/

theorem run_bind (x : StateM σ α) (f : α → StateM σ β) (s : σ) :
    (x >>= f).run s = (f (x.run s).1).run (x.run s).2 := rfl

/-- With a record, a part of a backend does the same. No operation is carried out. -/
def Records (x : StateM (σ × List BackendCall) α) (y : StateM σ α) : Prop :=
  ∀ s calls, ∃ more, x.run (s, calls) = ((y.run s).1, (y.run s).2, calls ++ more) ∧
    ∀ call ∈ more, ¬call.IsControl

theorem records_pure (a : α) : Records (pure a : StateM (σ × List BackendCall) α) (pure a) :=
  fun s calls => ⟨[], by rw [List.append_nil]; rfl, by simp⟩

theorem Records.bind {x : StateM (σ × List BackendCall) α} {y : StateM σ α}
    {f : α → StateM (σ × List BackendCall) β} {g : α → StateM σ β} (first : Records x y)
    (then_ : ∀ a, Records (f a) (g a)) : Records (x >>= f) (y >>= g) := by
  intro s calls
  obtain ⟨more, same, quiet⟩ := first s calls
  obtain ⟨further, same', quiet'⟩ := then_ (y.run s).1 (y.run s).2 (calls ++ more)
  refine ⟨more ++ further, ?_, fun call member => ?_⟩
  · rw [run_bind, same, ← List.append_assoc]
    exact same'
  · exact (List.mem_append.mp member).elim (quiet call) (quiet' call)

theorem records_recorded (call : α → BackendCall) (action : StateM σ α)
    (quiet : ∀ answer, ¬(call answer).IsControl) : Records (recorded call action) action :=
  fun s _ => ⟨[call (action.run s).1], rfl, by simp [quiet]⟩

theorem records_mapM {f : α → StateM (σ × List BackendCall) β} {g : α → StateM σ β}
    (each : ∀ a, Records (f a) (g a)) (xs : List α) : Records (xs.mapM f) (xs.mapM g) := by
  induction xs with
  | nil => exact records_pure []
  | cons x xs ih =>
    rw [List.mapM_cons, List.mapM_cons]
    exact (each x).bind fun a => ih.bind fun rest => records_pure (a :: rest)

/-- With a record, a part of the debugger does the same. No operation is carried out, and neither
the loaded stack nor the filter changes. -/
structure Quiet (x : ExceptT EvalFault (StateT Debugger (StateM (σ × List BackendCall))) α)
    (y : ExceptT EvalFault (StateT Debugger (StateM σ)) α) : Prop where
  records : ∀ d, Records (x.run.run d) (y.run.run d)
  stack : ∀ d s, ((y.run.run d).run s).1.2.lastStack = d.lastStack
  filter : ∀ d s, ((y.run.run d).run s).1.2.filter = d.filter

namespace Quiet

variable {x : ExceptT EvalFault (StateT Debugger (StateM (σ × List BackendCall))) α}
  {y : ExceptT EvalFault (StateT Debugger (StateM σ)) α}
  {f : α → ExceptT EvalFault (StateT Debugger (StateM (σ × List BackendCall))) β}
  {g : α → ExceptT EvalFault (StateT Debugger (StateM σ)) β}

theorem of_pure (a : α) : Quiet (σ := σ) (pure a) (pure a) :=
  ⟨fun d => records_pure (Except.ok a, d), fun _ _ => rfl, fun _ _ => rfl⟩

theorem of_throw (e : EvalFault) : Quiet (σ := σ) (α := α) (throw e) (throw e) :=
  ⟨fun d => records_pure (Except.error e, d), fun _ _ => rfl, fun _ _ => rfl⟩

theorem bind (first : Quiet x y) (then_ : ∀ a, Quiet (f a) (g a)) :
    Quiet (x >>= f) (y >>= g) := by
  have kept (d : Debugger) (s : σ) :
      (((y >>= g).run.run d).run s).1.2.lastStack = d.lastStack ∧
        (((y >>= g).run.run d).run s).1.2.filter = d.filter := by
    rw [ExceptT.run_bind, StateT.run_bind, StateT.run_bind]
    have stack := first.stack d s
    have filter := first.filter d s
    generalize (y.run.run d).run s = z at stack filter ⊢
    obtain ⟨⟨_ | a, d'⟩, s'⟩ := z
    · exact ⟨stack, filter⟩
    · exact ⟨((then_ a).stack d' s').trans stack, ((then_ a).filter d' s').trans filter⟩
  refine ⟨fun d => ?_, fun d s => (kept d s).1, fun d s => (kept d s).2⟩
  rw [ExceptT.run_bind, ExceptT.run_bind, StateT.run_bind, StateT.run_bind]
  refine (first.records d).bind ?_
  rintro ⟨r, d'⟩
  cases r with
  | error e => exact records_pure _
  | ok a => exact (then_ a).records d'

theorem use {a : ExceptT EvalFault (StateM (σ × List BackendCall)) α}
    {a' : ExceptT EvalFault (StateM σ) α} (records : Records a.run a'.run) :
    Quiet (Debugger.use a) (Debugger.use a') :=
  ⟨fun d => records.bind fun r => records_pure (r, d), fun _ _ => rfl, fun _ _ => rfl⟩

theorem ask {a : StateM (σ × List BackendCall) α} {a' : StateM σ α} (records : Records a a') :
    Quiet (Debugger.ask a) (Debugger.ask a') :=
  ⟨fun d => records.bind fun r => records_pure (Except.ok r, d), fun _ _ => rfl, fun _ _ => rfl⟩

theorem get : Quiet (σ := σ) MonadState.get MonadState.get :=
  ⟨fun d => records_pure (Except.ok d, d), fun _ _ => rfl, fun _ _ => rfl⟩

theorem modify (change : Debugger → Debugger) (stack : ∀ d, (change d).lastStack = d.lastStack)
    (filter : ∀ d, (change d).filter = d.filter) :
    Quiet (σ := σ) (modify change) (modify change) :=
  ⟨fun d => records_pure (Except.ok (), change d), fun d _ => stack d, fun d _ => filter d⟩

end Quiet

/-! ### Commands -/

theorem records_freshStack (b : DebugBackend (StateM σ)) :
    Records (freshStack b.logged).run (freshStack b).run := by
  rw [freshStack, freshStack, ExceptT.run_map, ExceptT.run_map, map_eq_pure_bind,
    map_eq_pure_bind]
  exact (records_recorded .callStack _ fun _ => not_false).bind fun answer => records_pure _

theorem quiet_frameAt (b : DebugBackend (StateM σ)) (position : Int32) :
    Quiet (frameAt b.logged position) (frameAt b position) := by
  refine Quiet.get.bind fun d => ?_
  cases d.lastStack
  case' some stack => refine (Quiet.of_pure stack).bind ?_
  case' none => refine (Quiet.use (records_freshStack b)).bind ?_
  all_goals
    intro stack
    dsimp only
    cases stack.byPosition? position with
    | some frame => exact .of_pure frame
    | none => exact .of_throw _

theorem records_suspend (b : DebugBackend (StateM σ)) :
    Records (suspend b.logged) (suspend b) := by
  refine (records_recorded .isSuspended _ fun _ => not_false).bind fun suspended => ?_
  cases suspended with
  | true => exact records_pure _
  | false =>
    exact (records_recorded .requestSuspend _ fun _ => not_false).bind fun accepted =>
      (records_recorded .isSuspended _ fun _ => not_false).bind fun suspended => records_pure _

theorem records_locate (b : DebugBackend (StateM σ)) (request : InstallationRequest) :
    Records (request.locate b.logged.locate) (request.locate b.locate) := by
  refine records_mapM (fun e => Records.bind (records_mapM (fun p => ?_) e.positions)
    fun found => records_pure _) request.elements
  exact (records_recorded (.locate e.file.key e.elementId p) _ fun _ => not_false).bind
    fun found => records_pure _

theorem quiet_installing (f : Registry → List InstallationResult × Registry) :
    Quiet (σ := σ) (installing f) (installing f) :=
  Quiet.get.bind fun d =>
    (Quiet.modify (fun d' => { d' with registry := (f d.registry).2 }) (fun _ => rfl)
      fun _ => rfl).bind fun _ => .of_pure _

theorem quiet_modifyRegistry (f : Registry → Registry) :
    Quiet (σ := σ) (modifyRegistry f) (modifyRegistry f) :=
  .modify _ (fun _ => rfl) fun _ => rfl

/-- Quiet commands carry out no operation and leave the loaded stack and the filter as they are. -/
theorem quiet_handle (b : DebugBackend (StateM σ)) {command : DebugCommand}
    (quiet : command.IsQuiet) :
    Quiet (handle (some b.logged) command) (handle (some b) command) := by
  cases command with
  | loadFrameList => exact quiet.elim
  | loadFrameContext request =>
    refine (quiet_frameAt b request.position).bind fun frame => ?_
    exact (Quiet.use (records_recorded (.frameContext frame) _ fun _ => not_false)).bind
      fun context => .of_pure _
  | setDebug request =>
    exact (Quiet.use (records_recorded (.setDebug request) _ fun _ => not_false)).bind
      fun changed => .of_pure _
  | requestSuspend => exact (Quiet.ask (records_suspend b)).bind fun report => .of_pure _
  | control request => exact quiet.elim
  | installTracepoints request =>
    exact (Quiet.ask (records_locate b request)).bind fun located =>
      quiet_installing (·.install located)
  | installFlagTracepoints request => exact quiet_installing (·.installFlags request.tracepoints)
  | updateTracepoints update => exact (quiet_modifyRegistry _).bind fun _ => .of_pure _
  | setEnablement enablement =>
    exact (Quiet.modify (fun d => { d with enablement }) (fun _ => rfl) fun _ => rfl).bind fun _ =>
      (quiet_modifyRegistry _).bind fun _ => .of_pure _
  | resetFilter filter => exact quiet.elim
  | notifyEvent event => exact .of_throw _

/-- A turn with a quiet command. -/
theorem serve_quiet (b : DebugBackend (StateM σ)) (d : Debugger) (s : σ) {command : DebugCommand}
    (quiet : command.IsQuiet) :
    (∀ call ∈ (d.serve b s command).1.calls, ¬call.IsControl) ∧
      (d.serve b s command).2.1.lastStack = d.lastStack ∧
      (d.serve b s command).2.1.filter = d.filter ∧
      ((handle (some b) command).run.run d).run s =
        (((d.serve b s command).1.reply, (d.serve b s command).2.1),
          (d.serve b s command).2.2) := by
  have quiet := quiet_handle b quiet
  obtain ⟨calls, same, none⟩ := quiet.records d s []
  have stack := quiet.stack d s
  have filter := quiet.filter d s
  generalize ((handle (some b) command).run.run d).run s = x at same stack filter ⊢
  obtain ⟨⟨reply, d'⟩, s'⟩ := x
  rw [serve, same]
  exact ⟨by simpa using none, stack, filter, rfl⟩

theorem run_loadFrameList (b : DebugBackend (StateM σ)) (d : Debugger) (s : σ) :
    ((handle (some b) .loadFrameList).run.run d).run s =
      match b.callStack.run.run s with
      | (.ok frames, s) =>
        ((.ok (some (.callStack (.classify frames))),
          { d with lastStack := some (.classify frames) }), s)
      | (.error e, s) => ((.error e, d), s) := by
  rw [handle, need, pure_bind, use, ExceptT.run_bind, ExceptT.run_mk, StateT.run_bind,
    StateT.run_lift, freshStack, ExceptT.run_map, bind_assoc, bind_map_left, run_bind]
  generalize b.callStack.run.run s = x
  obtain ⟨_ | frames, s'⟩ := x <;> rfl

/-- A turn in which the frames are loaded. -/
theorem serve_loadFrameList (b : DebugBackend (StateM σ)) (d : Debugger) (s : σ) :
    d.serve b s .loadFrameList =
      match b.callStack.run.run s with
      | (.ok frames, s) =>
        (⟨.loadFrameList, [.callStack (.ok frames)], .ok (some (.callStack (.classify frames)))⟩,
          { d with lastStack := some (.classify frames) }, s)
      | (.error e, s) => (⟨.loadFrameList, [.callStack (.error e)], .error e⟩, d, s) := by
  have read : b.logged.callStack.run.run (s, []) = ((b.callStack.run.run s).1,
    (b.callStack.run.run s).2, [.callStack (b.callStack.run.run s).1]) := rfl
  rw [serve, run_loadFrameList, read]
  generalize b.callStack.run.run s = x
  obtain ⟨_ | frames, s'⟩ := x <;> rfl

/-- A turn in which the filter is set. -/
theorem serve_resetFilter (b : DebugBackend (StateM σ)) (d : Debugger) (s : σ)
    (filter : FilterState) :
    d.serve b s (.resetFilter filter) =
      (⟨.resetFilter filter, [], .ok none⟩, { d with filter }, s) := rfl

theorem handle_control (b : DebugBackend (StateM σ)) (d : Debugger) (request : ControlRequest)
    (s : σ) :
    ((handle (some b) (.control request)).run.run d).run s =
      ((.ok (some (.control (((control b request).run d).run s).1.1)),
        (((control b request).run d).run s).1.2), (((control b request).run d).run s).2) := rfl

end Debugger

end EngineLink
