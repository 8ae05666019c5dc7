import Mathlib.Data.List.Nodup
import EngineLink.Proofs.Debug.Classification
import EngineLink.Proofs.Debug.Conversation

/-!
# Frames that steps return into

A step return names its frame by a position or by a handle. Handles and positions tell frames apart,
so there is at most one frame that is meant; with the step filter the step goes on outwards from
there, to the first frame that stepping does not pass over. What an operation asks of the backend
follows from this, from the stack that the client has been shown and from the filter.

## Main definitions

* `CallStack.IsGoal` — the frame into which a step returns
* `FrameRef.LookedUpIn` — the stack in which the frame is looked up
* `ControlRequest.Served` — all that can become of the request for an operation

## Main results

* `CallStack.Distinct.goal?_eq_some_iff` — the handle that is found is the one of the frame meant
* `ControlRequest.Served.suspended` — an operation is tried on a suspended engine only
* `Debugger.serve_control` — a turn with an operation
* `Debugger.handle_eq_serve` — serving a command with a record is serving it
-/

namespace EngineLink

/-! ### Targets -/

/-- The frame is the one that the reference names. -/
def FrameRef.Names : FrameRef → Frame → Prop
  | position p, f => f.position = p
  | handle h, f => f.handle = h

namespace CallStack

/-- No two frames have the same handle or the same position. -/
structure Distinct (stack : CallStack) : Prop where
  handles : (stack.frames.map (·.handle)).Nodup
  positions : (stack.frames.map (·.position)).Nodup

/-- The frame is the innermost one of the given ones that stepping does not pass over. -/
def Innermost (frames : List Frame) (g : Frame) : Prop :=
  ∃ outer passed, frames = outer ++ g :: passed ∧ g.isFiltered = false ∧
    ∀ f ∈ passed, f.isFiltered = true

/-- The frame into which a step returns: the one that is named, or with the filter the innermost one
from there on outwards that stepping does not pass over. -/
def IsGoal (stack : CallStack) (filtering : Bool) (target : FrameRef) (g : Frame) : Prop :=
  ∃ before f after, stack.frames = before ++ f :: after ∧ target.Names f ∧
    if filtering = true then Innermost (before ++ [f]) g else g = f

end CallStack

/-- The frame of a stack that a reference names. -/
def FrameRef.find? (stack : CallStack) : FrameRef → Option Frame
  | position p => stack.byPosition? p
  | handle h => stack.byHandle? h

/-- The handle of the frame into which a step returns. -/
def FrameRef.goal? (filtering : Bool) (target : FrameRef) (stack : CallStack) : Option UInt64 := do
  let frame ← target.find? stack
  if filtering then stack.stepTarget? frame.handle else some frame.handle

namespace CallStack

variable {stack : CallStack} {frames : List Frame} {f g : Frame} {target : FrameRef}
  {filtering : Bool}

theorem distinct_classify (handles : (frames.map (·.handle)).Nodup)
    (positions : (frames.map (·.position)).Nodup) : (classify frames).Distinct :=
  ⟨(map_classify (·.handle) (fun _ _ _ => rfl) frames).symm ▸ handles,
    (map_classify (·.position) (fun _ _ _ => rfl) frames).symm ▸ positions⟩

/-- A frame that is looked up by something that tells frames apart is the one that has it. -/
theorem find?_eq_some_iff {κ : Type} [BEq κ] [LawfulBEq κ] {key : Frame → κ} {k : κ}
    (apart : (frames.map key).Nodup) :
    frames.find? (key · == k) = some f ↔ f ∈ frames ∧ key f = k := by
  constructor
  · intro found
    exact ⟨List.mem_of_find?_eq_some found, by simpa using List.find?_some found⟩
  · rintro ⟨here, rfl⟩
    cases found : frames.find? (key · == key f) with
    | none => exact absurd (BEq.rfl) (List.find?_eq_none.mp found f here)
    | some g =>
      have same : key g = key f := by simpa using List.find?_some found
      rw [List.inj_on_of_nodup_map apart (List.mem_of_find?_eq_some found) here same]

theorem Distinct.find?_eq_some_iff (distinct : stack.Distinct) :
    target.find? stack = some f ↔ f ∈ stack.frames ∧ target.Names f := by
  cases target with
  | position p => exact CallStack.find?_eq_some_iff distinct.positions
  | handle h => exact CallStack.find?_eq_some_iff distinct.handles

theorem innermost_iff :
    Innermost frames g ↔ frames.reverse.find? (!·.isFiltered) = some g := by
  rw [List.find?_eq_some_iff_append, Bool.not_eq_true']
  constructor
  · rintro ⟨outer, passed, rfl, open_, filtered⟩
    exact ⟨open_, passed.reverse, outer.reverse, by simp, by simpa using filtered⟩
  · rintro ⟨open_, passed, outer, split, filtered⟩
    refine ⟨outer.reverse, passed.reverse, ?_, open_, by simpa using filtered⟩
    simpa using congrArg List.reverse split

theorem Distinct.stepTarget?_eq (distinct : stack.Distinct) {before after : List Frame}
    (split : stack.frames = before ++ f :: after) :
    stack.stepTarget? f.handle =
      ((before ++ [f]).reverse.find? (!·.isFiltered)).map (·.handle) := by
  have handles := distinct.handles
  rw [split, List.map_append, List.map_cons, List.nodup_append] at handles
  have outside : before.findIdx? (·.handle == f.handle) = none := by
    rw [List.findIdx?_eq_none_iff]
    intro g inBefore
    exact beq_eq_false_iff_ne.mpr
      (handles.2.2 g.handle (List.mem_map_of_mem inBefore) f.handle List.mem_cons_self)
  have place : stack.frames.findIdx? (·.handle == f.handle) = some before.length := by
    rw [split, List.findIdx?_append, outside, List.findIdx?_cons, if_pos BEq.rfl]
    simp
  have upTo : stack.frames.take (before.length + 1) = before ++ [f] := by
    rw [split, List.take_append, List.take_of_length_le (Nat.le_succ _), Nat.add_sub_cancel_left]
    rfl
  rw [stepTarget?, place, Option.bind_eq_bind, Option.bind_some, upTo]
  cases (before ++ [f]).reverse.find? (!·.isFiltered) <;> rfl

/-- The handle that is found is the one of the frame that is meant. -/
theorem Distinct.goal?_eq_some_iff (distinct : stack.Distinct) {handle : UInt64} :
    target.goal? filtering stack = some handle ↔
      ∃ g, stack.IsGoal filtering target g ∧ g.handle = handle := by
  have goal {before after : List Frame} {f : Frame}
      (split : stack.frames = before ++ f :: after) :
      (if filtering = true then stack.stepTarget? f.handle else some f.handle) = some handle ↔
        ∃ g, (if filtering = true then Innermost (before ++ [f]) g else g = f) ∧
          g.handle = handle := by
    cases filtering with
    | true => simp [distinct.stepTarget?_eq split, innermost_iff]
    | false => simp
  simp only [FrameRef.goal?, Option.bind_eq_bind, Option.bind_eq_some_iff,
    distinct.find?_eq_some_iff]
  constructor
  · rintro ⟨f, ⟨here, names⟩, found⟩
    obtain ⟨before, after, split⟩ := List.append_of_mem here
    obtain ⟨g, isGoal, same⟩ := (goal split).mp found
    exact ⟨g, ⟨before, f, after, split, names, isGoal⟩, same⟩
  · rintro ⟨g, ⟨before, f, after, split, names, isGoal⟩, same⟩
    exact ⟨f, ⟨by simp [split], names⟩, (goal split).mpr ⟨g, isGoal, same⟩⟩

end CallStack

/-! ### Operations -/

/-- The stack in which the target of a step return is looked up, with what is asked of the backend
for it. A position is looked up in the stack that the client has been shown, a handle in a fresh
one. -/
def FrameRef.LookedUpIn (shown : Option CallStack) (reads : List BackendCall)
    (stack : Option CallStack) : FrameRef → Prop
  | position _ => reads = [] ∧ stack = shown
  | handle _ => ∃ answer : Except EvalFault (List Frame),
    reads = [.callStack answer] ∧ stack = answer.toOption.map CallStack.classify

/-- What an operation is carried out on. Only a step return has a frame. -/
inductive ControlRequest.Aim (shown : Option CallStack) (filtering : Bool) :
    ControlRequest → List BackendCall → Option UInt64 → Prop
  | resume : Aim shown filtering .resume [] none
  | stepInto : Aim shown filtering .stepInto [] none
  | stepOver : Aim shown filtering .stepOver [] none
  | stepReturn {target : FrameRef} {reads : List BackendCall} {stack : CallStack} {g : Frame}
    (lookedUp : target.LookedUpIn shown reads (some stack))
    (goal : stack.IsGoal filtering target g) :
    Aim shown filtering (.stepReturn target) reads (some g.handle)

/-- A step return has no frame to go to. -/
def ControlRequest.Lost (shown : Option CallStack) (filtering : Bool) (request : ControlRequest)
    (reads : List BackendCall) : Prop :=
  ∃ target stack, request = .stepReturn target ∧ target.LookedUpIn shown reads stack ∧
    ∀ s ∈ stack, ∀ g, ¬s.IsGoal filtering target g

/-- What becomes of the request for an operation. -/
inductive ControlRequest.Served (shown : Option CallStack) (filtering : Bool)
    (request : ControlRequest) : List BackendCall → ControlReport → Prop
  /-- The engine is not suspended. -/
  | running :
    Served shown filtering request [.isSuspended false] ⟨request.op, .notApplicable, false⟩
  /-- There is no frame to return into. -/
  | nowhere {reads : List BackendCall} (lost : request.Lost shown filtering reads) :
    Served shown filtering request (.isSuspended true :: reads) ⟨request.op, .notApplicable, true⟩
  /-- The engine is asked to carry it out. -/
  | tried {reads : List BackendCall} {frame : Option UInt64}
    (aim : request.Aim shown filtering reads frame) (accepted suspended : Bool) :
    Served shown filtering request
      (.isSuspended true :: reads ++
        [.control request.op frame accepted, .isSuspended suspended])
      ⟨request.op, if accepted then .executed else .notApplicable, suspended⟩

namespace ControlRequest

variable {shown : Option CallStack} {filtering : Bool} {request : ControlRequest}
  {reads calls : List BackendCall} {report : ControlReport}

theorem mem_lookedUpIn {target : FrameRef} {stack : Option CallStack} {call : BackendCall}
    (lookedUp : target.LookedUpIn shown reads stack) (read : call ∈ reads) :
    ∃ answer, call = .callStack answer := by
  cases target with
  | position p =>
    obtain ⟨rfl, -⟩ := lookedUp
    cases read
  | handle h =>
    obtain ⟨answer, rfl, -⟩ := lookedUp
    exact ⟨answer, List.mem_singleton.mp read⟩

/-- Only stacks are read before an operation. -/
theorem Aim.mem_reads {frame : Option UInt64} {call : BackendCall}
    (aim : request.Aim shown filtering reads frame) (read : call ∈ reads) :
    ∃ answer, call = .callStack answer := by
  cases aim with
  | stepReturn lookedUp => exact mem_lookedUpIn lookedUp read
  | _ => cases read

/-- At most one operation is tried, when the engine has just been found suspended. -/
theorem Served.suspended {op : ControlOp} {frame : Option UInt64} {accepted : Bool}
    (served : request.Served shown filtering calls report)
    (tried : .control op frame accepted ∈ calls) :
    op = request.op ∧ ∃ reads rest,
      calls = .isSuspended true :: (reads ++ .control op frame accepted :: rest) ∧
        (∀ call ∈ reads, ∃ answer, call = .callStack answer) ∧
        ∀ call ∈ rest, ¬call.IsControl := by
  cases served with
  | running => simp at tried
  | nowhere lost =>
    obtain ⟨target, stack, -, lookedUp, -⟩ := lost
    have read := (List.mem_cons.mp tried).resolve_left nofun
    obtain ⟨answer, ⟨⟩⟩ := mem_lookedUpIn lookedUp read
  | @tried reads frame' aim accepted' suspended =>
    have here : .control op frame accepted ∈
        [BackendCall.control request.op frame' accepted', .isSuspended suspended] := by
      refine (List.mem_append.mp tried).resolve_left fun before => ?_
      obtain ⟨answer, ⟨⟩⟩ := aim.mem_reads ((List.mem_cons.mp before).resolve_left nofun)
    obtain ⟨rfl, rfl, rfl⟩ : op = request.op ∧ frame = frame' ∧ accepted = accepted' := by
      simpa using here
    exact ⟨rfl, reads, [.isSuspended suspended], rfl, fun call => aim.mem_reads,
      by simp [BackendCall.IsControl]⟩

end ControlRequest

/-- The stacks of a backend have distinct handles and positions. -/
def DebugBackend.DistinctStacks {σ : Type} (b : DebugBackend (StateM σ)) : Prop :=
  ∀ s frames, (b.callStack.run.run s).1 = .ok frames →
    (frames.map (·.handle)).Nodup ∧ (frames.map (·.position)).Nodup

theorem DebugBackend.DistinctStacks.distinct_of_read {σ : Type} {b : DebugBackend (StateM σ)}
    (distinct : b.DistinctStacks) {s : σ} {stack : CallStack}
    (read : (b.callStack.run.run s).1.toOption.map CallStack.classify = some stack) :
    stack.Distinct := by
  have apart := distinct s
  cases answer : (b.callStack.run.run s).1 with
  | error e =>
    rw [answer] at read
    cases read
  | ok frames =>
    rw [answer] at read apart
    obtain rfl := Option.some.inj read
    obtain ⟨handles, positions⟩ := apart frames rfl
    exact CallStack.distinct_classify handles positions

namespace Debugger

variable {σ : Type} {b : DebugBackend (StateM σ)} {d : Debugger} {request : ControlRequest}

theorem resolveTarget_position {m : Type → Type} [Monad m] [LawfulMonad m] (d : Debugger)
    (b : DebugBackend m) (p : Int32) :
    resolveTarget d b (.position p) =
      pure (d.lastStack.bind ((FrameRef.position p).goal? d.filter.stepFilter)) := by
  rw [resolveTarget, pure_bind]
  cases d.lastStack with
  | none => rfl
  | some stack =>
    simp only [Option.bind_eq_bind, Option.bind_some, FrameRef.goal?, FrameRef.find?]
    cases stack.byPosition? p <;> rfl

theorem resolveTarget_handle {m : Type → Type} [Monad m] [LawfulMonad m] (d : Debugger)
    (b : DebugBackend m) (h : UInt64) :
    resolveTarget d b (.handle h) = do
      let answer ← b.callStack.run
      return (answer.toOption.map CallStack.classify).bind
        ((FrameRef.handle h).goal? d.filter.stepFilter) := by
  rw [resolveTarget, freshStack, ExceptT.run_map, map_eq_pure_bind, bind_assoc]
  refine congrArg (b.callStack.run >>= ·) (funext fun answer => ?_)
  rw [pure_bind]
  cases answer with
  | error e => exact pure_bind _ _
  | ok frames =>
    refine (pure_bind _ _).trans (congrArg pure ?_)
    change _ = FrameRef.goal? _ _ (CallStack.classify frames)
    rw [FrameRef.goal?, FrameRef.find?]
    cases (CallStack.classify frames).byHandle? h <;> rfl

/-- The stack that the client has been shown has distinct handles and positions. -/
def ShownDistinct (d : Debugger) : Prop := ∀ stack, d.lastStack = some stack → stack.Distinct

theorem resolveTarget_cases (b : DebugBackend (StateM σ)) (d : Debugger) (target : FrameRef)
    (s : σ) (calls : List BackendCall) :
    ∃ reads stack s',
      (resolveTarget d b.logged target).run (s, calls) =
        (stack.bind (target.goal? d.filter.stepFilter), s', calls ++ reads) ∧
      (resolveTarget d b target).run s = (stack.bind (target.goal? d.filter.stepFilter), s') ∧
      target.LookedUpIn d.lastStack reads stack ∧
      (b.DistinctStacks → d.ShownDistinct → ∀ found, stack = some found → found.Distinct) := by
  cases target with
  | position p =>
    rw [resolveTarget_position, resolveTarget_position]
    exact ⟨[], d.lastStack, s, by rw [List.append_nil]; rfl, rfl, ⟨rfl, rfl⟩, fun _ shown => shown⟩
  | handle h =>
    rw [resolveTarget_handle, resolveTarget_handle]
    exact ⟨[.callStack (b.callStack.run.run s).1],
      (b.callStack.run.run s).1.toOption.map CallStack.classify, (b.callStack.run.run s).2, rfl,
      rfl, ⟨_, rfl, rfl⟩, fun distinct _ _ read => distinct.distinct_of_read read⟩

/-- The frame of a request, if there is one where it needs one. -/
def aim {m : Type → Type} [Monad m] (d : Debugger) (b : DebugBackend m) :
    ControlRequest → m (Option (Option UInt64))
  | .stepReturn target => do return (← resolveTarget d b target).map some
  | _ => pure (some none)

theorem run_control {m : Type → Type} [Monad m] [LawfulMonad m] (b : DebugBackend m)
    (request : ControlRequest) (d : Debugger) :
    (control b request).run d = do
      if ← b.isSuspended then
        match ← aim d b request with
        | some frame =>
          let accepted ← b.control request.op frame
          let suspended ← b.isSuspended
          return (⟨request.op, if accepted then .executed else .notApplicable, suspended⟩,
            if accepted then { d with lastStack := none } else d)
        | none => return (⟨request.op, .notApplicable, true⟩, d)
      else return (⟨request.op, .notApplicable, false⟩, d) := by
  -- What the operation does once its frame is known.
  have tried (frame : Option UInt64) : StateT.run (do
      if ← b.control request.op frame then
        modify fun d => { d with lastStack := none }
        return ⟨request.op, .executed, ← b.isSuspended⟩
      else return ⟨request.op, .notApplicable, ← b.isSuspended⟩ :
        StateT Debugger m ControlReport) d = (do
      let accepted ← b.control request.op frame
      let suspended ← b.isSuspended
      return (⟨request.op, if accepted then .executed else .notApplicable, suspended⟩,
        if accepted then { d with lastStack := none } else d)) := by
    rw [StateT.run_bind, StateT.run_monadLift, bind_assoc]
    refine bind_congr fun accepted => ?_
    cases accepted <;> simp
  rw [control, StateT.run_bind, StateT.run_monadLift, bind_assoc]
  refine bind_congr fun suspended => ?_
  rw [pure_bind]
  cases suspended with
  | false => simp
  | true =>
    cases request with
    | stepReturn target =>
      simp only [Bool.not_true, Bool.false_eq_true, ↓reduceIte, bind_pure_comp, pure_bind,
        StateT.run_bind, StateT.run_get, StateT.run_lift, bind_map_left, aim]
      refine bind_congr fun handle => ?_
      cases handle with
      | none => simp
      | some h => simpa using tried (some h)
    | _ => simpa [aim] using tried none

theorem aim_cases (b : DebugBackend (StateM σ)) (d : Debugger) (request : ControlRequest) (s : σ)
    (calls : List BackendCall) :
    ∃ reads target s',
      (aim d b.logged request).run (s, calls) = (target, s', calls ++ reads) ∧
      (aim d b request).run s = (target, s') ∧
      (b.DistinctStacks → d.ShownDistinct →
        match target with
        | some frame => request.Aim d.lastStack d.filter.stepFilter reads frame
        | none => request.Lost d.lastStack d.filter.stepFilter reads) := by
  cases request with
  | resume => exact ⟨[], some none, s, by rw [List.append_nil]; rfl, rfl, fun _ _ => .resume⟩
  | stepInto => exact ⟨[], some none, s, by rw [List.append_nil]; rfl, rfl, fun _ _ => .stepInto⟩
  | stepOver => exact ⟨[], some none, s, by rw [List.append_nil]; rfl, rfl, fun _ _ => .stepOver⟩
  | stepReturn target =>
    obtain ⟨reads, stack, s', logged, plain, lookedUp, apart⟩ :=
      resolveTarget_cases b d target s calls
    rw [aim, aim, run_bind, run_bind, logged, plain]
    refine ⟨reads, _, s', rfl, rfl, fun distinct shown => ?_⟩
    replace apart := apart distinct shown
    cases found : stack.bind (target.goal? d.filter.stepFilter) with
    | some handle =>
      obtain ⟨stack, rfl, found⟩ := Option.bind_eq_some_iff.mp found
      obtain ⟨g, goal, rfl⟩ := (apart stack rfl).goal?_eq_some_iff.mp found
      exact .stepReturn lookedUp goal
    | none =>
      refine ⟨target, stack, rfl, lookedUp, ?_⟩
      -- A frame that is meant would have been found.
      rintro stack rfl g goal
      have found' := (apart stack rfl).goal?_eq_some_iff.mpr ⟨g, goal, rfl⟩
      rw [Option.bind_some, found'] at found
      cases found

/-- What the debugger keeps after an operation with a given report. -/
def afterControl (d : Debugger) (report : ControlReport) : Debugger :=
  if report.outcome = .executed then { d with lastStack := none } else d

theorem control_cases (b : DebugBackend (StateM σ)) (d : Debugger) (request : ControlRequest)
    (s : σ) (calls : List BackendCall) :
    ∃ more report s',
      ((control b.logged request).run d).run (s, calls) =
        ((report, d.afterControl report), s', calls ++ more) ∧
      ((control b request).run d).run s = ((report, d.afterControl report), s') ∧
      (b.DistinctStacks → d.ShownDistinct →
        request.Served d.lastStack d.filter.stepFilter more report) := by
  rw [run_control, run_control, run_bind, run_bind, run_logged_isSuspended]
  generalize b.isSuspended.run s = x
  obtain ⟨_ | _, s'⟩ := x
  · exact ⟨_, _, s', rfl, rfl, fun _ _ => .running⟩
  obtain ⟨reads, target, s₂, logged, plain, aimed⟩ :=
    aim_cases b d request s' (calls ++ [.isSuspended true])
  dsimp only
  rw [if_pos rfl, if_pos rfl, run_bind, run_bind, logged, plain]
  cases target with
  | none =>
    exact ⟨.isSuspended true :: reads, _, s₂, by simp; rfl, rfl, fun distinct shown =>
      .nowhere (aimed distinct shown)⟩
  | some frame =>
    dsimp only
    rw [run_bind, run_bind, run_bind, run_bind, run_logged_control]
    generalize (b.control request.op frame).run s₂ = y
    obtain ⟨accepted, s₃⟩ := y
    dsimp only
    rw [run_logged_isSuspended]
    generalize b.isSuspended.run s₃ = z
    obtain ⟨suspended, s₄⟩ := z
    refine ⟨_, _, s₄, ?_, ?_, fun distinct shown =>
      .tried (aimed distinct shown) accepted suspended⟩
    · cases accepted <;> simp [afterControl] <;> rfl
    · cases accepted <;> rfl

/-- A turn with an operation. -/
theorem serve_control (b : DebugBackend (StateM σ)) (d : Debugger) (request : ControlRequest)
    (s : σ) :
    ∃ calls report s', d.serve b s (.control request) =
        (⟨.control request, calls, .ok (some (.control report))⟩, d.afterControl report, s') ∧
      ((handle (some b) (.control request)).run.run d).run s =
        ((.ok (some (.control report)), d.afterControl report), s') ∧
      (b.DistinctStacks → d.ShownDistinct →
        request.Served d.lastStack d.filter.stepFilter calls report) := by
  obtain ⟨calls, report, s', logged, plain, served⟩ := control_cases b d request s []
  refine ⟨calls, report, s', ?_, ?_, served⟩
  · rw [serve, handle_control, logged]
    rfl
  · rw [handle_control, plain]

/-- Serving a command with a record is serving it. -/
theorem handle_eq_serve (b : DebugBackend (StateM σ)) (d : Debugger) (s : σ)
    (command : DebugCommand) :
    ((handle (some b) command).run.run d).run s =
      (((d.serve b s command).1.reply, (d.serve b s command).2.1), (d.serve b s command).2.2) := by
  by_cases quiet : command.IsQuiet
  · exact (serve_quiet b d s quiet).2.2.2
  cases command with
  | loadFrameList =>
    rw [serve_loadFrameList, run_loadFrameList]
    generalize b.callStack.run.run s = x
    obtain ⟨_ | frames, s'⟩ := x <;> rfl
  | control request =>
    obtain ⟨calls, report, s', served, plain, -⟩ := serve_control b d request s
    rw [served, plain]
  | resetFilter filter => rfl
  | _ => exact absurd trivial quiet

end Debugger

end EngineLink
