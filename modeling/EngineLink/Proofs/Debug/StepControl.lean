import EngineLink.Proofs.Debug.StepTargets

/-!
# Step control

The debugger keeps the stack that it has shown last, and forgets it when an operation is executed.
A client can tell from the replies which stack that is, whatever failed or was refused in between.
So a position can only mean the frame that the client has seen there, and no operation is carried
out on an engine that runs.

## Main definitions

* `Shown`, `filtering` — the stack and the step filter that the turns of a conversation tell
* `Debugger.Reflects` — the debugger keeps just these

## Main results

* `Debugger.reflects_of_course` — in every conversation the debugger keeps what the turns tell
* `Debugger.acts_as_meant` — operations are carried out only on a suspended engine and as meant
-/

namespace EngineLink

/-! ### What the client knows -/

namespace DebugTurn

/-- The turn shows the client a stack. -/
def Shows (stack : CallStack) (turn : DebugTurn) : Prop :=
  turn.command = .loadFrameList ∧ turn.reply = .ok (some (.callStack stack))

/-- The turn reports an operation as executed. Asking for a suspension is no such operation. -/
def Moves (turn : DebugTurn) : Prop :=
  ∃ request report, turn.command = .control request ∧ turn.reply = .ok (some (.control report)) ∧
    report.outcome = .executed

end DebugTurn

/-- The stack is the last one that the client has been shown, and no operation has been executed
since. -/
def Shown (history : List DebugTurn) (stack : CallStack) : Prop :=
  ∃ before turn after, history = before ++ turn :: after ∧ turn.Shows stack ∧
    ∀ later ∈ after, ¬later.Moves ∧ ∀ other, ¬later.Shows other

/-- Whether the step filter is on, as the client has set it last. It is off at first. -/
def filtering (history : List DebugTurn) : Bool :=
  history.foldl (fun on turn =>
    match turn.command with
    | .resetFilter filter => filter.stepFilter
    | _ => on) false

theorem shown_concat {history : List DebugTurn} {turn : DebugTurn} {stack : CallStack} :
    Shown (history ++ [turn]) stack ↔
      turn.Shows stack ∨ Shown history stack ∧ ¬turn.Moves ∧ ∀ other, ¬turn.Shows other := by
  constructor
  · rintro ⟨before, shower, after, split, shows_, rests⟩
    -- The stack is shown in the last turn, or in one before it.
    obtain rfl | ⟨after, last, rfl⟩ := List.eq_nil_or_concat after
    · obtain ⟨rfl, same⟩ := List.append_inj' split rfl
      obtain rfl := List.singleton_inj.mp same
      exact .inl shows_
    · rw [List.concat_eq_append, ← List.cons_append, ← List.append_assoc] at split
      obtain ⟨rfl, same⟩ := List.append_inj' split rfl
      obtain rfl := List.singleton_inj.mp same
      exact .inr ⟨⟨before, shower, after, rfl, shows_, fun later member =>
        rests later (by simp [member])⟩, rests _ (by simp)⟩
  · rintro (shows_ | ⟨⟨before, shower, after, rfl, shows_, rests⟩, still⟩)
    · exact ⟨history, turn, [], rfl, shows_, by simp⟩
    · refine ⟨before, shower, after ++ [turn], by simp, shows_, fun later member => ?_⟩
      rw [List.mem_append, List.mem_singleton] at member
      rcases member with earlier | rfl
      · exact rests later earlier
      · exact still

namespace Debugger

variable {σ : Type} {b : DebugBackend (StateM σ)} {d : Debugger} {history : List DebugTurn}

/-- The debugger keeps the stack that the client has been shown and the filter that it has set. -/
structure Reflects (history : List DebugTurn) (d : Debugger) : Prop where
  stack : ∀ stack, d.lastStack = some stack ↔ Shown history stack
  filter : d.filter.stepFilter = filtering history
  distinct : d.ShownDistinct

theorem filtering_concat {turn : DebugTurn}
    (other : ∀ filter, turn.command ≠ .resetFilter filter) :
    filtering (history ++ [turn]) = filtering history := by
  rw [filtering, List.foldl_append]
  obtain ⟨command, calls, reply⟩ := turn
  cases command with
  | resetFilter filter => exact absurd rfl (other filter)
  | _ => rfl

theorem filtering_concat_resetFilter {filter : FilterState} {calls : List BackendCall}
    {reply : Except EvalFault (Option DebugReply)} :
    filtering (history ++ [⟨.resetFilter filter, calls, reply⟩]) = filter.stepFilter := by
  rw [filtering, List.foldl_append]
  rfl

/-- A turn that neither shows a stack nor moves the engine leaves the loaded stack as it is. -/
theorem Reflects.stays {turn : DebugTurn} {d' : Debugger} (h : Reflects history d)
    (moves : ¬turn.Moves) (shows_ : ∀ other, ¬turn.Shows other) (stack : d'.lastStack = d.lastStack)
    (filter : d'.filter.stepFilter = filtering (history ++ [turn])) :
    Reflects (history ++ [turn]) d' := by
  refine ⟨fun shown => ?_, filter, fun shown known => h.distinct shown (stack ▸ known)⟩
  rw [shown_concat, stack, h.stack]
  exact ⟨fun before => .inr ⟨before, moves, shows_⟩, fun now =>
    (now.resolve_left (shows_ shown)).1⟩

theorem Reflects.serve_loadFrameList (h : Reflects history d) (distinct : b.DistinctStacks)
    (s : σ) :
    Reflects (history ++ [(d.serve b s .loadFrameList).1]) (d.serve b s .loadFrameList).2.1 := by
  have apart := distinct s
  rw [Debugger.serve_loadFrameList]
  generalize b.callStack.run.run s = x at apart
  obtain ⟨e | frames, s'⟩ := x
  · refine h.stays ?_ ?_ rfl (h.filter.trans (filtering_concat ?_).symm)
    · rintro ⟨_, _, ⟨⟩, -⟩
    · rintro _ ⟨-, ⟨⟩⟩
    · rintro _ ⟨⟩
  · obtain ⟨handles, positions⟩ := apart frames rfl
    refine ⟨fun stack => ?_, h.filter.trans (filtering_concat ?_).symm, ?_⟩
    · rw [shown_concat]
      constructor
      · rintro ⟨⟩
        exact .inl ⟨rfl, rfl⟩
      · rintro (⟨-, ⟨⟩⟩ | ⟨-, -, others⟩)
        · rfl
        · exact absurd ⟨rfl, rfl⟩ (others (.classify frames))
    · rintro _ ⟨⟩
    · rintro stack ⟨⟩
      exact CallStack.distinct_classify handles positions

theorem Reflects.serve_control (h : Reflects history d) (request : ControlRequest) (s : σ) :
    Reflects (history ++ [(d.serve b s (.control request)).1])
      (d.serve b s (.control request)).2.1 := by
  obtain ⟨calls, report, s', served, -⟩ := Debugger.serve_control b d request s
  rw [served, afterControl]
  have noStack (other : CallStack) : ¬DebugTurn.Shows other
      ⟨.control request, calls, .ok (some (.control report))⟩ := by
    rintro ⟨⟨⟩, -⟩
  have noFilter : filtering
      (history ++ [⟨.control request, calls, .ok (some (.control report))⟩]) = filtering history :=
    filtering_concat (by rintro _ ⟨⟩)
  split_ifs with executed
  · -- The stack is forgotten, as the operation is reported as executed.
    refine ⟨fun stack => ?_, h.filter.trans noFilter.symm, by rintro _ ⟨⟩⟩
    rw [shown_concat]
    constructor
    · rintro ⟨⟩
    · rintro (shows_ | ⟨-, still, -⟩)
      · exact absurd shows_ (noStack stack)
      · exact absurd ⟨request, report, rfl, rfl, executed⟩ still
  · refine h.stays ?_ noStack rfl (h.filter.trans noFilter.symm)
    rintro ⟨_, _, ⟨⟩, ⟨⟩, moved⟩
    exact executed moved

theorem Reflects.serve (h : Reflects history d) (distinct : b.DistinctStacks) (s : σ)
    (command : DebugCommand) :
    Reflects (history ++ [(d.serve b s command).1]) (d.serve b s command).2.1 := by
  by_cases quiet : command.IsQuiet
  · obtain ⟨-, stack, filter, -⟩ := serve_quiet b d s quiet
    refine h.stays ?_ ?_ stack (filter ▸ h.filter.trans (filtering_concat ?_).symm)
    · rintro ⟨request, report, same, -⟩
      exact (same ▸ quiet : DebugCommand.IsQuiet (.control request))
    · rintro other ⟨same, -⟩
      exact (same ▸ quiet : DebugCommand.IsQuiet .loadFrameList)
    · intro filter same
      exact (same ▸ quiet : DebugCommand.IsQuiet (.resetFilter filter))
  cases command with
  | loadFrameList => exact h.serve_loadFrameList distinct s
  | control request => exact h.serve_control request s
  | resetFilter filter =>
    rw [serve_resetFilter]
    refine h.stays ?_ ?_ rfl filtering_concat_resetFilter.symm
    · rintro ⟨_, _, ⟨⟩, -⟩
    · rintro _ ⟨⟨⟩, -⟩
  | _ => exact absurd trivial quiet

/-- The debugger as it was before the last turn. -/
theorem exists_serve {turn : DebugTurn} (course : Course b (history ++ [turn]) d) :
    ∃ before s command, Course b history before ∧ turn = (before.serve b s command).1 := by
  generalize split : history ++ [turn] = turns at course
  cases course with
  | start => simp at split
  | serve course s command =>
    obtain ⟨rfl, same⟩ := List.append_inj' split rfl
    exact ⟨_, s, command, course, List.singleton_inj.mp same⟩

theorem reflects_of_course (distinct : b.DistinctStacks) (course : Course b history d) :
    Reflects history d := by
  induction course with
  | start =>
    refine ⟨fun stack => ⟨by rintro ⟨⟩, ?_⟩, rfl, by rintro _ ⟨⟩⟩
    rintro ⟨before, shower, after, split, -⟩
    simp at split
  | serve _ s command ih => exact ih.serve distinct s command

/-- An operation is carried out only on an engine that has just been found suspended, and a step
returns into the frame that the client meant: a position is looked up in the stack that it has been
shown, as long as no operation has been executed since, and a handle in a fresh one. If there is no
frame to go to, nothing is carried out. -/
theorem acts_as_meant (distinct : b.DistinctStacks) {turn : DebugTurn}
    (course : Course b (history ++ [turn]) d) :
    (∀ op frame accepted, .control op frame accepted ∈ turn.calls →
        (∃ request, turn.command = .control request ∧ op = request.op) ∧
          ∃ reads rest,
            turn.calls = .isSuspended true :: (reads ++ .control op frame accepted :: rest) ∧
              (∀ call ∈ reads, ∃ answer, call = .callStack answer) ∧
              ∀ call ∈ rest, ¬call.IsControl) ∧
      ∀ request, turn.command = .control request →
        ∃ shown report, (∀ stack, shown = some stack ↔ Shown history stack) ∧
          turn.reply = .ok (some (.control report)) ∧
          request.Served shown (filtering history) turn.calls report := by
  obtain ⟨d, s, command, earlier, rfl⟩ := exists_serve course
  have reflects := reflects_of_course distinct earlier
  constructor
  · intro op frame accepted tried
    -- Of all commands only those for operations make such a call.
    by_cases quiet : command.IsQuiet
    · exact absurd trivial ((serve_quiet b d s quiet).1 _ tried)
    cases command with
    | control request =>
      obtain ⟨calls, report, s', serves, -, served⟩ := serve_control b d request s
      rw [serves] at tried ⊢
      obtain ⟨same, rest⟩ := (served distinct reflects.distinct).suspended tried
      exact ⟨⟨request, rfl, same⟩, rest⟩
    | loadFrameList =>
      rw [serve_loadFrameList] at tried
      generalize b.callStack.run.run s = x at tried
      obtain ⟨_ | frames, s'⟩ := x <;> simp at tried
    | resetFilter filter => cases tried
    | _ => exact absurd trivial quiet
  · rintro request rfl
    obtain ⟨calls, report, s', serves, -, served⟩ := serve_control b d request s
    rw [serves]
    exact ⟨d.lastStack, report, reflects.stack, rfl,
      reflects.filter ▸ served distinct reflects.distinct⟩

/-- A suspended engine with three frames. Stepping passes over the one in the middle. -/
def halted : DebugBackend (StateM Unit) where
  callStack := pure [⟨0, none, 16, none, 0, none, 0⟩, ⟨1, none, 32, none, 0, none, 0x100⟩,
    ⟨2, none, 48, none, 0, none, 0⟩]
  frameContext _ := throw (.notSupported "frame contexts")
  setDebug _ := pure false
  isSuspended := pure true
  requestSuspend := pure false
  control _ _ := pure true
  locate _ _ _ := pure false

theorem halted_distinctStacks : halted.DistinctStacks := by
  rintro s _ ⟨⟩
  exact ⟨by decide, by decide⟩

/-- With the filter, returning to the frame in the middle is returning to the one outside. -/
theorem acts_as_meant_halted :
    halted.DistinctStacks ∧
      ∃ history turn d, Course halted (history ++ [turn]) d ∧
        turn.command = .control (.stepReturn (.position 1)) ∧
        turn.calls = [.isSuspended true, .control .stepReturn (some 16) true, .isSuspended true] ∧
        ∃ shown report, (∀ stack, shown = some stack ↔ Shown history stack) ∧
          turn.reply = .ok (some (.control report)) ∧
          (ControlRequest.stepReturn (.position 1)).Served shown true turn.calls report := by
  have course := ((Course.start (b := halted)).serve () (.resetFilter ⟨true⟩)).serve ()
    .loadFrameList
  have last := course.serve () (.control (.stepReturn (.position 1)))
  exact ⟨halted_distinctStacks, _, _, _, last, rfl, rfl,
    (acts_as_meant halted_distinctStacks last).2 _ rfl⟩

end Debugger

end EngineLink
