import EngineLink.Proofs.Session.InterruptLog

/-!
# One interrupt cancels at most one evaluation

Evaluations nest: while an outer one waits for an answer, requests of clients are executed, and all
of them look at one flag for interrupts. A watch goes with a session, with the marks in its code,
and keeps a log of its course. It stays sound with every move of the session.

## Main definitions

* `Watch`, `Watch.move?` — a session that is watched, and a move of it
* `Watch.Sound` — the watch shows what the session does, and the log accounts for each interrupt

## Main results

* `Watch.Sound.update`, `Watch.Sound.note` — whatever happens keeps a watch sound
* `Session.cancels_at_most_one` — no more evaluations end with an interrupt than interrupts have
  come, and each one after it has heard of an interrupt that came since it began
-/

namespace EngineLink

variable {ι : Type}

/-! ### Watched sessions -/

/-- Code that waits for an answer, with its latest evaluation. -/
structure Suspended (ι : Type) where
  resume : Item → Marked ι Unit
  evaluation : Option Evaluation

/-- A session with the marks in its code, and a log of its course. -/
structure Watch (ι : Type) where
  session : Session ι
  /-- The code that the engine runs. -/
  code : Marked ι Unit := .done ()
  /-- The latest evaluation of this code. -/
  evaluation : Option Evaluation := none
  /-- The code that waits, the innermost first. -/
  suspended : List (Suspended ι) := []
  log : List Note := []

namespace Watch

/-- A watched session at its start. -/
def start (settings : Settings) (state : ι) : Watch ι := { session := .start settings state }

/-- Go on from a request with code, where the session has come to a state. -/
def goOn (w : Watch ι) (t : Session ι) (r : TaskRequest ι × Option Mark) (reply : r.1.Reply)
    (code : Marked ι Unit) : Watch ι :=
  { w with
    session := t
    code
    evaluation := Evaluation.after w.log.length w.evaluation r reply
    log := w.log ++ Note.ofRequest w.evaluation r reply }

/-- Note that the engine goes on at a request that has no reply of its own. -/
def pass (I : Interpreter ι) (w : Watch ι) (t : Session ι) :
    (r : TaskRequest ι × Option Mark) → (r.1.Reply → Marked ι Unit) → Watch ι
  | (.code (.ask ..), _), next =>
    { session := t, suspended := ⟨next, w.evaluation⟩ :: w.suspended, log := w.log }
  | (.console prompt, mark), next =>
    w.goOn t (.console prompt, mark) () (Marked.turn I prompt next)
  | _, _ => { w with session := t }

/-- Note a step of the engine with which the session has come to a state. -/
def step (I : Interpreter ι) (w : Watch ι) (t : Session ι) : Watch ι :=
  match w.code with
  | .call r next =>
    match w.session.perform r.1 with
    | some (reply, _) => w.goOn t r reply (next reply)
    | none => w.pass I t r next
  | .done _ =>
    match w.session.exchange.wakeUp, w.suspended with
    | some (.resume answer _, _), top :: rest =>
      { w with
        session := t
        code := top.resume answer
        evaluation := top.evaluation
        suspended := rest }
    | some (.execute request wait, _), _ =>
      { w with
        session := t
        code := Marked.serve I w.session.settings.limits wait.executor request
        evaluation := none }
    | _, _ => { w with session := t }

/-- Note a move with which the session has come to a state. -/
def note (I : Interpreter ι) (w : Watch ι) (t : Session ι) : SessionMove ι → Watch ι
  | .step => w.step I t
  | .enter call =>
    { w with session := t, code := call.marked I w.session.settings.limits, evaluation := none }
  | .aside item wait =>
    let call : EngineCall := if wait then .ask item else .tell item
    { w with
      session := t
      code := Marked.of (call.task I w.session.settings.limits) >>= fun _ => w.code }
  | .openGate =>
    match w.code with
    | .call (.code (.gate gate), mark) next => w.goOn t (.code (.gate gate), mark) () (next ())
    | _ => { w with session := t }
  | .giveBack reply =>
    match w.code with
    | .call (.delegate request, mark) next =>
      w.goOn t (.delegate request, mark) reply (next reply)
    | _ => { w with session := t }
  | .outside move => { w with session := t, log := w.log ++ Note.ofMove move }
  | .change _ => { w with session := t }

theorem session_step (I : Interpreter ι) (w : Watch ι) (t : Session ι) :
    (w.step I t).session = t := by
  rw [step]
  split
  · split
    · rfl
    · rw [pass.eq_def]
      split <;> rfl
  · split <;> rfl

theorem session_note (I : Interpreter ι) (w : Watch ι) (t : Session ι) (move : SessionMove ι) :
    (w.note I t move).session = t := by
  cases move with
  | step => exact session_step I w t
  | openGate | giveBack =>
    rw [note]
    split <;> rfl
  | _ => rfl

/-- A session that is watched makes a move, if it is possible. -/
def move? (I : Interpreter ι) (w : Watch ι) (move : SessionMove ι) : Option (Watch ι) :=
  (w.session.move? I move).map fun t => w.note I t move

/-- A session that is watched makes moves one after another. -/
def moves? (I : Interpreter ι) (w : Watch ι) (moves : List (SessionMove ι)) : Option (Watch ι) :=
  moves.foldlM (move? I) w

end Watch

/-! ### Sound watches -/

namespace Watch

/-- The watch shows the code of the session, which follows the rules for marks, and the log accounts
for all evaluations and interrupts. -/
structure Sound (settings : Settings) (w : Watch ι) : Prop where
  settings : w.session.settings = settings
  current : w.session.current = w.code.forget
  /-- The code that waits is what the watch takes it to be. -/
  waits : w.session.exchange.waits.map (·.resume) =
    w.suspended.map fun k answer => (k.resume answer).forget
  code : w.code.Disciplined w.suspended.isEmpty (w.evaluation.map (·.heard))
  suspended : ∀ k rest, k :: rest <:+ w.suspended →
    ∀ answer, (k.resume answer).Disciplined rest.isEmpty (k.evaluation.map (·.heard))
  latest : ∀ e, w.evaluation = some e → e.Grounded w.log w.session.exchange.interrupted
  outer : ∀ k ∈ w.suspended, ∀ e, k.evaluation = some e →
    e.Grounded w.log w.session.exchange.interrupted
  /-- Interrupts that have ended evaluations or are owed to some have come. -/
  accounted : w.log.countP Note.isInterrupted + owed w.session.exchange.interrupted
      (w.evaluation.map (·.heard) :: w.suspended.map fun k => k.evaluation.map (·.heard)) ≤
    w.log.count .came
  /-- What has ended with an interrupt has heard of its own. -/
  cancelled : ∀ place began, w.log[place]? = some (.interrupted began) →
    Cancelled w.log place began

namespace Sound

variable {settings : Settings} {w : Watch ι} {t : Session ι} {code : Marked ι Unit}
  {f : Option Evaluation} {notes : List Note}

/-- What happens to the running code keeps the watch sound. -/
theorem update (h : w.Sound settings)
    (occurs : Occurrence w.suspended.isEmpty w.session.exchange.interrupted w.log.length
      w.evaluation t.exchange.interrupted f notes)
    (same : t.settings = w.session.settings)
    (waits : t.exchange.waits = w.session.exchange.waits) (current : t.current = code.forget)
    (follows : code.Disciplined w.suspended.isEmpty (f.map (·.heard))) :
    (⟨t, code, f, w.suspended, w.log ++ notes⟩ : Watch ι).Sound settings where
  settings := same.trans h.settings
  current := current
  waits := waits ▸ h.waits
  code := follows
  suspended := h.suspended
  latest _ latest := occurs.latest h.latest latest
  outer k member e evaluates := occurs.grounded (h.outer k member e evaluates)
  accounted := by
    have accounted := h.accounted
    rw [← List.isEmpty_map (f := fun k => k.evaluation.map (·.heard))] at occurs
    have paid := occurs.owed_le
    simp only [List.countP_append, List.count_append]
    omega
  cancelled _ _ ended := occurs.cancelled h.latest h.cancelled ended

/-- The same where nothing is noted. -/
theorem keep (h : w.Sound settings)
    (occurs : Occurrence w.suspended.isEmpty w.session.exchange.interrupted w.log.length
      w.evaluation t.exchange.interrupted f [])
    (same : t.settings = w.session.settings)
    (waits : t.exchange.waits = w.session.exchange.waits) (current : t.current = code.forget)
    (follows : code.Disciplined w.suspended.isEmpty (f.map (·.heard))) :
    (⟨t, code, f, w.suspended, w.log⟩ : Watch ι).Sound settings := by
  have kept := h.update occurs same waits current follows
  rwa [List.append_nil] at kept

/-- What the running code makes of a reply keeps the watch sound. -/
theorem goOn {r : TaskRequest ι × Option Mark} {next : r.1.Reply → Marked ι Unit}
    {reply : r.1.Reply} (h : w.Sound settings) (running : w.code = .call r next)
    (tells : r.1.Tells w.session.exchange.interrupted reply)
    (same : t.settings = w.session.settings)
    (outlook : t.exchange.outlook = { w.session.exchange.outlook with
      interrupted := r.1.flag w.session.exchange.interrupted })
    (current : t.current = code.forget)
    (follows : code.Disciplined w.suspended.isEmpty
      ((Marked.discipline w.suspended.isEmpty).after (w.evaluation.map (·.heard)) r reply)) :
    (w.goOn t r reply code).Sound settings := by
  have rules := h.code
  rw [running] at rules
  have flag : t.exchange.interrupted = r.1.flag w.session.exchange.interrupted :=
    congrArg Exchange.Outlook.interrupted outlook
  refine h.update ?_ same (congrArg Exchange.Outlook.waits outlook) current ?_
  · rw [flag]
    exact occurrence_of_request rules.1 tells
  · rwa [heard_after w.suspended.isEmpty]

variable {I : Interpreter ι}

/-- Code that asks waits with its evaluation, and no code runs until something is taken up. -/
theorem ask {item : Item} {executor : Executor} {mark : Option Mark}
    {next : Item → Marked ι Unit} (h : w.Sound settings)
    (running : w.code = .call (.code (.ask item executor), mark) next) {resume : Item → Task ι Unit}
    (marked : resume = fun reply => (next reply).forget) :
    (⟨{ w.session with
        exchange := w.session.exchange.ask item ⟨executor, resume⟩, current := .done () },
      .done (), none, ⟨next, w.evaluation⟩ :: w.suspended, w.log⟩ : Watch ι).Sound settings := by
  have rules := h.code
  rw [running] at rules
  have outlook := Exchange.outlook_ask w.session.exchange item (⟨executor, resume⟩ : Wait ι)
  have flag : (w.session.exchange.ask item ⟨executor, resume⟩).interrupted =
      w.session.exchange.interrupted := congrArg Exchange.Outlook.interrupted outlook
  have waits : (w.session.exchange.ask item ⟨executor, resume⟩).waits =
      ⟨executor, resume⟩ :: w.session.exchange.waits := congrArg Exchange.Outlook.waits outlook
  refine ⟨h.settings, rfl, ?_, trivial, ?_, nofun, ?_, ?_, h.cancelled⟩
  · change (w.session.exchange.ask item ⟨executor, resume⟩).waits.map _ = _
    rw [waits, List.map_cons, List.map_cons, h.waits, marked]
  · intro k rest suffix answer
    rcases List.suffix_cons_iff.mp suffix with same | older
    · cases same
      -- A question has no mark, so the rules go on with its answer in the same phase.
      rcases mark with - | ⟨⟩
      · exact rules.2 answer trivial
      all_goals cases rules.1
    · exact h.suspended k rest older answer
  · intro k member e evaluates
    change e.Grounded w.log (w.session.exchange.ask item ⟨executor, resume⟩).interrupted
    rw [flag]
    rcases List.mem_cons.mp member with rfl | older
    · exact h.latest e evaluates
    · exact h.outer k older e evaluates
  · change _ + owed (w.session.exchange.ask item ⟨executor, resume⟩).interrupted _ ≤ _
    rw [flag]
    exact h.accounted

/-- The innermost code that waits goes on, with its evaluation. -/
theorem resume {answer : Item} {wait : Wait ι} {x : Exchange (Wait ι)} (h : w.Sound settings)
    (woke : w.session.exchange.wakeUp = some (.resume answer wait, x)) :
    ∃ top rest, w.suspended = top :: rest ∧
      (⟨{ w.session with exchange := x, current := wait.resume answer }, top.resume answer,
        top.evaluation, rest, w.log⟩ : Watch ι).Sound settings := by
  have outlook := Exchange.outlook_wakeUp woke
  have flag : w.session.exchange.interrupted = x.interrupted :=
    congrArg Exchange.Outlook.interrupted outlook
  have waits : w.session.exchange.waits = wait :: x.waits :=
    congrArg Exchange.Outlook.waits outlook
  -- What goes on is what the watch has as the innermost.
  have shown := h.waits
  rw [waits, List.map_cons] at shown
  obtain ⟨top, rest, stack, resumes, others⟩ := List.map_eq_cons_iff.mp shown.symm
  refine ⟨top, rest, stack, h.settings, congrFun resumes.symm answer, others.symm, ?_, ?_, ?_, ?_,
    ?_, h.cancelled⟩
  · exact h.suspended top rest (stack ▸ List.suffix_refl _) answer
  · intro k below suffix
    refine h.suspended k below ?_
    rw [stack]
    exact suffix.trans (List.suffix_cons top rest)
  · intro e evaluates
    change e.Grounded w.log x.interrupted
    rw [← flag]
    exact h.outer top (by simp [stack]) e evaluates
  · intro k member e evaluates
    change e.Grounded w.log x.interrupted
    rw [← flag]
    exact h.outer k (by simp [stack, member]) e evaluates
  · have accounted := h.accounted
    rw [stack, List.map_cons, flag] at accounted
    exact Nat.le_trans (Nat.add_le_add_left owed_tail_le _) accounted

/-- Each step of the engine keeps the watch sound. The watch shows the code of the session, so the
step is a request of the marked code, or the marked code has ended as well. -/
theorem step (h : w.Sound settings) (heeds : I.Heeds settings.limits)
    (step : w.session.Step I t) : (w.step I t).Sound settings := by
  have rules := h.code
  have heeds : I.Heeds w.session.settings.limits := h.settings.symm ▸ heeds
  cases step with
  | @perform r next reply u running performed =>
    obtain ⟨mark, marked, code, rfl⟩ := Marked.call_of_forget (h.current.symm.trans running)
    obtain ⟨same, outlook⟩ := Session.outlook_perform performed
    rw [Watch.step, code]
    simp only [performed]
    rw [code] at rules
    refine h.goOn code (Session.tells_of_perform performed) same outlook rfl ?_
    exact rules.2 reply trivial
  | @ask item executor next running goesOn =>
    obtain ⟨mark, marked, code, same⟩ := Marked.call_of_forget (h.current.symm.trans running)
    have held : w.session.perform (.code (.ask item executor)) = none := by
      rw [Session.perform, goesOn]
      rfl
    rw [Watch.step, code]
    simp only [held]
    exact h.ask code same
  | @turn prompt next running =>
    obtain ⟨mark, marked, code, rfl⟩ := Marked.call_of_forget (h.current.symm.trans running)
    rw [Watch.step, code]
    rw [code] at rules
    refine h.goOn code trivial rfl rfl (Marked.forget_turn I prompt marked).symm ?_
    -- Only the outermost code is a console, so that no evaluation is around that of a line.
    rcases mark with - | ⟨⟩
    · have outermost : w.suspended.isEmpty = true := rules.1
      rw [outermost]
      exact Marked.follows_turn heeds prompt (outermost ▸ rules.2 () trivial)
    all_goals cases rules.1
  | @resume answer wait x ended woke =>
    have code := Marked.done_of_forget (h.current.symm.trans ended)
    obtain ⟨top, rest, stack, sound⟩ := h.resume woke
    rw [Watch.step, code]
    simp only [woke, stack]
    exact sound
  | @execute request wait x ended woke =>
    have code := Marked.done_of_forget (h.current.symm.trans ended)
    have outlook := Exchange.outlook_wakeUp woke
    have flag : x.interrupted = w.session.exchange.interrupted :=
      (congrArg Exchange.Outlook.interrupted outlook).symm
    rw [Watch.step, code]
    simp only [woke]
    refine h.keep ?_ rfl (congrArg Exchange.Outlook.waits outlook).symm
      (Marked.forget_serve I _ wait.executor request).symm
      (Marked.follows_serve heeds wait.executor request)
    change Occurrence _ _ _ _ x.interrupted none []
    rw [flag]
    exact .finishes
  | @drop x ended woke =>
    have code := Marked.done_of_forget (h.current.symm.trans ended)
    have outlook := Exchange.outlook_wakeUp woke
    have flag : x.interrupted = w.session.exchange.interrupted :=
      (congrArg Exchange.Outlook.interrupted outlook).symm
    rw [Watch.step, code]
    simp only [woke]
    exact h.keep (.nothing (.inr flag)) rfl (congrArg Exchange.Outlook.waits outlook).symm ended
      trivial

/-- Each move keeps the watch sound. -/
theorem note {move : SessionMove ι} (h : w.Sound settings) (heeds : I.Heeds settings.limits)
    (moved : w.session.Moved I move t) : (w.note I t move).Sound settings := by
  have rules := h.code
  cases moved with
  | step step => exact h.step heeds step
  | @enter call ended free =>
    have heeds : I.Heeds w.session.settings.limits := h.settings.symm ▸ heeds
    -- The free engine has asked nothing, so no code waits.
    have alone : w.suspended = [] := by
      have shown := h.waits
      rw [Exchange.waits, free] at shown
      exact List.map_eq_nil_iff.mp shown.symm
    refine h.keep .finishes rfl rfl (EngineCall.forget_marked I _ call).symm ?_
    rw [alone]
    exact EngineCall.follows_marked heeds call
  | @aside item wait =>
    refine h.keep (.nothing (.inr rfl)) rfl rfl ?_ ?_
    · rw [Job.bind_eq, Marked.forget_bind, Marked.forget_of, ← h.current]
      rfl
    · cases wait with
      | true => exact ⟨trivial, fun _ _ => ⟨trivial, fun _ _ => rules⟩⟩
      | false => exact ⟨trivial, fun _ _ => rules⟩
  | @openGate gate next held =>
    obtain ⟨mark, marked, code, rfl⟩ := Marked.call_of_forget (h.current.symm.trans held)
    rw [Watch.note, code]
    rw [code] at rules
    exact h.goOn code trivial rfl rfl rfl (rules.2 () trivial)
  | @giveBack request reply next held =>
    obtain ⟨mark, marked, code, rfl⟩ := Marked.call_of_forget (h.current.symm.trans held)
    rw [Watch.note, code]
    rw [code] at rules
    exact h.goOn code trivial rfl rfl rfl (rules.2 reply trivial)
  | @outside move =>
    have outlook := move.outlook_apply w.session.exchange
    have flag : (move.apply w.session.exchange).interrupted =
        move.flag w.session.exchange.interrupted := congrArg Exchange.Outlook.interrupted outlook
    refine h.update ?_ rfl (congrArg Exchange.Outlook.waits outlook) h.current rules
    change Occurrence _ _ _ _ (move.apply w.session.exchange).interrupted _ _
    rw [flag]
    exact occurrence_of_move move
  | change => exact h.keep (.nothing (.inr rfl)) rfl rfl h.current rules

end Sound

theorem moves?_concat (I : Interpreter ι) (w : Watch ι) (moves : List (SessionMove ι))
    (move : SessionMove ι) :
    w.moves? I (moves ++ [move]) = (w.moves? I moves).bind fun v => v.move? I move := by
  simp [moves?]

theorem sound_start (settings : Settings) (state : ι) : (start settings state).Sound settings where
  settings := rfl
  current := rfl
  waits := rfl
  code := trivial
  suspended k rest suffix := absurd suffix (by simp [start])
  latest := nofun
  outer := nofun
  accounted := Nat.le_refl 0
  cancelled place began ended := by simp [start] at ended

end Watch

namespace Session

variable {I : Interpreter ι} {s : Session ι}

/-- Every course can be watched, and the watch is sound. -/
theorem watch_of_course {settings : Settings} {state : ι} {moves : List (SessionMove ι)}
    (heeds : I.Heeds settings.limits)
    (course : (start settings state).moves? I moves = some s) :
    ∃ w, (Watch.start settings state).moves? I moves = some w ∧ w.session = s ∧
      w.Sound settings := by
  refine moves?_induction (P := fun moves s =>
    ∃ w, (Watch.start settings state).moves? I moves = some w ∧ w.session = s ∧ w.Sound settings)
    ⟨_, rfl, rfl, Watch.sound_start settings state⟩ ?_ course
  rintro moves t move u ⟨w, watch, rfl, sound⟩ moved
  refine ⟨w.note I u move, ?_, ?_, sound.note heeds (moved_of_move? moved)⟩
  · rw [Watch.moves?_concat, watch, Option.bind_some, Watch.move?, moved]
    rfl
  · exact w.session_note I u move

/-- One interrupt cancels at most one evaluation: in every course, with evaluations nested in any
way and interrupts at any time, the log of the watch has no more data requests and lines that end
with an interrupt than interrupts that came. Each of them has heard of an interrupt that came after
it began, so that one from before never cancels it. -/
theorem cancels_at_most_one {settings : Settings} {state : ι} {moves : List (SessionMove ι)}
    (heeds : I.Heeds settings.limits)
    (course : (start settings state).moves? I moves = some s) :
    ∃ w, (Watch.start settings state).moves? I moves = some w ∧ w.session = s ∧
      w.code.forget = s.current ∧ w.log.countP Note.isInterrupted ≤ w.log.count .came ∧
      ∀ place began, w.log[place]? = some (.interrupted began) → Cancelled w.log place began := by
  obtain ⟨w, watch, rfl, sound⟩ := watch_of_course heeds course
  exact ⟨w, watch, rfl, sound.current.symm,
    Nat.le_trans (Nat.le_add_right _ _) sound.accounted, sound.cancelled⟩

/-! ### Nested evaluations -/

/-- An interpreter that asks before it evaluates anything, and then looks for an interrupt. -/
def patient : Interpreter Unit where
  parse _ := pure 1
  eval expr _ := do
    let question : EvalRequest Unit :=
      .ask (.new SlotId.primary (.consoleRead "? " false)) .session
    let _ ← ExceptT.lift (Job.request (A := EvalRequest.Reply) question)
    if ← ExceptT.lift Eval.isInterrupted then throw .interrupted
    return expr
  assign _ _ := pure ()
  inspector :=
    { attr? := fun _ _ => pure none, attrs := fun _ => pure [], view := fun _ => pure .null }
  create _ := pure 1
  debugBackend _ := none

theorem patient_heeds (L : Limits) : patient.Heeds L := by
  have reading (shapeOnly heard : Bool) (h : Handle) :
      (Task.readValue patient L shapeOnly h).run.Follows Task.hearing Task.Justified heard := by
    by_cases null : h = 0
    · subst null
      exact ⟨trivial, fun _ _ => ⟨trivial, fun _ _ => Task.justified_error (by decide)⟩⟩
    · have read : patient.inspector.read L shapeOnly h = pure .null := if_neg null
      rw [Task.readValue, read]
      exact ⟨trivial, fun _ _ => ⟨trivial, fun _ _ => Task.justified_ok _⟩⟩
  intro r
  cases r with
  | evalVoid expr =>
    refine ⟨trivial, fun _ _ => ⟨trivial, fun interrupted _ => ?_⟩⟩
    cases interrupted with
    | false => exact Task.justified_ok _
    | true => exact fun _ => rfl
  | evalData expr | evalShape expr =>
    refine ⟨trivial, fun _ _ => ⟨trivial, fun interrupted _ => ?_⟩⟩
    cases interrupted with
    | false => exact reading _ _ 1
    | true => exact fun _ => rfl
  | resolveData handle | resolveShape handle => exact reading _ _ handle
  | assign target value =>
    have created : patient.createWhole value =
        if value.hasShape then throw (.wire .shapeOnly) else pure 1 := rfl
    rw [Task.serveData, created]
    split
    · exact ⟨trivial, fun _ _ => ⟨trivial, fun _ _ => Task.justified_error (by decide)⟩⟩
    · exact ⟨trivial, fun _ _ => ⟨trivial, fun _ _ => Task.justified_ok _⟩⟩

/-- An answer to a question of the console or of the interpreter. -/
def answerTo (id : RequestId) : Item :=
  ⟨SlotId.primary, some id, .consoleRead "" false, some (.text "x")⟩

/-- While a line waits for an answer, a request of the client is executed, and then both are
interrupted. The first interrupt comes before the request begins and is lost. -/
def nestedInterrupts : List (SessionMove Unit) :=
  let call (item : Item) (id : CallId) : List (SessionMove Unit) :=
    [.outside (.coordinate 9), .outside (.call SlotId.primary ⟨1⟩ [item] id),
      .outside (.coordinate 9)]
  [.outside (.connect SlotId.primary 0), .outside (.coordinate 1), .enter (.console "> "), .step,
      .step, .step] ++
    call (answerTo 1) 1 ++ [.step, .step, .step, .step, .outside .interrupt] ++
    call ⟨SlotId.primary, some 7, .data (.evalVoid "x"), none⟩ 2 ++
    [.step, .step, .step, .outside .interrupt] ++
    call (answerTo 3) 3 ++ [.step, .step, .step, .step, .outside .interrupt] ++
    call (answerTo 2) 4 ++ [.step, .step, .step, .step]

/-- Two evaluations that end with an interrupt, each with its own. -/
theorem cancels_at_most_one_nested : patient.Heeds ({} : Settings).limits ∧
    ∃ s, (start {} ()).moves? patient nestedInterrupts = some s ∧
      ∃ w, (Watch.start {} ()).moves? patient nestedInterrupts = some w ∧ w.session = s ∧
        w.log = [.began, .came, .began, .came, .heard 2, .interrupted (some 2), .came, .heard 0,
          .interrupted (some 0)] ∧
        w.log.countP Note.isInterrupted ≤ w.log.count .came ∧ Cancelled w.log 5 (some 2) ∧
        Cancelled w.log 8 (some 0) := by
  obtain ⟨s, course⟩ : ∃ s, (start {} ()).moves? patient nestedInterrupts = some s := ⟨_, rfl⟩
  obtain ⟨w, watch, shows, -, count, cancelled⟩ := cancels_at_most_one (patient_heeds _) course
  obtain ⟨v, computed, log⟩ : ∃ v, (Watch.start {} ()).moves? patient nestedInterrupts = some v ∧
      v.log = [.began, .came, .began, .came, .heard 2, .interrupted (some 2), .came, .heard 0,
        .interrupted (some 0)] := ⟨_, rfl, rfl⟩
  obtain rfl : v = w := Option.some.inj (computed.symm.trans watch)
  exact ⟨patient_heeds _, s, course, v, watch, shows, log, count,
    cancelled 5 (some 2) (by rw [log]; rfl), cancelled 8 (some 0) (by rw [log]; rfl)⟩

end Session

end EngineLink
