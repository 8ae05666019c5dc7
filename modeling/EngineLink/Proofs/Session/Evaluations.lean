import EngineLink.Proofs.Session.Marks
import EngineLink.Proofs.Session.Rules

/-!
# Evaluations that heed interrupts

An interpreter heeds interrupts if the code of a data request or a line ends with an interrupt only
after it has found out itself that one was requested. With such an interpreter the code of the
session marks the end of an evaluation by an interrupt only then, and only one that began there.

## Main definitions

* `Interpreter.Heeds` — interrupts end only evaluations that have heard of one
* `Marked.discipline` — the rules for marks: begin, hear of an interrupt, and only then end with one

## Main results

* `Marked.follows_serve`, `Marked.follows_turn`, `EngineCall.follows_marked` — the code of the
  session follows the rules
-/

namespace EngineLink

variable {ι α : Type}

/-- How code learns of interrupts: from its own look at whether one has been requested. -/
def Task.hearing : Job.Rules (TaskRequest ι) TaskRequest.Reply Bool where
  allowed _ _ := True
  after
    | heard, .code .isInterrupted, interrupted => heard || interrupted
    | heard, _, _ => heard

/-- Code has heard of an interrupt if its result is that it was interrupted. -/
def Task.Justified (heard : Bool) (result : Except EvalFault α) : Prop :=
  result = .error .interrupted → heard = true

theorem Task.justified_ok {heard : Bool} (a : α) : Justified heard (.ok a) :=
  fun interrupted => by cases interrupted

theorem Task.justified_error {heard : Bool} {fault : EvalFault} (other : fault ≠ .interrupted) :
    Justified heard (.error fault : Except EvalFault α) :=
  fun interrupted => absurd (Except.error.inj interrupted) other

/-- The code of a data request ends with an interrupt only after it has found out itself that one
was requested. What a nested evaluation finds out does not count. -/
def Interpreter.Heeds (I : Interpreter ι) (L : Limits) : Prop :=
  ∀ r, (Task.serveData I L r).run.Follows Task.hearing Task.Justified false

namespace Marked

/-- Rules for marks. The phase is the latest evaluation of the code, if it has not ended with an
interrupt, with whether it has heard of one. Only the outermost code can be a console, which
forgets nothing when a line ends with an interrupt because it could not be parsed. -/
def discipline (outermost : Bool) :
    Job.Rules (TaskRequest ι × Option Mark) (fun r => r.1.Reply) (Option Bool) where
  allowed
    | _, (.clearInterrupt, some .begins) => True
    | p, (.clearInterrupt, some .interrupted) => p = some true
    | p, (.tell _, some .interrupted) => outermost = true ∧ p = some true
    | _, (_, some _) => False
    | _, (.console _, none) => outermost = true
    | _, (_, none) => True
  after
    | _, (_, some .begins), _ => some false
    | _, (_, some .interrupted), _ => none
    | p, (.code .isInterrupted, none), interrupted => p.map (· || interrupted)
    | _, (.console _, none), _ => none
    | p, (_, none), _ => p

/-- Code that follows the rules from a phase on. -/
abbrev Disciplined (outermost : Bool) (p : Option Bool) (j : Marked ι α) : Prop :=
  j.Follows (discipline outermost) (fun _ _ => True) p

variable {outermost : Bool}

/-- Code of an evaluation hears of interrupts. -/
theorem follows_of_code {j : Task ι α} {Q : Bool → α → Prop} {heard : Bool}
    (code : j.Only TaskRequest.IsCode) (h : j.Follows Task.hearing Q heard) :
    (of j).Follows (discipline outermost) (fun p a => ∃ heard, p = some heard ∧ Q heard a)
      (some heard) := by
  induction j generalizing heard with
  | done a => exact ⟨heard, rfl, h⟩
  | call r next ih =>
    cases r with
    | code q =>
      refine ⟨trivial, fun reply _ => ?_⟩
      have rest := ih reply (code.2 reply trivial) (h.2 reply trivial)
      cases q <;> exact rest
    | _ => cases code.1

/-- Outside of evaluations code without marks starts none. -/
theorem follows_of_plain {j : Task ι α} (plain : j.Only TaskRequest.IsPlain) :
    (of j).Follows (discipline outermost) (fun p _ => p = none) none := by
  induction j with
  | done a => rfl
  | call r next ih =>
    have rest (reply : r.Reply) := ih reply (plain.2 reply trivial)
    cases r with
    | code q =>
      refine ⟨trivial, fun reply _ => ?_⟩
      cases q <;> exact rest reply
    | console => cases plain.1
    | _ => exact ⟨trivial, fun reply _ => rest reply⟩

/-- An interrupt that is forgotten after an evaluation changes nothing for its code. -/
theorem follows_settleInterrupt {p : Option Bool} (result : Except EvalFault α) :
    (of (Task.settleInterrupt result : Task ι Unit)).Follows (discipline outermost)
      (fun q _ => q = p) p := by
  unfold Task.settleInterrupt
  split
  · exact ⟨trivial, fun _ _ => rfl⟩
  · exact rfl

/-! ### Evaluations -/

variable {I : Interpreter ι} {L : Limits} (heeds : I.Heeds L)
include heeds

theorem follows_data (r : DataRequest) (p : Option Bool) :
    (data I L r).Disciplined outermost p := by
  refine ⟨trivial, fun _ _ => ?_⟩
  refine Job.Follows.bind (j := of _) (follows_of_code (Task.only_serveData I L r) (heeds r))
    fun p result known => ?_
  obtain ⟨heard, rfl, knows⟩ := known
  rcases result with (_ | _ | _ | _ | _ | _) | answer
  case error.interrupted => exact ⟨congrArg some (knows rfl), fun _ _ => trivial⟩
  all_goals trivial

theorem follows_answer (kind : ItemKind) : (answer I L kind).Disciplined outermost none := by
  cases kind with
  | data r =>
    refine (follows_data heeds r none).bind fun p result _ => ?_
    cases result <;> trivial
  | debug command =>
    refine (follows_of_plain ?_).mono fun _ _ _ => trivial
    refine (Task.only_debug I command).bind fun result => ?_
    rcases result with fault | - | reply <;> exact Task.only_pure _
  | _ => trivial

theorem follows_dispatch (item : Item) : (dispatch I L item).Disciplined outermost none :=
  (follows_answer heeds item.kind).bind fun _ _ _ => trivial

theorem follows_serve (executor : Executor) (item : Item) :
    (serve I L executor item).Disciplined outermost none := by
  cases executor with
  | session => exact (follows_dispatch heeds item).bind fun _ _ _ => ⟨trivial, fun _ _ => trivial⟩
  | outside => exact ⟨trivial, fun _ _ => ⟨trivial, fun _ _ => trivial⟩⟩

/-- A line is evaluated like a data request for nothing but the evaluation. -/
theorem follows_evalCode (line : String) (p : Option Bool) :
    (evalCode I line).Follows (discipline outermost)
      (fun p result => result = .error .interrupted → p = some true) p := by
  refine ⟨trivial, fun _ _ => ?_⟩
  -- The code of the request splits into parsing the line and evaluating what has been parsed.
  have whole := heeds (.evalVoid line)
  have parsing := Job.Follows.bind_iff.mp (Job.Follows.bind_iff.mp whole)
  refine Job.Follows.bind (j := of _)
    (follows_of_code (Task.only_ofFallible (I.parse line)) parsing) fun p parsed known => ?_
  obtain ⟨heard, rfl, onward⟩ := known
  cases parsed with
  | error fault =>
    rintro ⟨⟩
    exact congrArg some (onward rfl)
  | ok expr =>
    refine Job.Follows.bind (j := of _)
      (follows_of_code (Task.only_ofFallible (I.eval expr none)) onward) fun p result known => ?_
    obtain ⟨heard, rfl, knows⟩ := known
    refine (follows_settleInterrupt result).bind fun q _ same => ?_
    subst same
    cases result with
    | error fault =>
      rintro ⟨⟩
      exact congrArg some (knows rfl)
    | ok value => exact fun interrupted => by cases interrupted

theorem follows_consoleTurn (prompt : String) :
    (consoleTurn I prompt).Follows (discipline true) (fun p stops => stops = true → p = none)
      none := by
  refine ⟨trivial, fun _ _ => ?_⟩
  refine Job.Follows.bind (j := of (Task.readLine prompt true))
    (follows_of_plain (Task.only_readLine prompt true)) fun p line known => ?_
  subst known
  cases line with
  | error status => exact fun _ => rfl
  | ok line =>
    refine ⟨trivial, fun _ _ => ?_⟩
    have evaluated : (evalLine I line).Follows (discipline true)
        (fun p result => result = .error .interrupted → p = some true) none := by
      rw [evalLine]
      split
      · exact fun interrupted => by cases interrupted
      · exact follows_evalCode heeds line none
    refine Job.Follows.bind (j := evalLine I line) evaluated fun p result known => ?_
    rcases result with (_ | _ | _ | _ | _ | _) | value
    case error.interrupted =>
      exact ⟨⟨rfl, known rfl⟩, fun _ _ stops => absurd stops Bool.false_ne_true⟩
    case ok => exact fun stops => absurd stops Bool.false_ne_true
    all_goals exact ⟨trivial, fun _ _ stops => absurd stops Bool.false_ne_true⟩

theorem follows_turn (prompt : String) {next : Unit → Marked ι Unit}
    (h : (next ()).Disciplined true none) : (turn I prompt next).Disciplined true none := by
  refine (follows_consoleTurn heeds prompt).bind fun p stops known => ?_
  cases stops with
  | true =>
    obtain rfl := known rfl
    exact h
  | false => exact ⟨rfl, fun _ _ => h⟩

end Marked

/-- A call into the free engine. -/
theorem EngineCall.follows_marked {I : Interpreter ι} {L : Limits} (heeds : I.Heeds L)
    (call : EngineCall) : (call.marked I L).Disciplined true none := by
  have reported {α : Type} {j : Task ι α} {r : α → Report} (h : j.Only TaskRequest.IsPlain)
      (plain : ∀ a, (TaskRequest.report (r a) : TaskRequest ι).IsPlain) :
      (Marked.of (j >>= fun a => Task.report (r a))).Disciplined true none := by
    have whole : (j >>= fun a => Task.report (r a)).Only TaskRequest.IsPlain :=
      h.bind fun a => Task.only_request (plain a)
    exact (Marked.follows_of_plain whole).mono fun _ _ _ => trivial
  cases call with
  | tell item => exact ⟨trivial, fun _ _ => trivial⟩
  | ask item => exact ⟨trivial, fun _ _ => ⟨trivial, fun _ _ => trivial⟩⟩
  | readLine prompt addToHistory =>
    exact reported (Task.only_readLine prompt addToHistory) fun _ => trivial
  | extUi name arg wait => exact reported (Task.only_extUi name arg wait) fun _ => trivial
  | console prompt => exact ⟨rfl, fun _ _ => ⟨trivial, fun _ _ => trivial⟩⟩
  | dispatch item =>
    exact (Marked.follows_dispatch heeds item).bind fun _ _ _ => ⟨trivial, fun _ _ => trivial⟩
  | reach path elementId id environment =>
    exact reported (Task.only_reach I path elementId id environment) fun _ => trivial

end EngineLink
