import EngineLink.Session.Console

/-!
# Rules that code follows

What a session guarantees often rests on what its code requests, and when. Rules say which requests
are allowed, which replies can come, and how a request and its reply change what is allowed later.
Code follows rules if it does so whatever replies come, and a part of it can be looked at alone.

## Main definitions

* `Job.Rules` — requests that are allowed in a phase, and the phase after them
* `Job.Follows` — code follows rules, and ends in a phase and with a result as expected
* `TaskRequest.IsCode` — requests of running code

## Main results

* `Job.Follows.bind` — code that goes on with a result follows rules part by part
* `Task.only_serveData` — a data request asks for nothing but what running code asks for
-/

namespace EngineLink

namespace Job

/-- Rules for requests `R` with replies `A`, in phases `σ`. -/
structure Rules (R : Type) (A : R → Type) (σ : Type) where
  allowed : σ → R → Prop
  /-- The replies that can come. -/
  replies : (r : R) → A r → Prop := fun _ _ => True
  after : σ → (r : R) → A r → σ

variable {R : Type} {A : R → Type} {σ α β ε : Type} {T : Rules R A σ}

/-- From a phase on, a job makes only requests that are allowed, and when it ends, its result is as
expected in the phase that it has come to. -/
def Follows (T : Rules R A σ) (Q : σ → α → Prop) : σ → Job R A α → Prop
  | s, .done a => Q s a
  | s, .call r next =>
    T.allowed s r ∧ ∀ reply, T.replies r reply → Follows T Q (T.after s r reply) (next reply)

namespace Follows

variable {P Q : σ → α → Prop} {s : σ} {j : Job R A α} {r : R}

theorem mono (h : j.Follows T P s) (h' : ∀ s a, P s a → Q s a) : j.Follows T Q s := by
  induction j generalizing s with
  | done a => exact h' s a h
  | call r next ih => exact ⟨h.1, fun reply comes => ih reply (h.2 reply comes)⟩

/-- A job followed by another follows rules exactly if it comes only to phases and results from
which the other does. -/
theorem bind_iff {Q : σ → β → Prop} {f : α → Job R A β} :
    (j.bind f).Follows T Q s ↔ j.Follows T (fun s a => (f a).Follows T Q s) s := by
  induction j generalizing s with
  | done a => rfl
  | call r next ih => exact and_congr_right' (forall₂_congr fun reply _ => ih reply)

theorem bind {Q : σ → β → Prop} {f : α → Job R A β} (h : j.Follows T P s)
    (h' : ∀ s a, P s a → (f a).Follows T Q s) : (j.bind f).Follows T Q s :=
  bind_iff.mpr (h.mono h')

theorem request (allowed : T.allowed s r) :
    (Job.request r : Job R A (A r)).Follows T
      (fun s' reply => T.replies r reply ∧ s' = T.after s r reply) s :=
  ⟨allowed, fun _ comes => ⟨comes, rfl⟩⟩

/-- Code that may fail goes on with a result, and ends with a fault. -/
theorem bindExcept {f : ExceptT ε (Job R A) α} {g : α → ExceptT ε (Job R A) β}
    {P : σ → Except ε α → Prop} {Q : σ → Except ε β → Prop} (h : f.run.Follows T P s)
    (ok : ∀ s a, P s (.ok a) → (g a).run.Follows T Q s)
    (error : ∀ s e, P s (.error e) → Q s (.error e)) : (f >>= g).run.Follows T Q s := by
  refine Follows.bind h fun s result known => ?_
  cases result with
  | ok a => exact ok s a known
  | error e => exact error s e known

end Follows

end Job

variable {ι α β : Type}

/-! ### Kinds of requests -/

namespace TaskRequest

/-- A request of running code. -/
def IsCode : TaskRequest ι → Prop
  | code _ => True
  | _ => False

/-- A request that has to do neither with interrupts of evaluations nor with the end of the
console. -/
def IsPlain : TaskRequest ι → Prop
  | clearInterrupt | console _ | report .consoleEnded => False
  | _ => True

theorem IsCode.isPlain {r : TaskRequest ι} (h : r.IsCode) : r.IsPlain := by
  cases r with
  | code q => trivial
  | _ => cases h

end TaskRequest

namespace Task

open TaskRequest

/-- The job makes only requests of a kind, whatever replies come. -/
def Only (p : TaskRequest ι → Prop) (j : Task ι α) : Prop :=
  j.Follows { allowed := fun _ r => p r, after := fun _ _ _ => () } (fun _ _ => True) ()

variable {p q : TaskRequest ι → Prop} {j : Task ι α} {f : α → Task ι β}

theorem only_pure (a : α) : (pure a : Task ι α).Only p := trivial

theorem only_request {r : TaskRequest ι} (h : p r) : (request r).Only p := ⟨h, fun _ _ => trivial⟩

theorem Only.bind (h : j.Only p) (h' : ∀ a, (f a).Only p) : (j >>= f).Only p :=
  Job.Follows.bind h fun _ a _ => h' a

theorem Only.map (h : j.Only p) (k : α → β) : (k <$> j).Only p := h.bind fun a => only_pure (k a)

theorem Only.mono (h : j.Only p) (h' : ∀ r, p r → q r) : j.Only q := by
  induction j with
  | done a => trivial
  | call r next ih => exact ⟨h' r h.1, fun reply _ => ih reply (h.2 reply trivial)⟩

/-- Code that may fail makes only requests of a kind if each part of it does. -/
theorem Only.bindExcept {f : ExceptT EvalFault (Task ι) α}
    {g : α → ExceptT EvalFault (Task ι) β} (h : f.run.Only p) (h' : ∀ a, (g a).run.Only p) :
    (f >>= g).run.Only p :=
  Job.Follows.bindExcept h (fun _ a _ => h' a) fun _ _ _ => trivial

/-! ### Code of the session -/

theorem only_ofEval (code : Eval ι α) : (ofEval code).Only IsCode := by
  induction code with
  | done a => trivial
  | call q next ih => exact ⟨trivial, fun reply _ => ih reply⟩

theorem only_ofFallible (code : ExceptT EvalFault (Eval ι) α) :
    (ofFallible code).run.Only IsCode :=
  only_ofEval code.run

variable (I : Interpreter ι) (L : Limits)

theorem only_evalText (text : String) : (evalText I text).run.Only IsCode :=
  (only_ofFallible (I.parse text)).bindExcept fun expr => only_ofFallible (I.eval expr none)

theorem only_readValue (shapeOnly : Bool) (h : Handle) :
    (readValue I L shapeOnly h).run.Only IsCode := by
  rw [readValue, ExceptT.run_map]
  exact (only_ofFallible _).map _

/-- All that a data request asks for is what running code asks for. -/
theorem only_serveData (r : DataRequest) : (serveData I L r).run.Only IsCode := by
  cases r with
  | evalVoid expr => exact (only_evalText I expr).bindExcept fun _ => only_pure _
  | evalData expr => exact (only_evalText I expr).bindExcept fun h => only_readValue I L false h
  | evalShape expr => exact (only_evalText I expr).bindExcept fun h => only_readValue I L true h
  | resolveData handle => exact only_readValue I L false handle
  | resolveShape handle => exact only_readValue I L true handle
  | assign target value =>
    exact (only_ofFallible _).bindExcept fun handle =>
      (only_ofFallible (I.assign target handle)).bindExcept fun _ => only_pure _

theorem only_ask (kind : ItemKind) : (ask kind : Task ι Answer).Only IsPlain :=
  Only.bind (only_request (p := IsPlain) trivial) fun _ => only_pure _

theorem only_tell (kind : ItemKind) : (tell kind : Task ι Unit).Only IsPlain :=
  only_request (p := IsPlain) trivial

theorem only_readLine (prompt : String) (addToHistory : Bool) :
    (readLine prompt addToHistory : Task ι (Except Status String)).Only IsPlain := by
  refine (only_ask _).bind fun answer => ?_
  cases answer <;> exact only_pure _

theorem only_extUi (name : String) (arg : Option Value) (wait : Bool) :
    (extUi name arg wait : Task ι (Option Answer)).Only IsPlain := by
  rw [extUi]
  split
  · exact (only_ask _).map some
  · exact (only_tell _).bind fun _ => only_pure none

theorem only_debug (command : DebugCommand) : (debug I command).Only IsPlain := by
  refine Only.bind (only_request (p := IsPlain) trivial) fun debugger => ?_
  refine Only.bind (only_request (p := IsPlain) trivial) fun state => ?_
  refine Only.bind (only_request (p := IsPlain) trivial) fun _ => ?_
  exact Only.bind (only_request (p := IsPlain) trivial) fun _ => only_pure _

theorem only_reach (path elementId : String) (id : Int64) (environment : Option Handle) :
    (reach I path elementId id environment).Only IsPlain := by
  refine Only.bind (only_request (p := IsPlain) trivial) fun debugger => ?_
  have hit := only_ofEval (I.hit debugger.registry path elementId id environment)
  refine (hit.mono fun _ => IsCode.isPlain).bind fun (event, registry) => ?_
  refine Only.bind (only_request (p := IsPlain) trivial) fun _ => ?_
  cases event with
  | none => exact only_pure false
  | some event => exact (only_tell _).bind fun _ => only_pure true

end Task

end EngineLink
