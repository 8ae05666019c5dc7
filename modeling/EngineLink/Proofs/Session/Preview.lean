import EngineLink.Proofs.Engine.Preview
import EngineLink.Proofs.Session.Replies

/-!
# Previews of values

A client can ask for the shape of a value before it asks for the value. Both requests are executed
in the same way up to the last step, which gives the shape in place of the value: they ask the same
of the interpreter, of clients and of the outside, they fail with the same faults, and the shape is
that of the value.

## Main definitions

* `Answer.preview` — the answer with the shape of its value

## Main results

* `Task.readValue_shape`, `Task.data_evalShape`, `Task.data_resolveShape` — the request of a shape
  is executed as the request of the value
* `Task.preview_agrees` — shapes agree with values, for objects and for requests
-/

namespace EngineLink

/-- The answer with the shape of its value. -/
def Answer.preview : Answer → Answer
  | value v => value v.toShape
  | a => a

variable {ι α β : Type}

/-! ### Changes of results -/

theorem Eval.ofState_map (k : α → β) (f : StateM ι α) :
    Eval.ofState (k <$> f) = k <$> Eval.ofState f := by
  simp only [Eval.ofState, map_bind]
  rfl

theorem Eval.ofFallible_map (k : α → β) (f : ExceptT EvalFault (StateM ι) α) :
    Eval.ofFallible (k <$> f) = k <$> Eval.ofFallible f := by
  apply ExceptT.ext
  rw [ExceptT.run_map]
  simp only [Eval.ofFallible, ExceptT.run_map, ExceptT.run_mk, Eval.ofState_map]

namespace Task

theorem ofEval_map (k : α → β) (code : Eval ι α) : ofEval (k <$> code) = k <$> ofEval code := by
  -- A change of the result is a second part of the code that asks for nothing.
  have parts := Job.interpret_bind (fun r => request (TaskRequest.code r)) code
    fun a => Job.done (k a)
  rw [map_eq_pure_bind (x := ofEval code)]
  exact parts

theorem ofFallible_map (k : α → β) (code : ExceptT EvalFault (Eval ι) α) :
    ofFallible (k <$> code) = k <$> ofFallible code := by
  apply ExceptT.ext
  rw [ExceptT.run_map]
  simp only [ofFallible, ExceptT.run_map, ExceptT.run_mk, ofEval_map]

theorem ofObjects_map (k : α → β) (f : ExceptT EvalFault (StateM ι) α) :
    ofObjects (k <$> f) = k <$> ofObjects f := by
  rw [ofObjects, Eval.ofFallible_map, ofFallible_map, ofObjects]

/-! ### Requests -/

variable (I : Interpreter ι) (L : Limits)

theorem readValue_shape (h : Handle) :
    readValue I L true h = Answer.preview <$> readValue I L false h := by
  rw [readValue, readValue, Inspector.read_shape, ofObjects_map, Functor.map_map, Functor.map_map]
  rfl

theorem settleInterrupt_map (k : α → β) (result : Except EvalFault α) :
    (settleInterrupt (result.map k) : Task ι Unit) = settleInterrupt result := by
  cases result with
  | ok a => rfl
  | error fault => cases fault <;> rfl

/-- Requests whose execution gives results that correspond. -/
theorem data_map {shape whole : DataRequest} {k : Answer → Answer}
    (served : serveData I L shape = k <$> serveData I L whole) :
    data I L shape = Except.map k <$> data I L whole := by
  simp only [data, served, ExceptT.run_map, map_bind, bind_map_left, settleInterrupt_map, map_pure]

theorem data_evalShape (expr : String) :
    data I L (.evalShape expr) = Except.map Answer.preview <$> data I L (.evalData expr) := by
  apply data_map
  simp only [serveData, map_bind, readValue_shape]

theorem data_resolveShape (h : Handle) :
    data I L (.resolveShape h) = Except.map Answer.preview <$> data I L (.resolveData h) := by
  apply data_map
  exact readValue_shape I L h

/-- The shape that is read agrees with the value, for one object as well as for the requests of
clients, wherever references stand in place of objects and whatever fails. If the objects do not
change, this holds of the shape at one time and of the value at another. -/
theorem preview_agrees :
    (∀ h, I.inspector.read L true h = Value.toShape <$> I.inspector.read L false h) ∧
      (I.inspector.HandlesOnly → ∀ h s s',
        ((I.inspector.read L true h).run.run s).1 =
          ((I.inspector.read L false h).run.run s').1.map Value.toShape) ∧
      (∀ expr, data I L (.evalShape expr) =
        Except.map Answer.preview <$> data I L (.evalData expr)) ∧
      ∀ h, data I L (.resolveShape h) =
        Except.map Answer.preview <$> data I L (.resolveData h) := by
  refine ⟨I.inspector.read_shape L, ?_, data_evalShape I L, data_resolveShape I L⟩
  intro only h s s'
  -- The value is taken from the state of the shape to the other one.
  have steady := only.steady_read L false h s s'
  rw [Inspector.read_shape, ExceptT.run_map, StateT.run_map, ← steady]
  rfl

/-- An interpreter without code that counts the questions about its objects. The object 1 is an
environment that holds itself and a vector, the attributes of the vector are a class and the
environment, and the object 9 is gone. -/
def counter : Interpreter Nat where
  parse text := throw (.eval text)
  eval h _ := throw (.invalidReference h)
  assign target _ := throw (.eval target)
  inspector :=
    { attr? := fun h name => do
        modify (· + 1)
        return if h = 2 ∧ name = "class" then some 3 else none
      attrs := fun h => do
        modify (· + 1)
        return if h = 2 then [("class", 3), ("home", 1)] else []
      view := fun h => do
        modify (· + 1)
        match h with
        | 1 => return .environment "e" [("self", 1), ("x", 2)]
        | 2 => return .vector (.integer [1, 2]) none none none
        | 3 => return .vector (.character [some "ts"]) none none none
        | h => throw (.invalidReference h) }
  create _ := throw (.eval "object")
  debugBackend _ := none

/-- The environment that holds itself, down to one level below the outermost one. -/
def home : Value :=
  .environment "e" 1
    [("self", .environment "e" 1 [("self", .reference 1 none), ("x", .reference 2 none)]),
      ("x", .vector (some "ts") (.integer [1, 2]) none (some [("home", .reference 1 none)]))]

/-- The shape is read before the questions about the value are counted, and agrees with it; so does
the fault of an object that is gone. -/
theorem preview_agrees_home :
    counter.inspector.HandlesOnly ∧
      ((counter.inspector.read ⟨1, 2, 2⟩ false 1).run.run 40).1 = .ok home ∧
      ((counter.inspector.read ⟨1, 2, 2⟩ true 1).run.run 0).1 = .ok home.toShape ∧
      ((counter.inspector.read ⟨1, 2, 2⟩ false 9).run.run 40).1 = .error (.invalidReference 9) ∧
      ((counter.inspector.read ⟨1, 2, 2⟩ true 9).run.run 0).1 = .error (.invalidReference 9) := by
  have only : counter.inspector.HandlesOnly := by
    refine ⟨fun _ _ _ _ => rfl, fun _ _ _ => rfl, ?_⟩
    intro h
    apply Inspector.Steady.bind (fun _ _ => rfl)
    intro _
    split <;> exact fun _ _ => rfl
  have agrees := (preview_agrees counter ⟨1, 2, 2⟩).2.1 only
  have value : ((counter.inspector.read ⟨1, 2, 2⟩ false 1).run.run 40).1 = .ok home := rfl
  have gone : ((counter.inspector.read ⟨1, 2, 2⟩ false 9).run.run 40).1 =
      .error (.invalidReference 9) := rfl
  refine ⟨only, value, ?_, gone, ?_⟩
  · rw [agrees 1 0 40, value]
    rfl
  · rw [agrees 9 0 40, gone]
    rfl

end Task

end EngineLink
