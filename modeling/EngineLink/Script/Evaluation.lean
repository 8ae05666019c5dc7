import EngineLink.Engine.Interpreter
import EngineLink.Script.Basic
import EngineLink.Text.Affix
import EngineLink.Text.Blank
import EngineLink.Text.Decimal
import EngineLink.Value.Arithmetic

/-!
# A scripted interpreter: expressions

An expression is a sequence of parts between semicolons, whose value is that of the last part. A
part writes to the console, fails, requests an interrupt, sums up a variable, or is a literal, a
handle or a variable.

## Main definitions

* `Script.Part` — the parts of expressions
* `Script.parse`, `Script.eval`, `Script.assign` — running code
-/

namespace EngineLink.Script

/-- A part of an expression. -/
inductive Part where
  | cat (text : String)
  | warn (text : String)
  | stop (text : String)
  | unsupported (what : String)
  | interrupt
  | sum (name : String)
  | logical (value : Option Bool)
  | integer (value : Int32)
  | handle (handle : Handle)
  | named (name : String)

/-- The integer that a text stands for, if it fits into 32 bits. -/
def int32? (s : String) : Option Int32 := do
  let n ← Text.integer? s
  if -0x80000000 ≤ n ∧ n < 0x80000000 then some (.ofInt n) else none

/-- The handle that a text stands for, if it fits into 64 bits. -/
def handle? (s : String) : Option Handle := do
  let n ← Text.natural? s
  if n < 0x10000000000000000 then some (.ofNat n) else none

/-- The text in the call of a function with one quoted text. -/
def quoted? (function s : String) : Option String := Text.between? (function ++ "(\"") "\")" s

/-- The logical value that a word stands for. -/
def logical? : String → Option (Option Bool)
  | "TRUE" => some (some true)
  | "FALSE" => some (some false)
  | "NA" => some none
  | _ => none

/-- The part that a text without blanks at its ends stands for. -/
def Part.ofText (s : String) : Part :=
  ((quoted? "cat" s).map Part.cat <|> (quoted? "warn" s).map Part.warn <|>
    (quoted? "stop" s).map Part.stop <|> (quoted? "unsupported" s).map Part.unsupported <|>
    (if s == "interrupt" then some Part.interrupt else none) <|>
    (Text.between? "sum(" ")" s).map Part.sum <|>
    (logical? s).map Part.logical <|>
    ((Text.before? "L" s).bind int32?).map Part.integer <|>
    ((Text.after? "#" s).bind handle?).map Part.handle).getD (.named s)

/-- Running code that can fail. -/
abbrev Code := ExceptT EvalFault (Eval Script)

/-- Be held up, if the interpreter has gates. -/
def gate (g : Gate) : Eval Script Unit := do
  if (← Eval.getState).gated then Eval.gate g

/-- Stop if there has been an interrupt. -/
def checkInterrupt : Code Unit := do
  if ← ExceptT.lift Eval.isInterrupted then throw .interrupted

/-- Use the state of the interpreter. -/
def onState {α : Type} (f : ExceptT EvalFault (StateM Script) α) : Code α := Eval.ofFallible f

/-- Keep a new vector. -/
def newVector (store : Store) : Code Handle := onState (keepView (.vector store none none none) [])

/-- A new null object. -/
def newNull : Code Handle := onState (keepView .null [])

/-- The object of a variable: that of the environment, if it has one, or the global one. -/
def lookup (environment : Option Handle) (name : String) : Code Handle := do
  let s ← ExceptT.lift Eval.getState
  let inner := environment.bind fun e => s.envs[e]?.bind (·[name]?)
  match inner <|> s.globals[name]? with
  | some h => return h
  | none => throw (.eval s!"object '{name}' not found")

/-- The sum of a variable. -/
def sumOf (environment : Option Handle) (name : String) : Code Handle := do
  let h ← lookup environment name
  match ← onState (inspector.view h) with
  | .vector store .. => newVector (← liftExcept store.sum)
  | _ => throw (.eval "invalid 'type' of argument")

/-- Run a part of an expression. -/
def Part.run (environment : Option Handle) : Part → Code Handle
  | cat text => do
    ExceptT.lift (Eval.writeOut text)
    ExceptT.lift (gate (.write text))
    newNull
  | warn text => do
    ExceptT.lift (Eval.writeErr text)
    ExceptT.lift (gate (.write text))
    newNull
  | stop text => throw (.eval text)
  | unsupported what => throw (.notSupported what)
  | interrupt => do
    ExceptT.lift Eval.interrupt
    newNull
  | sum name => sumOf environment name
  | logical value => newVector (.logical [value])
  | integer value => newVector (.integer [value])
  | handle h => return h
  | named name => lookup environment name

/-- Parse a text. All that can be wrong with it are its parentheses. -/
def parse (text : String) : Code Handle := do
  let text := Text.trim text
  ExceptT.lift (gate (.parse text))
  if text.toList.count '(' ≠ text.toList.count ')' then
    throw (.parse s!"unexpected end of input: {text}")
  onState do
    let h ← ExceptT.lift freshHandle
    modify fun s => { s with exprs := s.exprs.insert h text }
    return h

/-- Evaluate a parsed expression, looking for interrupts before each part and at the end. -/
def eval (expr : Handle) (environment : Option Handle) : Code Handle := do
  match (← ExceptT.lift Eval.getState).exprs[expr]? with
  | none => throw (.invalidReference expr)
  | some text =>
    let result ← (text.splitOn ";").foldlM
      (fun _ part => do
        checkInterrupt
        (Part.ofText (Text.trim part)).run environment) 0
    checkInterrupt
    return result

/-- Assign an object to a global variable. A target behind an exclamation mark is shown first. -/
def assign (target : String) (h : Handle) : Code Unit := do
  if target.isEmpty then throw (.eval "invalid assignment target")
  if target.startsWith "!" then ExceptT.lift (Eval.writeErr target)
  onState (modify fun s => { s with globals := s.globals.insert target h })

end EngineLink.Script
