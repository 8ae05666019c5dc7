import EngineLink.Value.Shape
import EngineLink.Value.Limits
import EngineLink.Engine.Fault

/-!
# Live objects

The engine shows one level of an object at a time, with handles in place of the objects in it. A
value is read out of the engine by following the handles within the limits.

## Main definitions

* `Handle` — the name of a live object
* `ObjectView` — one level of an object
* `Inspector` — the questions that can be put to live objects
* `Inspector.read` — the value of an object
-/

namespace EngineLink

/-- The name of a live object. Zero never refers to one. -/
abbrev Handle := UInt64

/-- One level of an object, with handles in place of the objects in it. -/
inductive ObjectView where
  | null
  | missing
  | vector (store : Store) (names : Option Names) (dim : Option (List Int32))
      (dimnames : Option (List (Option Names)))
  | list (elements : List Handle) (names : Option Names)
  | dataFrame (columns : List Handle) (columnNames : Names) (rowCount : Nat)
      (rowNames : Option Names)
  | environment (name : String) (bindings : List (String × Handle))
  | function (header : String)
  | object (cls : String) (slots : List (String × Handle))
  | other (cls : String)

/-- The questions that can be put to live objects, in a monad `m` that keeps the engine's state. -/
structure Inspector (m : Type → Type) where
  /-- The first attribute of the given name. -/
  attr? : Handle → String → ExceptT EvalFault m (Option Handle)
  /-- All attributes in their order. -/
  attrs : Handle → ExceptT EvalFault m (List (String × Handle))
  /-- One level of the object. -/
  view : Handle → ExceptT EvalFault m ObjectView

/-- Attributes that have a place of their own in a value. -/
def structuralAttributes : List String :=
  ["class", "names", "dim", "dimnames", "row.names", "levels"]

namespace Inspector

variable {m : Type → Type} [Monad m]

/-- The class of an object: the first text of its class attribute. -/
def classOf (I : Inspector m) (h : Handle) : ExceptT EvalFault m (Option String) := do
  match ← I.attr? h "class" with
  | none => pure none
  | some a =>
    match ← I.view a with
    | .vector (.character names) .. => pure names.head?.join
    | _ => pure none

/-- Named objects as named values, given the reader of an object. -/
def readPairs (child : Handle → ExceptT EvalFault m Value) (pairs : List (String × Handle)) :
    ExceptT EvalFault m (List (String × Value)) :=
  pairs.mapM fun (name, h) => return (name, ← child h)

/-- The attributes of an object that have no other place in a value. -/
def readAttributes (I : Inspector m) (child : Handle → ExceptT EvalFault m Value) (h : Handle) :
    ExceptT EvalFault m (Option (List (String × Value))) := do
  let extra := (← I.attrs h).filter fun (name, _) => !structuralAttributes.contains name
  if extra.isEmpty then pure none else some <$> readPairs child extra

/-- The value of one level, given its class, its attributes and the reader of the objects in it.
Lists, data frames and environments that are too large become references. -/
def readView (L : Limits) (shapeOnly : Bool) (child : Handle → ExceptT EvalFault m Value)
    (h : Handle) (cls : Option String) (attrs : Option (List (String × Value))) :
    ObjectView → ExceptT EvalFault m Value
  | .null => pure .null
  | .missing => pure .missing
  | .vector store names dim dimnames =>
    let store := if shapeOnly then store.toShape else store
    pure <| match dim with
      | some dim => .array cls store dim dimnames attrs
      | none => .vector cls store names attrs
  | .list elements names =>
    if L.maxList < elements.length then pure (.reference h (some "list"))
    else do return .list cls (← elements.mapM child) names attrs
  | .dataFrame columns columnNames rowCount rowNames =>
    if L.maxList < columns.length then pure (.reference h (some "data.frame"))
    else do return .dataFrame cls (← columns.mapM child) columnNames rowCount rowNames attrs
  | .environment name bindings =>
    if L.maxEnv < bindings.length then pure (.reference h (some "environment"))
    else do return .environment name h (← readPairs child bindings)
  | .function header => pure (.function header)
  | .object cls slots => do return .object cls (← readPairs child slots)
  | .other cls => pure (.other cls)

/-- The value of an object that may nest `levels` others in each other. Below the last level an
object is not looked at. -/
def readLevels (I : Inspector m) (L : Limits) (shapeOnly : Bool) :
    Nat → Handle → ExceptT EvalFault m Value
  | 0, h => pure (.reference h none)
  | levels + 1, h => do
    let child := I.readLevels L shapeOnly levels
    let cls ← I.classOf h
    let attrs ← I.readAttributes child h
    readView L shapeOnly child h cls attrs (← I.view h)

/-- The value of an object, with stores replaced by their shapes if `shapeOnly` is set. -/
def read (I : Inspector m) (L : Limits) (shapeOnly : Bool) (h : Handle) :
    ExceptT EvalFault m Value :=
  if h = 0 then throw (.invalidReference h) else I.readLevels L shapeOnly (L.maxDepth + 1) h

end Inspector

end EngineLink
