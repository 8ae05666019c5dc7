import EngineLink.Script.Basic
import EngineLink.Text.Decimal
import EngineLink.Value.Document

/-!
# Documents of scripted interpreters

A document describes objects, variables and the debugging side of a scripted interpreter. What it
leaves out stays as it is.

## Main definitions

* `EvalFault.ofDocument?` — the failure that a document describes
* `Script.extend?` — an interpreter with what a document adds
-/

namespace EngineLink

/-- The fault of the wire format that a document describes. -/
def WireFault.ofDocument? (j : Json) : Option WireFault := do
  let kind : String ← j.get? "k"
  match kind with
  | "unexpected_eof" => return endOfInput (← j.get? "needed") (← j.get? "remaining")
  | "unknown_tag" => return unknownTag (← j.get? "what") (← j.get? "tag")
  | "invalid_length" =>
    let length : Int64 ← j.get? "length"
    return badLength (← j.get? "what") length.toInt
  | "limit_exceeded" =>
    return overLimit (← j.get? "what") (← j.get? "count") (← j.get? "limit")
  | "invalid_utf8" => return badText
  | "trailing_bytes" => return trailingBytes (← j.get? "count")
  | "shape_only" => return shapeOnly
  | _ => none

/-- The failure that a document describes. -/
def EvalFault.ofDocument? (j : Json) : Option EvalFault := do
  let kind : String ← j.get? "k"
  match kind with
  | "parse" => return parse (← j.get? "message")
  | "eval" => return eval (← j.get? "message")
  | "invalid_reference" => return invalidReference (← j.get? "handle")
  | "interrupted" => return interrupted
  | "not_supported" => return notSupported (← j.get? "what")
  | _ => return wire (← WireFault.ofDocument? j)

/-- One level of an object as a document describes it. -/
def ObjectView.ofDocument? (j : Json) : Option ObjectView := do
  let kind : String ← j.get? "k"
  match kind with
  | "null" => return null
  | "missing" => return missing
  | "vector" =>
    return vector (← j.get? "store") (← j.get? "names") (← j.get? "dim") (← j.get? "dimnames")
  | "list" => return list (← j.get? "elements") (← j.get? "names")
  | "data_frame" =>
    return dataFrame (← j.get? "columns") (← j.get? "column_names") (← j.get? "row_count")
      (← j.get? "row_names")
  | "environment" => return environment (← j.get? "name") (← j.get? "bindings")
  | "function" => return function (← j.get? "header")
  | "s4" => return object (← j.get? "class") (← j.get? "slots")
  | "other" => return other (← j.get? "class")
  | _ => none

namespace Script

/-- The failure in a field, if there is one. -/
def faultIn? (j : Json) (name : String) : Option (Option EvalFault) :=
  if j.lacks name then some none
  else do
    let part ← j.part? name
    return some (← EvalFault.ofDocument? part)

/-- An object as a document describes it. Looking at it can fail, and so can looking at its
attributes. -/
def objectOf? (j : Json) : Option ScriptObject := do
  let view ← match ← faultIn? j "error" with
    | some fault => pure (.error fault)
    | none => Except.ok <$> ObjectView.ofDocument? j
  let attrs ← match ← faultIn? j "attr_error" with
    | some fault => pure (.error fault)
    | none => do
      let attrs : Option (List (String × Handle)) ← j.get? "attrs"
      pure (.ok (attrs.getD []))
  return ⟨view, attrs⟩

/-- The fields of an object in a field, or none if it is missing. -/
def fieldsIn (j : Json) (name : String) : List (String × Json) :=
  match j.part? name with
  | some ⟨.obj fields, _⟩ => fields
  | _ => []

/-- The fields of an object in a field, named by handles. -/
def handlesIn? (j : Json) (name : String) : Option (List (Handle × Json)) :=
  (fieldsIn j name).mapM fun (h, x) => return (.ofNat (← Text.natural? h), x)

/-- The variables of an object. -/
def variables? (fields : List (String × Json)) : Option (List (String × Handle)) :=
  fields.mapM fun (name, x) => return (name, ← ofJson? x)

/-- The debugging side with what a document adds. -/
def extendDebug? (d : ScriptDebug) (j : Json) : Option ScriptDebug := do
  let frames : Option (List Frame) ← j.get? "frames"
  let d := match frames with
    | some frames => d.setFrames frames
    | none => d
  let fault ← faultIn? j "stack_error"
  let contexts : Option (List FrameContext) ← j.get? "contexts"
  let live : Option (List (String × String × Int64)) ← livePositions? j
  return { d with
    stackFault := fault <|> d.stackFault
    contexts := contexts.getD d.contexts
    suspended := j.getOr "suspended" d.suspended
    acceptSuspend := j.getOr "accept_suspend" d.acceptSuspend
    acceptControl := j.getOr "accept_ctrl" d.acceptControl
    live := live.getD d.live }
where
  /-- The positions that exist. -/
  livePositions? (j : Json) : Option (Option (List (String × String × Int64))) :=
    if j.lacks "live" then some none
    else do
      let parts ← j.parts? "live"
      some <$> parts.mapM fun part => do
        match ← part.val.elementParts? with
        | [path, element, id] =>
          return (← ofJson? path.val, ← ofJson? element.val, ← ofJson? id.val)
        | _ => none

/-- An interpreter with what a document adds. -/
def extend? (s : Script) (j : Json) : Option Script := do
  let objects ← (← handlesIn? j "objects").mapM fun (h, x) => return (h, ← objectOf? x)
  let globals ← variables? (fieldsIn j "globals")
  let envs ← (← handlesIn? j "envs").mapM fun (h, x) => do
    match x with
    | .obj fields => return (h, Std.HashMap.ofList (← variables? fields))
    | _ => none
  let debug ← match j.part? "debug" with
    | some ⟨.null, _⟩ | none => pure s.debug
    | some part => some <$> extendDebug? (s.debug.getD {}) part
  return { s with
    objects := s.objects.insertMany objects
    globals := s.globals.insertMany globals
    envs := s.envs.insertMany envs
    debug }

end Script

end EngineLink
