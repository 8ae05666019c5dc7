import EngineLink.Message.Item
import EngineLink.Value.Document

/-!
# Documents of messages

For inspection, items and messages can be written as JSON documents, and read from them.

## Main definitions

* the instances of `JsonForm` for kinds, answers, items and messages
-/

namespace EngineLink

/-- The fields that describe a data request. -/
def DataRequest.fields : DataRequest → List (String × Json)
  | evalVoid expr => [("cmd", .str "eval_void"), ("expr", .str expr)]
  | evalData expr => [("cmd", .str "eval_data"), ("expr", .str expr)]
  | evalShape expr => [("cmd", .str "eval_struct"), ("expr", .str expr)]
  | resolveData handle => [("cmd", .str "resolve_data"), ("handle", toJson handle)]
  | resolveShape handle => [("cmd", .str "resolve_struct"), ("handle", toJson handle)]
  | assign target value =>
    [("cmd", .str "assign_data"), ("target", .str target), ("value", toJson value)]

/-- The data request that fields describe. -/
def DataRequest.ofDocument? (j : Json) : Option DataRequest := do
  let command : String ← j.get? "cmd"
  match command with
  | "eval_void" => evalVoid <$> j.get? "expr"
  | "eval_data" => evalData <$> j.get? "expr"
  | "eval_struct" => evalShape <$> j.get? "expr"
  | "resolve_data" => resolveData <$> j.get? "handle"
  | "resolve_struct" => resolveShape <$> j.get? "handle"
  | "assign_data" => return assign (← j.get? "target") (← j.get? "value")
  | _ => none

namespace ItemKind

/-- The fields that describe a kind, besides its name. -/
def fields : ItemKind → List (String × Json)
  | consoleRead prompt history => [("prompt", .str prompt), ("history", .bool history)]
  | writeOut text | writeErr text | notice text => [("text", .str text)]
  | data request => request.fields
  | extUi name arg wait => [("name", .str name), ("arg", toJson arg), ("wait", .bool wait)]
  | debug command => [("cmd", toJson command)]

instance : JsonForm ItemKind where
  toJson k := .obj (("k", .str k.name) :: k.fields)
  ofInput? x := do
    let j := x.json
    let name : String ← j.get? "k"
    match name with
    | "console_read" => return consoleRead (← j.get? "prompt") (j.getOr "history" false)
    | "console_write_out" => writeOut <$> j.get? "text"
    | "console_write_err" => writeErr <$> j.get? "text"
    | "console_message" => notice <$> j.get? "text"
    | "data" => data <$> DataRequest.ofDocument? j
    | "ext_ui" => return extUi (← j.get? "name") (← j.get? "arg") (j.getOr "wait" false)
    | "debug" => debug <$> j.get? "cmd"
    | _ => none

end ItemKind

namespace Answer

instance : JsonForm Answer where
  toJson
    | done => .obj [("k", .str "done")]
    | value v => .obj [("k", .str "value"), ("value", toJson v)]
    | text t => .obj [("k", .str "text"), ("text", .str t)]
    | debug reply => .obj [("k", .str "debug"), ("reply", toJson reply)]
    | status s => .obj [("k", .str "status"), ("status", toJson s)]
  ofInput? x := do
    let j := x.json
    let kind : String ← j.get? "k"
    match kind with
    | "done" => return done
    | "value" => value <$> j.get? "value"
    | "text" => text <$> j.get? "text"
    | "debug" => debug <$> j.get? "reply"
    | "status" => status <$> j.get? "status"
    | _ => none

end Answer

instance : JsonForm Item where
  toJson item := .obj [("slot", toJson item.slot), ("id", toJson item.id),
    ("kind", toJson item.kind), ("answer", toJson item.answer)]
  ofInput? x := do
    let j := x.json
    return ⟨← j.get? "slot", ← j.get? "id", ← j.get? "kind", ← j.get? "answer"⟩

namespace Message

instance : JsonForm Message where
  toJson
    | ping => .obj [("m", .str "ping")]
    | status s => .obj [("m", .str "status"), ("status", toJson s)]
    | batch b => .obj [("m", .str "batch"), ("busy", .bool b.busy), ("items", toJson b.items)]
    | file name data => .obj [("m", .str "file"), ("name", .str name), ("data", .ofBytes data)]
  ofInput? x := do
    let j := x.json
    let kind : String ← j.get? "m"
    match kind with
    | "ping" => return ping
    | "status" => status <$> j.get? "status"
    | "batch" => return batch ⟨j.getOr "busy" false, ← j.get? "items"⟩
    | "file" => return file (← j.get? "name") (← j.bytes? "data")
    | _ => none

end Message

end EngineLink
