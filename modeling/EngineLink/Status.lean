import EngineLink.Json.Basic
import EngineLink.Wire.Primitive

/-!
# Statuses

A status reports how a request ended, or why a call came back without a batch.

## Main definitions

* `Severity` — how grave a status is
* `Status` — severity, code and optional text
* `Status.Code` — the codes that sessions use
* `Status.message` — the text of a status as it is shown
* `WireFault.status` — the status that reports a fault of the wire format
-/

namespace EngineLink

/-- How grave a status is. -/
inductive Severity where
  | ok | info | warning | error | cancel
  deriving DecidableEq, Repr, Inhabited

namespace Severity

/-- All severities. -/
def all : List Severity := [ok, info, warning, error, cancel]

/-- The byte that stands for a severity. -/
def tag : Severity → UInt8
  | ok => 0
  | info => 1
  | warning => 2
  | error => 4
  | cancel => 8

/-- The severity that a byte stands for. -/
def ofTag? (tag : UInt8) : Option Severity := all.find? (·.tag == tag)

@[simp] theorem ofTag?_tag (s : Severity) : ofTag? s.tag = some s := by cases s <;> decide

/-- The word of a severity in documents. -/
def word : Severity → String
  | ok => "ok"
  | info => "info"
  | warning => "warning"
  | error => "error"
  | cancel => "cancel"

/-- The word of a severity in shown texts. -/
def title : Severity → String
  | ok => "Ok"
  | info => "Info"
  | warning => "Warning"
  | error => "Error"
  | cancel => "Cancel"

instance : JsonForm Severity := .ofWords word all

instance : WireForm Severity where
  put s := [s.tag]
  get := Wire.getTag "severity" ofTag?

end Severity

/-- How a request ended. -/
structure Status where
  severity : Severity
  code : Int32
  text : Option String
  deriving DecidableEq, Repr, Inhabited

namespace Status

/-! ### Codes -/

namespace Code

/-- All is well. -/
def ok : Int32 := 0
/-- The session has been stopped. -/
def stopped : Int32 := 0x11
/-- No client is attached, or the client is not the attached one. -/
def disconnected : Int32 := 0x12
/-- A frame or a value broke the wire format. -/
def protocol : Int32 := 0x21
/-- Parsing or evaluating failed. -/
def evalFailed : Int32 := 0x22
/-- A handle does not refer to a live object. -/
def invalidReference : Int32 := 0x23
/-- The client came back without answering a question. -/
def unanswered : Int32 := 0x24
/-- The request was cancelled. -/
def cancelled : Int32 := 0x25
/-- The request is not supported. -/
def notSupported : Int32 := 0x26

end Code

/-! ### Common statuses -/

/-- Success. -/
def ok : Status := ⟨.ok, Code.ok, none⟩

/-- An error with a text. -/
def error (code : Int32) (text : String) : Status := ⟨.error, code, some text⟩

/-- A warning with a text. -/
def warning (code : Int32) (text : String) : Status := ⟨.warning, code, some text⟩

/-- A cancellation with a text. -/
def cancel (code : Int32) (text : String) : Status := ⟨.cancel, code, some text⟩

/-- The status of every call on a stopped session. -/
def stopped : Status := error Code.stopped "session stopped"

/-- The status of a call by a client that is not attached. -/
def disconnected : Status := warning Code.disconnected "no client attached"

/-- Whether the status reports success. -/
def isOk (s : Status) : Bool := s.severity == .ok

/-- A status as it is shown: severity, code and the text if there is one. -/
def message (s : Status) : String :=
  let head := s.severity.title ++ " (" ++ Text.prefixedHex s.code.toUInt32.toNat ++ ")"
  match s.text with
  | some text => head ++ ": " ++ text
  | none => head

/-! ### Forms -/

instance : WireForm Status where
  put s := WireForm.put s.severity ++ Wire.putI32 s.code ++ Wire.putText? s.text
  get := do
    let severity ← WireForm.get
    let code ← Wire.getI32
    let text ← Wire.getText?
    pure ⟨severity, code, text⟩

instance : JsonForm Status where
  toJson s := .obj [("severity", toJson s.severity), ("code", toJson s.code),
    ("message", toJson s.text)]
  ofInput? x := do
    let fields ← x.record? ["severity", "code", "message"]
    some ⟨← fields.get? "severity", ← fields.get? "code",
      ← fields.get? "message"⟩

end Status

/-- The status that reports a fault of the wire format. -/
def WireFault.status (fault : WireFault) : Status := .error Status.Code.protocol fault.message

end EngineLink
