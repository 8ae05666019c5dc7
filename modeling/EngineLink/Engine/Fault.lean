import EngineLink.Status

/-!
# Failures of the engine

What can go wrong while the engine serves a request, and the status that tells a client about it.

## Main definitions

* `EvalFault` — the causes
* `EvalFault.message` — the text of a failure
* `EvalFault.status` — the status that reports it
-/

namespace EngineLink

/-- A failure while the engine serves a request. -/
inductive EvalFault where
  /-- The text is not an expression. -/
  | parse (text : String)
  /-- The evaluation failed. -/
  | eval (text : String)
  /-- The handle refers to no live object. -/
  | invalidReference (handle : UInt64)
  /-- The evaluation was interrupted. -/
  | interrupted
  /-- The engine cannot do this. -/
  | notSupported (what : String)
  /-- A value does not fit the wire format. -/
  | wire (fault : WireFault)
  deriving DecidableEq, Repr

namespace EvalFault

/-- The text of a failure. -/
def message : EvalFault → String
  | parse text => s!"parse error: {text}"
  | eval text => text
  | invalidReference handle => "invalid reference: " ++ Text.prefixedHex handle.toNat
  | interrupted => "evaluation interrupted"
  | notSupported what => s!"not supported: {what}"
  | wire fault => fault.message

/-- The status that reports a failure to a client. -/
def status (fault : EvalFault) : Status :=
  match fault with
  | parse _ | eval _ => .error Status.Code.evalFailed fault.message
  | invalidReference _ => .error Status.Code.invalidReference fault.message
  | interrupted => .cancel Status.Code.cancelled fault.message
  | notSupported _ => .error Status.Code.notSupported fault.message
  | wire inner => inner.status

end EvalFault

end EngineLink
