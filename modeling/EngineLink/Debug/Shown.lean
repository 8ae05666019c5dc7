import EngineLink.Debug.Command
import EngineLink.Text.Shown

/-!
# Replies of the debugger as they are shown

## Main definitions

* `DebugReply.shown` — a reply with all its parts
-/

namespace EngineLink

open TextForm

instance : TextForm SourceRef := ⟨fun s => tuple "Srcref" [shown s.coords]⟩

instance : TextForm Frame where
  shown f := record "Frame" [("position", shown f.position), ("call", shown f.call),
    ("handle", shown f.handle), ("file_name", shown f.fileName),
    ("file_timestamp", shown f.fileTimestamp), ("expr_srcref", shown f.exprSrcref),
    ("flags", shown f.flags)]

instance : TextForm CallStack := ⟨fun s => record "CallStack" [("frames", shown s.frames)]⟩

instance : TextForm SourceType where
  shown
    | .lines => "Lines"
    | .file => "File"
    | .srcfileLines => "SrcfileLines"
    | .deparse => "Deparse"

instance : TextForm FrameContext where
  shown c := record "FrameContext" [("position", shown c.position), ("call", shown c.call),
    ("file_name", shown c.fileName), ("file_timestamp", shown c.fileTimestamp),
    ("file_encoding", shown c.fileEncoding), ("file_path", shown c.filePath),
    ("source_type", shown c.sourceType), ("source_code", shown c.sourceCode),
    ("source_srcref", shown c.sourceSrcref), ("first_srcref", shown c.firstSrcref),
    ("last_srcref", shown c.lastSrcref), ("expr_srcref", shown c.exprSrcref)]

instance : TextForm SetDebugReport :=
  ⟨fun r => record "SetDebugReport" [("changed", shown r.changed)]⟩

instance : TextForm ControlOp where
  shown
    | .resume => "Resume"
    | .stepInto => "StepInto"
    | .stepOver => "StepOver"
    | .stepReturn => "StepReturn"
    | .suspend => "Suspend"

instance : TextForm ControlOutcome where
  shown
    | .executed => "Executed"
    | .notApplicable => "NotApplicable"
    | .notSupported => "NotSupported"

instance : TextForm ControlReport where
  shown r := record "CtrlReport"
    [("op", shown r.op), ("outcome", shown r.outcome), ("suspended", shown r.suspended)]

instance : TextForm InstallationResult where
  shown
    | .notFound => "NotFound"
    | .foundUnchanged => "FoundUnchanged"
    | .foundButUnset => "FoundButWasUnset"
    | .foundAndSet => "FoundAndSet"

instance : TextForm InstallationReport :=
  ⟨fun r => record "TracepointInstallationReport" [("results", shown r.results)]⟩

/-- A reply of the debugger as it is shown. -/
def DebugReply.shown : DebugReply → String
  | callStack stack => tuple "CallStack" [TextForm.shown stack]
  | frameContext context => tuple "FrameContext" [TextForm.shown context]
  | setDebug report => tuple "SetDebug" [TextForm.shown report]
  | control report => tuple "Ctrl" [TextForm.shown report]
  | installation report => tuple "Installation" [TextForm.shown report]

end EngineLink
