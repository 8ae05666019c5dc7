import EngineLink.Debug.Shown
import EngineLink.Message.Item
import EngineLink.Value.Shown

/-!
# Answers as they are shown

## Main definitions

* `Answer.shown` — an answer with all its parts, as it is shown where it was not expected
-/

namespace EngineLink

open TextForm

instance : TextForm Status where
  shown s := record "Status"
    [("severity", s.severity.title), ("code", shown s.code), ("message", shown s.text)]

/-- An answer as it is shown where it was not expected. -/
def Answer.shown : Answer → String
  | done => "Done"
  | value v => tuple "Value" [v.shown]
  | text line => tuple "Text" [TextForm.shown line]
  | debug reply => tuple "Debug" [reply.shown]
  | status s => tuple "Status" [TextForm.shown s]

end EngineLink
