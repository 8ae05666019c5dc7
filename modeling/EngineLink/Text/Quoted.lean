import EngineLink.Text.Hex
import EngineLink.Text.Visible

/-!
# Quoted texts

In a quoted text every character can be told from all others. Some have a letter of their own behind
a backslash, and those that are not visible are given by their numbers.

## Main definitions

* `Text.quotedChar` — a character in a quoted text
* `Text.quoted` — a text between quotation marks
-/

namespace EngineLink.Text

/-- A character in a quoted text. -/
def quotedChar (c : Char) : String :=
  match c with
  | '\x00' => "\\0"
  | '\t' => "\\t"
  | '\n' => "\\n"
  | '\r' => "\\r"
  | '"' => "\\\""
  | '\\' => "\\\\"
  | c =>
    if isVisible c then String.singleton c else "\\u\x7b" ++ hexadecimal c.toNat ++ "\x7d"

/-- A text between quotation marks. -/
def quoted (s : String) : String := "\"" ++ String.join (s.toList.map quotedChar) ++ "\""

/-- An accent that stands alone is given by its number, one that belongs to a letter is not. -/
example : quoted "é\"\x0b\u0301" = "\"é\\\"\\u\x7bb\x7d\\u\x7b301\x7d\"" := by decide +kernel

end EngineLink.Text
