/-!
# Blank space

A character is blank when it has the Unicode property `White_Space`. Settings, console lines and
the scripted interpreter all trim blank characters at both ends of a text.

## Main definitions

* `Text.isBlank` — the characters with the property `White_Space`
* `Text.trim` — a text without the blank characters at its ends
* `Text.isAllBlank` — texts that `trim` makes empty
-/

namespace EngineLink.Text

/-- The characters with the Unicode property `White_Space`. -/
def isBlank (c : Char) : Bool :=
  let n := c.toNat
  (9 ≤ n && n ≤ 13) || n == 0x20 || n == 0x85 || n == 0xA0 || n == 0x1680 ||
    (0x2000 ≤ n && n ≤ 0x200A) || n == 0x2028 || n == 0x2029 || n == 0x202F ||
    n == 0x205F || n == 0x3000

/-- The characters left after blank ones are removed from the front. -/
def trimFront (cs : List Char) : List Char := cs.dropWhile isBlank

/-- The characters left after blank ones are removed from the end. -/
def trimBack (cs : List Char) : List Char := (cs.reverse.dropWhile isBlank).reverse

/-- A text without the blank characters at its two ends. -/
def trim (s : String) : String := String.ofList (trimBack (trimFront s.toList))

/-- Whether a text holds no character that is not blank. -/
def isAllBlank (s : String) : Bool := s.toList.all isBlank

end EngineLink.Text
