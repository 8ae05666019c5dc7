/-!
# Decimal numbers in texts

A number is a non-empty run of the ASCII digits, perhaps behind a sign.

## Main definitions

* `Text.natural?` — the natural number that a text stands for
* `Text.integer?` — the integer that a text stands for
-/

namespace EngineLink.Text

/-- The number that digits stand for. -/
def digits? (ds : List Char) : Option Nat :=
  if ds.isEmpty || !ds.all Char.isDigit then none
  else some (ds.foldl (fun n d => 10 * n + (d.toNat - '0'.toNat)) 0)

/-- The natural number that a text stands for: digits, perhaps behind a plus sign. -/
def natural? (s : String) : Option Nat :=
  match s.toList with
  | '+' :: ds => digits? ds
  | ds => digits? ds

/-- The integer that a text stands for: digits, perhaps behind a sign. -/
def integer? (s : String) : Option Int :=
  match s.toList with
  | '-' :: ds => (digits? ds).map fun n => -(n : Int)
  | _ => (natural? s).map fun n => (n : Int)

end EngineLink.Text
