import EngineLink.Json.Basic
import EngineLink.Number.Rounding

/-!
# Numbers in JSON texts

Integers of 64 bits are told apart from all other numbers. Those are taken for doubles, and one that
is too large for a double is unreadable.

## Main definitions

* `Json.Numeral` — the digits of a number and where its point stands
* `Json.number?` — the number at the front of a text
-/

namespace EngineLink.Json

/-- The digits of a number and where its point stands. -/
structure Numeral where
  /-- The digits in front of the point. -/
  whole : List Char
  /-- The digits behind the point. -/
  fraction : List Char
  /-- The power of ten by which the number is multiplied. -/
  exponent : Int

namespace Numeral

/-- The value of a sequence of decimal digits. -/
def value (ds : List Char) : Nat := ds.foldl (fun n d => 10 * n + (d.toNat - 48)) 0

/-- Append digits to a number as long as it fits into 64 bits. The second result is the digits that
are left over. -/
def append : Nat → List Char → Nat × List Char
  | n, [] => (n, [])
  | n, d :: ds =>
    let m := 10 * n + (d.toNat - 48)
    if m < 0x10000000000000000 then append m ds else (n, d :: ds)

/-- The integer of 64 bits that the leading digits make, and its power of ten. Of the digits that
are left over in front of the point only the number counts. -/
def leading (x : Numeral) : Nat × Int :=
  let (n, beyond) := append 0 x.whole
  let (n, ignored) := append n x.fraction
  let places := x.fraction.length - ignored.length
  (n, (beyond.length : Int) - places + x.exponent)

/-- Whether a number is too large for a double. The leading digits and the power of ten are rounded
before they are multiplied. -/
def isTooLarge (x : Numeral) : Bool :=
  match x.leading with
  | (0, _) | (_, .negSucc _) => false
  | (n, .ofNat e) =>
    308 < e || Rounding.overflows (Rounding.toDouble n * Rounding.toDouble (Nat.pow 10 e))

end Numeral

/-- Split off the leading decimal digits, of which there must be one at least. -/
def digits? (cs : List Char) : Option (List Char × List Char) :=
  match cs.takeWhile Char.isDigit with
  | [] => none
  | ds => some (ds, cs.dropWhile Char.isDigit)

/-- The whole part of a number: the digit 0, or digits of which the first is not 0. -/
def wholePart? (cs : List Char) : Option (List Char × List Char) := do
  let (ds, rest) ← digits? cs
  match ds with
  | '0' :: _ :: _ => none
  | _ => some (ds, rest)

/-- The digits of a fraction, none if there is no point. -/
def fraction? : List Char → Option (List Char × List Char)
  | '.' :: more => digits? more
  | cs => some ([], cs)

/-- The value of an exponent, of which the letter is gone. -/
def exponentValue? : List Char → Option (Int × List Char)
  | '-' :: more => do
    let (ds, rest) ← digits? more
    some (-(Numeral.value ds : Int), rest)
  | '+' :: more | more => do
    let (ds, rest) ← digits? more
    some ((Numeral.value ds : Int), rest)

/-- The exponent of a number, if it has one. -/
def exponent? : List Char → Option (Option Int × List Char)
  | 'e' :: more | 'E' :: more => do
    let (e, rest) ← exponentValue? more
    some (some e, rest)
  | cs => some (none, cs)

/-- The integer of 64 bits that digits stand for, if there is one. Zero has no sign. -/
def integer? (negative : Bool) (ds : List Char) : Option Int :=
  let n := Numeral.value ds
  if negative then if 0 < n ∧ n ≤ 0x8000000000000000 then some (-(n : Int)) else none
  else if n < 0x10000000000000000 then some n else none

/-- The sign of a number, if it has one, and the rest. -/
def sign : List Char → Bool × List Char
  | '-' :: rest => (true, rest)
  | cs => (false, cs)

/-- The number at the front of a text. -/
def number? (cs : List Char) : Option (Json × List Char) := do
  let (negative, rest) := sign cs
  let (whole, rest) ← wholePart? rest
  let (fraction, rest) ← fraction? rest
  let (exponent, rest) ← exponent? rest
  let plain := fraction.isEmpty && exponent.isNone
  match (if plain then integer? negative whole else none) with
  | some i => some (int i, rest)
  | none =>
    if Numeral.isTooLarge ⟨whole, fraction, exponent.getD 0⟩ then some (unreadable, rest)
    else some (decimal (String.ofList (cs.take (cs.length - rest.length))), rest)

end EngineLink.Json
