/-!
# Numbers and bytes in hexadecimal

Handles and unknown tags are shown in lower-case hexadecimal with a leading `0x`. In documents,
bytes and words are written with all their digits.

## Main definitions

* `Text.hexDigit`, `Text.hexValue?` — the digits
* `Text.hexadecimal`, `Text.prefixedHex` — a natural number without leading zeros
* `Text.hexOfBytes`, `Text.bytesOfHex?` — bytes with two digits each
* `Text.hexOfWord` — a word with sixteen digits
-/

namespace EngineLink.Text

/-- The lower-case hexadecimal digit of `n`, counted modulo sixteen. -/
def hexDigit (n : Nat) : Char := Nat.digitChar (n % 16)

/-- The value of a hexadecimal digit. -/
def hexValue? (c : Char) : Option Nat :=
  if '0' ≤ c ∧ c ≤ '9' then some (c.toNat - 48)
  else if 'a' ≤ c ∧ c ≤ 'f' then some (c.toNat - 87)
  else if 'A' ≤ c ∧ c ≤ 'F' then some (c.toNat - 55)
  else none

/-- The hexadecimal digits of `n`, without leading zeros; zero is the single digit `0`. -/
def hexadecimal (n : Nat) : String := String.ofList (Nat.toDigits 16 n)

/-- The hexadecimal digits of `n` behind `0x`. -/
def prefixedHex (n : Nat) : String := "0x" ++ hexadecimal n

/-- The two digits of each byte. -/
def hexOfBytes (bytes : List UInt8) : String :=
  String.ofList (bytes.flatMap fun b => [hexDigit (b.toNat / 16), hexDigit b.toNat])

/-- The bytes of pairs of digits. -/
def bytesOfDigits? : List Char → Option (List UInt8)
  | [] => some []
  | a :: b :: rest => do
    let byte := UInt8.ofNat (16 * (← hexValue? a) + (← hexValue? b))
    some (byte :: (← bytesOfDigits? rest))
  | _ => none

/-- The bytes that a text of hexadecimal digits stands for. -/
def bytesOfHex? (s : String) : Option (List UInt8) := bytesOfDigits? s.toList

/-- The eight bytes of a word, the highest first. -/
def wordBytes (w : UInt64) : List UInt8 :=
  ([56, 48, 40, 32, 24, 16, 8, 0] : List UInt64).map fun shift => (w >>> shift).toUInt8

/-- The sixteen digits of a word. -/
def hexOfWord (w : UInt64) : String := hexOfBytes (wordBytes w)

/-- The word that a text of sixteen digits stands for. -/
def wordOfHex? (s : String) : Option UInt64 := do
  let bytes ← bytesOfHex? s
  if bytes.length = 8 then some (bytes.foldl (fun w b => w <<< 8 ||| b.toUInt64) 0) else none

end EngineLink.Text
