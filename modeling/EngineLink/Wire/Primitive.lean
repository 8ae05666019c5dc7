import EngineLink.Wire.Reader

/-!
# Primitive fields

Numbers are big-endian. A counted field starts with a signed 32-bit count; the count `-1` stands
for an absent optional field. Each field has a writer `put…` and a reader `get…`, side by side.

## Main definitions

* `Wire.putU32`, `Wire.getU32` and the other fixed-width numbers
* `Wire.putCount`, `Wire.getCount` — counts, checked against the input that is left
* `Wire.putText`, `Wire.getText` — UTF-8 texts, and their optional and repeated forms
* `WireForm` — the types that have one fixed layout
-/

namespace EngineLink.Wire

/-! ### Fixed-width numbers -/

/-- The four bytes of a word, the highest first. -/
def putU32 (x : UInt32) : Bytes :=
  [(x >>> 24).toUInt8, (x >>> 16).toUInt8, (x >>> 8).toUInt8, x.toUInt8]

/-- The eight bytes of a word, the highest first. -/
def putU64 (x : UInt64) : Bytes :=
  [(x >>> 56).toUInt8, (x >>> 48).toUInt8, (x >>> 40).toUInt8, (x >>> 32).toUInt8,
    (x >>> 24).toUInt8, (x >>> 16).toUInt8, (x >>> 8).toUInt8, x.toUInt8]

/-- One byte. -/
def putU8 (x : UInt8) : Bytes := [x]

/-- A truth value is the byte 1 or 0. -/
def putBool (b : Bool) : Bytes := [if b then 1 else 0]

/-- The four bytes of a signed number in two's complement. -/
def putI32 (x : Int32) : Bytes := putU32 x.toUInt32

/-- The eight bytes of a signed number in two's complement. -/
def putI64 (x : Int64) : Bytes := putU64 x.toUInt64

/-- The word whose bytes, the highest first, are `a`, `b`, `c` and `d`. -/
def joinU32 (a b c d : UInt8) : UInt32 :=
  (a.toUInt32 <<< 24) ||| (b.toUInt32 <<< 16) ||| (c.toUInt32 <<< 8) ||| d.toUInt32

/-- One byte. -/
def getU8 : Reader UInt8
  | b :: rest => .ok (b, rest)
  | [] => .error ⟨.endOfInput 1 0, []⟩

/-- One byte that has to be the tag of something of the kind `what`. -/
def getTag {α : Type} (what : String) (ofTag? : UInt8 → Option α) : Reader α := do
  let t ← getU8
  match ofTag? t with
  | some x => pure x
  | none => Reader.fail (.unknownByte what t)

/-- Every byte but 0 reads as true. -/
def getBool : Reader Bool := (· != 0) <$> getU8

/-- The word in the next four bytes. -/
def getU32 : Reader UInt32
  | a :: b :: c :: d :: rest => .ok (joinU32 a b c d, rest)
  | input => .error ⟨.endOfInput 4 input.length, input⟩

/-- The word in the next eight bytes. -/
def getU64 : Reader UInt64
  | a :: b :: c :: d :: e :: f :: g :: h :: rest =>
    .ok (((joinU32 a b c d).toUInt64 <<< 32) ||| (joinU32 e f g h).toUInt64, rest)
  | input => .error ⟨.endOfInput 8 input.length, input⟩

/-- The signed number in the next four bytes. -/
def getI32 : Reader Int32 := UInt32.toInt32 <$> getU32

/-- The signed number in the next eight bytes. -/
def getI64 : Reader Int64 := UInt64.toInt64 <$> getU64

/-! ### Counts -/

/-- The count of an absent optional field. -/
def absentCount : Int32 := -1

/-- The largest number of bytes that a check asks for. -/
def maxNeed : Nat := 0xFFFFFFFFFFFFFFFF

/-- A count is written modulo 2³². -/
def putCount (n : Nat) : Bytes := putU32 (UInt32.ofNat n)

/-- Accept the count `n` of elements that take `size` bytes or more each. -/
def checkCount (what : String) (size : Nat) (n : Int32) : Reader Nat :=
  if n < 0 then Reader.fail (.badLength what n.toInt)
  else do
    Reader.need (min (n.toNatClampNeg * size) maxNeed)
    pure n.toNatClampNeg

/-- A count of elements that take `size` bytes or more each. A count that the bytes left cannot
hold is refused before any element is read. -/
def getCount (what : String) (size : Nat) : Reader Nat := do
  checkCount what size (← getI32)

/-- The count of an optional field, or nothing if the field is absent. -/
def getCount? (what : String) (size : Nat) : Reader (Option Nat) := do
  let n ← getI32
  if n == absentCount then pure none else some <$> checkCount what size n

/-! ### Byte strings and texts -/

/-- A counted byte string. -/
def putBytes (bs : Bytes) : Bytes := putCount bs.length ++ bs

/-- A counted byte string. -/
def getBytes : Reader Bytes := do Reader.take (← getCount "bytes" 1)

/-- The UTF-8 bytes of a text. -/
def textBytes (s : String) : Bytes := s.toByteArray.data.toList

/-- The text with the given UTF-8 bytes, if there is one. -/
def textOfBytes? (bs : Bytes) : Option String := String.fromUTF8? ⟨bs.toArray⟩

/-- A counted text. -/
def putText (s : String) : Bytes := putBytes (textBytes s)

/-- A counted text, or the absent count. -/
def putText? : Option String → Bytes
  | some s => putText s
  | none => putI32 absentCount

/-- The next `n` bytes as a text. -/
def getTextOf (n : Nat) : Reader String := do
  match textOfBytes? (← Reader.take n) with
  | some s => pure s
  | none => Reader.fail .badText

/-- A text, or nothing where the count says that it is absent. -/
def getText? : Reader (Option String) := do
  match ← getCount? "string" 1 with
  | none => pure none
  | some n => some <$> getTextOf n

/-- A text that must not be absent. -/
def getText : Reader String := do
  match ← getText? with
  | some s => pure s
  | none => Reader.fail (.badLength "string" absentCount.toInt)

/-! ### Sequences -/

/-- A counted sequence of optional texts. -/
def putTexts (ss : List (Option String)) : Bytes := putCount ss.length ++ ss.flatMap putText?

/-- A counted sequence of optional texts. -/
def getTexts : Reader (List (Option String)) := do
  Reader.times getText? (← getCount "string array" 4)

/-- An optional sequence of optional texts. -/
def putTexts? : Option (List (Option String)) → Bytes
  | some ss => putTexts ss
  | none => putI32 absentCount

/-- An optional sequence of optional texts. -/
def getTexts? : Reader (Option (List (Option String))) := do
  match ← getCount? "string array" 4 with
  | none => pure none
  | some n => some <$> Reader.times getText? n

/-- A counted sequence of signed numbers. -/
def putInts (xs : List Int32) : Bytes := putCount xs.length ++ xs.flatMap putI32

/-- A counted sequence of signed numbers. -/
def getInts : Reader (List Int32) := do Reader.times getI32 (← getCount "int array" 4)

/-- An optional sequence of signed numbers. -/
def putInts? : Option (List Int32) → Bytes
  | some xs => putInts xs
  | none => putI32 absentCount

/-- An optional sequence of signed numbers. -/
def getInts? : Reader (Option (List Int32)) := do
  match ← getCount? "int array" 4 with
  | none => pure none
  | some n => some <$> Reader.times getI32 n

end EngineLink.Wire

namespace EngineLink

/-- A type with one fixed layout on the wire. -/
class WireForm (α : Type) where
  /-- The bytes of a value. -/
  put : α → Bytes
  /-- The value at the front of the input. -/
  get : Reader α

end EngineLink
