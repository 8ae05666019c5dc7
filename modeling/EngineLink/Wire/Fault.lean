import EngineLink.Text.Hex

/-!
# Faults of the wire format

What can be wrong with bytes on the wire, or with a value that has to be put there.

## Main definitions

* `WireFault` — the causes
* `WireFault.message` — the text a client is shown
-/

namespace EngineLink

/-- Malformed or unexpected content on the wire. -/
inductive WireFault where
  /-- Fewer bytes are left than the next field needs. -/
  | endOfInput (needed remaining : Nat)
  /-- A tag byte of the kind `what` has no meaning. -/
  | unknownTag (what : String) (tag : Int32)
  /-- A length field of the kind `what` is negative, or a number that no length field holds. -/
  | badLength (what : String) (length : Int)
  /-- More nesting or more entries than the limits allow. -/
  | overLimit (what : String) (count limit : Nat)
  /-- A text whose bytes are not UTF-8. -/
  | badText
  /-- Bytes are left after a complete message. -/
  | trailingBytes (count : Nat)
  /-- A value without payload was to be written with its payload. -/
  | shapeOnly
  deriving DecidableEq, Repr

namespace WireFault

/-- The text of a fault. A tag is shown as the unsigned word that has the same bits. -/
def message : WireFault → String
  | endOfInput needed remaining =>
    s!"unexpected end of input: needed {needed} bytes, {remaining} remaining"
  | unknownTag what tag =>
    "unknown " ++ what ++ " tag: " ++ Text.prefixedHex tag.toUInt32.toNat
  | badLength what length => s!"invalid {what} length: {length}"
  | overLimit what count limit => s!"{what} of {count} exceeds the limit of {limit}"
  | badText => "string is not valid UTF-8"
  | trailingBytes count => s!"{count} trailing bytes after message"
  | shapeOnly => "value carries only its shape and cannot be encoded with data"

/-- The fault of meeting the tag byte `tag` where a `what` was expected. -/
def unknownByte (what : String) (tag : UInt8) : WireFault :=
  .unknownTag what (Int32.ofNat tag.toNat)

end WireFault

end EngineLink
