import EngineLink.Json.Text
import EngineLink.Text.Hex

/-!
# Client identities

Each attachment of a client to a slot has an identity of its own, so that a client that comes back
late is never taken for the one that is attached now. Identities are numbers of 128 bits, written
in groups of hexadecimal digits.

## Main definitions

* `ClientId` — an identity
* `ClientId.text`, `ClientId.parse?` — its written form
-/

namespace EngineLink

/-- The identity of one attachment of a client. -/
structure ClientId where
  number : Nat
  deriving DecidableEq, Repr, Inhabited

namespace ClientId

/-- The lengths of the groups of digits. -/
def groups : List Nat := [8, 4, 4, 4, 12]

/-- The number of digits. -/
def digitCount : Nat := 32

/-- The last `n` hexadecimal digits of a number. -/
def lastDigits (number : Nat) : Nat → List Char
  | 0 => []
  | n + 1 => lastDigits (number / 16) n ++ [Text.hexDigit number]

/-- Join consecutive groups of digits by hyphens. -/
def joinGroups : List Nat → List Char → List Char
  | [], _ => []
  | [n], ds => ds.take n
  | n :: rest, ds => ds.take n ++ '-' :: joinGroups rest (ds.drop n)

/-- The written form of an identity. -/
def text (c : ClientId) : String :=
  String.ofList (joinGroups groups (lastDigits c.number digitCount))

/-- The identity with the given digits. -/
def ofDigits? (ds : List Char) : Option ClientId :=
  if ds.length = digitCount then
    ds.foldlM (fun n d => do some (16 * n + (← Text.hexValue? d))) 0 |>.map ClientId.mk
  else none

/-- The digits between the hyphens of grouped digits. -/
def splitGroups? : List Nat → List Char → Option (List Char)
  | [], _ => none
  | [n], cs => if cs.length = n then some cs else none
  | n :: rest, cs =>
    match cs.drop n with
    | '-' :: more => do some (cs.take n ++ (← splitGroups? rest more))
    | _ => none

/-- The identity with the given groups of digits. -/
def ofGroups? (cs : List Char) : Option ClientId := do ofDigits? (← splitGroups? groups cs)

/-- The digits in braces, if the text is in braces. -/
def inBraces? (cs : List Char) : Option (List Char) :=
  match cs with
  | '\x7b' :: rest => if rest.getLast? = some '\x7d' then some rest.dropLast else none
  | _ => none

/-- What follows `urn:uuid:`, whose letters may be of either case. -/
def afterScheme? (cs : List Char) : Option (List Char) :=
  let scheme := "urn:uuid:".toList
  if scheme.isPrefixOf (cs.map Char.toLower) then some (cs.drop scheme.length) else none

/-- The identity that a text stands for: 32 digits, groups joined by hyphens, groups in braces, or
groups behind `urn:uuid:`. -/
def parse? (s : String) : Option ClientId :=
  let cs := s.toList
  ofDigits? cs <|> ofGroups? cs <|> (do ofGroups? (← inBraces? cs)) <|>
    (do ofGroups? (← afterScheme? cs))

instance : JsonForm ClientId where
  toJson c := .str c.text
  ofInput? x := do parse? (← ofInput? x)

end ClientId

end EngineLink
