import EngineLink.Json.Number
import EngineLink.Text.Hex

/-!
# Reading JSON texts

A text is a JSON document when it consists of one document with blanks around it. Some parts are
well formed and yet stand for nothing: a text or a name with half of a surrogate pair, a number
beyond all doubles, and arrays and objects within more than 127 others. These are unreadable, so
that they do no harm where nobody reads them.

## Main definitions

* `Json.string?`, `Json.scalar?` — a text, or a document that does not nest
* `Json.skip?` — what is left behind arrays and objects that are passed over
* `Json.value?` — the document at the front of a text
* `Json.parse?` — the document that a text is
-/

namespace EngineLink.Json

/-- The characters that may stand between the parts of a document. -/
def isSpace (c : Char) : Bool := c == ' ' || c == '\n' || c == '\t' || c == '\r'

/-- The text after the leading blanks. -/
def skipSpace (cs : List Char) : List Char := cs.dropWhile isSpace

/-! ### Texts -/

/-- The number written by four hexadecimal digits. -/
def fourHex? : List Char → Option (Nat × List Char)
  | a :: b :: c :: d :: rest => do
    let n := (← Text.hexValue? a) * 4096 + (← Text.hexValue? b) * 256 +
      (← Text.hexValue? c) * 16 + (← Text.hexValue? d)
    some (n, rest)
  | _ => none

/-- The character that a one-character escape stands for. -/
def shortEscape? : Char → Option Char
  | '"' => some '"'
  | '\\' => some '\\'
  | '/' => some '/'
  | 'b' => some '\x08'
  | 'f' => some '\x0c'
  | 'n' => some '\n'
  | 'r' => some '\r'
  | 't' => some '\t'
  | _ => none

/-- The code points of a text up to its closing quote, of which the opening quote is gone. The two
halves of a surrogate pair count one by one. -/
def codePoints? : Nat → List Char → Option (List Nat × List Char)
  | 0, _ => none
  | _, [] => none
  | _, '"' :: rest => some ([], rest)
  | fuel + 1, '\\' :: 'u' :: more => do
    let (n, rest) ← fourHex? more
    let (ns, rest) ← codePoints? fuel rest
    some (n :: ns, rest)
  | fuel + 1, '\\' :: e :: more => do
    let c ← shortEscape? e
    let (ns, rest) ← codePoints? fuel more
    some (c.toNat :: ns, rest)
  | fuel + 1, c :: more =>
    if c.toNat < 0x20 ∨ c = '\\' then none
    else do
      let (ns, rest) ← codePoints? fuel more
      some (c.toNat :: ns, rest)

/-- Whether a code point is the first half of a surrogate pair. -/
def isHighHalf (n : Nat) : Bool := 0xD800 ≤ n && n ≤ 0xDBFF

/-- Whether a code point is the second half of a surrogate pair. -/
def isLowHalf (n : Nat) : Bool := 0xDC00 ≤ n && n ≤ 0xDFFF

/-- The characters of code points, provided that each half of a surrogate pair meets the other. -/
def characters? : List Nat → Option (List Char)
  | [] => some []
  | [n] => if isHighHalf n || isLowHalf n then none else some [Char.ofNat n]
  | n :: m :: rest =>
    if isHighHalf n then
      if isLowHalf m then
        (Char.ofNat (0x10000 + (n - 0xD800) * 0x400 + (m - 0xDC00)) :: ·) <$> characters? rest
      else none
    else if isLowHalf n then none
    else (Char.ofNat n :: ·) <$> characters? (m :: rest)

/-- A text, of which the opening quote is gone. It is missing if it is unreadable. -/
def string? (cs : List Char) : Option (Option String × List Char) := do
  let (ns, rest) ← codePoints? (cs.length + 1) cs
  some (String.ofList <$> characters? ns, rest)

/-- The name of a field and the colon behind it. -/
def name? (cs : List Char) : Option (Option String × List Char) :=
  match skipSpace cs with
  | '"' :: rest => do
    let (name, rest) ← string? rest
    match skipSpace rest with
    | ':' :: rest => some (name, rest)
    | _ => none
  | _ => none

/-- A document that does not nest. -/
def scalar? : List Char → Option (Json × List Char)
  | '"' :: rest => do
    let (s, rest) ← string? rest
    some ((str <$> s).getD unreadable, rest)
  | 't' :: 'r' :: 'u' :: 'e' :: rest => some (bool true, rest)
  | 'f' :: 'a' :: 'l' :: 's' :: 'e' :: rest => some (bool false, rest)
  | 'n' :: 'u' :: 'l' :: 'l' :: rest => some (null, rest)
  | cs => number? cs

/-! ### Passing over -/

/-- What comes next within arrays and objects. -/
inductive Expected where
  /-- An element or a field, or the end. -/
  | first
  /-- An element or a field. -/
  | part
  /-- A comma, or the end. -/
  | next

/-- The text behind arrays and objects that are open, given the closing brackets of all of them from
the innermost to the outermost. `fuel` bounds the length. -/
def skip? : Nat → Expected → List Char → List Char → Option (List Char)
  | _, _, [], cs => some cs
  | 0, _, _, _ => none
  | fuel + 1, .next, close :: outer, cs =>
    match skipSpace cs with
    | ',' :: rest => skip? fuel .part (close :: outer) rest
    | c :: rest => if c = close then skip? fuel .next outer rest else none
    | [] => none
  | fuel + 1, expected, close :: outer, cs =>
    match expected, skipSpace cs with
    | .first, c :: rest =>
      if c = close then skip? fuel .next outer rest
      else skip? fuel .part (close :: outer) (c :: rest)
    | _, cs => do
      let rest ← if close = '\x7d' then Prod.snd <$> name? cs else some cs
      match skipSpace rest with
      | '[' :: rest => skip? fuel .first (']' :: close :: outer) rest
      | '\x7b' :: rest => skip? fuel .first ('\x7d' :: close :: outer) rest
      | rest => skip? fuel .next (close :: outer) (← scalar? rest).2

/-- The unreadable array or object with the given closing bracket, of which the opening one is
gone. -/
def beyond? (close : Char) (cs : List Char) : Option (Json × List Char) :=
  (unreadable, ·) <$> skip? (2 * cs.length + 2) .first [close] cs

/-! ### Documents -/

/-- The object with the given fields, all of whose names have to be readable. -/
def ofFields (fields : List (Option String × Json)) : Json :=
  match fields.mapM fun (name, j) => (·, j) <$> name with
  | some fields => obj fields
  | none => unreadable

mutual

/-- The document at the front of a text. `depth` bounds the nesting and `fuel` the length. -/
def value? : Nat → Nat → List Char → Option (Json × List Char)
  | 0, _, _ => none
  | fuel + 1, depth, cs =>
    match skipSpace cs, depth with
    | '[' :: rest, 0 => beyond? ']' rest
    | '\x7b' :: rest, 0 => beyond? '\x7d' rest
    | '[' :: rest, depth + 1 =>
      match skipSpace rest with
      | ']' :: rest => some (arr [], rest)
      | rest => (fun (xs, rest) => (arr xs, rest)) <$> elements? fuel depth rest
    | '\x7b' :: rest, depth + 1 =>
      match skipSpace rest with
      | '\x7d' :: rest => some (obj [], rest)
      | rest => (fun (fs, rest) => (ofFields fs, rest)) <$> fields? fuel depth rest
    | rest, _ => scalar? rest

/-- The elements of an array up to its closing bracket. -/
def elements? : Nat → Nat → List Char → Option (List Json × List Char)
  | 0, _, _ => none
  | fuel + 1, depth, cs => do
    let (x, rest) ← value? fuel depth cs
    match skipSpace rest with
    | ',' :: rest =>
      let (xs, rest) ← elements? fuel depth rest
      some (x :: xs, rest)
    | ']' :: rest => some ([x], rest)
    | _ => none

/-- The fields of an object up to its closing brace. -/
def fields? : Nat → Nat → List Char → Option (List (Option String × Json) × List Char)
  | 0, _, _ => none
  | fuel + 1, depth, cs => do
    let (name, rest) ← name? cs
    let (x, rest) ← value? fuel depth rest
    match skipSpace rest with
    | ',' :: rest =>
      let (fs, rest) ← fields? fuel depth rest
      some ((name, x) :: fs, rest)
    | '\x7d' :: rest => some ([(name, x)], rest)
    | _ => none

end

/-- The deepest nesting of arrays and objects that are readable. -/
def maxNesting : Nat := 127

/-- The document that a text is. -/
def parse? (text : String) : Option Json :=
  let cs := text.toList
  match value? (2 * cs.length + 2) maxNesting cs with
  | some (j, rest) => if (skipSpace rest).isEmpty then some j else none
  | none => none

end EngineLink.Json
