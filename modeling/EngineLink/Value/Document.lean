import EngineLink.Json.Parts
import EngineLink.Text.Hex
import EngineLink.Value.Basic

/-!
# Documents of values

For inspection, stores and values can be written as JSON documents, and read from them. Reals are
written as the digits of their bits, so that nothing is lost. A document may abbreviate nested lists
by `nest` and repeated elements by `rep`.

## Main definitions

* `Value.toDocument`, `Value.ofDocument?` — the document of a value, and the value of a document
* the instances of `JsonForm` for reals, complex numbers, stores and values
-/

namespace EngineLink

instance : JsonForm Real where
  toJson r := .str (Text.hexOfWord r.bits)
  ofInput? x := do return ⟨← Text.wordOfHex? (← ofInput? x)⟩

instance : JsonForm Complex where
  toJson z := toJson (z.re, z.im)
  ofInput? x := do
    let (re, im) ← ofInput? x
    return .ofParts re im

instance : JsonForm StoreKind :=
  .ofWords StoreKind.name [.logical, .integer, .numeric, .complex, .character, .raw, .factor]

/-- The document of bytes. -/
def Json.ofBytes (bytes : List UInt8) : Json := .str (Text.hexOfBytes bytes)

/-- The bytes in a field. -/
def Json.bytes? (j : Json) (name : String) : Option (List UInt8) := do
  Text.bytesOfHex? (← j.get? name)

namespace Store

/-- The document of a store, given the document of a real. -/
def toDocument (real : Real → Json) : Store → Json
  | logical xs => .obj [("t", .str "logical"), ("v", toJson xs)]
  | integer xs => .obj [("t", .str "integer"), ("v", toJson xs)]
  | numeric xs => .obj [("t", .str "numeric"), ("v", .arr (xs.map real))]
  | complex zs =>
    .obj [("t", .str "complex"), ("v", .arr (zs.map fun z => .arr [real z.re, real z.im]))]
  | character xs => .obj [("t", .str "character"), ("v", toJson xs)]
  | raw xs => .obj [("t", .str "raw"), ("v", .ofBytes xs)]
  | factor f => .obj [("t", .str "factor"), ("codes", toJson f.codes), ("levels", toJson f.levels),
      ("ordered", toJson f.ordered)]
  | shape s => .obj [("t", .str "struct"), ("of", toJson s.kind), ("length", toJson s.length),
      ("factor", toJson s.factor)]

instance : JsonForm Store where
  toJson := toDocument toJson
  ofInput? x := do
    let j := x.json
    let kind : String ← j.get? "t"
    match kind with
    | "logical" => logical <$> j.get? "v"
    | "integer" => integer <$> j.get? "v"
    | "numeric" => numeric <$> j.get? "v"
    | "complex" => complex <$> j.get? "v"
    | "character" => character <$> j.get? "v"
    | "raw" => raw <$> j.bytes? "v"
    | "factor" =>
      return factor ⟨← j.get? "codes", ← j.get? "levels", j.getOr "ordered" false⟩
    | "struct" => return shape ⟨← j.get? "of", ← j.get? "length", ← j.get? "factor"⟩
    | _ => none

end Store

namespace Value

mutual

/-- The document of a value. -/
def toDocument : Value → Json
  | null => .obj [("k", .str "null")]
  | missing => .obj [("k", .str "missing")]
  | vector cls store names attrs => .obj [("k", .str "vector"), ("class", toJson cls),
      ("store", toJson store), ("names", toJson names), ("attrs", attrsDocument attrs)]
  | array cls store dim dimnames attrs => .obj [("k", .str "array"), ("class", toJson cls),
      ("store", toJson store), ("dim", toJson dim), ("dimnames", toJson dimnames),
      ("attrs", attrsDocument attrs)]
  | list cls elements names attrs => .obj [("k", .str "list"), ("class", toJson cls),
      ("elements", .arr (listDocuments elements)), ("names", toJson names),
      ("attrs", attrsDocument attrs)]
  | dataFrame cls columns columnNames rowCount rowNames attrs => .obj [("k", .str "data_frame"),
      ("class", toJson cls), ("columns", .arr (listDocuments columns)),
      ("column_names", toJson columnNames), ("row_count", toJson rowCount),
      ("row_names", toJson rowNames), ("attrs", attrsDocument attrs)]
  | environment name handle bindings => .obj [("k", .str "environment"), ("name", toJson name),
      ("handle", toJson handle), ("bindings", .arr (pairDocuments bindings))]
  | function header => .obj [("k", .str "function"), ("header", toJson header)]
  | object cls slots => .obj [("k", .str "s4"), ("class", toJson cls),
      ("slots", .arr (pairDocuments slots))]
  | reference handle cls => .obj [("k", .str "reference"), ("handle", toJson handle),
      ("class", toJson cls)]
  | other cls => .obj [("k", .str "other"), ("class", toJson cls)]

/-- The documents of values. -/
def listDocuments : List Value → List Json
  | [] => []
  | v :: vs => v.toDocument :: listDocuments vs

/-- The documents of named values. -/
def pairDocuments : List (String × Value) → List Json
  | [] => []
  | (name, v) :: rest => .arr [.str name, v.toDocument] :: pairDocuments rest

/-- The document of attributes. -/
def attrsDocument : Option (List (String × Value)) → Json
  | none => .null
  | some attrs => .arr (pairDocuments attrs)

end

/-- A value within `n` plain lists of one element. -/
def nest (v : Value) : Nat → Value
  | 0 => v
  | n + 1 => .ofList [v.nest n]

/-- The value of a document. -/
def ofDocument? (j : Json) : Option Value := do
  let attrs : Option (Option Attributes) :=
    if j.lacks "attrs" then some none
    else do
      let pairs ← (← j.namedParts? "attrs").mapM fun (name, ⟨x, _⟩) =>
        (ofDocument? x).map (name, ·)
      return some pairs
  let kind : String ← j.get? "k"
  match kind with
  | "null" => return null
  | "missing" => return missing
  | "vector" => return vector (← j.get? "class") (← j.get? "store") (← j.get? "names") (← attrs)
  | "array" =>
    return array (← j.get? "class") (← j.get? "store") (← j.get? "dim") (← j.get? "dimnames")
      (← attrs)
  | "list" =>
    let elements ← (← j.parts? "elements").mapM fun ⟨x, _⟩ => ofDocument? x
    return list (← j.get? "class") elements (← j.get? "names") (← attrs)
  | "data_frame" =>
    let columns ← (← j.parts? "columns").mapM fun ⟨x, _⟩ => ofDocument? x
    return dataFrame (← j.get? "class") columns (← j.get? "column_names") (← j.get? "row_count")
      (← j.get? "row_names") (← attrs)
  | "environment" =>
    let bindings ← (← j.namedParts? "bindings").mapM fun (name, ⟨x, _⟩) =>
      (ofDocument? x).map (name, ·)
    return environment (← j.get? "name") (← j.get? "handle") bindings
  | "function" => return function (← j.get? "header")
  | "s4" =>
    let slots ← (← j.namedParts? "slots").mapM fun (name, ⟨x, _⟩) =>
      (ofDocument? x).map (name, ·)
    return object (← j.get? "class") slots
  | "reference" => return reference (← j.get? "handle") (← j.get? "class")
  | "other" => return other (← j.get? "class")
  | "nest" =>
    let ⟨x, _⟩ ← j.part? "of"
    return (← ofDocument? x).nest (← j.get? "n")
  | "rep" =>
    let ⟨x, _⟩ ← j.part? "of"
    return .ofList (List.replicate (← j.get? "n") (← ofDocument? x))
  | _ => none
termination_by sizeOf j

instance : JsonForm Value where
  toJson := toDocument
  ofInput? x := ofDocument? x.json

end Value

end EngineLink
