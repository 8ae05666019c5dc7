import EngineLink.Text.Shown
import EngineLink.Value.Basic

/-!
# Values of the engine as they are shown

## Main definitions

* `Store.shown` — a store with all its elements, or with what is known of a shape
* `Value.shown` — a value with all values that are nested in it
-/

namespace EngineLink

open TextForm

instance : TextForm StoreKind where
  shown
    | .logical => "Logical"
    | .integer => "Integer"
    | .numeric => "Numeric"
    | .complex => "Complex"
    | .character => "Character"
    | .raw => "Raw"
    | .factor => "Factor"

instance : TextForm Factor where
  shown f := record "Factor"
    [("codes", shown f.codes), ("levels", shown f.levels), ("ordered", shown f.ordered)]

instance : TextForm StoreShape where
  shown s := record "StoreShape"
    [("store_type", shown s.kind), ("length", shown s.length), ("factor", shown s.factor)]

/-- A store as it is shown. -/
def Store.shown : Store → String
  | logical xs => tuple "Logical" [TextForm.shown xs]
  | integer xs => tuple "Integer" [TextForm.shown xs]
  | numeric xs => tuple "Numeric" [TextForm.shown xs]
  | complex xs => tuple "Complex" [TextForm.shown xs]
  | character xs => tuple "Character" [TextForm.shown xs]
  | raw xs => tuple "Raw" [TextForm.shown xs]
  | factor f => tuple "Factor" [TextForm.shown f]
  | shape s => tuple "Struct" [TextForm.shown s]

namespace Value

/-- A kind of values with the named parts of one of them. -/
def shownAs (kind : String) (fields : List (String × String)) : String :=
  tuple kind [record kind fields]

mutual

/-- A value as it is shown. -/
def shown : Value → String
  | null => "Null"
  | missing => "Missing"
  | vector cls store names attrs =>
    shownAs "Vector" [("class_name", TextForm.shown cls), ("store", store.shown),
      ("names", TextForm.shown names), ("attributes", shownAttrs attrs)]
  | array cls store dim dimnames attrs =>
    shownAs "Array" [("class_name", TextForm.shown cls), ("store", store.shown),
      ("dim", TextForm.shown dim), ("dimnames", TextForm.shown dimnames),
      ("attributes", shownAttrs attrs)]
  | list cls elements names attrs =>
    shownAs "List" [("class_name", TextForm.shown cls),
      ("elements", sequence (shownList elements)), ("names", TextForm.shown names),
      ("attributes", shownAttrs attrs)]
  | dataFrame cls columns columnNames rowCount rowNames attrs =>
    shownAs "DataFrame" [("class_name", TextForm.shown cls),
      ("columns", sequence (shownList columns)), ("column_names", TextForm.shown columnNames),
      ("row_count", TextForm.shown rowCount), ("row_names", TextForm.shown rowNames),
      ("attributes", shownAttrs attrs)]
  | environment name handle bindings =>
    shownAs "Environment" [("name", TextForm.shown name), ("handle", TextForm.shown handle),
      ("bindings", sequence (shownPairs bindings))]
  | function header => shownAs "Function" [("header", TextForm.shown header)]
  | object cls slots =>
    shownAs "S4Object" [("class_name", TextForm.shown cls),
      ("slots", sequence (shownPairs slots))]
  | reference handle cls =>
    shownAs "Reference" [("handle", TextForm.shown handle), ("class_name", TextForm.shown cls)]
  | other cls => record "Other" [("class_name", TextForm.shown cls)]

/-- `shown` of each value. -/
def shownList : List Value → List String
  | [] => []
  | v :: vs => v.shown :: shownList vs

/-- `shown` of each value, with its name. -/
def shownPairs : List (String × Value) → List String
  | [] => []
  | (n, v) :: rest => tuple "" [TextForm.shown n, v.shown] :: shownPairs rest

/-- Attributes as they are shown. -/
def shownAttrs : Option (List (String × Value)) → String
  | none => "None"
  | some as => tuple "Some" [tuple "Attributes" [sequence (shownPairs as)]]

end

end Value

end EngineLink
