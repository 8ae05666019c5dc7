import EngineLink.Value.Store

/-!
# Values

The values that travel between the engine and its clients. Vectors and arrays carry a store; lists,
data frames, environments and objects with slots nest other values; a reference stands for an
object that stayed in the engine.

## Main definitions

* `Value` — a value
* `Value.className` — the class that the engine reports for a value
* `Value.isLeaf` — values that never nest others
* `Attributes` — ordered attributes, with `insert` and `get?`
* `Value.element?`, `Value.rowName?` — look-ups by name and by row
-/

namespace EngineLink

/-- A value of the engine. The class of a vector, array, list or data frame overrides the one that
its contents imply. -/
inductive Value where
  /-- The null value. -/
  | null
  /-- The missing argument. -/
  | missing
  /-- A vector. -/
  | vector (cls : Option String) (store : Store) (names : Option Names)
      (attrs : Option (List (String × Value)))
  /-- An array. `dimnames` has one entry per dimension. -/
  | array (cls : Option String) (store : Store) (dim : List Int32)
      (dimnames : Option (List (Option Names))) (attrs : Option (List (String × Value)))
  /-- A list of values. -/
  | list (cls : Option String) (elements : List Value) (names : Option Names)
      (attrs : Option (List (String × Value)))
  /-- A table. Without `rowNames` the rows are named by their numbers from 1. -/
  | dataFrame (cls : Option String) (columns : List Value) (columnNames : Names)
      (rowCount : Nat) (rowNames : Option Names) (attrs : Option (List (String × Value)))
  /-- An environment; `handle` lets a client resolve it again. -/
  | environment (name : String) (handle : UInt64) (bindings : List (String × Value))
  /-- A function, of which only the header travels. -/
  | function (header : String)
  /-- An object with slots. -/
  | object (cls : String) (slots : List (String × Value))
  /-- A placeholder for an object left in the engine; the handle 0 never resolves. -/
  | reference (handle : UInt64) (cls : Option String)
  /-- Anything else. -/
  | other (cls : String)

/-- Ordered attributes of a value. -/
abbrev Attributes := List (String × Value)

namespace Attributes

/-- Set an attribute. An attribute that is there already keeps its position. -/
def insert : Attributes → String → Value → Attributes
  | [], name, v => [(name, v)]
  | (n, w) :: rest, name, v =>
    if n == name then (n, v) :: rest else (n, w) :: insert rest name v

/-- The first attribute of the given name. -/
def get? (as : Attributes) (name : String) : Option Value := as.lookup name

end Attributes

namespace Value

/-- A vector of a given store and nothing else. -/
def ofStore (s : Store) : Value := vector none s none none

/-- A plain list of given elements. -/
def ofList (vs : List Value) : Value := list none vs none none

/-- The class that the engine reports for a value. -/
def className : Value → String
  | null => "NULL"
  | missing => "name"
  | vector cls store _ _ => cls.getD store.kind.name
  | array cls _ dim _ _ => cls.getD (if dim.length = 2 then "matrix" else "array")
  | list cls .. => cls.getD "list"
  | dataFrame cls .. => cls.getD "data.frame"
  | environment .. => "environment"
  | function _ => "function"
  | object cls _ => cls
  | reference _ cls => cls.getD ""
  | other cls => cls

/-- Whether a value is of a kind that never nests other values. -/
def isLeaf : Value → Bool
  | null | missing | function _ | reference .. | other _ => true
  | _ => false

/-- The store of a vector or an array. -/
def store? : Value → Option Store
  | vector _ s _ _ | array _ s _ _ _ => some s
  | _ => none

/-- The attributes of a value, where it has any. -/
def attributes? : Value → Option Attributes
  | vector _ _ _ as | array _ _ _ _ as | list _ _ _ as | dataFrame _ _ _ _ _ as => as
  | _ => none

/-- The first element of a list that has the given name. -/
def element? : Value → String → Option Value
  | list _ elements (some names) _, name => do
    let i ← names.findIdx? (· == some name)
    elements[i]?
  | _, _ => none

/-- The name of a row of a data frame. -/
def rowName? : Value → Nat → Option String
  | dataFrame _ _ _ _ (some names) _, row => names[row]?.join
  | dataFrame _ _ _ rowCount none _, row =>
    if row < rowCount then some (toString (row + 1)) else none
  | _, _ => none

/-- The handle by which a value that is left out can be asked for: that of an environment, or the
one that never resolves. -/
def placeholderHandle : Value → UInt64
  | environment _ handle _ => handle
  | _ => 0

/-- The reference that takes the place of a value which is too deep or too large. -/
def placeholder (v : Value) : Value := reference v.placeholderHandle (some v.className)

end Value

end EngineLink
