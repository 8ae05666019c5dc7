import EngineLink.Number.Real

/-!
# Stores

A store is the payload of a vector or an array: a sequence of elements of one kind. A store can
also be a mere shape, which has a kind and a length but no elements.

## Main definitions

* `StoreKind` — the kinds of elements, and their one-byte tags
* `Factor` — labelled categories, coded from 1
* `StoreShape` — kind and length without elements
* `Store` — a payload or a shape
* `Store.shape` — the shape of a store
-/

namespace EngineLink

/-- The kinds of elements that a store holds. -/
inductive StoreKind where
  | logical | integer | numeric | complex | character | raw | factor
  deriving DecidableEq, Repr, Inhabited

namespace StoreKind

/-- The byte that stands for a kind. -/
def tag : StoreKind → UInt8
  | logical => 1
  | integer => 2
  | numeric => 3
  | complex => 4
  | character => 5
  | raw => 6
  | factor => 10

/-- The kind that a byte stands for. -/
def ofTag? (tag : UInt8) : Option StoreKind :=
  [logical, integer, numeric, complex, character, raw, factor].find? (·.tag == tag)

@[simp] theorem ofTag?_tag (k : StoreKind) : ofTag? k.tag = some k := by cases k <;> decide

/-- The name of a kind. -/
def name : StoreKind → String
  | logical => "logical"
  | integer => "integer"
  | numeric => "numeric"
  | complex => "complex"
  | character => "character"
  | raw => "raw"
  | factor => "factor"

end StoreKind

/-- The missing value of an integer store, which is also the least 32-bit integer. -/
def missingInt : Int32 := Int32.minValue

/-- Names of elements; an entry may be missing. -/
abbrev Names := List (Option String)

/-- Labelled categories. -/
structure Factor where
  /-- The category of each element, counted from 1; 0 and `missingInt` mark a missing one. -/
  codes : List Int32
  /-- The labels of the categories. -/
  levels : List String
  /-- Whether the order of the categories matters. -/
  ordered : Bool
  deriving DecidableEq, Repr

namespace Factor

/-- Whether there is an element at `i` and its category is missing. -/
def isMissing (f : Factor) (i : Nat) : Bool :=
  match f.codes[i]? with
  | some c => c == 0 || c == missingInt
  | none => false

/-- The label of the element at `i`, if its code is that of a category. -/
def label? (f : Factor) (i : Nat) : Option String := do
  let c ← f.codes[i]?
  if c ≤ 0 then none else f.levels[c.toNatClampNeg - 1]?

end Factor

/-- A store without its elements. -/
structure StoreShape where
  /-- The kind of the absent elements. -/
  kind : StoreKind
  /-- The number of the absent elements. -/
  length : Nat
  /-- For a factor: whether it is ordered, and the number of its levels. -/
  factor : Option (Bool × Nat)
  deriving DecidableEq, Repr

/-- A sequence of elements of one kind, or the shape of one. -/
inductive Store where
  | logical (xs : List (Option Bool))
  | integer (xs : List Int32)
  | numeric (xs : List Real)
  | complex (xs : List Complex)
  | character (xs : List (Option String))
  | raw (xs : List UInt8)
  | factor (f : Factor)
  | shape (s : StoreShape)
  deriving DecidableEq

namespace Store

/-- The kind of the elements. -/
def kind : Store → StoreKind
  | logical _ => .logical
  | integer _ => .integer
  | numeric _ => .numeric
  | complex _ => .complex
  | character _ => .character
  | raw _ => .raw
  | factor _ => .factor
  | shape s => s.kind

/-- The number of elements. -/
def length : Store → Nat
  | logical xs => xs.length
  | integer xs => xs.length
  | numeric xs => xs.length
  | complex xs => xs.length
  | character xs => xs.length
  | raw xs => xs.length
  | factor f => f.codes.length
  | shape s => s.length

/-- Whether there are no elements. -/
def isEmpty (s : Store) : Bool := s.length == 0

/-- Whether the store has no payload. -/
def isShape : Store → Bool
  | shape _ => true
  | _ => false

/-- Whether there is an element at `i` and it is missing. -/
def isMissing (s : Store) (i : Nat) : Bool :=
  match s with
  | logical xs => xs[i]? == some none
  | integer xs => xs[i]? == some missingInt
  | numeric xs => xs[i]?.any Real.isMissing
  | complex xs => xs[i]?.any Complex.isMissing
  | character xs => xs[i]? == some none
  | raw _ | shape _ => false
  | factor f => f.isMissing i

/-- The kind, the length and the factor details of a store. -/
def outline : Store → StoreShape
  | factor f => ⟨.factor, f.codes.length, some (f.ordered, f.levels.length)⟩
  | shape s => s
  | s => ⟨s.kind, s.length, none⟩

/-- The store without its payload. -/
def toShape (s : Store) : Store := shape s.outline

end Store

end EngineLink
