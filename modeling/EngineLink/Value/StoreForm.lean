import EngineLink.Value.Limits
import EngineLink.Value.Store
import EngineLink.Wire.Primitive

/-!
# Stores on the wire

A store is written as the tag of its kind, its length, and in full mode its elements. In shape mode
a factor adds whether it is ordered and the number of its levels.

## Main definitions

* `Store.put`, `Store.get` — a store in a given mode
-/

namespace EngineLink

open Wire

/-! ### Elements -/

/-- The byte of a logical. -/
def logicalTag : Option Bool → UInt8
  | some false => 0
  | some true => 1
  | none => 2

/-- The logical that a byte stands for. -/
def logicalOfTag? (tag : UInt8) : Option (Option Bool) :=
  [some false, some true, none].find? (logicalTag · == tag)

/-- A real is written as its bits. -/
def Real.put (r : Real) : Bytes := putU64 r.bits

/-- A real is read as its bits. -/
def Real.get : Reader Real := Real.mk <$> getU64

/-- All real parts come before all imaginary parts. -/
def Complex.putAll (zs : List Complex) : Bytes :=
  zs.flatMap (·.re.put) ++ zs.flatMap (·.im.put)

/-- `n` complex numbers, brought into regular form. -/
def Complex.getAll (n : Nat) : Reader (List Complex) := do
  let res ← Real.get.times n
  let ims ← Real.get.times n
  pure (List.zipWith Complex.ofParts res ims)

/-- A factor: length, order, labels, codes. -/
def Factor.put (f : Factor) : Bytes :=
  putCount f.codes.length ++ putBool f.ordered ++ putCount f.levels.length ++
    f.levels.flatMap putText ++ f.codes.flatMap putI32

/-- A length that need not be backed by bytes. -/
def getLength (what : String) : Reader Nat := do checkCount what 0 (← getI32)

/-- A factor. Its length is checked only after the labels have been read. -/
def Factor.get : Reader Factor := do
  let n ← getI32
  let ordered ← getBool
  let levels ← getText.times (← getCount "factor levels" 4)
  let n ← checkCount "factor" 4 n
  let codes ← getI32.times n
  pure ⟨codes, levels, ordered⟩

/-! ### Shapes -/

/-- A shape without its tag. A factor without details counts as unordered and without levels. -/
def StoreShape.put (s : StoreShape) : Bytes :=
  putCount s.length ++
    match s.kind with
    | .factor =>
      let (ordered, levels) := s.factor.getD (false, 0)
      putBool ordered ++ putCount levels
    | _ => []

/-- The shape of a store of the given kind. -/
def StoreShape.get (kind : StoreKind) : Reader StoreShape := do
  let length ← getLength "store"
  match kind with
  | .factor => do
    let ordered ← getBool
    let levels ← getLength "factor levels"
    pure ⟨kind, length, some (ordered, levels)⟩
  | _ => pure ⟨kind, length, none⟩

/-! ### Stores -/

namespace Store

/-- The elements of a store behind their number. A shape has none to write. -/
def putElements : Store → Except WireFault Bytes
  | logical xs => .ok (putCount xs.length ++ xs.map logicalTag)
  | integer xs => .ok (putInts xs)
  | numeric xs => .ok (putCount xs.length ++ xs.flatMap Real.put)
  | complex xs => .ok (putCount xs.length ++ Complex.putAll xs)
  | character xs => .ok (putTexts xs)
  | raw xs => .ok (putBytes xs)
  | factor f => .ok f.put
  | shape _ => .error .shapeOnly

/-- The elements of a store of the given kind. -/
def getElements : StoreKind → Reader Store
  | .logical => do
    logical <$> (getTag "logical" logicalOfTag?).times (← getCount "logical" 1)
  | .integer => integer <$> getInts
  | .numeric => do numeric <$> Real.get.times (← getCount "numeric" 8)
  | .complex => do complex <$> Complex.getAll (← getCount "complex" 16)
  | .character => character <$> getTexts
  | .raw => raw <$> getBytes
  | .factor => factor <$> Factor.get

/-- A store in a given mode. -/
def put (mode : Coding) (s : Store) : Except WireFault Bytes :=
  match mode with
  | .shape => .ok (s.kind.tag :: s.outline.put)
  | .full => (s.kind.tag :: ·) <$> s.putElements

/-- A store in a given mode. -/
def get (mode : Coding) : Reader Store := do
  let kind ← getTag "store" StoreKind.ofTag?
  match mode with
  | .shape => shape <$> StoreShape.get kind
  | .full => getElements kind

end Store

end EngineLink
