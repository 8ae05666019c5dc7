import EngineLink.Json.Basic
import EngineLink.Wire.Primitive
import EngineLink.Value.Store

/-!
# Source references

A source reference tells where a piece of source text begins and ends. Each end is a point with a
line, a column and a byte; a coordinate may be unknown, and one that is not positive says nothing.
References can be taken relative to the begin of another one: lines, columns and bytes then count
from 1, and columns and bytes are known only on the line of that begin.

## Main definitions

* `SourcePoint` — line, column and byte
* `SourceRef` — where a piece of source begins and ends
* `SourceRef.diff?`, `SourceRef.add` — relative references, and back
-/

namespace EngineLink

/-- A coordinate that is not known. -/
def unknownCoord : Int32 := missingInt

/-- A point in a source text. -/
structure SourcePoint where
  line : Int32
  column : Int32
  byte : Int32
  deriving DecidableEq, Repr, Inhabited

namespace SourcePoint

/-- The coordinate as a number, if it is positive. -/
def positive? (x : Int32) : Option Int := if 0 < x then some x.toInt else none

/-- The coordinate `x` counted from 1 at `base`. It is unknown if either of the two is not
positive; there is none if `x` lies before `base`. -/
def relative? (base x : Int32) : Option Int32 :=
  match positive? base, positive? x with
  | some b, some r => if b ≤ r then some (Int32.ofInt (r - b + 1)) else none
  | _, _ => some unknownCoord

/-- The coordinate that counts as `d` from 1 at `base`, unknown beyond 32 bits. -/
def absolute (base d : Int32) : Int32 :=
  match positive? base, positive? d with
  | some b, some d => if b + d - 1 < 0x80000000 then Int32.ofInt (b + d - 1) else unknownCoord
  | _, _ => unknownCoord

/-- The point `p` relative to `base`, if it does not lie before it. -/
def diff? (base p : SourcePoint) : Option SourcePoint := do
  let line ← relative? base.line p.line
  if line = 1 then
    some ⟨line, ← relative? base.column p.column, ← relative? base.byte p.byte⟩
  else some ⟨line, unknownCoord, unknownCoord⟩

/-- The point that is `d` relative to `base`. -/
def add (base d : SourcePoint) : SourcePoint :=
  let line := absolute base.line d.line
  if d.line = 1 then ⟨line, absolute base.column d.column, absolute base.byte d.byte⟩
  else ⟨line, unknownCoord, unknownCoord⟩

end SourcePoint

/-- Where a piece of source text begins and ends. -/
structure SourceRef where
  start : SourcePoint
  stop : SourcePoint
  deriving DecidableEq, Repr, Inhabited

namespace SourceRef

/-- The six coordinates in the order in which they are written: begin line, begin byte, end line,
end byte, begin column, end column. -/
def coords (s : SourceRef) : List Int32 :=
  [s.start.line, s.start.byte, s.stop.line, s.stop.byte, s.start.column, s.stop.column]

/-- The reference with the given coordinates, in the order in which they are written. -/
def ofCoords? : List Int32 → Option SourceRef
  | [beginLine, beginByte, endLine, endByte, beginColumn, endColumn] =>
    some ⟨⟨beginLine, beginColumn, beginByte⟩, ⟨endLine, endColumn, endByte⟩⟩
  | _ => none

@[simp] theorem ofCoords?_coords (s : SourceRef) : ofCoords? s.coords = some s := rfl

/-- The reference between two lines and columns, with bytes equal to columns. -/
def span (beginLine beginColumn endLine endColumn : Int32) : SourceRef :=
  ⟨⟨beginLine, beginColumn, beginColumn⟩, ⟨endLine, endColumn, endColumn⟩⟩

/-- The coordinates that are known. -/
def known (s : SourceRef) : List (Option Int32) :=
  s.coords.map fun x => if x = unknownCoord then none else some x

/-- The reference `rel` relative to the begin of `base`, if it does not lie before it. -/
def diff? (base rel : SourceRef) : Option SourceRef := do
  some ⟨← base.start.diff? rel.start, ← base.start.diff? rel.stop⟩

/-- The reference that is `rel` relative to the begin of `base`. -/
def add (base rel : SourceRef) : SourceRef :=
  ⟨base.start.add rel.start, base.start.add rel.stop⟩

instance : WireForm SourceRef where
  put s := s.coords.flatMap Wire.putI32
  get := do
    let beginLine ← Wire.getI32
    let beginByte ← Wire.getI32
    let endLine ← Wire.getI32
    let endByte ← Wire.getI32
    let beginColumn ← Wire.getI32
    let endColumn ← Wire.getI32
    pure ⟨⟨beginLine, beginColumn, beginByte⟩, ⟨endLine, endColumn, endByte⟩⟩

instance : JsonForm SourceRef where
  toJson s := toJson s.coords
  ofInput? x := do ofCoords? (← ofInput? x)

end SourceRef

/-- An optional part is written behind a truth value that tells whether it is there. -/
instance {α : Type} [WireForm α] : WireForm (Option α) where
  put
    | some x => Wire.putBool true ++ WireForm.put x
    | none => Wire.putBool false
  get := do Reader.onlyIf (← Wire.getBool) WireForm.get

end EngineLink
