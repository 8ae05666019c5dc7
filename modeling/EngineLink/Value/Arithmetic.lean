import EngineLink.Engine.Fault
import EngineLink.Value.Store

/-!
# Arithmetic on stores

Element-wise arithmetic and sums. Kinds are ordered logical, integer, numeric, complex; an
operation takes place in the larger of the two kinds, where logicals count as integers and a
division is never an integer one. A missing operand makes the result missing, and so does an
integer result outside the range of integers, whose least number stands for the missing one.

## Main definitions

* `ArithOp` — the four operations
* `NumberKind` — the kinds in which arithmetic takes place
* `StoreKind.promote` — the kind in which two kinds meet
* `Store.arith` — element-wise arithmetic, the shorter operand being repeated
* `Store.sum` — the sum of all elements
-/

namespace EngineLink

/-- The operations. -/
inductive ArithOp where
  | add | sub | mul | div
  deriving DecidableEq, Repr

/-- The kinds in which arithmetic takes place. -/
inductive NumberKind where
  | integer | numeric | complex
  deriving DecidableEq, Repr

namespace NumberKind

/-- The kind of the store that holds such numbers. -/
def storeKind : NumberKind → StoreKind
  | integer => .integer
  | numeric => .numeric
  | complex => .complex

/-- The larger of two kinds. -/
def join : NumberKind → NumberKind → NumberKind
  | complex, _ | _, complex => complex
  | numeric, _ | _, numeric => numeric
  | integer, integer => integer

end NumberKind

/-- The kind in which arithmetic on a kind of elements takes place. -/
def StoreKind.number? : StoreKind → Option NumberKind
  | logical | integer => some .integer
  | numeric => some .numeric
  | complex => some .complex
  | character | raw | factor => none

/-- The kind in which two kinds of elements meet. -/
def StoreKind.promote (a b : StoreKind) : Except EvalFault NumberKind :=
  match a.number?, b.number? with
  | some x, some y => .ok (x.join y)
  | _, _ =>
    .error (.eval ("non-numeric argument to binary operator (" ++ a.name ++ ", " ++ b.name ++ ")"))

/-! ### Single numbers -/

/-- The integer of 32 bits that is `i`, or the missing one if there is none above the least. -/
def narrowInt (i : Int) : Int32 :=
  if -0x80000000 < i ∧ i < 0x80000000 then Int32.ofInt i else missingInt

/-- A logical as an integer. -/
def intOfLogical : Option Bool → Int32
  | none => missingInt
  | some b => if b then 1 else 0

/-- An integer as a real. -/
def Real.ofInt (i : Int32) : Real := if i == missingInt then missing else ofInt32 i

namespace ArithOp

/-- The sign of the operation. -/
def symbol : ArithOp → String
  | add => "+"
  | sub => "-"
  | mul => "*"
  | div => "/"

/-- The operation on integers, if it stays within them. -/
def onInts? : ArithOp → Option (Int → Int → Int)
  | add => some (· + ·)
  | sub => some (· - ·)
  | mul => some (· * ·)
  | div => none

/-- An integer operation on elements. -/
def onInt32 (f : Int → Int → Int) (a b : Int32) : Int32 :=
  if a == missingInt || b == missingInt then missingInt else narrowInt (f a.toInt b.toInt)

/-- The operation on doubles. -/
def onFloat : ArithOp → Float → Float → Float
  | add => (· + ·)
  | sub => (· - ·)
  | mul => (· * ·)
  | div => (· / ·)

/-- The operation on reals. -/
def onReal (op : ArithOp) (a b : Real) : Real :=
  if a.isMissing || b.isMissing then .missing else .ofFloat (op.onFloat a.toFloat b.toFloat)

/-- The operation on complex numbers. -/
def onComplex (op : ArithOp) (a b : Complex) : Complex :=
  if a.isMissing || b.isMissing then .missing
  else
    let (ar, ai) := (a.re.toFloat, a.im.toFloat)
    let (br, bi) := (b.re.toFloat, b.im.toFloat)
    match op with
    | add => .ofFloats (ar + br) (ai + bi)
    | sub => .ofFloats (ar - br) (ai - bi)
    | mul => .ofFloats (ar * br - ai * bi) (ar * bi + ai * br)
    | div =>
      let d := br * br + bi * bi
      .ofFloats ((ar * br + ai * bi) / d) ((ai * br - ar * bi) / d)

end ArithOp

/-! ### Stores as operands -/

namespace Store

/-- The elements as integers. -/
def ints? : Store → Option (List Int32)
  | logical xs => some (xs.map intOfLogical)
  | integer xs => some xs
  | _ => none

/-- The elements as reals. -/
def reals? : Store → Option (List Real)
  | numeric xs => some xs
  | s => s.ints?.map (·.map Real.ofInt)

/-- The elements as complex numbers. -/
def complexes? : Store → Option (List Complex)
  | complex xs => some xs
  | s => s.reals?.map (·.map (Complex.ofParts · .zero))

/-- Combine two sequences element by element. The shorter one is repeated as often as the longer
one needs, and nothing comes of an empty one. -/
def recycle {α β γ : Type} (f : α → β → γ) (xs : List α) (ys : List β) : List γ :=
  if h : 0 < xs.length ∧ 0 < ys.length then
    (List.range (max xs.length ys.length)).map fun i =>
      have := Nat.mod_lt i h.1
      have := Nat.mod_lt i h.2
      f xs[i % xs.length] ys[i % ys.length]
  else []

/-- Element-wise arithmetic. -/
def arith (op : ArithOp) (a b : Store) : Except EvalFault Store := do
  let kind ← a.kind.promote b.kind
  let result := match kind, op.onInts? with
    | .integer, some f => do some (integer (recycle (ArithOp.onInt32 f) (← a.ints?) (← b.ints?)))
    | .integer, none | .numeric, _ => do
      some (numeric (recycle op.onReal (← a.reals?) (← b.reals?)))
    | .complex, _ => do some (complex (recycle op.onComplex (← a.complexes?) (← b.complexes?)))
  match result with
  | some s => .ok s
  | none => .error (.eval ("invalid operands for '" ++ op.symbol ++ "'"))

/-! ### Sums -/

/-- The sum of integers, added up in 64 bits. It is missing if one of them is, or if it does not fit
into an integer of 32 bits. -/
def sumInts (xs : List Int32) : Int32 :=
  if xs.contains missingInt then missingInt
  else narrowInt (xs.foldl (fun (total : Int64) x => total + x.toInt64) 0).toInt

/-- The sum of reals, from the left: missing if one of them is, else no number if one is none. -/
def sumReals (xs : List Real) : Real :=
  if xs.any Real.isMissing then .missing
  else if xs.any Real.isNotNumber then .notNumber
  else .ofFloat (xs.foldl (fun total x => total + x.toFloat) 0.0)

/-- The sum of complex numbers, from the left and part by part. -/
def sumComplexes (xs : List Complex) : Complex :=
  if xs.any Complex.isMissing then .missing
  else .ofFloats (xs.foldl (fun total z => total + z.re.toFloat) 0.0)
    (xs.foldl (fun total z => total + z.im.toFloat) 0.0)

/-- The sum of all elements as a store of one element. A shape sums up to nothing. -/
def sum (s : Store) : Except EvalFault Store :=
  match s.kind.number? with
  | some .integer => .ok (integer [sumInts (s.ints?.getD [])])
  | some .numeric => .ok (numeric [sumReals (s.reals?.getD [])])
  | some .complex => .ok (complex [sumComplexes (s.complexes?.getD [])])
  | none => .error (.eval ("invalid 'type' (" ++ s.kind.name ++ ") of argument"))

end Store

end EngineLink
