/-!
# Reals and complex numbers with a missing value

A real number is a double, told apart by its bits, so that the reserved missing value and the
other not-a-number patterns stay distinct. The missing value is any not-a-number pattern whose
low word is 1954.

## Main definitions

* `Real` — a double as its bit pattern
* `Real.isMissing`, `Real.isNotNumber` — the two kinds of not-a-number patterns
* `Complex` — a pair of reals in which both parts are missing, both are no number, or both are
  numbers
* `Complex.ofParts` — the complex number with given parts

## Main results

* `Complex.ofParts_parts` — a complex number is rebuilt from its own parts
-/

namespace EngineLink

/-- A double, compared by its bits. -/
structure Real where
  /-- The IEEE 754 bits. -/
  bits : UInt64
  deriving DecidableEq, Repr, Inhabited

namespace Real

/-- The canonical missing value. -/
def missing : Real := ⟨0x7FF80000000007A2⟩

/-- The canonical result that is not a number. -/
def notNumber : Real := ⟨0x7FF8000000000000⟩

/-- Positive zero. -/
def zero : Real := ⟨0⟩

/-- The low word that marks a not-a-number pattern as missing. -/
def missingWord : UInt64 := 1954

/-- Whether the exponent is the one of infinities and not-a-number patterns. -/
def hasTopExponent (r : Real) : Bool := r.bits &&& 0x7FF0000000000000 == 0x7FF0000000000000

/-- Whether the bits are a not-a-number pattern of either kind. -/
def isPatternNaN (r : Real) : Bool := r.hasTopExponent && r.bits &&& 0x000FFFFFFFFFFFFF != 0

/-- Whether the real is missing, whatever its sign and quiet bits. -/
def isMissing (r : Real) : Bool := r.isPatternNaN && r.bits &&& 0xFFFFFFFF == missingWord

/-- Whether the real is no number without being missing. -/
def isNotNumber (r : Real) : Bool := r.isPatternNaN && r.bits &&& 0xFFFFFFFF != missingWord

/-- The not-a-number patterns are the missing ones and the others. -/
theorem isPatternNaN_eq (r : Real) : r.isPatternNaN = (r.isMissing || r.isNotNumber) := by
  unfold isMissing isNotNumber
  cases r.isPatternNaN <;> cases h : r.bits &&& 0xFFFFFFFF == missingWord <;> simp_all

/-- Whether the real is neither infinite nor a not-a-number pattern. -/
def isFinite (r : Real) : Bool := !r.hasTopExponent

/-- The double with these bits. -/
def toFloat (r : Real) : Float := Float.ofBits r.bits

/-- The bits of a double. -/
def ofFloat (x : Float) : Real := ⟨x.toBits⟩

/-- The double nearest to an integer of 32 bits, which is that integer. -/
def ofInt32 (i : Int32) : Real := ofFloat (Float.ofInt i.toInt)

end Real

/-- Whether two parts may stand together in a complex number. -/
def Complex.Regular (re im : Real) : Prop :=
  (re = Real.missing ∧ im = Real.missing) ∨ (re = Real.notNumber ∧ im = Real.notNumber) ∨
    (re.isPatternNaN = false ∧ im.isPatternNaN = false)

instance (re im : Real) : Decidable (Complex.Regular re im) := by
  unfold Complex.Regular; infer_instance

/-- A complex number. Its parts are both missing, both no number, or both numbers. -/
structure Complex where
  /-- The real part. -/
  re : Real
  /-- The imaginary part. -/
  im : Real
  /-- The parts agree on being missing and on being a number. -/
  regular : Complex.Regular re im
  deriving DecidableEq

namespace Complex

/-- The missing complex number. -/
def missing : Complex := ⟨.missing, .missing, by decide⟩

/-- The complex number whose parts are no numbers. -/
def notNumber : Complex := ⟨.notNumber, .notNumber, by decide⟩

/-- The complex number with the given parts: missing if either part is, otherwise no number if
either part is none. -/
def ofParts (re im : Real) : Complex :=
  if hm : (re.isMissing || im.isMissing) = true then missing
  else if hn : (re.isNotNumber || im.isNotNumber) = true then notNumber
  else ⟨re, im, .inr (.inr (by
    simp only [Bool.or_eq_true, not_or, Bool.not_eq_true] at hm hn
    simp [Real.isPatternNaN_eq, hm, hn]))⟩

/-- A complex number is rebuilt from its own parts. -/
@[simp] theorem ofParts_parts (z : Complex) : ofParts z.re z.im = z := by
  obtain ⟨re, im, h⟩ := z
  rcases h with ⟨rfl, rfl⟩ | ⟨rfl, rfl⟩ | ⟨hr, hi⟩
  · decide
  · decide
  · simp only [Real.isPatternNaN_eq, Bool.or_eq_false_iff] at hr hi
    simp [ofParts, hr, hi]

/-- Whether the number is missing. -/
def isMissing (z : Complex) : Bool := z.re.isMissing

/-- Whether the number is no number without being missing. -/
def isNotNumber (z : Complex) : Bool := z.re.isNotNumber

/-- The complex number with the parts of two doubles. -/
def ofFloats (re im : Float) : Complex := ofParts (.ofFloat re) (.ofFloat im)

end Complex

end EngineLink
