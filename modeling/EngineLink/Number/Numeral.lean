import EngineLink.Number.Real

/-!
# Numerals of reals

A double stands for all numbers that round to it. Where a real is shown, it is named by one of those
that have the fewest decimal digits, the nearest one if there are several. To find it, powers of ten
are tried from the largest on, until one has a multiple that rounds to the double.

## Main definitions

* `Magnitude` — a positive double as a multiple of a power of two
* `Magnitude.admits` — whether a multiple of a power of ten rounds to a double
* `Magnitude.shortest` — the decimal that names a double
* `Real.numeral` — a real as it is shown

## Main results

* `Magnitude.admits_shortest` — the decimal that names a double rounds to it
* `Magnitude.le_shortest` — no multiple of a greater power of ten does
* `Magnitude.distance_shortest_le` — no multiple of the same power of ten that does is nearer
-/

namespace EngineLink

/-- A number that is a multiple of a power of ten. -/
structure Decimal where
  digits : Nat
  /-- The exponent of the power of ten. -/
  power : Int
  deriving DecidableEq, Repr

namespace Decimal

/-- Digits with a point between the whole part and the fraction, none of which is empty. -/
def positional (digits : List Char) (power : Int) : List Char :=
  let places := (-power).toNat
  let digits := List.replicate (places + 1 - digits.length) '0' ++ digits ++
    List.replicate power.toNat '0'
  let fraction := digits.drop (digits.length - places)
  digits.take (digits.length - places) ++ '.' :: if fraction.isEmpty then ['0'] else fraction

/-- Digits with a point behind the first one, and the exponent of the power of ten of that digit. -/
def scientific (digits : List Char) (leading : Int) : List Char :=
  let fraction := digits.drop 1
  digits.take 1 ++ (if fraction.isEmpty then [] else '.' :: fraction) ++
    'e' :: (toString leading).toList

/-- A decimal as it is shown. Numbers from a ten-thousandth to below 10 ^ 16 have no exponent. -/
def numeral (d : Decimal) : String :=
  let digits := Nat.toDigits 10 d.digits
  let leading := d.power + digits.length - 1
  String.ofList <|
    if -4 ≤ leading ∧ leading < 16 then positional digits d.power else scientific digits leading

end Decimal

/-- A positive double as a multiple of a power of two. -/
structure Magnitude where
  mantissa : Nat
  /-- The exponent of the power of two. -/
  exponent : Int
  /-- Whether the next double below is only half as far away as the next one above. -/
  narrow : Bool
  positive : 0 < mantissa
  /-- No double is finer than the least one. -/
  bounded : -1074 ≤ exponent

namespace Magnitude

/-- A power of ten, counted by a unit that makes it and a quarter of the power of two whole. -/
def ten (x : Magnitude) (power : Int) : Nat :=
  Nat.pow 10 power.toNat * Nat.pow 2 (2 - x.exponent).toNat

/-- A quarter of the power of two, counted in the same way. -/
def quarter (x : Magnitude) (power : Int) : Nat :=
  Nat.pow 2 (x.exponent - 2).toNat * Nat.pow 10 (-power).toNat

/-- The double, counted in the same way. -/
def value (x : Magnitude) (power : Int) : Nat := 4 * x.mantissa * x.quarter power

/-- The midpoint to the next double below. -/
def low (x : Magnitude) (power : Int) : Nat :=
  (4 * x.mantissa - if x.narrow then 1 else 2) * x.quarter power

/-- The midpoint to the next double above. -/
def high (x : Magnitude) (power : Int) : Nat := (4 * x.mantissa + 2) * x.quarter power

/-- Whether `d` times a power of ten rounds to the double. It does between the midpoints to the two
neighbours, and at these if the mantissa is even. -/
def admits (x : Magnitude) (d : Nat) (power : Int) : Bool :=
  let n := d * x.ten power
  x.low power < n && n < x.high power ||
    x.mantissa % 2 == 0 && (n == x.low power || n == x.high power)

/-- How often a power of ten is contained in the double. -/
def quotient (x : Magnitude) (power : Int) : Nat := x.value power / x.ten power

/-- How far a multiple of a power of ten is from the double. -/
def distance (x : Magnitude) (d : Nat) (power : Int) : Nat :=
  (x.value power - d * x.ten power) + (d * x.ten power - x.value power)

/-- Whether the double is nearer to the multiple below it than to the one above. -/
def nearerBelow (x : Magnitude) (power : Int) : Bool :=
  2 * x.value power < (2 * x.quotient power + 1) * x.ten power

/-- The multiple of a power of ten that rounds to the double, the nearest if there are several. Of
two that are equally near it is the larger one. -/
def multiple? (x : Magnitude) (power : Int) : Option Nat :=
  let q := x.quotient power
  match x.admits q power, x.admits (q + 1) power with
  | true, true => some (if x.nearerBelow power then q else q + 1)
  | true, false => some q
  | false, true => some (q + 1)
  | false, false => none

/-- The decimal that names the double. From a given power of ten on, `n` powers are tried, and the
one after them is taken to be fine enough. -/
def search (x : Magnitude) : Nat → Int → Decimal
  | 0, power => ⟨x.quotient power, power⟩
  | n + 1, power =>
    match x.multiple? power with
    | some d => ⟨d, power⟩
    | none => search x n (power - 1)

/-- The decimal that names the double. No double is as large as 10 ^ 309, and each is a multiple of
10 ^ -1074. -/
def shortest (x : Magnitude) : Decimal := x.search 1382 308

/-- The double with the sign taken away, unless it is zero. -/
def ofReal? (r : Real) : Option Magnitude :=
  let e := (r.bits >>> 52 &&& 0x7FF).toNat
  let m := (r.bits &&& 0x000FFFFFFFFFFFFF).toNat
  if least : e = 0 then
    if positive : 0 < m then some ⟨m, -1074, false, positive, by decide⟩ else none
  else some ⟨0x10000000000000 + m, e - 1075, m == 0 && 1 < e, by omega, by omega⟩

/-! ### What is shown names the double -/

theorem quarter_pos (x : Magnitude) (power : Int) : 0 < x.quarter power :=
  Nat.mul_pos (Nat.pow_pos (by decide)) (Nat.pow_pos (by decide))

theorem ten_pos (x : Magnitude) (power : Int) : 0 < x.ten power :=
  Nat.mul_pos (Nat.pow_pos (by decide)) (Nat.pow_pos (by decide))

theorem low_lt_value (x : Magnitude) (power : Int) : x.low power < x.value power := by
  have positive := x.positive
  exact Nat.mul_lt_mul_of_pos_right (by split <;> omega) (x.quarter_pos power)

theorem value_lt_high (x : Magnitude) (power : Int) : x.value power < x.high power :=
  Nat.mul_lt_mul_of_pos_right (by omega) (x.quarter_pos power)

/-- What lies between the double and a number that rounds to it rounds to it, too. -/
theorem admits_of_between {x : Magnitude} {power : Int} {c d : Nat} (h : x.admits d power = true)
    (between : d ≤ c ∧ c * x.ten power ≤ x.value power ∨
      c ≤ d ∧ x.value power ≤ c * x.ten power) : x.admits c power = true := by
  have low := x.low_lt_value power
  have high := x.value_lt_high power
  simp only [admits, Bool.or_eq_true, Bool.and_eq_true, decide_eq_true_eq, beq_iff_eq] at h ⊢
  -- On either side of the double the midpoint of that side is the only one that counts.
  rcases between with ⟨le, below⟩ | ⟨le, above⟩
  · have le := Nat.mul_le_mul_right (x.ten power) le
    omega
  · have le := Nat.mul_le_mul_right (x.ten power) le
    omega

theorem admits_of_multiple? {x : Magnitude} {power : Int} {d : Nat}
    (h : x.multiple? power = some d) : x.admits d power = true := by
  rw [multiple?] at h
  split at h
  · next below above =>
    obtain rfl := Option.some.inj h
    split
    · exact below
    · exact above
  · next below _ => exact Option.some.inj h ▸ below
  · next _ above => exact Option.some.inj h ▸ above
  · cases h

theorem quotient_mul_ten_le (x : Magnitude) (power : Int) :
    x.quotient power * x.ten power ≤ x.value power := Nat.div_mul_le_self _ _

theorem value_lt_succ_quotient_mul_ten (x : Magnitude) (power : Int) :
    x.value power < (x.quotient power + 1) * x.ten power :=
  Nat.lt_mul_of_div_lt (Nat.lt_succ_self _) (x.ten_pos power)

theorem admits_quotient_of_le {x : Magnitude} {power : Int} {d : Nat}
    (h : x.admits d power = true) (below : d ≤ x.quotient power) :
    x.admits (x.quotient power) power = true :=
  admits_of_between h (.inl ⟨below, x.quotient_mul_ten_le power⟩)

theorem admits_succ_quotient {x : Magnitude} {power : Int} {d : Nat}
    (h : x.admits d power = true) (above : x.quotient power < d) :
    x.admits (x.quotient power + 1) power = true :=
  admits_of_between h (.inr ⟨above, Nat.le_of_lt (x.value_lt_succ_quotient_mul_ten power)⟩)

/-- If any multiple of a power of ten rounds to the double, then one next to the double does. -/
theorem exists_multiple? {x : Magnitude} {power : Int} {d : Nat} (h : x.admits d power = true) :
    ∃ c, x.multiple? power = some c := by
  have next : x.admits (x.quotient power) power = true ∨
      x.admits (x.quotient power + 1) power = true := by
    rcases Nat.lt_or_ge (x.quotient power) d with above | below
    · exact .inr (admits_succ_quotient h above)
    · exact .inl (admits_quotient_of_le h below)
  rw [multiple?]
  split
  · exact ⟨_, rfl⟩
  · exact ⟨_, rfl⟩
  · exact ⟨_, rfl⟩
  · next below above => simp [below, above] at next

/-- Of the multiples below the double, the last one is the nearest. -/
theorem distance_quotient_le {x : Magnitude} {power : Int} {d : Nat} (le : d ≤ x.quotient power) :
    x.distance (x.quotient power) power ≤ x.distance d power := by
  have below := x.quotient_mul_ten_le power
  have further := Nat.mul_le_mul_right (x.ten power) le
  rw [distance, distance]
  omega

/-- Of the multiples above the double, the first one is the nearest. -/
theorem distance_succ_quotient_le {x : Magnitude} {power : Int} {d : Nat}
    (lt : x.quotient power < d) :
    x.distance (x.quotient power + 1) power ≤ x.distance d power := by
  have above := x.value_lt_succ_quotient_mul_ten power
  have further := Nat.mul_le_mul_right (x.ten power) (show x.quotient power + 1 ≤ d from lt)
  rw [distance, distance]
  omega

theorem nearerBelow_iff {x : Magnitude} {power : Int} : x.nearerBelow power = true ↔
    x.distance (x.quotient power) power < x.distance (x.quotient power + 1) power := by
  have below := x.quotient_mul_ten_le power
  have above := x.value_lt_succ_quotient_mul_ten power
  have middle : (2 * x.quotient power + 1) * x.ten power =
      x.quotient power * x.ten power + (x.quotient power + 1) * x.ten power := by
    rw [← Nat.add_mul]
    congr 1
    omega
  rw [nearerBelow, decide_eq_true_iff, distance, distance, middle]
  omega

/-- Of the multiples of a power of ten that round to the double, one is taken that is nearest. -/
theorem distance_multiple?_le {x : Magnitude} {power : Int} {c d : Nat}
    (taken : x.multiple? power = some c) (h : x.admits d power = true) :
    x.distance c power ≤ x.distance d power := by
  rw [multiple?] at taken
  split at taken
  · obtain rfl := Option.some.inj taken
    split
    · next nearer =>
      have nearer := nearerBelow_iff.mp nearer
      rcases Nat.lt_or_ge (x.quotient power) d with above | below
      · exact Nat.le_trans (Nat.le_of_lt nearer) (distance_succ_quotient_le above)
      · exact distance_quotient_le below
    · next further =>
      have further := Nat.le_of_not_lt fun nearer => further (nearerBelow_iff.mpr nearer)
      rcases Nat.lt_or_ge (x.quotient power) d with above | below
      · exact distance_succ_quotient_le above
      · exact Nat.le_trans further (distance_quotient_le below)
  · next none =>
    obtain rfl := Option.some.inj taken
    refine distance_quotient_le (Nat.le_of_not_lt fun above => ?_)
    rw [admits_succ_quotient h above] at none
    cases none
  · next none _ =>
    obtain rfl := Option.some.inj taken
    refine distance_succ_quotient_le (Nat.lt_of_not_le fun below => ?_)
    rw [admits_quotient_of_le h below] at none
    cases none
  · cases taken

/-- Every double is a multiple of a power of ten that is fine enough. -/
theorem ten_dvd_value (x : Magnitude) {power : Int} (fine : power ≤ x.exponent)
    (small : power ≤ 0) : x.ten power ∣ x.value power := by
  have whole : power.toNat = 0 := Int.toNat_of_nonpos small
  simp only [ten, value, quarter, Nat.pow_eq]
  rw [whole, Nat.pow_zero, Nat.one_mul]
  -- The unit is a power of two, so the mantissa and the fives of the power of ten are not needed.
  refine Nat.dvd_trans ?_ (Nat.mul_dvd_mul (Nat.dvd_mul_right 4 x.mantissa)
    (Nat.dvd_mul_left _ (2 ^ (x.exponent - 2).toNat)))
  have twos : 2 ^ (2 + (-power).toNat) ∣ 4 * 10 ^ (-power).toNat := by
    rw [Nat.pow_add]
    refine Nat.mul_dvd_mul (by decide) ⟨5 ^ (-power).toNat, ?_⟩
    rw [← Nat.mul_pow]
  exact Nat.dvd_trans (Nat.pow_dvd_pow 2 (by omega)) twos

theorem quotient_mul_ten_eq (x : Magnitude) {power : Int} (fine : power ≤ x.exponent)
    (small : power ≤ 0) : x.quotient power * x.ten power = x.value power :=
  Nat.div_mul_cancel (x.ten_dvd_value fine small)

theorem admits_quotient (x : Magnitude) {power : Int} (fine : power ≤ x.exponent)
    (small : power ≤ 0) : x.admits (x.quotient power) power = true := by
  simp [admits, x.quotient_mul_ten_eq fine small, low_lt_value, value_lt_high]

theorem admits_search (x : Magnitude) (n : Nat) (power : Int) (fine : power - n ≤ x.exponent)
    (small : power - n ≤ 0) :
    x.admits (x.search n power).digits (x.search n power).power = true := by
  induction n generalizing power with
  | zero => exact x.admits_quotient (by simpa using fine) (by simpa using small)
  | succ n ih =>
    rw [search]
    split
    · next found => exact admits_of_multiple? found
    · exact ih (power - 1) (by omega) (by omega)

theorem le_search {x : Magnitude} {d : Nat} {power : Int} (h : x.admits d power = true) (n : Nat)
    {start : Int} (le : power ≤ start) : power ≤ (x.search n start).power := by
  induction n generalizing start with
  | zero => exact le
  | succ n ih =>
    rw [search]
    split
    · exact le
    · next none =>
      -- Some multiple of the given power rounds to the double, but none of the one just tried does.
      have other : power ≠ start := fun same => by
        obtain ⟨c, found⟩ := exists_multiple? (same ▸ h)
        rw [none] at found
        cases found
      exact ih (by omega)

theorem distance_search_le (x : Magnitude) (n : Nat) (power : Int) (fine : power - n ≤ x.exponent)
    (small : power - n ≤ 0) {d : Nat} (h : x.admits d (x.search n power).power = true) :
    x.distance (x.search n power).digits (x.search n power).power ≤
      x.distance d (x.search n power).power := by
  induction n generalizing power with
  | zero =>
    have whole := x.quotient_mul_ten_eq (by simpa using fine) (by simpa using small)
    simp [search, distance, whole]
  | succ n ih =>
    rw [search] at h ⊢
    split
    · next found => exact distance_multiple?_le found (by simpa [found] using h)
    · next none => exact ih (power - 1) (by omega) (by omega) (by simpa [none] using h)

/-- The decimal that names a double rounds to it. -/
theorem admits_shortest (x : Magnitude) :
    x.admits x.shortest.digits x.shortest.power = true :=
  x.admits_search 1382 308 (by have := x.bounded; omega) (by decide)

/-- No multiple of a greater power of ten rounds to the double. -/
theorem le_shortest {x : Magnitude} {d : Nat} {power : Int} (h : x.admits d power = true)
    (le : power ≤ 308) : power ≤ x.shortest.power :=
  le_search h 1382 le

/-- No multiple of the same power of ten that rounds to the double is nearer to it. -/
theorem distance_shortest_le {x : Magnitude} {d : Nat}
    (h : x.admits d x.shortest.power = true) :
    x.distance x.shortest.digits x.shortest.power ≤ x.distance d x.shortest.power :=
  x.distance_search_le 1382 308 (by have := x.bounded; omega) (by decide) h

end Magnitude

/-- A real as it is shown. -/
def Real.numeral (r : Real) : String :=
  if r.isPatternNaN then "NaN"
  else (if r.bits >>> 63 == 1 then "-" else "") ++
    if r.hasTopExponent then "inf"
    else match Magnitude.ofReal? r with
      | some x => x.shortest.numeral
      | none => "0.0"

/-- The least double is named by a single digit. -/
example : Real.numeral ⟨0x8000000000000001⟩ = "-5e-324" := by decide +kernel

end EngineLink
