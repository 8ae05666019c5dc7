import Mathlib.Algebra.BigOperators.Group.List.Basic
import EngineLink.Proofs.Value.Arithmetic

/-!
# Sums of integers are exact

Logicals and integers are added up in a total of 64 bits, which has room for fewer than `2 ^ 32`
words of 32 bits. So no partial sum overflows, whatever the order of the elements, and the total is
exact until it is narrowed to 32 bits at the very end. A missing element makes the sum missing, and
so does a total that no element can stand for.

## Main definitions

* `Store.exactTotal` — the sum of the numbers that elements stand for
* `Store.sumChecked` — adding up element by element, each addition checked
* `Store.HasRoom` — a total has room for some more elements
* `Store.Rearranges` — two stores have the same elements in some order

## Main results

* `Store.sumChecked_eq`, `Store.sumInts_eq` — what adding up comes to
* `Store.sum_exact_in_any_order` — sums of logical and integer stores
-/

namespace EngineLink.Store

/-! ### Room -/

/-- The total has room for `n` more words of 32 bits. -/
def HasRoom (total : Int64) (n : Nat) : Prop :=
  -2 ^ 63 ≤ total.toInt - 2 ^ 31 * n ∧ total.toInt + 2 ^ 31 * n < 2 ^ 63

/-- Addition of words of 64 bits, unless it overflows. -/
def longAdd? (x y : Int64) : Option Int64 :=
  if x.toBitVec.saddOverflow y.toBitVec then none else some (x + y)

variable {total : Int64} {n : Nat} {x : Int32} {xs ys : List Int32} {s t : Store}

/-- What is added to a total that has room stays within 64 bits. -/
theorem HasRoom.fits (room : HasRoom total (n + 1)) (x : Int32) :
    -2 ^ 63 ≤ total.toInt + x.toInt64.toInt ∧ total.toInt + x.toInt64.toInt < 2 ^ 63 := by
  have low := Int32.le_toInt x
  have high := Int32.toInt_lt x
  rw [HasRoom] at room
  rw [Int32.toInt_toInt64]
  omega

theorem HasRoom.toInt_add (room : HasRoom total (n + 1)) (x : Int32) :
    (total + x.toInt64).toInt = total.toInt + x.toInt := by
  obtain ⟨low, high⟩ := room.fits x
  rw [Int64.toInt_add, Int.bmod_eq_of_le low high, Int32.toInt_toInt64]

/-- One more element takes one place. -/
theorem HasRoom.add (room : HasRoom total (n + 1)) (x : Int32) :
    HasRoom (total + x.toInt64) n := by
  have low := Int32.le_toInt x
  have high := Int32.toInt_lt x
  rw [HasRoom, room.toInt_add]
  rw [HasRoom] at room
  omega

theorem HasRoom.longAdd?_eq (room : HasRoom total (n + 1)) (x : Int32) :
    longAdd? total x.toInt64 = some (total + x.toInt64) := by
  obtain ⟨low, high⟩ := room.fits x
  refine if_neg ?_
  simp only [BitVec.saddOverflow, Int64.toInt_toBitVec, Bool.or_eq_true, decide_eq_true_eq]
  omega

/-- Nothing has been added yet to a total that fewer than `2 ^ 32` words are to be added to. -/
theorem hasRoom_zero (few : n < 2 ^ 32) : HasRoom 0 n := by
  rw [HasRoom, Int64.toInt_zero]
  omega

/-! ### Adding up -/

/-- The sum taken element by element: it ends at a missing element, and else the total is narrowed
at the end. There is no outcome if an addition overflows. -/
def sumChecked (total : Int64) : List Int32 → Option Int32
  | [] => some (narrowInt total.toInt)
  | x :: xs =>
    if x = missingInt then some missingInt
    else do sumChecked (← longAdd? total x.toInt64) xs

/-- The numbers that are added up are those of the elements, as no addition wraps. -/
theorem toInt_foldl (room : HasRoom total xs.length) :
    (xs.foldl (fun total x => total + x.toInt64) total).toInt =
      total.toInt + (xs.map Int32.toInt).sum := by
  induction xs generalizing total with
  | nil => simp
  | cons x xs ih =>
    rw [List.foldl_cons, ih (room.add x), room.toInt_add, List.map_cons, List.sum_cons,
      Int.add_assoc]

/-- The sum depends on nothing but whether an element is missing, and on the exact total. -/
theorem sumInts_eq (few : xs.length < 2 ^ 32) :
    sumInts xs = if missingInt ∈ xs then missingInt else narrowInt (xs.map Int32.toInt).sum := by
  rw [sumInts, toInt_foldl (hasRoom_zero few), Int64.toInt_zero, Int.zero_add]
  simp only [List.contains_iff_mem]

/-- By induction on the elements that are left: there is room for them, so that no addition
overflows, and the total is exact. -/
theorem sumChecked_eq (room : HasRoom total xs.length) :
    sumChecked total xs =
      some (if missingInt ∈ xs then missingInt
        else narrowInt (total.toInt + (xs.map Int32.toInt).sum)) := by
  induction xs generalizing total with
  | nil => simp [sumChecked]
  | cons x xs ih =>
    rw [sumChecked]
    by_cases gone : x = missingInt
    · simp [gone]
    · -- The rest decides whether an element is missing, and goes on from the new total.
      have later : missingInt ∈ x :: xs ↔ missingInt ∈ xs := by simp [Ne.symm gone]
      rw [if_neg gone, room.longAdd?_eq x, Option.bind_eq_bind, Option.bind_some, ih (room.add x),
        room.toInt_add, List.map_cons, List.sum_cons, Int.add_assoc]
      simp only [later]

/-- Adding up element by element never overflows and comes to the sum. -/
theorem sumChecked_zero (few : xs.length < 2 ^ 32) : sumChecked 0 xs = some (sumInts xs) := by
  rw [sumChecked_eq (hasRoom_zero few), sumInts_eq few, Int64.toInt_zero, Int.zero_add]

/-- The order of the elements does not matter. -/
theorem sumInts_perm (few : xs.length < 2 ^ 32) (same : xs.Perm ys) : sumInts xs = sumInts ys := by
  rw [sumInts_eq few, sumInts_eq (same.length_eq ▸ few), (same.map Int32.toInt).sum_eq]
  simp only [same.mem_iff]

/-! ### Stores -/

/-- The sum of the numbers that the elements stand for. -/
def exactTotal (s : Store) : Int := ((List.range s.length).map fun i => (s.intAt? i).getD 0).sum

/-- The stores have the same elements in some order. -/
inductive Rearranges : Store → Store → Prop
  | logical {xs ys : List (Option Bool)} (same : xs.Perm ys) : Rearranges (logical xs) (logical ys)
  | integer {xs ys : List Int32} (same : xs.Perm ys) : Rearranges (integer xs) (integer ys)

/-- The elements as integers are rearranged with the store. -/
theorem Rearranges.exists_ints (same : s.Rearranges t) :
    ∃ xs ys, s.ints? = some xs ∧ t.ints? = some ys ∧ xs.Perm ys := by
  cases same with
  | logical same => exact ⟨_, _, rfl, rfl, same.map intOfLogical⟩
  | integer same => exact ⟨_, _, rfl, rfl, same⟩

theorem sum_of_ints? (ints : s.ints? = some xs) : s.sum = .ok (integer [sumInts xs]) := by
  cases s with
  | logical | integer => cases ints; rfl
  | numeric | complex | character | raw | factor | shape => cases ints

theorem mem_ints?_iff (ints : s.ints? = some xs) :
    missingInt ∈ xs ↔ ∃ i, s.isMissing i = true := by
  cases s with
  | logical ys =>
    cases ints
    have gone (b : Option Bool) : intOfLogical b = missingInt ↔ b = none := by
      obtain _ | _ | _ := b <;> decide
    simp [gone, isMissing, List.mem_iff_getElem?]
  | integer ys =>
    cases ints
    simp [isMissing, List.mem_iff_getElem?]
  | numeric | complex | character | raw | factor | shape => cases ints

theorem exactTotal_eq (length : xs.length = s.length)
    (exact : ∀ i, s.intAt? i = xs[i]?.bind exactInt?) (present : missingInt ∉ xs) :
    s.exactTotal = (xs.map Int32.toInt).sum := by
  -- With nothing missing, each place has a number.
  have numbers : (List.range s.length).map (fun i => (s.intAt? i).getD 0) = xs.map Int32.toInt := by
    refine List.ext_getElem (by simp [length]) fun i _ inside => ?_
    rw [List.length_map] at inside
    have there : xs[i] ≠ missingInt := fun gone => present (gone ▸ List.getElem_mem inside)
    simp [exact, inside, exactInt?_of_ne there]
  rw [exactTotal, numbers]

/-- A logical or an integer store of fewer than `2 ^ 32` elements sums up to one integer. It is
missing if an element is; else it is the exact total, if a 32-bit integer above the least can hold
it, and missing otherwise. Element by element no addition overflows 64 bits, and stores with the
same elements in another order sum up to the same. -/
theorem sum_exact_in_any_order (s : Store) (kind : s.kind = .logical ∨ s.kind = .integer)
    (payload : s.isShape = false) (few : s.length < 2 ^ 32) :
    ∃ z, s.sum = .ok (integer [z]) ∧
      ((∃ i, s.isMissing i = true) → z = missingInt) ∧
      ((∀ i, s.isMissing i = false) → exactInt? z = inWord? s.exactTotal) ∧
      (∃ xs, s.ints? = some xs ∧ sumChecked 0 xs = some z) ∧
      ∀ t, s.Rearranges t → t.sum = s.sum := by
  have integral : s.kind.number? = some .integer := by
    obtain kind | kind := kind <;> rw [kind] <;> rfl
  obtain ⟨xs, ints, holds, exact⟩ := Store.exists_ints payload integral
  rw [← holds.length] at few
  have value := sumInts_eq few
  refine ⟨sumInts xs, sum_of_ints? ints, fun gone => ?_, fun present => ?_,
    ⟨xs, ints, sumChecked_zero few⟩, fun t same => ?_⟩
  · rw [value, if_pos ((mem_ints?_iff ints).mpr gone)]
  · have present : missingInt ∉ xs := fun gone => by
      obtain ⟨i, gone⟩ := (mem_ints?_iff ints).mp gone
      exact absurd gone (by simp [present i])
    rw [value, if_neg present, exactInt?_narrowInt, exactTotal_eq holds.length exact present]
  · obtain ⟨ys, zs, readS, readT, perm⟩ := same.exists_ints
    obtain rfl : xs = ys := Option.some.inj (ints.symm.trans readS)
    rw [sum_of_ints? readS, sum_of_ints? readT, sumInts_perm few perm]

/-- The total leaves the words of 32 bits and comes back, and in another order it does not. -/
theorem sum_exact_in_any_order_detour :
    ∃ z, (integer [0x7fffffff, 1, -5]).sum = .ok (integer [z]) ∧ exactInt? z = some 0x7ffffffb ∧
      (integer [-5, 0x7fffffff, 1]).sum = .ok (integer [z]) := by
  obtain ⟨z, result, -, exact, -, rearranged⟩ :=
    sum_exact_in_any_order (integer [0x7fffffff, 1, -5]) (.inr rfl) rfl (by decide)
  have present : ∀ i, (integer [0x7fffffff, 1, -5]).isMissing i = false
    | 0 | 1 | 2 => rfl
    | _ + 3 => rfl
  exact ⟨z, result, (exact present).trans (by decide),
    (rearranged _ (.integer (by decide))).trans result⟩

end EngineLink.Store
