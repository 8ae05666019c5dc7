import EngineLink.Proofs.Value.Arithmetic
import EngineLink.Proofs.Wire.Reads

/-!
# What sums and arithmetic accept

Element-wise arithmetic reads the elements of its operands, so both have to be stores of numbers. A
sum goes by the kind of a store alone, and where there are no elements to read it adds up none: the
shape of a store of numbers has the total of an empty store, however long it is. So a sum is taken
of the stores that arithmetic accepts, and of the shapes of numbers besides.

## Main definitions

* `StoreKind.IsNumber` — the kinds that arithmetic takes place on
* `StoreKind.emptyStore` — the store of a kind without elements

## Main results

* `Store.exists_arith_iff` — what arithmetic accepts
* `Store.exists_sum_iff` — what can be summed up
* `Store.accepted_alike_except_shapes` — how far the two are apart
* `Store.shape_has_total` — a shape that has a total
-/

namespace EngineLink

namespace StoreKind

/-- Arithmetic takes place on elements of the kind. -/
def IsNumber (kind : StoreKind) : Prop := kind.number? ≠ none

/-- The store of a kind without elements. -/
def emptyStore : StoreKind → Store
  | logical => .logical []
  | integer => .integer []
  | numeric => .numeric []
  | complex => .complex []
  | character => .character []
  | raw => .raw []
  | factor => .factor ⟨[], [], false⟩

end StoreKind

namespace Store

variable {op : ArithOp} {a b r s : Store}

/-! ### Operands -/

theorem isNumeric_iff (s : Store) : s.isNumeric = true ↔ s.isShape = false ∧ s.kind.IsNumber := by
  cases s <;> simp [isNumeric, isShape, kind, StoreKind.IsNumber, StoreKind.number?]

theorem isNumeric_of_ints? {xs : List Int32} (read : s.ints? = some xs) : s.isNumeric = true := by
  cases s with
  | logical | integer => rfl
  | numeric | complex | character | raw | factor | shape => cases read

theorem isNumeric_of_reals? {xs : List Real} (read : s.reals? = some xs) :
    s.isNumeric = true := by
  cases s with
  | logical | integer | numeric => rfl
  | complex | character | raw | factor | shape => cases read

theorem isNumeric_of_complexes? {xs : List Complex} (read : s.complexes? = some xs) :
    s.isNumeric = true := by
  cases s with
  | logical | integer | numeric | complex => rfl
  | character | raw | factor | shape => cases read

/-- A result has been combined from two operands that were read. -/
theorem exists_operands {α β : Type} {x : Option α} {y : Option β} {combine : α → β → Store}
    {fault : EvalFault}
    (result : (match (do some (combine (← x) (← y)) : Option Store) with
      | some s => Except.ok s
      | none => .error fault) = .ok r) :
    (∃ xs, x = some xs) ∧ ∃ ys, y = some ys := by
  cases x with
  | none => cases result
  | some xs =>
    cases y with
    | none => cases result
    | some ys => exact ⟨⟨xs, rfl⟩, ys, rfl⟩

/-- Whatever the kind in which the operands meet, both are stores of numbers. -/
theorem isNumeric_of_arith (result : arith op a b = .ok r) :
    a.isNumeric = true ∧ b.isNumeric = true := by
  obtain ⟨kind, -, result⟩ := bind_eq_ok.mp result
  -- Between integers, the quotient is a case of its own: it is taken in reals.
  split at result
  all_goals obtain ⟨⟨xs, readA⟩, ys, readB⟩ := exists_operands result
  · exact ⟨isNumeric_of_ints? readA, isNumeric_of_ints? readB⟩
  · exact ⟨isNumeric_of_reals? readA, isNumeric_of_reals? readB⟩
  · exact ⟨isNumeric_of_reals? readA, isNumeric_of_reals? readB⟩
  · exact ⟨isNumeric_of_complexes? readA, isNumeric_of_complexes? readB⟩

/-- Arithmetic accepts just the stores of numbers, in any combination. -/
theorem exists_arith_iff (op : ArithOp) (a b : Store) :
    (∃ r, arith op a b = .ok r) ↔ a.isNumeric = true ∧ b.isNumeric = true := by
  refine ⟨fun ⟨r, result⟩ => isNumeric_of_arith result, fun ⟨ha, hb⟩ => ?_⟩
  by_cases someComplex : a.kind = .complex ∨ b.kind = .complex
  · obtain ⟨xs, ys, -, -, result⟩ := arith_of_complex op ha hb someComplex
    exact ⟨_, result⟩
  by_cases someReal : a.kind = .numeric ∨ b.kind = .numeric ∨ op = .div
  · obtain ⟨xs, ys, -, -, result⟩ := arith_of_real ha hb someComplex someReal
    exact ⟨_, result⟩
  · obtain ⟨f, xs, ys, -, -, -, -, -, result⟩ := arith_of_integer ha hb someComplex someReal
    exact ⟨_, result⟩

/-! ### Sums -/

/-- A store can be summed up if its kind is one of numbers, with or without elements. -/
theorem exists_sum_iff (s : Store) : (∃ r, s.sum = .ok r) ↔ s.kind.IsNumber := by
  rw [sum, StoreKind.IsNumber]
  cases s.kind.number? with
  | none => simp
  | some kind => cases kind <;> simp

/-- The length of a shape counts for nothing. -/
theorem sum_shape (shape : StoreShape) : (Store.shape shape).sum = shape.kind.emptyStore.sum := by
  obtain ⟨kind, length, levels⟩ := shape
  cases kind <;> rfl

/-- Arithmetic of a store with itself succeeds for the stores of numbers, whatever the operation,
and a sum for all stores of the kinds of numbers. So the two accept the same stores except for the
shapes of numbers, of which there are sums only: a shape has the total of an empty store. -/
theorem accepted_alike_except_shapes (op : ArithOp) (s : Store) :
    ((∃ r, arith op s s = .ok r) ↔ s.isNumeric = true) ∧
      ((∃ r, s.sum = .ok r) ↔ s.kind.IsNumber) ∧
      (((∃ r, s.sum = .ok r) ↔ ∃ r, arith op s s = .ok r) ↔
        ¬(s.isShape = true ∧ s.kind.IsNumber)) ∧
      (s.isShape = true → s.sum = s.kind.emptyStore.sum) := by
  have arithmetic : (∃ r, arith op s s = .ok r) ↔ s.isNumeric = true := by
    rw [exists_arith_iff, and_self]
  refine ⟨arithmetic, exists_sum_iff s, ?_, fun absent => ?_⟩
  · rw [arithmetic, exists_sum_iff, isNumeric_iff]
    cases s.isShape <;> simp
  · cases s with
    | shape shape => exact sum_shape shape
    | logical | integer | numeric | complex | character | raw | factor => cases absent

/-- The three numbers of which only the shape is known have the total of none, although the quotient
with themselves is refused. -/
theorem accepted_alike_except_shapes_quotient :
    (shape ⟨.numeric, 3, none⟩).sum = (numeric []).sum ∧
      (∃ r, (shape ⟨.numeric, 3, none⟩).sum = .ok r) ∧
      ¬∃ r, arith .div (shape ⟨.numeric, 3, none⟩) (shape ⟨.numeric, 3, none⟩) = .ok r := by
  obtain ⟨arithmetic, total, -, empty⟩ :=
    accepted_alike_except_shapes .div (shape ⟨.numeric, 3, none⟩)
  exact ⟨empty rfl, total.mpr nofun, fun result => nomatch arithmetic.mp result⟩

/-- Three integers of which only the shape is known add up to zero, while adding them to themselves
is refused. -/
theorem shape_has_total :
    (shape ⟨.integer, 3, none⟩).sum = .ok (integer [0]) ∧
      ¬((∃ r, (shape ⟨.integer, 3, none⟩).sum = .ok r) ↔
        ∃ r, arith .add (shape ⟨.integer, 3, none⟩) (shape ⟨.integer, 3, none⟩) = .ok r) := by
  have total : (shape ⟨.integer, 3, none⟩).sum = .ok (integer [0]) := rfl
  refine ⟨total, fun alike => ?_⟩
  obtain ⟨r, result⟩ := alike.mp ⟨_, total⟩
  cases result

end Store

end EngineLink
