import Mathlib.Algebra.Order.BigOperators.Group.List
import Mathlib.Algebra.Order.Group.Nat
import EngineLink.Debug.Tracepoint

/-!
# Tracepoints in order

Positions and states of tracepoints are compared key by key, and the keys cover all that they
consist of. So both comparisons are total orders in which only equal things are equal. The first key
of a position is its path, and paths are compared such that a path comes before all that extend it:
sorted positions are listed depth first.

## Main definitions

* `TracepointPosition.sorted` — positions in ascending order
* `TracepointPosition.DepthFirst` — the listings of positions that walk the tree of their paths
  depth first

## Main results

* `List.compare_eq_lt_of_isPrefix`, `List.prefix_of_isLE_of_isLE` — prefixes in the order of lists
* `TracepointPosition.depthFirst_of_ascending` — an ascending list is a depth-first listing
* `TracepointPosition.lawful_and_depthFirst` — the laws of both orders, and sorting positions
-/

/-! ### Prefixes -/

section Prefixes

variable {α : Type*} [Ord α] [Std.LawfulEqOrd α]

/-- A list comes before all that extend it. -/
theorem List.compare_eq_lt_of_isPrefix {p q : List α} (extended : p <+: q) (other : p ≠ q) :
    compare p q = .lt := by
  induction p generalizing q with
  | nil =>
    cases q with
    | nil => exact absurd rfl other
    | cons y q => rfl
  | cons x p ih =>
    obtain ⟨r, rfl⟩ := extended
    rw [List.cons_append, List.compare_cons_cons, Std.ReflOrd.compare_self]
    exact ih (List.prefix_append p r) fun same => other (by rw [List.cons_append, ← same])

/-- What lies between two lists with a common prefix has this prefix, too. -/
theorem List.prefix_of_isLE_of_isLE [Std.TransOrd α] {p a b c : List α}
    (lower : (compare a b).isLE) (upper : (compare b c).isLE) (first : p <+: a)
    (last : p <+: c) : p <+: b := by
  induction p generalizing a b c with
  | nil => exact List.nil_prefix
  | cons x p ih =>
    obtain ⟨a, rfl⟩ := first
    obtain ⟨c, rfl⟩ := last
    cases b with
    | nil => cases lower
    | cons y b =>
      rw [List.cons_append, List.compare_cons_cons] at lower upper
      -- The heads are the same, as neither lies below the other.
      obtain rfl : x = y := Std.LawfulEqOrd.eq_of_compare <| Std.OrientedCmp.isLE_antisymm
        (Ordering.isLE_left_of_isLE_then lower) (Ordering.isLE_left_of_isLE_then upper)
      rw [Std.ReflOrd.compare_self, Ordering.eq_then] at lower upper
      rw [List.cons_prefix_cons]
      exact ⟨rfl, ih lower upper (List.prefix_append p a) (List.prefix_append p c)⟩

/-- Paths that part behind a common prefix are ordered as the places where they part. -/
theorem List.isLE_of_isLE_append {p a b : List α} {i j : α}
    (ordered : (compare (p ++ i :: a) (p ++ j :: b)).isLE) : (compare i j).isLE := by
  induction p with
  | nil =>
    rw [List.nil_append, List.nil_append, List.compare_cons_cons] at ordered
    exact Ordering.isLE_left_of_isLE_then ordered
  | cons x p ih =>
    rw [List.cons_append, List.cons_append, List.compare_cons_cons, Std.ReflOrd.compare_self]
      at ordered
    exact ih ordered

end Prefixes

namespace EngineLink

open Std

/-! ### The orders -/

/-- Types are ordered as they are listed. -/
instance : TransOrd TracepointType :=
  inferInstanceAs (TransCmp (compareOn TracepointType.ctorIdx))

instance : LawfulEqOrd TracepointType where
  eq_of_compare {a b} same := by cases a <;> cases b <;> first | rfl | cases same

theorem SourceRef.coords_injective : Function.Injective SourceRef.coords := by
  intro s t same
  rw [← Option.some_inj, ← ofCoords?_coords, same, ofCoords?_coords]

namespace TracepointPosition

/-- Key by key comparisons of lawful keys are lawful. -/
instance : TransCmp TracepointPosition.compare :=
  inferInstanceAs <| TransCmp <| compareLex (compareOn index) <| compareLex (compareOn type) <|
    compareLex (compareOn id) (compareOn fun p => p.srcref.map SourceRef.coords)

instance : LawfulEqCmp TracepointPosition.compare where
  eq_of_compare {a b} same := by
    simp only [compare, Ordering.then_eq_eq, LawfulEqCmp.compare_eq_iff_eq,
      (Option.map_injective SourceRef.coords_injective).eq_iff] at same
    obtain ⟨index, type, id, srcref⟩ := same
    cases a
    cases b
    congr

end TracepointPosition

namespace TracepointState

instance : TransCmp TracepointState.compare :=
  inferInstanceAs <| TransCmp <| compareLex (compareOn filePath) <|
    compareLex (compareOn elementId) <| compareLex (compareOn id) <| compareLex (compareOn type) <|
      compareLex (compareOn index) <| compareLex (compareOn flags) <|
        compareLex (compareOn elementLabel) (compareOn condition)

instance : LawfulEqCmp TracepointState.compare where
  eq_of_compare {a b} same := by
    simp only [compare, Ordering.then_eq_eq, LawfulEqCmp.compare_eq_iff_eq] at same
    obtain ⟨filePath, elementId, id, type, index, flags, elementLabel, condition⟩ := same
    cases a
    cases b
    congr

end TracepointState

namespace TracepointPosition

variable {a b c x y : TracepointPosition} {p : List Int32}

/-! ### Paths of positions -/

/-- Positions are ordered by their paths first. -/
theorem isLE_index (ordered : (a.compare b).isLE) : (Ord.compare a.index b.index).isLE :=
  Ordering.isLE_left_of_isLE_then ordered

theorem compare_eq_lt_of_index (before : Ord.compare a.index b.index = .lt) :
    a.compare b = .lt := by
  rw [compare, before]
  rfl

/-- A position comes before all below it. -/
theorem compare_eq_lt_of_isPrefix (above : a.index <+: b.index) (other : a.index ≠ b.index) :
    a.compare b = .lt :=
  compare_eq_lt_of_index (List.compare_eq_lt_of_isPrefix above other)

/-- What lies between positions at or below a path lies at or below it, too. -/
theorem prefix_of_between (lower : (a.compare b).isLE) (upper : (b.compare c).isLE)
    (first : p <+: a.index) (last : p <+: c.index) : p <+: b.index :=
  List.prefix_of_isLE_of_isLE (isLE_index lower) (isLE_index upper) first last

/-! ### Depth-first listings -/

/-- The positions at and below a path `p` are listed depth first: those at `p` itself, then child by
child, from the lowest index on, those at and below the child. -/
inductive DepthFirst : List Int32 → List TracepointPosition → Prop
  | node {p : List Int32} {own : List TracepointPosition}
      {children : List (Int32 × List TracepointPosition)} (here : ∀ x ∈ own, x.index = p)
      (ascending : children.Pairwise fun i j => i.1 < j.1)
      (below : ∀ child ∈ children, DepthFirst (p ++ [child.1]) child.2) :
      DepthFirst p (own ++ children.flatMap (·.2))

/-- Each position comes before those that follow it, or is the same. -/
def Ascending (xs : List TracepointPosition) : Prop :=
  xs.Pairwise fun a b => (a.compare b).isLE

instance (xs : List TracepointPosition) : Decidable (Ascending xs) := by
  unfold Ascending
  infer_instance

/-- The positions in ascending order. -/
def sorted (xs : List TracepointPosition) : List TracepointPosition :=
  xs.mergeSort fun a b => (a.compare b).isLE

/-- The position lies below `p`, behind the index `i`. -/
def IsBehind (p : List Int32) (i : Int32) (x : TracepointPosition) : Prop := p ++ [i] <+: x.index

/-- A position at or below `p` is the one or the other. -/
theorem eq_or_isBehind (h : p <+: x.index) : x.index = p ∨ ∃ i, x.IsBehind p i := by
  obtain ⟨_ | ⟨i, rest⟩, split⟩ := h
  · exact .inl (by rw [← split, List.append_nil])
  · exact .inr ⟨i, rest, by rw [← split, List.append_assoc, List.singleton_append]⟩

theorem le_of_isBehind {i j : Int32} (ordered : (x.compare y).isLE) (hx : x.IsBehind p i)
    (hy : y.IsBehind p j) : i ≤ j := by
  obtain ⟨a, hx⟩ := hx
  obtain ⟨b, hy⟩ := hy
  have paths := isLE_index ordered
  rw [← hx, ← hy, List.append_assoc, List.append_assoc] at paths
  exact isLE_compare.mp (List.isLE_of_isLE_append paths)

/-- Nothing below `p` comes before what is at `p`. -/
theorem index_ne_of_isLE {i : Int32} (ordered : (x.compare y).isLE) (hx : x.IsBehind p i) :
    y.index ≠ p := by
  rintro rfl
  have above : y.index <+: x.index := (List.prefix_append _ _).trans hx
  have other : y.index ≠ x.index := by
    intro same
    have longer := hx.length_le
    rw [← same, List.length_append, List.length_singleton] at longer
    omega
  exact OrientedCmp.not_isLE_of_lt (compare_eq_lt_of_isPrefix above other) ordered

variable {xs : List TracepointPosition}

/-- In ascending order, what is at `p` comes before all that lies below it. -/
theorem exists_own (ascending : Ascending xs) (within : ∀ x ∈ xs, p <+: x.index) :
    ∃ own rest, xs = own ++ rest ∧ (∀ x ∈ own, x.index = p) ∧ ∀ x ∈ rest, ∃ i, x.IsBehind p i := by
  induction xs with
  | nil => exact ⟨[], [], rfl, by simp, by simp⟩
  | cons x xs ih =>
    obtain ⟨first, ascending⟩ := List.pairwise_cons.mp ascending
    obtain ⟨here, within⟩ := List.forall_mem_cons.mp within
    obtain atPath | ⟨i, behind⟩ := eq_or_isBehind here
    · obtain ⟨own, rest, rfl, all, below⟩ := ih ascending within
      exact ⟨x :: own, rest, rfl, List.forall_mem_cons.mpr ⟨atPath, all⟩, below⟩
    · -- From the first one below `p` on, nothing is at `p` any more.
      refine ⟨[], x :: xs, rfl, by simp, List.forall_mem_cons.mpr ⟨⟨i, behind⟩, fun y hy => ?_⟩⟩
      exact (eq_or_isBehind (within y hy)).resolve_left (index_ne_of_isLE (first y hy) behind)

/-- In ascending order, what lies below `p` is listed child by child. -/
theorem exists_children (ascending : Ascending xs) (below : ∀ x ∈ xs, ∃ i, x.IsBehind p i) :
    ∃ children : List (Int32 × List TracepointPosition), xs = children.flatMap (·.2) ∧
      (children.Pairwise fun i j => i.1 < j.1) ∧
      ∀ child ∈ children, child.2 ≠ [] ∧ ∀ x ∈ child.2, x.IsBehind p child.1 := by
  induction xs with
  | nil => exact ⟨[], rfl, .nil, by simp⟩
  | cons x xs ih =>
    obtain ⟨first, ascending⟩ := List.pairwise_cons.mp ascending
    obtain ⟨⟨i, behind⟩, below⟩ := List.forall_mem_cons.mp below
    obtain ⟨children, rfl, lower, all⟩ := ih ascending below
    cases children with
    | nil => exact ⟨[(i, [x])], rfl, List.pairwise_singleton _ _, by simpa using behind⟩
    | cons child children =>
      obtain ⟨j, ys⟩ := child
      obtain ⟨⟨nonempty, inside⟩, others⟩ := List.forall_mem_cons.mp all
      obtain ⟨y, hy⟩ := List.exists_mem_of_ne_nil ys nonempty
      have notAfter : i ≤ j := le_of_isBehind (first y (by simp [hy])) behind (inside y hy)
      -- The new position opens a child of its own, unless it belongs to the first one.
      obtain rfl | before := (Int32.le_iff_lt_or_eq.mp notAfter).symm
      · refine ⟨(i, x :: ys) :: children, rfl, ?_, List.forall_mem_cons.mpr ⟨?_, others⟩⟩
        · exact List.pairwise_cons.mpr (List.pairwise_cons.mp lower)
        · exact ⟨List.cons_ne_nil x ys, List.forall_mem_cons.mpr ⟨behind, inside⟩⟩
      · refine ⟨(i, [x]) :: (j, ys) :: children, rfl, List.pairwise_cons.mpr ⟨?_, lower⟩,
          List.forall_mem_cons.mpr ⟨by simpa using behind, all⟩⟩
        exact List.forall_mem_cons.mpr
          ⟨before, fun c hc => Int32.lt_trans before ((List.pairwise_cons.mp lower).1 c hc)⟩

/-- By induction on the number of levels from `p` downwards. -/
theorem depthFirst_of_levels (levels : Nat) (ascending : Ascending xs)
    (within : ∀ x ∈ xs, p <+: x.index)
    (shallow : ∀ x ∈ xs, x.index.length < p.length + levels) : DepthFirst p xs := by
  induction levels generalizing p xs with
  | zero =>
    obtain rfl : xs = [] := List.eq_nil_iff_forall_not_mem.mpr fun x hx =>
      absurd (within x hx).length_le (Nat.not_le_of_lt (shallow x hx))
    exact @DepthFirst.node p [] [] (by simp) .nil (by simp)
  | succ levels ih =>
    -- Behind each index of a child there is one level less to go.
    obtain ⟨own, rest, rfl, here, below⟩ := exists_own ascending within
    obtain ⟨-, ascending, -⟩ := List.pairwise_append.mp ascending
    obtain ⟨children, rfl, lower, all⟩ := exists_children ascending below
    refine .node here lower fun child hc => ?_
    refine ih ((List.pairwise_flatMap.mp ascending).1 child hc) (all child hc).2 fun x hx => ?_
    have bound := shallow x (List.mem_append_right own (List.mem_flatMap.mpr ⟨child, hc, hx⟩))
    rw [List.length_append, List.length_singleton]
    omega

/-- Positions in ascending order are listed depth first. -/
theorem depthFirst_of_ascending (ascending : Ascending xs) : DepthFirst [] xs := by
  refine depthFirst_of_levels ((xs.map fun x => x.index.length).sum + 1) ascending
    (fun x _ => List.nil_prefix) fun x hx => ?_
  have bound : x.index.length ≤ (xs.map fun x => x.index.length).sum :=
    List.le_sum_of_mem (List.mem_map_of_mem hx)
  rw [List.length_nil]
  omega

/-! ### Sorting -/

theorem ascending_sorted (xs : List TracepointPosition) : Ascending (sorted xs) := by
  refine List.pairwise_mergeSort (fun _ _ _ => TransCmp.isLE_trans) (fun a b => ?_) xs
  have swap : b.compare a = (a.compare b).swap := OrientedCmp.eq_swap
  rw [swap]
  cases a.compare b <;> rfl

/-- There is one way only to bring positions into ascending order. -/
theorem eq_sorted {ys : List TracepointPosition} (ascending : Ascending xs) (same : xs.Perm ys) :
    xs = sorted ys := by
  refine List.Perm.eq_of_pairwise (fun a b _ _ lower upper => ?_) ascending (ascending_sorted ys)
    (same.trans (List.mergeSort_perm ys _).symm)
  exact LawfulEqCmp.eq_of_compare (OrientedCmp.isLE_antisymm lower upper)

/-- Positions and states are totally ordered, and only equal ones compare as equal. A position comes
before all below it, and what lies between positions at or below a path lies there, too. So sorted
positions are listed depth first, and sorting has no other outcome. -/
theorem lawful_and_depthFirst :
    (TransCmp TracepointPosition.compare ∧ LawfulEqCmp TracepointPosition.compare) ∧
      (TransCmp TracepointState.compare ∧ LawfulEqCmp TracepointState.compare) ∧
      (∀ a b : TracepointPosition, a.index <+: b.index → a.index ≠ b.index → a.compare b = .lt) ∧
      (∀ (a b c : TracepointPosition) (p : List Int32), (a.compare b).isLE → (b.compare c).isLE →
        p <+: a.index → p <+: c.index → p <+: b.index) ∧
      ∀ ys : List TracepointPosition, DepthFirst [] (sorted ys) ∧
        ∀ xs : List TracepointPosition, Ascending xs → xs.Perm ys → xs = sorted ys :=
  ⟨⟨inferInstance, inferInstance⟩, ⟨inferInstance, inferInstance⟩,
    fun _ _ => compare_eq_lt_of_isPrefix, fun _ _ _ _ => prefix_of_between,
    fun ys => ⟨depthFirst_of_ascending (ascending_sorted ys), fun _ => eq_sorted⟩⟩

/-- A line breakpoint without source reference. -/
def lineBreak (id : Int64) (index : List Int32) : TracepointPosition :=
  ⟨.lineBreakpoint, id, index, none⟩

/-- Two levels, met in the order of their numbers, with a negative index among them. -/
theorem lawful_and_depthFirst_twoLevels :
    (lineBreak 3 [1]).compare (lineBreak 2 [1, 2]) = .lt ∧ [1] <+: (lineBreak 4 [1, -7, 0]).index ∧
      DepthFirst [] [lineBreak 3 [1], lineBreak 4 [1, -7, 0], lineBreak 2 [1, 2],
        lineBreak 1 [2]] := by
  obtain ⟨-, -, above, between, sorting⟩ := lawful_and_depthFirst
  obtain ⟨listed, unique⟩ :=
    sorting [lineBreak 1 [2], lineBreak 2 [1, 2], lineBreak 3 [1], lineBreak 4 [1, -7, 0]]
  refine ⟨above _ _ (by decide) (by decide), ?_, ?_⟩
  · exact between (lineBreak 3 [1]) _ (lineBreak 2 [1, 2]) [1] (by decide) (by decide) (by decide)
      (by decide)
  · have order := unique [lineBreak 3 [1], lineBreak 4 [1, -7, 0], lineBreak 2 [1, 2],
      lineBreak 1 [2]] (by decide) (by decide)
    rwa [← order] at listed

end TracepointPosition

end EngineLink
