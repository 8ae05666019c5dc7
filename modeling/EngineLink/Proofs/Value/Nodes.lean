import EngineLink.Proofs.Wire.Reads
import EngineLink.Value.Limits
import EngineLink.Value.Shape
import EngineLink.Value.StoreForm

/-!
# The nodes of a value

A value is a tree. What the wire format asks of a value — that lengths are counts, that entries are
within the limits, that shapes are complete — it asks of each node for itself, at the depth at which
the node is met.

## Main definitions

* `Value.nodesAt` — all nodes with their depths
* `Value.lengths` — the lengths that are written for all nodes
* `Value.ListsWithin`, `Value.Within`, `Value.ShapesComplete` — conditions on all nodes
* `Value.carried` — the value, or its shape, as the mode tells

## Main results

* `Value.hasShape_eq_false_iff` — a value has no shape if no node of it has one
* `Value.toShape_eq_self_iff` — a value is its own shape if all of its stores are shapes
-/

namespace EngineLink

/-! ### Lengths of stores -/

/-- The lengths that are written for a shape. -/
def StoreShape.lengths (s : StoreShape) : List Nat :=
  s.length ::
    match s.kind with
    | .factor => [(s.factor.getD (false, 0)).2]
    | _ => []

/-- Whether a shape tells of the levels exactly if it is the shape of a factor. -/
def StoreShape.Complete (s : StoreShape) : Prop := s.factor.isSome ↔ s.kind = .factor

instance (s : StoreShape) : Decidable s.Complete := by
  unfold StoreShape.Complete
  infer_instance

namespace Store

/-- The lengths that are written for the elements of a store. -/
def payloadLengths : Store → List Nat
  | logical xs => [xs.length]
  | integer xs => [xs.length]
  | numeric xs => [xs.length]
  | complex xs => [xs.length]
  | character xs => Wire.textsLengths xs
  | raw xs => [xs.length]
  | factor f => f.codes.length :: f.levels.length :: f.levels.map String.utf8ByteSize
  | shape _ => []

/-- The lengths that are written for a store. -/
def lengths (mode : Coding) (s : Store) : List Nat :=
  match mode with
  | .full => s.payloadLengths
  | .shape => s.outline.lengths

/-- The store, or its shape, as the mode tells. -/
def carried (mode : Coding) (s : Store) : Store :=
  match mode with
  | .full => s
  | .shape => s.toShape

theorem toShape_eq_self_iff (s : Store) : s.toShape = s ↔ s.isShape = true := by
  cases s <;> simp [toShape, isShape, outline]

end Store

namespace Value

/-! ### Nodes -/

mutual

/-- All nodes of a value that is met at depth `depth`, each with the depth at which it is met. -/
def nodesAt (depth : Nat) (v : Value) : List (Nat × Value) :=
  (depth, v) ::
    match v with
    | vector _ _ _ attrs => nodesOfAttrs (depth + 1) attrs
    | array _ _ _ _ attrs => nodesOfAttrs (depth + 1) attrs
    | list _ elements _ attrs =>
      nodesOfList (depth + 1) elements ++ nodesOfAttrs (depth + 1) attrs
    | dataFrame _ columns _ _ _ attrs =>
      nodesOfList (depth + 1) columns ++ nodesOfAttrs (depth + 1) attrs
    | environment _ _ bindings => nodesOfPairs (depth + 1) bindings
    | object _ slots => nodesOfPairs (depth + 1) slots
    | null | missing | function _ | reference _ _ | other _ => []

/-- The nodes of each value. -/
def nodesOfList (depth : Nat) : List Value → List (Nat × Value)
  | [] => []
  | v :: vs => nodesAt depth v ++ nodesOfList depth vs

/-- The nodes of each named value. -/
def nodesOfPairs (depth : Nat) : List (String × Value) → List (Nat × Value)
  | [] => []
  | (_, v) :: rest => nodesAt depth v ++ nodesOfPairs depth rest

/-- The nodes of each attribute. -/
def nodesOfAttrs (depth : Nat) : Option (List (String × Value)) → List (Nat × Value)
  | none => []
  | some as => nodesOfPairs depth as

end

/-- All nodes of a value with their depths. -/
def nodes (v : Value) : List (Nat × Value) := v.nodesAt 0

theorem mem_nodesAt (v : Value) (depth : Nat) : (depth, v) ∈ v.nodesAt depth := by
  rw [nodesAt.eq_def]
  exact List.mem_cons_self

theorem forall_mem_nodesOfList {P : Nat × Value → Prop} {vs : List Value} {depth : Nat} :
    (∀ p ∈ nodesOfList depth vs, P p) ↔ ∀ v ∈ vs, ∀ p ∈ v.nodesAt depth, P p := by
  induction vs with
  | nil => simp [nodesOfList]
  | cons v vs ih => rw [nodesOfList, List.forall_mem_append, List.forall_mem_cons, ih]

theorem forall_mem_nodesOfPairs {P : Nat × Value → Prop} {pairs : List (String × Value)}
    {depth : Nat} :
    (∀ p ∈ nodesOfPairs depth pairs, P p) ↔ ∀ pair ∈ pairs, ∀ p ∈ pair.2.nodesAt depth, P p := by
  induction pairs with
  | nil => simp [nodesOfPairs]
  | cons pair pairs ih => rw [nodesOfPairs, List.forall_mem_append, List.forall_mem_cons, ih]

theorem forall_mem_nodesOfAttrs {P : Nat × Value → Prop} {attrs : Option (List (String × Value))}
    {depth : Nat} :
    (∀ p ∈ nodesOfAttrs depth attrs, P p) ↔
      ∀ pairs ∈ attrs, ∀ pair ∈ pairs, ∀ p ∈ pair.2.nodesAt depth, P p := by
  cases attrs with
  | none => simp [nodesOfAttrs]
  | some pairs =>
    rw [nodesOfAttrs, forall_mem_nodesOfPairs]
    simp only [Option.mem_def, Option.some.injEq, forall_eq']

/-! ### What a node has of its own -/

/-- The lengths that are written for the names of nested values. -/
def pairLengths (pairs : List (String × Value)) : List Nat :=
  pairs.length :: pairs.map (·.1.utf8ByteSize)

/-- The lengths that are written for the names of attributes. -/
def attrLengths (attrs : Option (List (String × Value))) : List Nat :=
  (attrs.map pairLengths).getD []

/-- The lengths that are written for a node, those of nested values apart. The number of rows of a
data frame counts as a length. -/
def ownLengths (mode : Coding) : Value → List Nat
  | null | missing => []
  | vector cls store names attrs =>
    Wire.textLengths? cls ++ store.lengths mode ++ Wire.textsLengths? names ++ attrLengths attrs
  | array cls store dim dimnames attrs =>
    Wire.textLengths? cls ++ dim.length :: store.lengths mode ++
      (dimnames.map fun ns => ns.length :: ns.flatMap Wire.textsLengths?).getD [] ++
      attrLengths attrs
  | list cls elements names attrs =>
    Wire.textLengths? cls ++ elements.length :: Wire.textsLengths? names ++ attrLengths attrs
  | dataFrame cls columns columnNames rowCount rowNames attrs =>
    Wire.textLengths? cls ++ columns.length :: rowCount :: Wire.textsLengths columnNames ++
      Wire.textsLengths? rowNames ++ attrLengths attrs
  | environment name _ bindings => name.utf8ByteSize :: pairLengths bindings
  | function header => [header.utf8ByteSize]
  | object cls slots => cls.utf8ByteSize :: pairLengths slots
  | reference _ cls => Wire.textLengths? cls
  | other cls => [cls.utf8ByteSize]

/-- The numbers of entries of a node as a list, a data frame or a set of slots, and of its
attributes. -/
def entryCounts : Value → List Nat
  | vector _ _ _ attrs | array _ _ _ _ attrs => attrs.toList.map List.length
  | list _ elements _ attrs => elements.length :: attrs.toList.map List.length
  | dataFrame _ columns _ _ _ attrs => columns.length :: attrs.toList.map List.length
  | object _ slots => [slots.length]
  | _ => []

/-- The numbers of bindings of a node. -/
def bindingCounts : Value → List Nat
  | environment _ _ bindings => [bindings.length]
  | _ => []

/-! ### Conditions on all nodes -/

/-- All lengths that are written for a value. -/
def lengths (mode : Coding) (v : Value) : List Nat := v.nodes.flatMap (·.2.ownLengths mode)

/-- All lists, data frames, sets of slots and sets of attributes have at most `limit` entries. -/
def ListsWithin (limit : Nat) (v : Value) : Prop :=
  ∀ p ∈ v.nodes, ∀ n ∈ p.2.entryCounts, n ≤ limit

/-- No value that could nest others is met below the deepest level, and no list, set or environment
is too large. -/
def Within (L : Limits) (v : Value) : Prop :=
  ∀ p ∈ v.nodes, (p.2.isLeaf ∨ p.1 ≤ L.maxDepth) ∧ (∀ n ∈ p.2.entryCounts, n ≤ L.maxList) ∧
    ∀ n ∈ p.2.bindingCounts, n ≤ L.maxEnv

instance (limit : Nat) (v : Value) : Decidable (v.ListsWithin limit) := by
  unfold Value.ListsWithin
  infer_instance

/-- All shapes of stores tell of the levels exactly if they are shapes of factors. -/
def ShapesComplete (v : Value) : Prop :=
  ∀ p ∈ v.nodes, ∀ s ∈ p.2.store?, s.outline.Complete

instance (v : Value) : Decidable v.ShapesComplete := by
  unfold Value.ShapesComplete
  infer_instance

mutual

/-- A value has no shape if no node of it has one. -/
theorem hasShape_eq_false_iff (v : Value) (depth : Nat) : v.hasShape = false ↔
    ∀ p ∈ v.nodesAt depth, ∀ s ∈ p.2.store?, s.isShape = false := by
  cases v <;> simp [nodesAt, hasShape, store?, hasShapeList_eq_false_iff _ (depth + 1),
    hasShapePairs_eq_false_iff _ (depth + 1), hasShapeAttrs_eq_false_iff _ (depth + 1),
    or_imp, forall_and]

theorem hasShapeList_eq_false_iff (vs : List Value) (depth : Nat) : hasShapeList vs = false ↔
    ∀ p ∈ nodesOfList depth vs, ∀ s ∈ p.2.store?, s.isShape = false := by
  cases vs with
  | nil => simp [nodesOfList, hasShapeList]
  | cons v vs =>
    rw [nodesOfList, hasShapeList, Bool.or_eq_false_iff, List.forall_mem_append,
      hasShape_eq_false_iff v depth, hasShapeList_eq_false_iff vs depth]

theorem hasShapePairs_eq_false_iff (pairs : List (String × Value)) (depth : Nat) :
    hasShapePairs pairs = false ↔
      ∀ p ∈ nodesOfPairs depth pairs, ∀ s ∈ p.2.store?, s.isShape = false := by
  cases pairs with
  | nil => simp [nodesOfPairs, hasShapePairs]
  | cons pair pairs =>
    rw [nodesOfPairs, hasShapePairs, Bool.or_eq_false_iff, List.forall_mem_append,
      hasShape_eq_false_iff pair.2 depth, hasShapePairs_eq_false_iff pairs depth]

theorem hasShapeAttrs_eq_false_iff (attrs : Option (List (String × Value))) (depth : Nat) :
    hasShapeAttrs attrs = false ↔
      ∀ p ∈ nodesOfAttrs depth attrs, ∀ s ∈ p.2.store?, s.isShape = false := by
  cases attrs with
  | none => simp [nodesOfAttrs, hasShapeAttrs]
  | some pairs => rw [nodesOfAttrs, hasShapeAttrs, hasShapePairs_eq_false_iff pairs depth]

end

mutual

/-- A value is its own shape if all of its stores are shapes. -/
theorem toShape_eq_self_iff (v : Value) (depth : Nat) : v.toShape = v ↔
    ∀ p ∈ v.nodesAt depth, ∀ s ∈ p.2.store?, s.isShape = true := by
  cases v <;> simp [nodesAt, toShape, store?, Store.toShape_eq_self_iff,
    toShapeList_eq_self_iff _ (depth + 1), toShapePairs_eq_self_iff _ (depth + 1),
    toShapeAttrs_eq_self_iff _ (depth + 1), or_imp, forall_and]

theorem toShapeList_eq_self_iff (vs : List Value) (depth : Nat) : toShapeList vs = vs ↔
    ∀ p ∈ nodesOfList depth vs, ∀ s ∈ p.2.store?, s.isShape = true := by
  cases vs with
  | nil => simp [nodesOfList, toShapeList]
  | cons v vs =>
    rw [nodesOfList, toShapeList, List.cons.injEq, List.forall_mem_append,
      toShape_eq_self_iff v depth, toShapeList_eq_self_iff vs depth]

theorem toShapePairs_eq_self_iff (pairs : List (String × Value)) (depth : Nat) :
    toShapePairs pairs = pairs ↔
      ∀ p ∈ nodesOfPairs depth pairs, ∀ s ∈ p.2.store?, s.isShape = true := by
  cases pairs with
  | nil => simp [nodesOfPairs, toShapePairs]
  | cons pair pairs =>
    obtain ⟨name, v⟩ := pair
    rw [nodesOfPairs, toShapePairs, List.cons.injEq, Prod.mk.injEq, eq_self, true_and,
      List.forall_mem_append, toShape_eq_self_iff v depth, toShapePairs_eq_self_iff pairs depth]

theorem toShapeAttrs_eq_self_iff (attrs : Option (List (String × Value))) (depth : Nat) :
    toShapeAttrs attrs = attrs ↔
      ∀ p ∈ nodesOfAttrs depth attrs, ∀ s ∈ p.2.store?, s.isShape = true := by
  cases attrs with
  | none => simp [nodesOfAttrs, toShapeAttrs]
  | some pairs =>
    rw [nodesOfAttrs, toShapeAttrs, Option.some.injEq, toShapePairs_eq_self_iff pairs depth]

end

/-! ### What is carried in each mode -/

/-- The value, or its shape, as the mode tells. -/
def carried (mode : Coding) (v : Value) : Value :=
  match mode with
  | .full => v
  | .shape => v.toShape

end Value

end EngineLink
