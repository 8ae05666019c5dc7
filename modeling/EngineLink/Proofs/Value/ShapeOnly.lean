import EngineLink.Proofs.Value.Nodes

/-!
# Values without payload

A value that is left alone when its stores are replaced by their shapes has no payload anywhere,
attributes included. The test for shapes does not enter attributes: it tells of the nodes that are
reached through elements, columns, bindings and slots only. So it accepts each value that is its own
shape, and beyond these just those whose payload hides in attributes.

## Main definitions

* `Value.HasPayload` — some store of the value, attributes included, is no shape
* `Value.elementNodes` — the nodes that are reached without entering attributes
* `Value.HidesPayload` — one of these nodes has payload in its attributes

## Main results

* `Value.toShape_eq_self_iff_not_hasPayload` — what the projection leaves alone
* `Value.isShape_iff_forall_elementNodes` — what the test looks at
* `Value.own_shape_iff_tested_and_bare` — how far the two are apart
* `Value.isShape_of_hidden_payload` — payload in an attribute passes the test
-/

namespace EngineLink.Value

/-! ### Payload -/

/-- Some store of the value or of a value nested in it, attributes included, is no shape. -/
def HasPayload (v : Value) : Prop := ∃ p ∈ v.nodes, ∃ s ∈ p.2.store?, s.isShape = false

theorem toShape_eq_self_iff_not_hasPayload (v : Value) : v.toShape = v ↔ ¬v.HasPayload := by
  simp [toShape_eq_self_iff v 0, HasPayload, nodes]

/-! ### Nodes outside of attributes -/

mutual

/-- The value and all values that are reached from it through elements, columns, bindings and slots,
without entering attributes. -/
def elementNodes (v : Value) : List Value :=
  v :: match v with
    | list _ elements _ _ => elementNodesOfList elements
    | dataFrame _ columns _ _ _ _ => elementNodesOfList columns
    | environment _ _ bindings => elementNodesOfPairs bindings
    | object _ slots => elementNodesOfPairs slots
    | vector .. | array .. | null | missing | function _ | reference _ _ | other _ => []

/-- The nodes of each value. -/
def elementNodesOfList : List Value → List Value
  | [] => []
  | v :: vs => elementNodes v ++ elementNodesOfList vs

/-- The nodes of each named value. -/
def elementNodesOfPairs : List (String × Value) → List Value
  | [] => []
  | (_, v) :: rest => elementNodes v ++ elementNodesOfPairs rest

end

mutual

/-- The test asks all stores outside of attributes to be shapes. -/
theorem isShape_iff_forall_elementNodes (v : Value) : v.isShape = true ↔
    ∀ w ∈ v.elementNodes, ∀ s ∈ w.store?, s.isShape = true := by
  cases v <;> simp [isShape, elementNodes, store?, isShapeList_iff_forall_elementNodes,
    isShapePairs_iff_forall_elementNodes]

theorem isShapeList_iff_forall_elementNodes (vs : List Value) : isShapeList vs = true ↔
    ∀ w ∈ elementNodesOfList vs, ∀ s ∈ w.store?, s.isShape = true := by
  cases vs with
  | nil => simp [isShapeList, elementNodesOfList]
  | cons v vs =>
    rw [isShapeList, elementNodesOfList, Bool.and_eq_true, List.forall_mem_append,
      isShape_iff_forall_elementNodes v, isShapeList_iff_forall_elementNodes vs]

theorem isShapePairs_iff_forall_elementNodes (pairs : List (String × Value)) :
    isShapePairs pairs = true ↔
      ∀ w ∈ elementNodesOfPairs pairs, ∀ s ∈ w.store?, s.isShape = true := by
  cases pairs with
  | nil => simp [isShapePairs, elementNodesOfPairs]
  | cons pair pairs =>
    rw [isShapePairs, elementNodesOfPairs, Bool.and_eq_true, List.forall_mem_append,
      isShape_iff_forall_elementNodes pair.2, isShapePairs_iff_forall_elementNodes pairs]

end

/-! ### Attributes -/

theorem toShapePairs_eq_self_iff_forall (pairs : List (String × Value)) :
    toShapePairs pairs = pairs ↔ ∀ pair ∈ pairs, pair.2.toShape = pair.2 := by
  induction pairs with
  | nil => simp [toShapePairs]
  | cons pair pairs ih =>
    obtain ⟨name, v⟩ := pair
    rw [toShapePairs, List.cons.injEq, Prod.mk.injEq, eq_self, true_and, ih, List.forall_mem_cons]

/-- The attributes of the node have no payload. -/
def BareAttributes (v : Value) : Prop := ∀ as ∈ v.attributes?, ∀ a ∈ as, ¬a.2.HasPayload

theorem bareAttributes_iff (v : Value) :
    v.BareAttributes ↔ toShapeAttrs v.attributes? = v.attributes? := by
  rw [BareAttributes]
  cases v.attributes? with
  | none => simp [toShapeAttrs]
  | some pairs =>
    simp [toShapeAttrs, toShapePairs_eq_self_iff_forall, toShape_eq_self_iff_not_hasPayload]

mutual

/-- What the test leaves open are the attributes of the nodes that it looks at. -/
theorem toShape_eq_self_iff_bareAttributes (v : Value) :
    v.toShape = v ↔ v.isShape = true ∧ ∀ w ∈ v.elementNodes, w.BareAttributes := by
  have bare := v.bareAttributes_iff
  -- Where there are stores the two agree; attributes are what `isShape` leaves out.
  cases v with
  | null | missing | function | reference | other =>
    simp [toShape, isShape, elementNodes, bare, toShapeAttrs, attributes?]
  | vector cls store names attrs | array cls store dim dimnames attrs =>
    simp [toShape, isShape, elementNodes, bare, attributes?, Store.toShape_eq_self_iff]
  | list cls vs names attrs | dataFrame cls vs columnNames rowCount rowNames attrs =>
    simp [toShape, isShape, elementNodes, bare, attributes?,
      toShapeList_eq_self_iff_bareAttributes vs, and_comm, and_left_comm]
  | environment name handle pairs | object cls pairs =>
    simp [toShape, isShape, elementNodes, bare, toShapeAttrs, attributes?,
      toShapePairs_eq_self_iff_bareAttributes pairs]

theorem toShapeList_eq_self_iff_bareAttributes (vs : List Value) :
    toShapeList vs = vs ↔ isShapeList vs = true ∧
      ∀ w ∈ elementNodesOfList vs, w.BareAttributes := by
  cases vs with
  | nil => simp [toShapeList, isShapeList, elementNodesOfList]
  | cons v vs =>
    rw [toShapeList, isShapeList, elementNodesOfList, List.cons.injEq, Bool.and_eq_true,
      List.forall_mem_append, toShape_eq_self_iff_bareAttributes v,
      toShapeList_eq_self_iff_bareAttributes vs, and_and_and_comm]

theorem toShapePairs_eq_self_iff_bareAttributes (pairs : List (String × Value)) :
    toShapePairs pairs = pairs ↔ isShapePairs pairs = true ∧
      ∀ w ∈ elementNodesOfPairs pairs, w.BareAttributes := by
  cases pairs with
  | nil => simp [toShapePairs, isShapePairs, elementNodesOfPairs]
  | cons pair pairs =>
    obtain ⟨name, v⟩ := pair
    rw [toShapePairs, isShapePairs, elementNodesOfPairs, List.cons.injEq, Prod.mk.injEq, eq_self,
      true_and, Bool.and_eq_true, List.forall_mem_append, toShape_eq_self_iff_bareAttributes v,
      toShapePairs_eq_self_iff_bareAttributes pairs, and_and_and_comm]

end

/-- Payload that the test does not see: it stands in an attribute of a node that is reached without
entering attributes. -/
def HidesPayload (v : Value) : Prop := ∃ w ∈ v.elementNodes, ¬w.BareAttributes

/-- A value is its own shape if it has no payload anywhere. The test asks less, as it does not enter
attributes: a value is its own shape if it passes the test and hides no payload, and the two are
apart just for the values that pass the test and hide some. -/
theorem own_shape_iff_tested_and_bare (v : Value) :
    (v.toShape = v ↔ ¬v.HasPayload) ∧
      (v.isShape = true ↔ ∀ w ∈ v.elementNodes, ∀ s ∈ w.store?, s.isShape = true) ∧
      (v.toShape = v ↔ v.isShape = true ∧ ¬v.HidesPayload) ∧
      (¬(v.isShape = true ↔ v.toShape = v) ↔ v.isShape = true ∧ v.HidesPayload) := by
  have own : v.toShape = v ↔ v.isShape = true ∧ ¬v.HidesPayload := by
    simp [toShape_eq_self_iff_bareAttributes v, HidesPayload]
  refine ⟨toShape_eq_self_iff_not_hasPayload v, isShape_iff_forall_elementNodes v, own, ?_⟩
  rw [own]
  by_cases hidden : v.HidesPayload <;> simp [hidden]

/-- An empty list with a comment. -/
def commented : Value :=
  list none [] none (some [("comment", ofStore (.character [some "none left"]))])

/-- The comment is payload, which the projection takes away and the test does not see. -/
theorem isShape_of_hidden_payload :
    ¬(commented.isShape = true ↔ commented.toShape = commented) := by
  simp [commented, isShape, isShapeList, toShape, toShapeList, toShapeAttrs, toShapePairs, ofStore,
    Store.toShape]

/-- A slot that holds the shape of three integers, and one that holds an empty list with a
comment. -/
def slotted : Value :=
  object "P" [("x", ofStore (.shape ⟨.integer, 3, none⟩)), ("y", commented)]

/-- The comment is found as what the projection takes away from the second slot. -/
theorem own_shape_iff_tested_and_bare_slotted :
    slotted.isShape = true ∧ slotted.toShape ≠ slotted ∧ slotted.HidesPayload := by
  obtain ⟨-, -, -, apart⟩ := own_shape_iff_tested_and_bare slotted
  have tested : slotted.isShape = true := rfl
  have changed : slotted.toShape ≠ slotted := by
    simp [slotted, commented, toShape, toShapePairs, toShapeList, toShapeAttrs, ofStore,
      Store.toShape]
  exact ⟨tested, changed, (apart.mp fun same => changed (same.mp tested)).2⟩

end EngineLink.Value
