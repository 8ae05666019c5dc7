import EngineLink.Proofs.Value.RoundTrip

/-!
# Shapes are read back

In shape mode the writer looks at nothing but the shape of a value. So it never refuses a value, it
cannot tell values of one shape from each other, and what is read back is the shape, with references
in place.

## Main results

* `Value.encode_toShape` — a value is written in shape mode as its shape is
* `Value.roundTrip_shape` — the round trip of whole values in shape mode
-/

namespace EngineLink

open Wire

theorem Store.kind_toShape (s : Store) : s.toShape.kind = s.kind := by cases s <;> rfl

/-- A store is written in shape mode as its shape is. -/
theorem Store.put_toShape (s : Store) : s.toShape.put .shape = s.put .shape := by
  rw [Store.put, Store.put, Store.kind_toShape]
  rfl

namespace Value

variable {L : Limits}

/-! ### What the shape keeps -/

@[simp] theorem isLeaf_toShape (v : Value) : v.toShape.isLeaf = v.isLeaf := by cases v <;> rfl

/-- The class of a vector is taken from the kind of its store, which its shape keeps. -/
@[simp] theorem className_toShape (v : Value) : v.toShape.className = v.className := by
  cases v with
  | vector cls store => rw [toShape, className, className, Store.kind_toShape]
  | _ => rfl

@[simp] theorem putPlaceholder_toShape (v : Value) :
    v.toShape.putPlaceholder = v.putPlaceholder := by
  rw [putPlaceholder, putPlaceholder, className_toShape]
  cases v <;> rfl

@[simp] theorem length_toShapeList (vs : List Value) : (toShapeList vs).length = vs.length := by
  induction vs with
  | nil => rfl
  | cons v vs ih => rw [toShapeList, List.length_cons, List.length_cons, ih]

@[simp] theorem length_toShapePairs (pairs : List (String × Value)) :
    (toShapePairs pairs).length = pairs.length := by
  induction pairs with
  | nil => rfl
  | cons pair pairs ih => rw [toShapePairs, List.length_cons, List.length_cons, ih]

@[simp] theorem isSome_toShapeAttrs (attrs : Option (List (String × Value))) :
    (toShapeAttrs attrs).isSome = attrs.isSome := by
  cases attrs <;> rfl

/-! ### Writing the shape -/

mutual

theorem putNode_toShape (v : Value) (depth : Nat) :
    putNode L .shape depth v.toShape = putNode L .shape depth v := by
  cases inner : v.isLeaf with
  | true => cases v <;> first | rfl | cases inner
  | false =>
    by_cases deep : L.maxDepth < depth
    · rw [putNode_of_deep deep inner, putNode_of_deep deep (by rwa [isLeaf_toShape]),
        putPlaceholder_toShape]
    have here {inner : Bool} : ¬ (decide (L.maxDepth < depth) && inner) = true := by simp [deep]
    cases v with
    | null | missing | function | reference | other => cases inner
    | vector cls store names attrs | array cls store dim dimnames attrs =>
      rw [toShape, putNode, putNode, if_neg here, if_neg here, isSome_toShapeAttrs,
        Store.put_toShape, putAttrs_toShapeAttrs attrs]
    | list cls vs names attrs | dataFrame cls vs columnNames rowCount rowNames attrs =>
      rw [toShape, putNode, putNode, if_neg here, if_neg here, isSome_toShapeAttrs,
        length_toShapeList, putNodes_toShapeList vs, putAttrs_toShapeAttrs attrs]
    | environment name handle pairs =>
      have same := putPlaceholder_toShape (environment name handle pairs)
      rw [toShape] at same ⊢
      rw [putNode, putNode, if_neg here, if_neg here, length_toShapePairs,
        putPairs_toShapePairs pairs, same]
    | object cls pairs =>
      rw [toShape, putNode, putNode, if_neg here, if_neg here, length_toShapePairs,
        putPairs_toShapePairs pairs]

theorem putNodes_toShapeList (vs : List Value) (depth : Nat) :
    putNodes L .shape depth (toShapeList vs) = putNodes L .shape depth vs := by
  cases vs with
  | nil => rfl
  | cons v vs => rw [toShapeList, putNodes, putNodes, putNode_toShape v, putNodes_toShapeList vs]

theorem putPairs_toShapePairs (pairs : List (String × Value)) (depth : Nat) :
    putPairs L .shape depth (toShapePairs pairs) = putPairs L .shape depth pairs := by
  cases pairs with
  | nil => rfl
  | cons pair pairs =>
    obtain ⟨name, v⟩ := pair
    rw [toShapePairs, putPairs, putPairs, putNode_toShape v, putPairs_toShapePairs pairs]

theorem putAttrs_toShapeAttrs (attrs : Option (List (String × Value))) (depth : Nat) :
    putAttrs L .shape depth (toShapeAttrs attrs) = putAttrs L .shape depth attrs := by
  cases attrs with
  | none => rfl
  | some pairs =>
    rw [toShapeAttrs, putAttrs, putAttrs, length_toShapePairs, putPairs_toShapePairs pairs]

end

/-- A value is written in shape mode as its shape is. -/
theorem encode_toShape (v : Value) : v.toShape.encode L .shape = v.encode L .shape := by
  rw [encode, encode, put, put, putNode_toShape]

/-! ### Lengths -/

/-- The class that a reference would tell has a short name, be it the value's own or implied. -/
theorem className_lt {mode : Coding} {v : Value} (inner : v.isLeaf = false)
    (fits : Fits (v.ownLengths mode)) : v.className.utf8ByteSize < countBound := by
  -- A class that a value has of its own is among its lengths.
  have given {cls : Option String} {implied : String} (h : Fits (textLengths? cls))
      (short : implied.utf8ByteSize < countBound) :
      (cls.getD implied).utf8ByteSize < countBound := by
    cases cls with
    | none => exact short
    | some cls => exact (fits_cons.mp h).1
  cases v with
  | null | missing | function | reference | other => cases inner
  | vector cls store =>
    simp only [ownLengths, fits_append] at fits
    exact given fits.1.1.1 (by cases store.kind <;> decide)
  | array cls store dim =>
    simp only [ownLengths, fits_append] at fits
    refine given fits.1.1.1 ?_
    split <;> decide
  | list cls | dataFrame cls =>
    simp only [ownLengths, fits_append] at fits
    exact given (by simp_all) (by decide)
  | environment => exact (by decide : "environment".utf8ByteSize < countBound)
  | object cls =>
    rw [ownLengths, fits_cons] at fits
    exact fits.1

/-- References bring no lengths that are no counts. -/
theorem fits_degrade {mode : Coding} {v : Value} (fits : Fits (v.lengths mode)) :
    Fits ((v.degrade L).lengths mode) := by
  rw [lengths, fits_flatMap] at fits ⊢
  refine forall_nodes_degrade (P := fun v => Fits (v.ownLengths mode)) ?_ fits
  intro v depth own
  cases inner : v.isLeaf with
  | true => rwa [degradeAt_of_isLeaf inner]
  | false =>
    have reference : Fits (v.placeholder.ownLengths mode) := by
      rw [placeholder, ownLengths, textLengths?_some, fits_cons]
      exact ⟨className_lt inner own, fits_nil⟩
    cases v with
    | null | missing | function | reference | other => cases inner
    | vector | array | list | dataFrame | environment | object =>
      rw [degradeAt]
      split
      · exact reference
      · simpa [ownLengths] using own

/-! ### Whole values -/

/-- The round trip in shape mode. Every value is written, as its shape is and as all values of the
same shape are. If lengths are counts, shapes are complete and no list that is left once references
are in place is too large, what is read back is the shape with these references. -/
theorem roundTrip_shape (L : Limits) (v : Value) :
    ∃ bytes, v.encode L .shape = .ok bytes ∧ v.toShape.encode L .shape = .ok bytes ∧
      (∀ w : Value, w.toShape = v.toShape → w.encode L .shape = .ok bytes) ∧
      (Fits (v.lengths .shape) → v.ShapesComplete → (v.degrade L).ListsWithin L.maxList →
        decode L bytes = .ok (v.degrade L).toShape) := by
  obtain ⟨bytes, written⟩ : ∃ bytes, v.encode L .shape = .ok bytes := refusedIf_encode .shape v
  refine ⟨bytes, written, ?_, ?_, ?_⟩
  · rw [encode_toShape, written]
  · intro w same
    rw [← encode_toShape, same, encode_toShape, written]
  · intro fits complete within
    exact (reads_put written (fits_degrade fits) within fun _ => complete.degrade).all

/-- A factor and the shape of one stand next to each other, at the deepest level, and a list below
it is read back as a reference. -/
theorem roundTrip_shape_factor :
    ∃ bytes, (list none [vector none (.factor ⟨[1, 2, 1], ["a", "b"], true⟩) none
          (some [("source", list none [null] none none)]),
        ofStore (.shape ⟨.factor, 7, some (false, 3)⟩)] none none).encode
          ⟨1, 2, 0⟩ .shape = .ok bytes ∧
      decode ⟨1, 2, 0⟩ bytes = .ok (list none
        [vector none (.shape ⟨.factor, 3, some (true, 2)⟩) none
          (some [("source", reference 0 (some "list"))]),
        ofStore (.shape ⟨.factor, 7, some (false, 3)⟩)] none none) := by
  obtain ⟨bytes, written, -, -, back⟩ := roundTrip_shape ⟨1, 2, 0⟩
    (list none [vector none (.factor ⟨[1, 2, 1], ["a", "b"], true⟩) none
        (some [("source", list none [null] none none)]),
      ofStore (.shape ⟨.factor, 7, some (false, 3)⟩)] none none)
  exact ⟨bytes, written, back (by decide +kernel) (by decide +kernel) (by decide +kernel)⟩

end Value

end EngineLink
