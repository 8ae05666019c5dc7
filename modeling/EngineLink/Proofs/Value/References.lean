import EngineLink.Proofs.Value.Nodes
import EngineLink.Value.Degrade

/-!
# References in place of values

## Main results

* `Value.degrade_of_within` — a value within all limits is left as it is
* `Value.forall_nodes_degrade` — what holds of the nodes still holds once references are in place
-/

namespace EngineLink.Value

variable {L : Limits} {depth : Nat}

@[simp] theorem degradeAt_of_isLeaf {v : Value} (leaf : v.isLeaf = true) :
    v.degradeAt L depth = v := by
  cases v <;> first | rfl | cases leaf

theorem degradeAt_of_deep {v : Value} (deep : L.maxDepth < depth) (inner : v.isLeaf = false) :
    v.degradeAt L depth = v.placeholder := by
  cases v with
  | null | missing | function | reference | other => cases inner
  | environment => rw [degradeAt, if_pos (.inl deep)]
  | _ => rw [degradeAt, if_pos deep]

@[simp] theorem length_degradeList (vs : List Value) :
    (degradeList L depth vs).length = vs.length := by
  induction vs with
  | nil => rfl
  | cons v vs ih => rw [degradeList, List.length_cons, List.length_cons, ih]

@[simp] theorem map_fst_degradePairs {α : Type} (f : String → α) (pairs : List (String × Value))
    (depth : Nat) :
    (degradePairs L depth pairs).map (fun p => f p.1) = pairs.map fun p => f p.1 := by
  induction pairs with
  | nil => rfl
  | cons p pairs ih =>
    obtain ⟨name, v⟩ := p
    rw [degradePairs, List.map_cons, List.map_cons, ih]

@[simp] theorem length_degradePairs (pairs : List (String × Value)) :
    (degradePairs L depth pairs).length = pairs.length := by
  have names := map_fst_degradePairs (L := L) id pairs
  simpa using congrArg List.length (names depth)

@[simp] theorem pairLengths_degradePairs (pairs : List (String × Value)) :
    pairLengths (degradePairs L depth pairs) = pairLengths pairs := by
  rw [pairLengths, pairLengths, length_degradePairs, map_fst_degradePairs String.utf8ByteSize]

@[simp] theorem attrLengths_degradeAttrs (attrs : Option (List (String × Value))) :
    attrLengths (degradeAttrs L depth attrs) = attrLengths attrs := by
  cases attrs <;> simp [attrLengths, degradeAttrs]

@[simp] theorem counts_degradeAttrs (attrs : Option (List (String × Value))) :
    (degradeAttrs L depth attrs).toList.map List.length = attrs.toList.map List.length := by
  cases attrs <;> simp [degradeAttrs]

/-! ### Values within the limits -/

mutual

-- The number of entries does not matter here: the reader checks it, the writer does not.
theorem degradeAt_of_within (v : Value) (depth : Nat)
    (h : ∀ p ∈ v.nodesAt depth, (p.2.isLeaf ∨ p.1 ≤ L.maxDepth) ∧
      ∀ n ∈ p.2.bindingCounts, n ≤ L.maxEnv) : v.degradeAt L depth = v := by
  cases v with
  | null | missing | function | reference | other => rfl
  | vector cls store names attrs =>
    simp only [nodesAt, List.forall_mem_cons, isLeaf] at h
    rw [degradeAt, if_neg (by simpa using h.1.1), degradeAttrs_of_within attrs _ h.2]
  | array cls store dim dimnames attrs =>
    simp only [nodesAt, List.forall_mem_cons, isLeaf] at h
    rw [degradeAt, if_neg (by simpa using h.1.1), degradeAttrs_of_within attrs _ h.2]
  | list cls elements names attrs =>
    simp only [nodesAt, List.forall_mem_cons, List.forall_mem_append, isLeaf] at h
    rw [degradeAt, if_neg (by simpa using h.1.1), degradeList_of_within elements _ h.2.1,
      degradeAttrs_of_within attrs _ h.2.2]
  | dataFrame cls columns columnNames rowCount rowNames attrs =>
    simp only [nodesAt, List.forall_mem_cons, List.forall_mem_append, isLeaf] at h
    rw [degradeAt, if_neg (by simpa using h.1.1), degradeList_of_within columns _ h.2.1,
      degradeAttrs_of_within attrs _ h.2.2]
  | environment name handle bindings =>
    simp only [nodesAt, List.forall_mem_cons, isLeaf, bindingCounts] at h
    rw [degradeAt, if_neg (by simpa using h.1), degradePairs_of_within bindings _ h.2]
  | object cls slots =>
    simp only [nodesAt, List.forall_mem_cons, isLeaf] at h
    rw [degradeAt, if_neg (by simpa using h.1.1), degradePairs_of_within slots _ h.2]

theorem degradeList_of_within (vs : List Value) (depth : Nat)
    (h : ∀ p ∈ nodesOfList depth vs, (p.2.isLeaf ∨ p.1 ≤ L.maxDepth) ∧
      ∀ n ∈ p.2.bindingCounts, n ≤ L.maxEnv) : degradeList L depth vs = vs := by
  cases vs with
  | nil => rfl
  | cons v vs =>
    simp only [nodesOfList, List.forall_mem_append] at h
    rw [degradeList, degradeAt_of_within v _ h.1, degradeList_of_within vs _ h.2]

theorem degradePairs_of_within (pairs : List (String × Value)) (depth : Nat)
    (h : ∀ p ∈ nodesOfPairs depth pairs, (p.2.isLeaf ∨ p.1 ≤ L.maxDepth) ∧
      ∀ n ∈ p.2.bindingCounts, n ≤ L.maxEnv) : degradePairs L depth pairs = pairs := by
  cases pairs with
  | nil => rfl
  | cons pair rest =>
    obtain ⟨name, v⟩ := pair
    simp only [nodesOfPairs, List.forall_mem_append] at h
    rw [degradePairs, degradeAt_of_within v _ h.1, degradePairs_of_within rest _ h.2]

theorem degradeAttrs_of_within (attrs : Option (List (String × Value))) (depth : Nat)
    (h : ∀ p ∈ nodesOfAttrs depth attrs, (p.2.isLeaf ∨ p.1 ≤ L.maxDepth) ∧
      ∀ n ∈ p.2.bindingCounts, n ≤ L.maxEnv) : degradeAttrs L depth attrs = attrs := by
  cases attrs with
  | none => rfl
  | some as =>
    rw [nodesOfAttrs] at h
    rw [degradeAttrs, degradePairs_of_within as _ h]

end

/-- A value within all limits is left as it is. -/
theorem degrade_of_within {v : Value} (h : v.Within L) : v.degrade L = v :=
  degradeAt_of_within v 0 fun p hp => ⟨(h p hp).1, (h p hp).2.2⟩

theorem Within.listsWithin {v : Value} (h : v.Within L) : v.ListsWithin L.maxList :=
  fun p hp => (h p hp).2.1

/-! ### What references leave of the nodes -/

theorem entryCounts_degradeAt (v : Value) (depth : Nat) :
    (v.degradeAt L depth).entryCounts = v.entryCounts ∨
      (v.degradeAt L depth).entryCounts = [] := by
  cases v <;> grind [degradeAt, entryCounts, placeholder, length_degradeList, length_degradePairs,
    counts_degradeAttrs]

theorem store?_degradeAt (v : Value) (depth : Nat) :
    (v.degradeAt L depth).store? = v.store? ∨ (v.degradeAt L depth).store? = none := by
  cases v <;> grind [degradeAt, store?, placeholder]

section

variable {P : Value → Prop}

mutual

/-- What holds of all nodes still holds once references are in place, if it holds of each node in
which they are. -/
theorem forall_nodesAt_degradeAt (keeps : ∀ v depth, P v → P (v.degradeAt L depth))
    (v : Value) (depth : Nat) (h : ∀ p ∈ v.nodesAt depth, P p.2) :
    ∀ p ∈ (v.degradeAt L depth).nodesAt depth, P p.2 := by
  have here : P (v.degradeAt L depth) := keeps v depth (h (depth, v) (mem_nodesAt ..))
  cases inner : v.isLeaf with
  | true => rwa [degradeAt_of_isLeaf inner]
  | false =>
    -- A reference is a node of its own, and has no others.
    by_cases deep : L.maxDepth < depth
    · rw [degradeAt_of_deep deep inner] at here ⊢
      rw [placeholder, nodesAt, List.forall_mem_cons]
      exact ⟨here, nofun⟩
    cases v with
    | null | missing | function | reference | other => cases inner
    | vector cls store names attrs | array cls store dim dimnames attrs =>
      rw [degradeAt, if_neg deep] at here ⊢
      rw [nodesAt, List.forall_mem_cons] at h ⊢
      exact ⟨here, forall_nodesOfAttrs_degradeAttrs keeps attrs (depth + 1) h.2⟩
    | list cls vs names attrs | dataFrame cls vs columnNames rowCount rowNames attrs =>
      rw [degradeAt, if_neg deep] at here ⊢
      rw [nodesAt, List.forall_mem_cons, List.forall_mem_append] at h ⊢
      exact ⟨here, forall_nodesOfList_degradeList keeps vs (depth + 1) h.2.1,
        forall_nodesOfAttrs_degradeAttrs keeps attrs (depth + 1) h.2.2⟩
    | environment name handle bindings =>
      by_cases large : L.maxEnv < bindings.length
      · rw [degradeAt, if_pos (.inr large)] at here ⊢
        rw [placeholder, nodesAt, List.forall_mem_cons]
        exact ⟨here, nofun⟩
      rw [degradeAt, if_neg (not_or.mpr ⟨deep, large⟩)] at here ⊢
      rw [nodesAt, List.forall_mem_cons] at h ⊢
      exact ⟨here, forall_nodesOfPairs_degradePairs keeps bindings (depth + 1) h.2⟩
    | object cls slots =>
      rw [degradeAt, if_neg deep] at here ⊢
      rw [nodesAt, List.forall_mem_cons] at h ⊢
      exact ⟨here, forall_nodesOfPairs_degradePairs keeps slots (depth + 1) h.2⟩

theorem forall_nodesOfList_degradeList (keeps : ∀ v depth, P v → P (v.degradeAt L depth))
    (vs : List Value) (depth : Nat) (h : ∀ p ∈ nodesOfList depth vs, P p.2) :
    ∀ p ∈ nodesOfList depth (degradeList L depth vs), P p.2 := by
  cases vs with
  | nil => exact h
  | cons v vs =>
    rw [nodesOfList, List.forall_mem_append] at h
    rw [degradeList, nodesOfList, List.forall_mem_append]
    exact ⟨forall_nodesAt_degradeAt keeps v depth h.1,
      forall_nodesOfList_degradeList keeps vs depth h.2⟩

theorem forall_nodesOfPairs_degradePairs (keeps : ∀ v depth, P v → P (v.degradeAt L depth))
    (pairs : List (String × Value)) (depth : Nat) (h : ∀ p ∈ nodesOfPairs depth pairs, P p.2) :
    ∀ p ∈ nodesOfPairs depth (degradePairs L depth pairs), P p.2 := by
  cases pairs with
  | nil => exact h
  | cons pair pairs =>
    rw [nodesOfPairs, List.forall_mem_append] at h
    rw [degradePairs, nodesOfPairs, List.forall_mem_append]
    exact ⟨forall_nodesAt_degradeAt keeps pair.2 depth h.1,
      forall_nodesOfPairs_degradePairs keeps pairs depth h.2⟩

theorem forall_nodesOfAttrs_degradeAttrs (keeps : ∀ v depth, P v → P (v.degradeAt L depth))
    (attrs : Option (List (String × Value))) (depth : Nat)
    (h : ∀ p ∈ nodesOfAttrs depth attrs, P p.2) :
    ∀ p ∈ nodesOfAttrs depth (degradeAttrs L depth attrs), P p.2 := by
  cases attrs with
  | none => exact h
  | some pairs => exact forall_nodesOfPairs_degradePairs keeps pairs depth h

end

/-- What holds of all nodes of a value still holds once references are in place. -/
theorem forall_nodes_degrade (keeps : ∀ v depth, P v → P (v.degradeAt L depth))
    {v : Value} (h : ∀ p ∈ v.nodes, P p.2) : ∀ p ∈ (v.degrade L).nodes, P p.2 :=
  forall_nodesAt_degradeAt keeps v 0 h

end

theorem ListsWithin.degrade {v : Value} {limit : Nat} (h : v.ListsWithin limit) :
    (v.degrade L).ListsWithin limit := by
  refine forall_nodes_degrade (P := fun v => ∀ n ∈ v.entryCounts, n ≤ limit) ?_ h
  intro v depth within
  rcases entryCounts_degradeAt (L := L) v depth with same | none
  · rwa [same]
  · rw [none]
    exact nofun

theorem forall_store?_degrade {v : Value} {Q : Store → Prop}
    (h : ∀ p ∈ v.nodes, ∀ s ∈ p.2.store?, Q s) :
    ∀ p ∈ (v.degrade L).nodes, ∀ s ∈ p.2.store?, Q s := by
  refine forall_nodes_degrade (P := fun v => ∀ s ∈ v.store?, Q s) ?_ h
  intro v depth stored
  rcases store?_degradeAt (L := L) v depth with same | none
  · rwa [same]
  · rw [none]
    exact nofun

theorem ShapesComplete.degrade {v : Value} (h : v.ShapesComplete) : (v.degrade L).ShapesComplete :=
  forall_store?_degrade h

/-- References bring no shapes. -/
theorem hasShape_degrade {v : Value} (h : v.hasShape = false) : (v.degrade L).hasShape = false :=
  (hasShape_eq_false_iff _ 0).mpr (forall_store?_degrade ((hasShape_eq_false_iff v 0).mp h))

end EngineLink.Value
