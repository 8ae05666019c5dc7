import EngineLink.Proofs.Value.Nodes

/-!
# Stores are read back

## Main results

* `Store.put_full_of_isShape`, `Store.exists_put` — only a shape cannot be written in full mode
* `Store.reads_get` — a store, or its shape, is read back from what was written
-/

namespace EngineLink

open Wire Reader

/-! ### Elements -/

@[simp] theorem logicalOfTag?_logicalTag (x : Option Bool) :
    logicalOfTag? (logicalTag x) = some x := by
  rcases x with _ | _ | _ <;> decide

theorem Real.reads_get (x : Real) : Real.get.Reads x.put x := (reads_getU64 x.bits).map Real.mk

theorem Complex.reads_getAll (zs : List Complex) :
    (Complex.getAll zs.length).Reads (Complex.putAll zs) zs := by
  have real : (Real.get.times zs.length).Reads (zs.flatMap (·.re.put)) (zs.map (·.re)) := by
    have parts := Reads.times_of (zs.map (·.re)) Real.reads_get
    rwa [List.length_map, List.flatMap_map] at parts
  have imaginary : (Real.get.times zs.length).Reads (zs.flatMap (·.im.put)) (zs.map (·.im)) := by
    have parts := Reads.times_of (zs.map (·.im)) Real.reads_get
    rwa [List.length_map, List.flatMap_map] at parts
  -- All real parts come before all imaginary ones.
  have joined : List.zipWith Complex.ofParts (zs.map (·.re)) (zs.map (·.im)) = zs := by
    rw [List.zipWith_map, List.zipWith_self]
    simp
  rw [Complex.getAll, Complex.putAll]
  refine real.bind (imaginary.bind_nil ?_)
  rw [joined]
  exact .of_pure zs

theorem Complex.length_putAll (zs : List Complex) :
    (Complex.putAll zs).length = zs.length * 16 := by
  have size (f : Complex → Real) : (zs.flatMap fun z => (f z).put).length = zs.length * 8 := by
    induction zs with
    | nil => rfl
    | cons z zs ih =>
      rw [List.flatMap_cons, List.length_append, ih, Real.put, length_putU64, List.length_cons]
      omega
  rw [Complex.putAll, List.length_append, size, size]
  omega

theorem Factor.reads_get {f : Factor} (h : Fits (Store.factor f).payloadLengths) :
    Factor.get.Reads f.put f := by
  obtain ⟨codes, levels, ordered⟩ := f
  simp only [Store.payloadLengths, fits_cons] at h
  obtain ⟨codesFit, levelsFit, textsFit⟩ := h
  -- The number of codes comes first, but is checked only once the levels have been read.
  simp only [Factor.put, Factor.get, List.append_assoc]
  refine (reads_getI32 (UInt32.ofNat codes.length).toInt32).bind ?_
  refine (reads_getBool ordered).bind ?_
  refine reads_getCount_bind "factor levels" levelsFit ?_ ?_
  · rw [List.length_append]
    exact Nat.le_add_right_of_le (room_flatMap fun s _ => le_length_putText s)
  refine (Reads.times fun s hs => reads_getText ?_).bind ?_
  · exact textsFit _ (List.mem_map_of_mem hs)
  refine reads_checkCount_bind "factor" codesFit ?_ ?_
  · exact room_flatMap fun x _ => Nat.le_of_eq (length_putI32 x).symm
  · exact (Reads.times_of codes reads_getI32).bind_pure
      fun codes => (⟨codes, levels, ordered⟩ : Factor)

/-! ### Shapes -/

theorem reads_getLength_bind {β : Type} {f : Nat → Reader β} {b : Bytes} {y : β} {n : Nat}
    (what : String) (h : n < countBound) (h' : (f n).Reads b y) :
    (getLength what >>= f).Reads (putCount n ++ b) y := by
  rw [getLength, bind_assoc]
  exact (reads_getI32 (UInt32.ofNat n).toInt32).bind (reads_checkCount_bind what h (by simp) h')

theorem StoreShape.reads_get {s : StoreShape} (h : Fits s.lengths) (complete : s.Complete) :
    (StoreShape.get s.kind).Reads s.put s := by
  obtain ⟨kind, length, factor⟩ := s
  rw [StoreShape.lengths, fits_cons] at h
  refine reads_getLength_bind "store" h.1 ?_
  cases kind with
  | factor =>
    obtain ⟨⟨ordered, levels⟩, rfl⟩ := Option.isSome_iff_exists.mp (complete.mpr rfl)
    refine (reads_getBool ordered).bind ?_
    rw [← List.append_nil (putCount _)]
    exact reads_getLength_bind "factor levels" (by simpa using h.2) (.of_pure _)
  | _ =>
    obtain rfl : factor = none := by simpa [Complete] using complete
    exact .of_pure _

/-! ### Stores -/

namespace Store

variable {mode : Coding} {s : Store} {bytes : Bytes}

/-- A shape has no payload to write. -/
theorem put_full_of_isShape (h : s.isShape = true) : s.put .full = .error .shapeOnly := by
  cases s <;> simp_all [isShape, put, putElements, Functor.map, Except.map]

/-- Nothing but a shape cannot be written. -/
theorem exists_put (h : mode = .full → s.isShape = false) : ∃ bytes, s.put mode = .ok bytes := by
  cases mode with
  | shape => exact ⟨_, rfl⟩
  | full =>
    cases s with
    | shape => cases h rfl
    | _ => exact ⟨_, rfl⟩

theorem reads_getElements (h : s.putElements = .ok bytes) (fits : Fits s.payloadLengths) :
    (getElements s.kind).Reads bytes s := by
  cases s with
  | logical xs =>
    cases h
    rw [← List.flatMap_singleton' (xs.map logicalTag), List.flatMap_map]
    refine reads_getCount_bind "logical" (by simpa [payloadLengths] using fits) ?_ ?_
    · exact room_flatMap fun x _ => Nat.le_refl 1
    · exact (Reads.times fun x _ => reads_getTag "logical" (logicalOfTag?_logicalTag x)).map logical
  | integer xs =>
    cases h
    exact (reads_getInts (by simpa [payloadLengths] using fits)).map integer
  | numeric xs =>
    cases h
    refine reads_getCount_bind "numeric" (by simpa [payloadLengths] using fits) ?_ ?_
    · exact room_flatMap fun x _ => Nat.le_of_eq (length_putU64 x.bits).symm
    · exact (Reads.times fun x _ => Real.reads_get x).map numeric
  | complex zs =>
    cases h
    refine reads_getCount_bind "complex" (by simpa [payloadLengths] using fits) ?_ ?_
    · exact Nat.le_of_eq (Complex.length_putAll zs).symm
    · exact (Complex.reads_getAll zs).map complex
  | character xs =>
    cases h
    exact (reads_getTexts fits).map character
  | raw xs =>
    cases h
    exact (reads_getBytes (by simpa [payloadLengths] using fits)).map raw
  | factor f =>
    cases h
    exact (Factor.reads_get fits).map factor
  | shape => cases h

/-- A store, or its shape, is read back from what was written. -/
theorem reads_get (h : s.put mode = .ok bytes) (fits : Fits (s.lengths mode))
    (complete : mode = .shape → s.outline.Complete) :
    (Store.get mode).Reads bytes (s.carried mode) := by
  cases mode with
  | full =>
    rw [Store.put] at h
    cases elements : s.putElements with
    | error fault => rw [elements] at h; cases h
    | ok body =>
      rw [elements] at h
      cases h
      exact (reads_getTag "store" (StoreKind.ofTag?_tag s.kind)).bind (a := [s.kind.tag])
        (reads_getElements elements fits)
  | shape =>
    cases h
    have kind : s.outline.kind = s.kind := by cases s <;> rfl
    have outline := StoreShape.reads_get fits (complete rfl)
    rw [kind] at outline
    exact (reads_getTag "store" (StoreKind.ofTag?_tag s.kind)).bind (a := [s.kind.tag])
      (outline.map shape)

end Store

end EngineLink
