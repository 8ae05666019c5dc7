import EngineLink.Proofs.Engine.ReadRoundTrip

/-!
# Shapes of live objects

Reading the shape of an object puts the same questions to the engine as reading its value, in the
same order: the limits look at depths and lengths, which a shape keeps, and not at the elements of
stores. So the shape that is read is the shape of the value that would be read, with the same
references in place of what is beyond the limits, and one fails where the other does.

## Main definitions

* `Inspector.Steady` — code whose result does not depend on the state of the engine
* `Inspector.HandlesOnly` — an engine whose answers depend on the handle alone

## Main results

* `Inspector.read_shape` — the shape of an object is the shape of its value
* `Inspector.HandlesOnly.steady_read` — if the answers depend on the handle alone, so does the value
-/

namespace EngineLink

namespace Value

theorem toShapeList_eq_map (vs : List Value) : toShapeList vs = vs.map toShape := by
  induction vs with
  | nil => rfl
  | cons v vs ih => rw [toShapeList, ih, List.map_cons]

theorem toShapePairs_eq_map (pairs : List (String × Value)) :
    toShapePairs pairs = pairs.map fun (name, v) => (name, v.toShape) := by
  induction pairs with
  | nil => rfl
  | cons pair pairs ih => rw [toShapePairs, ih, List.map_cons]

end Value

open Value

/-- A change of the results is a change of each of them. -/
theorem mapM_of_map {m : Type → Type} [Monad m] [LawfulMonad m] {α β γ : Type} {f : α → m γ}
    {g : α → m β} {k : β → γ} (h : ∀ a, f a = k <$> g a) (as : List α) :
    as.mapM f = List.map k <$> as.mapM g := by
  induction as with
  | nil => simp
  | cons a as ih => simp [List.mapM_cons, h, ih]

namespace Inspector

/-! ### Shapes and values -/

section Shapes

variable {m : Type → Type} [Monad m] [LawfulMonad m] {L : Limits}
  {child childShape : Handle → ExceptT EvalFault m Value}

theorem readPairs_shape (inner : ∀ h, childShape h = toShape <$> child h)
    (pairs : List (String × Handle)) :
    readPairs childShape pairs = toShapePairs <$> readPairs child pairs := by
  have single : ∀ pair : String × Handle,
      (do return (pair.1, ← childShape pair.2) : ExceptT EvalFault m (String × Value)) =
        (fun (name, v) => (name, v.toShape)) <$> do return (pair.1, ← child pair.2) := by
    intro pair
    simp [inner]
  simp only [funext toShapePairs_eq_map]
  exact mapM_of_map single pairs

theorem readAttributes_shape (I : Inspector m) (inner : ∀ h, childShape h = toShape <$> child h)
    (h : Handle) :
    I.readAttributes childShape h = toShapeAttrs <$> I.readAttributes child h := by
  simp only [readAttributes, map_bind]
  congr 1
  funext attrs
  split
  · simp [toShapeAttrs]
  · rw [readPairs_shape inner]
    simp [toShapeAttrs]

/-- At one level, the limits cut off a shape where they cut off the value. -/
theorem readView_shape (inner : ∀ h, childShape h = toShape <$> child h) (h : Handle)
    (cls : Option String) (attrs : Option (List (String × Value))) (view : ObjectView) :
    readView L true childShape h cls (toShapeAttrs attrs) view =
      toShape <$> readView L false child h cls attrs view := by
  -- Where a limit is looked at, it is compared with a length that the engine has told, before
  -- anything is read.
  cases view with
  | null | missing | function | other => simp [readView, toShape]
  | vector store names dim dimnames =>
    cases dim <;> simp [readView, toShape]
  | list elements names =>
    simp only [readView]
    split
    · simp [toShape]
    · simp [mapM_of_map inner, toShape, toShapeList_eq_map]
  | dataFrame columns columnNames rowCount rowNames =>
    simp only [readView]
    split
    · simp [toShape]
    · simp [mapM_of_map inner, toShape, toShapeList_eq_map]
  | environment name bindings =>
    simp only [readView]
    split
    · simp [toShape]
    · simp [readPairs_shape inner, toShape]
  | object cls slots => simp [readView, readPairs_shape inner, toShape]

/-- The flag changes nothing on the way down, where the last level has references in either case. -/
theorem readLevels_shape (I : Inspector m) (L : Limits) (levels : Nat) (h : Handle) :
    I.readLevels L true levels h = toShape <$> I.readLevels L false levels h := by
  induction levels generalizing h with
  | zero => simp [readLevels, toShape]
  | succ levels ih =>
    -- Both ask for the class, the attributes and the object, in this order; of these only the
    -- attributes hold what was read one level below.
    simp only [readLevels, map_bind]
    congr 1
    funext cls
    rw [readAttributes_shape I ih, bind_map_left]
    congr 1
    funext attrs
    congr 1
    funext view
    exact readView_shape ih h cls attrs view

/-- The shape of an object is the shape of its value, and it is read with the same questions. -/
theorem read_shape (I : Inspector m) (L : Limits) (h : Handle) :
    I.read L true h = toShape <$> I.read L false h := by
  simp only [read]
  split
  · simp
  · exact readLevels_shape I L (L.maxDepth + 1) h

end Shapes

/-! ### Answers that depend on the handle alone -/

section Handles

variable {ι α β : Type} {L : Limits}

/-- The result does not depend on the state of the engine. -/
def Steady (f : ExceptT EvalFault (StateM ι) α) : Prop :=
  ∀ s s', (f.run.run s).1 = (f.run.run s').1

/-- The answers depend on the handle alone. The engine may keep a state, but its objects never
change. -/
structure HandlesOnly (I : Inspector (StateM ι)) : Prop where
  attr? : ∀ h name, Steady (I.attr? h name)
  attrs : ∀ h, Steady (I.attrs h)
  view : ∀ h, Steady (I.view h)

theorem steady_pure (a : α) : Steady (pure a : ExceptT EvalFault (StateM ι) α) := fun _ _ => rfl

theorem steady_throw (fault : EvalFault) :
    Steady (throw fault : ExceptT EvalFault (StateM ι) α) := fun _ _ => rfl

namespace Steady

variable {f : ExceptT EvalFault (StateM ι) α} {g : α → ExceptT EvalFault (StateM ι) β}

theorem bind (first : Steady f) (later : ∀ a, Steady (g a)) : Steady (f >>= g) := by
  intro s s'
  have same := first s s'
  simp only [ExceptT.run_bind, StateT.run_bind]
  -- The second part starts from two states, but with one result.
  generalize f.run.run s = outcome, f.run.run s' = outcome' at same ⊢
  obtain ⟨result, t⟩ := outcome
  obtain ⟨result', t'⟩ := outcome'
  obtain rfl : result = result' := same
  cases result with
  | error fault => rfl
  | ok a => exact later a t t'

theorem map (first : Steady f) (k : α → β) : Steady (k <$> f) := by
  rw [map_eq_pure_bind]
  apply first.bind
  intro a
  exact steady_pure (k a)

theorem mapM (each : ∀ a, Steady (g a)) (as : List α) : Steady (as.mapM g) := by
  induction as with
  | nil => exact steady_pure []
  | cons a as ih =>
    rw [List.mapM_cons]
    apply (each a).bind
    intro b
    apply ih.bind
    intro bs
    exact steady_pure (b :: bs)

end Steady

variable {I : Inspector (StateM ι)} {child : Handle → ExceptT EvalFault (StateM ι) Value}

theorem steady_readPairs (inner : ∀ h, Steady (child h)) (pairs : List (String × Handle)) :
    Steady (readPairs child pairs) := by
  apply Steady.mapM
  intro pair
  apply (inner pair.2).bind
  intro v
  exact steady_pure (pair.1, v)

theorem steady_readView (inner : ∀ h, Steady (child h)) (shapeOnly : Bool) (h : Handle)
    (cls : Option String) (attrs : Option (List (String × Value))) (view : ObjectView) :
    Steady (readView L shapeOnly child h cls attrs view) := by
  cases view with
  | null | missing | function | other | vector => exact steady_pure _
  | list elements names =>
    rw [readView]
    split
    · exact steady_pure _
    · apply (Steady.mapM inner elements).bind
      intro vs
      exact steady_pure _
  | dataFrame columns columnNames rowCount rowNames =>
    rw [readView]
    split
    · exact steady_pure _
    · apply (Steady.mapM inner columns).bind
      intro vs
      exact steady_pure _
  | environment name bindings =>
    rw [readView]
    split
    · exact steady_pure _
    · apply (steady_readPairs inner bindings).bind
      intro pairs
      exact steady_pure _
  | object cls slots =>
    rw [readView]
    apply (steady_readPairs inner slots).bind
    intro pairs
    exact steady_pure _

namespace HandlesOnly

theorem classOf (only : I.HandlesOnly) (h : Handle) : Steady (I.classOf h) := by
  apply (only.attr? h "class").bind
  intro attr
  split
  · exact steady_pure none
  · next a =>
    apply (only.view a).bind
    intro view
    split <;> exact steady_pure _

theorem readAttributes (only : I.HandlesOnly) (inner : ∀ h, Steady (child h)) (h : Handle) :
    Steady (I.readAttributes child h) := by
  apply (only.attrs h).bind
  intro attrs
  dsimp only
  split
  · exact steady_pure none
  · exact (steady_readPairs inner _).map some

theorem readLevels (only : I.HandlesOnly) (shapeOnly : Bool) (levels : Nat) (h : Handle) :
    Steady (I.readLevels L shapeOnly levels h) := by
  induction levels generalizing h with
  | zero => exact steady_pure (Value.reference h none)
  | succ levels ih =>
    apply (only.classOf h).bind
    intro cls
    apply (only.readAttributes ih h).bind
    intro attrs
    apply (only.view h).bind
    intro view
    exact steady_readView ih shapeOnly h cls attrs view

/-- If the answers depend on the handle alone, so does the value of an object. -/
theorem steady_read (only : I.HandlesOnly) (L : Limits) (shapeOnly : Bool) (h : Handle) :
    Steady (I.read L shapeOnly h) := by
  rw [read]
  split
  · exact steady_throw (.invalidReference h)
  · exact only.readLevels shapeOnly (L.maxDepth + 1) h

end HandlesOnly

end Handles

end Inspector

end EngineLink
