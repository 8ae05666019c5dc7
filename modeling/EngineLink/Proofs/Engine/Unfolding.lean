import Mathlib.Logic.Relation
import EngineLink.Proofs.Engine.ReadRoundTrip

/-!
# Values as unfoldings of live objects

Live objects may hold each other in cycles, through elements, bindings, slots and attributes, and
the engine may change its state whenever it is asked. The value of an object unfolds what the engine
shows down to a depth, and what is below it or too large is left in the engine. It is the number of
levels left that gets smaller on the way, whatever the objects are.

## Main definitions

* `Yields`, `Fails` — code on the state of the engine ends with a result, or with a fault
* `ObjectView.tooLarge?`, `ObjectView.children`, `ObjectView.value` — what becomes of one level
* `Inspector.Unfolds` — the value that an object unfolds to, from one state of the engine to another
* `Inspector.Asks` — the engine answers calls, one after another

## Main results

* `Inspector.Unfolds.of_reference` — only what is too deep or too large is left in the engine
* `Inspector.read_unfolds` — reading ends, with the unfolding or with the fault of a call
-/

namespace EngineLink

variable {ι α β : Type}

/-! ### Results and faults -/

/-- In a state of the engine the code ends with a result, in a state. -/
def Yields (f : ExceptT EvalFault (StateM ι) α) (s : ι) (a : α) (s' : ι) : Prop :=
  f.run.run s = (.ok a, s')

/-- In a state of the engine the code ends with a fault, in a state. -/
def Fails (f : ExceptT EvalFault (StateM ι) α) (s : ι) (fault : EvalFault) (s' : ι) : Prop :=
  f.run.run s = (.error fault, s')

section Code

variable {f : ExceptT EvalFault (StateM ι) α} {g : α → ExceptT EvalFault (StateM ι) β}
  {s s' s'' : ι} {fault : EvalFault}

theorem yields_or_fails (f : ExceptT EvalFault (StateM ι) α) (s : ι) :
    (∃ a s', Yields f s a s') ∨ ∃ fault s', Fails f s fault s' := by
  rcases run : f.run.run s with ⟨fault | a, s'⟩
  · exact .inr ⟨fault, s', run⟩
  · exact .inl ⟨a, s', run⟩

theorem yields_pure {a b : α} : Yields (pure a) s b s' ↔ b = a ∧ s' = s := by
  constructor
  · rintro ⟨⟩
    exact ⟨rfl, rfl⟩
  · rintro ⟨rfl, rfl⟩
    rfl

/-- After a result the code goes on with it. -/
theorem Yields.run_bind (h : Yields f s a s') : (f >>= g).run.run s = (g a).run.run s' := by
  rw [ExceptT.run_bind, StateT.run_bind, h]
  rfl

/-- After a fault nothing more happens. -/
theorem Fails.bind (h : Fails f s fault s') : Fails (f >>= g) s fault s' := by
  rw [Fails, ExceptT.run_bind, StateT.run_bind, h]
  rfl

theorem yields_bind {b : β} :
    Yields (f >>= g) s b s'' ↔ ∃ a s', Yields f s a s' ∧ Yields (g a) s' b s'' := by
  constructor
  · intro h
    obtain ⟨a, s', first⟩ | ⟨fault, s', first⟩ := yields_or_fails f s
    · exact ⟨a, s', first, first.run_bind.symm.trans h⟩
    · cases first.bind.symm.trans h
  · rintro ⟨a, s', first, second⟩
    exact first.run_bind.trans second

theorem yields_map {k : α → β} {b : β} :
    Yields (k <$> f) s b s' ↔ ∃ a, Yields f s a s' ∧ b = k a := by
  rw [map_eq_pure_bind, yields_bind]
  simp only [yields_pure]
  grind

end Code

/-! ### One level -/

namespace ObjectView

/-- The objects that are shown in the value of a level, in their order. -/
def children : ObjectView → List Handle
  | list elements _ => elements
  | dataFrame columns .. => columns
  | environment _ bindings => bindings.map Prod.snd
  | object _ slots => slots.map Prod.snd
  | _ => []

/-- As what an object that is too large is left in the engine. -/
def tooLarge? (L : Limits) : ObjectView → Option String
  | list elements _ => if L.maxList < elements.length then some "list" else none
  | dataFrame columns .. => if L.maxList < columns.length then some "data.frame" else none
  | environment _ bindings => if L.maxEnv < bindings.length then some "environment" else none
  | _ => none

/-- The value of a level, given the values of the objects in it. All names stay where they are. -/
def value (shapeOnly : Bool) (h : Handle) (cls : Option String)
    (attrs : Option (List (String × Value))) (values : List Value) : ObjectView → Value
  | null => .null
  | missing => .missing
  | vector store names none _ =>
    .vector cls (if shapeOnly then store.toShape else store) names attrs
  | vector store _ (some dim) dimnames =>
    .array cls (if shapeOnly then store.toShape else store) dim dimnames attrs
  | list _ names => .list cls values names attrs
  | dataFrame _ columnNames rowCount rowNames =>
    .dataFrame cls values columnNames rowCount rowNames attrs
  | environment name bindings => .environment name h ((bindings.map Prod.fst).zip values)
  | function header => .function header
  | object cls slots => .object cls ((slots.map Prod.fst).zip values)
  | other cls => .other cls

theorem value_ne_reference {shapeOnly : Bool} {h r : Handle} {cls kind : Option String}
    {attrs : Option (List (String × Value))} {values : List Value} (view : ObjectView) :
    view.value shapeOnly h cls attrs values ≠ .reference r kind := by
  unfold value
  split <;> nofun

end ObjectView

namespace Inspector

section Levels

open ObjectView

variable {m : Type → Type} [Monad m] [LawfulMonad m]
  {child : Handle → ExceptT EvalFault m Value}

/-- Named objects keep their names and their order. -/
theorem readPairs_eq (pairs : List (String × Handle)) :
    readPairs child pairs =
      (pairs.map Prod.fst).zip <$> (pairs.map Prod.snd).mapM child := by
  rw [readPairs]
  induction pairs with
  | nil => simp
  | cons pair pairs ih =>
    rw [List.mapM_cons, ih, List.map_cons, List.map_cons, List.mapM_cons]
    simp

/-- The attributes that have no other place in a value. -/
def ownAttributes (attrs : List (String × Handle)) : List (String × Handle) :=
  attrs.filter fun (name, _) => !structuralAttributes.contains name

/-- Attributes with their values, if there are any. -/
def withValues (attrs : List (String × Handle)) (values : List Value) :
    Option (List (String × Value)) :=
  if attrs.isEmpty then none else some ((attrs.map Prod.fst).zip values)

theorem readAttributes_eq (I : Inspector m) (h : Handle) :
    I.readAttributes child h = I.attrs h >>= fun attrs =>
      withValues (ownAttributes attrs) <$> ((ownAttributes attrs).map Prod.snd).mapM child := by
  rw [readAttributes]
  congr 1
  funext attrs
  change (if (ownAttributes attrs).isEmpty then pure none
    else some <$> readPairs child (ownAttributes attrs)) = _
  cases ownAttributes attrs with
  | nil => simp [withValues]
  | cons attr attrs => simp [withValues, readPairs_eq]

/-- A level becomes a reference if it is too large, else the values of its objects are read. -/
theorem readView_eq (L : Limits) (shapeOnly : Bool) (h : Handle) (cls : Option String)
    (attrs : Option (List (String × Value))) (view : ObjectView) :
    readView L shapeOnly child h cls attrs view =
      match view.tooLarge? L with
      | some kind => pure (.reference h (some kind))
      | none =>
        (fun values => view.value shapeOnly h cls attrs values) <$> view.children.mapM child := by
  cases view with
  | null | missing | function | other => simp [readView, tooLarge?, value, children]
  | vector store names dim dimnames => cases dim <;> simp [readView, tooLarge?, value, children]
  | list elements names =>
    simp only [readView, tooLarge?]
    split <;> simp [value, children]
  | dataFrame columns columnNames rowCount rowNames =>
    simp only [readView, tooLarge?]
    split <;> simp [value, children]
  | environment name bindings =>
    simp only [readView, tooLarge?]
    split <;> simp [value, children, readPairs_eq]
  | object cls slots => simp [readView, tooLarge?, value, children, readPairs_eq]

end Levels

/-! ### Unfolding -/

mutual

/-- The value that an object unfolds to when it is met at a depth, with the states of the engine
before and after. The engine is asked for the class and the attributes of an object and only then
for the object, and it may answer differently in every state. -/
inductive Unfolds (I : Inspector (StateM ι)) (L : Limits) (shapeOnly : Bool) :
    Nat → Handle → ι → Value → ι → Prop
  /-- What is too deep is not looked at. -/
  | deep {depth : Nat} {h : Handle} {s : ι} :
    L.maxDepth < depth → Unfolds I L shapeOnly depth h s (.reference h none) s
  /-- What is too large is left in the engine, after a look at its attributes. -/
  | large {depth : Nat} {h : Handle} {s s₁ s₂ s₃ s₄ : ι} {cls : Option String}
      {attrs : List (String × Handle)} {parts : List Value} {view : ObjectView} {kind : String} :
    depth ≤ L.maxDepth → Yields (I.classOf h) s cls s₁ → Yields (I.attrs h) s₁ attrs s₂ →
    UnfoldsAll I L shapeOnly (depth + 1) ((ownAttributes attrs).map Prod.snd) s₂ parts s₃ →
    Yields (I.view h) s₃ view s₄ → view.tooLarge? L = some kind →
    Unfolds I L shapeOnly depth h s (.reference h (some kind)) s₄
  /-- Everything else is unfolded, with all that is in it. -/
  | level {depth : Nat} {h : Handle} {s s₁ s₂ s₃ s₄ s₅ : ι} {cls : Option String}
      {attrs : List (String × Handle)} {parts values : List Value} {view : ObjectView} :
    depth ≤ L.maxDepth → Yields (I.classOf h) s cls s₁ → Yields (I.attrs h) s₁ attrs s₂ →
    UnfoldsAll I L shapeOnly (depth + 1) ((ownAttributes attrs).map Prod.snd) s₂ parts s₃ →
    Yields (I.view h) s₃ view s₄ → view.tooLarge? L = none →
    UnfoldsAll I L shapeOnly (depth + 1) view.children s₄ values s₅ →
    Unfolds I L shapeOnly depth h s
      (view.value shapeOnly h cls (withValues (ownAttributes attrs) parts) values) s₅

/-- The values that objects unfold to when they are met one after another at a depth. -/
inductive UnfoldsAll (I : Inspector (StateM ι)) (L : Limits) (shapeOnly : Bool) :
    Nat → List Handle → ι → List Value → ι → Prop
  | nil {depth : Nat} {s : ι} : UnfoldsAll I L shapeOnly depth [] s [] s
  | cons {depth : Nat} {h : Handle} {hs : List Handle} {s s₁ s₂ : ι} {v : Value} {vs : List Value} :
    Unfolds I L shapeOnly depth h s v s₁ → UnfoldsAll I L shapeOnly depth hs s₁ vs s₂ →
    UnfoldsAll I L shapeOnly depth (h :: hs) s (v :: vs) s₂

end

variable {I : Inspector (StateM ι)} {L : Limits} {shapeOnly : Bool} {depth : Nat} {h : Handle}
  {s s' : ι} {v : Value}

/-- Only what is too deep or too large is left in the engine, under its own handle. -/
theorem Unfolds.of_reference {r : Handle} {kind : Option String}
    (unfolds : I.Unfolds L shapeOnly depth h s (.reference r kind) s') :
    r = h ∧ (L.maxDepth < depth ∧ kind = none ∨
      depth ≤ L.maxDepth ∧ ∃ s₁ view, Yields (I.view h) s₁ view s' ∧
        view.tooLarge? L = kind ∧ kind.isSome) := by
  generalize whole : Value.reference r kind = v at unfolds
  cases unfolds with
  | deep below =>
    cases whole
    exact ⟨rfl, .inl ⟨below, rfl⟩⟩
  | large within _ _ _ shown tooLarge =>
    cases whole
    exact ⟨rfl, .inr ⟨within, _, _, shown, tooLarge, rfl⟩⟩
  | level => exact absurd whole.symm (ObjectView.value_ne_reference _)

/-- The objects of a list are read as each of them is. -/
theorem yields_mapM_iff {child : Handle → ExceptT EvalFault (StateM ι) Value}
    (inner : ∀ h s v s', Yields (child h) s v s' ↔ I.Unfolds L shapeOnly depth h s v s')
    (hs : List Handle) (s : ι) (vs : List Value) (s' : ι) :
    Yields (hs.mapM child) s vs s' ↔ I.UnfoldsAll L shapeOnly depth hs s vs s' := by
  induction hs generalizing s vs with
  | nil =>
    rw [List.mapM_nil, yields_pure]
    constructor
    · rintro ⟨rfl, rfl⟩
      exact .nil
    · rintro ⟨⟩
      exact ⟨rfl, rfl⟩
  | cons h hs ih =>
    simp only [List.mapM_cons, yields_bind, yields_pure]
    constructor
    · rintro ⟨v, s₁, first, vs, s₂, rest, rfl, rfl⟩
      exact .cons ((inner ..).mp first) ((ih ..).mp rest)
    · rintro (_ | ⟨first, rest⟩)
      exact ⟨_, _, (inner ..).mpr first, _, _, (ih ..).mpr rest, rfl, rfl⟩

/-- The induction is on the number of levels left, which goes down with every step into the objects
while the depth goes up. -/
theorem yields_readLevels_iff (levels : Nat) (left : depth + levels = L.maxDepth + 1) (h : Handle)
    (s : ι) (v : Value) (s' : ι) :
    Yields (I.readLevels L shapeOnly levels h) s v s' ↔ I.Unfolds L shapeOnly depth h s v s' := by
  induction levels generalizing depth h s v s' with
  | zero =>
    rw [readLevels, yields_pure]
    constructor
    · rintro ⟨rfl, rfl⟩
      exact .deep (by omega)
    · rintro (_ | ⟨within, _⟩ | ⟨within, _⟩)
      · exact ⟨rfl, rfl⟩
      all_goals omega
  | succ levels ih =>
    have deeper : depth + 1 + levels = L.maxDepth + 1 := by omega
    have inner := yields_mapM_iff (ih deeper)
    simp only [readLevels, yields_bind, readAttributes_eq, yields_map, inner]
    constructor
    · rintro ⟨cls, s₁, ofClass, -, s₃, ⟨attrs, s₂, listed, parts, unfolded, rfl⟩, view, s₄, shown,
        result⟩
      rw [readView_eq] at result
      cases large : view.tooLarge? L with
      | some kind =>
        rw [large, yields_pure] at result
        obtain ⟨rfl, rfl⟩ := result
        exact .large (by omega) ofClass listed unfolded shown large
      | none =>
        rw [large, yields_map] at result
        obtain ⟨values, result, rfl⟩ := result
        exact .level (by omega) ofClass listed unfolded shown large ((inner ..).mp result)
    · rintro (below | ⟨_, ofClass, listed, unfolded, shown, large⟩ |
        ⟨_, ofClass, listed, unfolded, shown, large, result⟩)
      · omega
      · refine ⟨_, _, ofClass, _, _, ⟨_, _, listed, _, unfolded, rfl⟩, _, _, shown, ?_⟩
        rw [readView_eq, large]
        exact yields_pure.mpr ⟨rfl, rfl⟩
      · refine ⟨_, _, ofClass, _, _, ⟨_, _, listed, _, unfolded, rfl⟩, _, _, shown, ?_⟩
        rw [readView_eq, large]
        exact yields_map.mpr ⟨_, (inner ..).mpr result, rfl⟩

/-! ### Calls -/

/-- A question that is put to the engine. -/
inductive Call where
  | attr? (h : Handle) (name : String)
  | attrs (h : Handle)
  | view (h : Handle)

/-- Put a question to the engine, whatever the answer. -/
def call (I : Inspector (StateM ι)) : Call → ExceptT EvalFault (StateM ι) Unit
  | .attr? h name => (fun _ => ()) <$> I.attr? h name
  | .attrs h => (fun _ => ()) <$> I.attrs h
  | .view h => (fun _ => ()) <$> I.view h

/-- The engine comes from one state to another by answering questions. -/
def Asks (I : Inspector (StateM ι)) : ι → ι → Prop :=
  Relation.ReflTransGen fun s s' => ∃ c, Yields (I.call c) s () s'

/-- Code that does nothing to the engine but ask it, and fails only if it gets a fault for an
answer. -/
def Blames (I : Inspector (StateM ι)) (f : ExceptT EvalFault (StateM ι) α) : Prop :=
  (∀ s a s', Yields f s a s' → I.Asks s s') ∧
    ∀ s fault s', Fails f s fault s' → ∃ c s₁, I.Asks s s₁ ∧ Fails (I.call c) s₁ fault s'

namespace Blames

variable {f : ExceptT EvalFault (StateM ι) α} {g : α → ExceptT EvalFault (StateM ι) β}

theorem of_pure (a : α) : I.Blames (pure a) := by
  refine ⟨fun s b s' h => ?_, nofun⟩
  obtain ⟨-, rfl⟩ := yields_pure.mp h
  exact .refl

theorem of_call (c : Call) (same : I.call c = (fun _ => ()) <$> f) : I.Blames f := by
  refine ⟨fun s a s' h => .single ⟨c, ?_⟩, fun s fault s' h => ⟨c, s, .refl, ?_⟩⟩
  · rw [same, yields_map]
    exact ⟨a, h, rfl⟩
  · rw [same, map_eq_pure_bind]
    exact h.bind

theorem bind (h : I.Blames f) (h' : ∀ a, I.Blames (g a)) : I.Blames (f >>= g) := by
  constructor
  · intro s b s'' run
    obtain ⟨a, s', first, second⟩ := yields_bind.mp run
    exact (h.1 _ _ _ first).trans ((h' a).1 _ _ _ second)
  · intro s fault s'' run
    obtain ⟨a, s', first⟩ | ⟨other, s', first⟩ := yields_or_fails f s
    · obtain ⟨c, s₁, asked, failed⟩ := (h' a).2 _ _ _ (first.run_bind.symm.trans run)
      exact ⟨c, s₁, (h.1 _ _ _ first).trans asked, failed⟩
    · cases first.bind.symm.trans run
      exact h.2 _ _ _ first

theorem map (h : I.Blames f) (k : α → β) : I.Blames (k <$> f) := by
  rw [map_eq_pure_bind]
  exact h.bind fun a => of_pure (k a)

theorem mapM {g : α → ExceptT EvalFault (StateM ι) β} (h : ∀ a, I.Blames (g a)) (as : List α) :
    I.Blames (as.mapM g) := by
  induction as with
  | nil => exact of_pure []
  | cons a as ih =>
    rw [List.mapM_cons]
    exact (h a).bind fun b => ih.bind fun bs => of_pure (b :: bs)

end Blames

theorem blames_classOf (I : Inspector (StateM ι)) (h : Handle) : I.Blames (I.classOf h) := by
  refine (Blames.of_call (.attr? h "class") rfl).bind fun a? => ?_
  cases a? with
  | none => exact .of_pure none
  | some a =>
    refine (Blames.of_call (.view a) rfl).bind fun view => ?_
    split <;> exact .of_pure _

theorem blames_readLevels (I : Inspector (StateM ι)) (L : Limits) (shapeOnly : Bool) (levels : Nat)
    (h : Handle) : I.Blames (I.readLevels L shapeOnly levels h) := by
  induction levels generalizing h with
  | zero => exact .of_pure _
  | succ levels ih =>
    refine (I.blames_classOf h).bind fun cls => ?_
    rw [readAttributes_eq]
    have attributes := (Blames.of_call (I := I) (.attrs h) rfl).bind fun attrs =>
      (Blames.mapM ih ((ownAttributes attrs).map Prod.snd)).map (withValues (ownAttributes attrs))
    refine attributes.bind fun attrs => (Blames.of_call (.view h) rfl).bind fun view => ?_
    rw [readView_eq]
    split
    · exact .of_pure _
    · exact (Blames.mapM ih _).map _

/-- Reading an object that may exist ends, from any state of the engine: with the value that it
unfolds to, or with the fault that the engine has returned for the last question. -/
theorem read_unfolds (I : Inspector (StateM ι)) (L : Limits) (shapeOnly : Bool) {h : Handle}
    (nonzero : h ≠ 0) (s : ι) :
    (∀ v s', Yields (I.read L shapeOnly h) s v s' ↔ I.Unfolds L shapeOnly 0 h s v s') ∧
      ((∃ v s', Yields (I.read L shapeOnly h) s v s') ∨
        ∃ fault s', Fails (I.read L shapeOnly h) s fault s' ∧
          ∃ c s₁, I.Asks s s₁ ∧ Fails (I.call c) s₁ fault s') := by
  rw [read, if_neg nonzero]
  refine ⟨fun v s' => yields_readLevels_iff _ (by omega) h s v s', ?_⟩
  obtain done | ⟨fault, s', failed⟩ :=
    yields_or_fails (I.readLevels L shapeOnly (L.maxDepth + 1) h) s
  · exact .inl done
  · exact .inr ⟨fault, s', failed, (I.blames_readLevels L shapeOnly _ h).2 s fault s' failed⟩

/-- An environment that holds itself is unfolded down to a level, or left in the engine as a whole
if it has too many bindings. -/
theorem read_unfolds_looped :
    looped.Unfolds ⟨1, 2, 2⟩ true 0 1 () loopedShape () ∧
      looped.Unfolds ⟨1, 2, 1⟩ true 0 1 () (.reference 1 (some "environment")) () := by
  have nonzero : (1 : Handle) ≠ 0 := by decide
  exact ⟨((read_unfolds looped ⟨1, 2, 2⟩ true nonzero ()).1 _ _).mp rfl,
    ((read_unfolds looped ⟨1, 2, 1⟩ true nonzero ()).1 _ _).mp rfl⟩

end Inspector

end EngineLink
