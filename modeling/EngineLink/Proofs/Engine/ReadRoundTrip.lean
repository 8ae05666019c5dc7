import EngineLink.Engine.Object
import EngineLink.Message.Form
import EngineLink.Proofs.Value.ListLimit
import EngineLink.Proofs.Value.RoundTrip

/-!
# Values read out of the engine are read back

Three walks look at the limits: the one that reads a value out of the engine, the writer and the
reader. Reading out of the engine bounds depths, elements, columns and bindings, so the writer puts
no reference in place of anything. It does not bound slots and attributes, which the reader does.

## Main definitions

* `Gives` — code that keeps what holds of the state of the engine, and what its results satisfy
* `Inspector.Faithful` — an engine whose vectors have their payload and whose lengths are counts
* `Value.Collected` — what reading out of the engine makes sure of at one node

## Main results

* `Inspector.gives_read` — all nodes of a value that was read out of the engine are collected
* `Inspector.read_roundTrip` — when such a value is read back from its bytes
-/

namespace EngineLink

open Wire

variable {ι α β : Type} {inv : ι → Prop}

/-! ### Code on the state of the engine -/

/-- In a state that satisfies `inv` the code keeps `inv`, and its result satisfies `P` if it has
one. -/
def Gives (inv : ι → Prop) (f : ExceptT EvalFault (StateM ι) α) (P : α → Prop) : Prop :=
  ∀ s, inv s → inv (f.run.run s).2 ∧ ∀ a, (f.run.run s).1 = .ok a → P a

namespace Gives

variable {f : ExceptT EvalFault (StateM ι) α} {g : α → ExceptT EvalFault (StateM ι) β}
  {P : α → Prop} {Q : β → Prop}

theorem of_pure {a : α} (h : P a) : Gives inv (pure a) P := by
  intro s hs
  refine ⟨hs, fun b result => ?_⟩
  cases result
  exact h

theorem of_throw (fault : EvalFault) : Gives inv (throw fault : ExceptT EvalFault (StateM ι) α) P :=
  fun _ hs => ⟨hs, nofun⟩

theorem bind (h : Gives inv f P) (h' : ∀ a, P a → Gives inv (g a) Q) : Gives inv (f >>= g) Q := by
  intro s hs
  obtain ⟨kept, result⟩ := h s hs
  rcases first : f.run.run s with ⟨fault | a, s'⟩
  · -- The first part fails, so the second one does not run.
    have step : (f >>= g).run.run s = (.error fault, s') := by
      rw [ExceptT.run_bind, StateT.run_bind, first]
      rfl
    rw [first] at kept
    rw [step]
    exact ⟨kept, nofun⟩
  · have step : (f >>= g).run.run s = (g a).run.run s' := by
      rw [ExceptT.run_bind, StateT.run_bind, first]
      rfl
    rw [first] at kept result
    rw [step]
    exact h' a (result a rfl) s' kept

theorem mono {P' : α → Prop} (h : Gives inv f P) (h' : ∀ a, P a → P' a) : Gives inv f P' :=
  fun s hs => ⟨(h s hs).1, fun a result => h' a ((h s hs).2 a result)⟩

/-- What is kept of each element is kept of all elements, in their order. -/
theorem mapM {γ : Type} {before : α → γ} {after : β → γ}
    (h : ∀ a, Gives inv (g a) fun b => after b = before a ∧ Q b) (as : List α) :
    Gives inv (as.mapM g) fun bs => bs.map after = as.map before ∧ ∀ b ∈ bs, Q b := by
  induction as with
  | nil => exact of_pure ⟨rfl, nofun⟩
  | cons a as ih =>
    rw [List.mapM_cons]
    refine (h a).bind fun b hb => ih.bind fun bs hbs => of_pure ?_
    rw [List.map_cons, List.map_cons, List.forall_mem_cons, hb.1, hbs.1]
    exact ⟨rfl, hb.2, hbs.2⟩

end Gives

/-! ### What the engine shows -/

/-- The lengths of one level of an object. -/
def ObjectView.lengths : ObjectView → List Nat
  | null | missing => []
  | vector store names dim dimnames =>
    store.payloadLengths ++ textsLengths? names ++ dim.toList.map List.length ++
      (dimnames.map fun ns => ns.length :: ns.flatMap textsLengths?).getD []
  | list elements names => elements.length :: textsLengths? names
  | dataFrame columns columnNames rowCount rowNames =>
    columns.length :: rowCount :: textsLengths columnNames ++ textsLengths? rowNames
  | environment name bindings =>
    name.utf8ByteSize :: bindings.length :: bindings.map (·.1.utf8ByteSize)
  | function header => [header.utf8ByteSize]
  | object cls slots => cls.utf8ByteSize :: slots.length :: slots.map (·.1.utf8ByteSize)
  | other cls => [cls.utf8ByteSize]

/-- The store of a vector. -/
def ObjectView.store? : ObjectView → Option Store
  | vector store .. => some store
  | _ => none

/-- A level whose vector has its payload and whose lengths are counts. -/
structure ObjectView.Faithful (view : ObjectView) : Prop where
  payload : ∀ s ∈ view.store?, s.isShape = false
  fits : Fits view.lengths

/-- An engine that keeps `inv` and in such states shows vectors with their payload and lengths that
are counts. -/
structure Inspector.Faithful (I : Inspector (StateM ι)) (inv : ι → Prop) : Prop where
  attr? : ∀ h name, Gives inv (I.attr? h name) fun _ => True
  attrs : ∀ h, Gives inv (I.attrs h) fun attrs =>
    Fits (attrs.length :: attrs.map (·.1.utf8ByteSize))
  view : ∀ h, Gives inv (I.view h) ObjectView.Faithful

/-! ### What is read at one node -/

/-- The lengths of the elements say how long the outline is. -/
theorem Store.fits_outline {s : Store} (payload : s.isShape = false)
    (fits : Fits s.payloadLengths) : Fits s.outline.lengths := by
  cases s with
  | shape => cases payload
  | factor f =>
    simp only [payloadLengths, fits_cons] at fits
    simp [outline, StoreShape.lengths, fits.1, fits.2.1]
  | logical | integer | numeric | complex | raw =>
    simpa [payloadLengths, outline, StoreShape.lengths, kind, length] using fits
  | character xs =>
    simp only [payloadLengths, textsLengths, fits_cons] at fits
    simp [outline, StoreShape.lengths, kind, length, fits.1]

theorem Store.complete_outline {s : Store} (payload : s.isShape = false) : s.outline.Complete := by
  cases s with
  | shape => cases payload
  | _ => simp [outline, StoreShape.Complete, kind]

namespace Value

/-- The numbers of elements of a list and of columns of a data frame. -/
def elementCounts : Value → List Nat
  | list _ elements _ _ => [elements.length]
  | dataFrame _ columns _ _ _ _ => [columns.length]
  | _ => []

/-- The numbers of slots and of attributes of a node. -/
def partCounts : Value → List Nat
  | vector _ _ _ attrs | array _ _ _ _ attrs | list _ _ _ attrs | dataFrame _ _ _ _ _ attrs =>
    attrs.toList.map List.length
  | object _ slots => [slots.length]
  | _ => []

/-- Some limit on lists is large enough for a value. -/
theorem exists_listsWithin (v : Value) (least : Nat) :
    ∃ limit, least ≤ limit ∧ v.ListsWithin limit := by
  refine ⟨(least :: v.nodes.flatMap (·.2.entryCounts)).max?.get (by simp),
    List.le_max?_get_of_mem List.mem_cons_self, fun p hp n hn => List.le_max?_get_of_mem ?_⟩
  exact List.mem_cons_of_mem _ (List.mem_flatMap.mpr ⟨p, hp, hn⟩)

theorem entryCounts_eq (v : Value) : v.entryCounts = v.elementCounts ++ v.partCounts := by
  cases v <;> rfl

/-- What reading out of the engine makes sure of at a node at depth `depth`. -/
structure Collected (L : Limits) (shapeOnly : Bool) (depth : Nat) (v : Value) : Prop where
  shallow : v.isLeaf ∨ depth ≤ L.maxDepth
  elements : ∀ n ∈ v.elementCounts, n ≤ L.maxList
  bindings : ∀ n ∈ v.bindingCounts, n ≤ L.maxEnv
  fits : ∀ mode, Fits (v.ownLengths mode)
  stores : ∀ s ∈ v.store?, s.isShape = shapeOnly ∧ s.outline.Complete

/-- All nodes of a value that is met at depth `depth` are collected. -/
def CollectedAt (L : Limits) (shapeOnly : Bool) (depth : Nat) (v : Value) : Prop :=
  ∀ p ∈ v.nodesAt depth, p.2.Collected L shapeOnly p.1

end Value

/-! ### Reading out of the engine -/

theorem Value.fits_attrLengths {attrs : Option (List (String × Value))}
    (h : ∀ pairs ∈ attrs, Fits (pairLengths pairs)) : Fits (attrLengths attrs) := by
  cases attrs with
  | none => exact fits_nil
  | some pairs => exact h pairs rfl

/-- A leaf is collected at any depth, if its lengths are counts. -/
theorem Value.collectedAt_of_isLeaf {L : Limits} {shapeOnly : Bool} {depth : Nat} {v : Value}
    (leaf : v.isLeaf = true) (fits : Fits (v.ownLengths .full)) :
    v.CollectedAt L shapeOnly depth := by
  intro p hp
  cases v with
  | null | missing | function | reference | other =>
    rw [nodesAt, List.mem_singleton] at hp
    subst hp
    exact ⟨.inl leaf, nofun, nofun, fun _ => fits, nofun⟩
  | vector | array | list | dataFrame | environment | object => cases leaf

/-- The store of a vector as it is read: it is a shape exactly if only shapes are wanted, and its
lengths are counts in either mode. -/
theorem Store.read_facts {s : Store} (payload : s.isShape = false) (fits : Fits s.payloadLengths)
    (shapeOnly : Bool) :
    (∀ mode, Fits ((if shapeOnly then s.toShape else s).lengths mode)) ∧
      (if shapeOnly then s.toShape else s).isShape = shapeOnly ∧
      (if shapeOnly then s.toShape else s).outline.Complete := by
  have outlined := fits_outline payload fits
  have complete := complete_outline payload
  cases shapeOnly with
  | false => exact ⟨fun mode => by cases mode <;> assumption, payload, complete⟩
  | true =>
    refine ⟨fun mode => ?_, rfl, complete⟩
    cases mode with
    | full => exact fits_nil
    | shape => exact outlined

namespace Value.CollectedAt

variable {L : Limits} {shapeOnly : Bool} {v : Value}

/-- The writer puts no further references, whatever the limit on lists is. -/
theorem degrade_withLists (h : v.CollectedAt L shapeOnly 0) (limit : Nat) :
    v.degrade (L.withLists limit) = v :=
  degradeAt_of_within v 0 fun p hp => ⟨(h p hp).shallow, (h p hp).bindings⟩

theorem listsWithin_iff (h : v.CollectedAt L shapeOnly 0) :
    v.ListsWithin L.maxList ↔ ∀ p ∈ v.nodes, ∀ n ∈ p.2.partCounts, n ≤ L.maxList := by
  apply forall₂_congr
  intro p hp
  rw [entryCounts_eq, List.forall_mem_append, and_iff_right (h p hp).elements]

/-- In the mode that its shapes decide, the value travels as it is. -/
theorem carried_coding (h : v.CollectedAt L shapeOnly 0) : v.carried (Answer.coding v) = v := by
  cases shapeOnly with
  | false =>
    have full : v.hasShape = false :=
      (hasShape_eq_false_iff v 0).mpr fun p hp s hs => ((h p hp).stores s hs).1
    rw [Answer.coding, full]
    rfl
  | true =>
    have shapes : v.toShape = v :=
      (toShape_eq_self_iff v 0).mpr fun p hp s hs => ((h p hp).stores s hs).1
    rw [Answer.coding]
    cases v.hasShape with
    | false => rfl
    | true => exact shapes

theorem exists_encode (h : v.CollectedAt L shapeOnly 0) :
    ∃ bytes, v.encode L (Answer.coding v) = .ok bytes := by
  have refused : RefusedIf (Answer.coding v == .full && (v.degrade L).hasShape)
      (v.encode L (Answer.coding v)) := refusedIf_encode _ v
  have never : (Answer.coding v == .full && (v.degrade L).hasShape) = false := by
    have same : v.degrade L = v := h.degrade_withLists L.maxList
    rw [same, Answer.coding]
    cases v.hasShape <;> rfl
  rwa [never] at refused

/-- Under a limit on lists that is large enough, the value is read back as it is. -/
theorem decode_encode {limit : Nat} {bytes : Bytes} (h : v.CollectedAt L shapeOnly 0)
    (written : v.encode L (Answer.coding v) = .ok bytes) (within : v.ListsWithin limit) :
    decode (L.withLists limit) bytes = .ok v := by
  have same := h.degrade_withLists limit
  rw [← encode_withLists limit] at written
  have read : (get (L.withLists limit)).Reads bytes
      ((v.degrade (L.withLists limit)).carried (Answer.coding v)) := by
    refine reads_put written ?_ ?_ ?_
    all_goals rw [same]
    · exact fits_flatMap.mpr fun p hp => (h p hp).fits _
    · exact within
    · exact fun _ p hp s hs => ((h p hp).stores s hs).2
  rw [same, h.carried_coding] at read
  exact read.all

end Value.CollectedAt

namespace Inspector

open Value

variable {I : Inspector (StateM ι)} {L : Limits} {shapeOnly : Bool} {depth : Nat}
  {child : Handle → ExceptT EvalFault (StateM ι) Value} {P : Value → Prop}

theorem gives_classOf (faithful : I.Faithful inv) (h : Handle) :
    Gives inv (I.classOf h) fun cls => Fits (textLengths? cls) := by
  apply (faithful.attr? h "class").bind
  intro attr _
  cases attr with
  | none => exact .of_pure fits_nil
  | some a =>
    apply (faithful.view a).bind
    intro view shown
    split
    · next texts _ _ _ =>
      -- The class is one of the texts of a character vector.
      refine .of_pure ?_
      have fits := shown.fits
      cases texts with
      | nil => exact fits_nil
      | cons text texts =>
        simp only [ObjectView.lengths, Store.payloadLengths, textsLengths, List.flatMap_cons,
          fits_append, fits_cons] at fits
        exact fits.1.1.1.2.1
    · exact .of_pure fits_nil

theorem gives_readAll (inner : ∀ h, Gives inv (child h) P) (hs : List Handle) :
    Gives inv (hs.mapM child) fun vs => vs.length = hs.length ∧ ∀ v ∈ vs, P v := by
  have one (h : Handle) : Gives inv (child h) fun v => () = () ∧ P v :=
    (inner h).mono fun v hv => ⟨rfl, hv⟩
  refine (Gives.mapM one hs).mono fun vs read => ⟨?_, read.2⟩
  simpa using congrArg List.length read.1

theorem gives_readPairs (inner : ∀ h, Gives inv (child h) P) (pairs : List (String × Handle)) :
    Gives inv (readPairs child pairs) fun named =>
      pairLengths named = pairs.length :: pairs.map (·.1.utf8ByteSize) ∧
        ∀ pair ∈ named, P pair.2 := by
  have one (pair : String × Handle) : Gives inv (do return (pair.1, ← child pair.2))
      fun named => named.1 = pair.1 ∧ P named.2 :=
    (inner pair.2).bind fun v hv => .of_pure ⟨rfl, hv⟩
  refine (Gives.mapM one pairs).mono fun named read => ⟨?_, read.2⟩
  -- The names are those of the objects, so there are as many of them and they are as long.
  have count : named.length = pairs.length := by simpa using congrArg List.length read.1
  have lengths := congrArg (List.map String.utf8ByteSize) read.1
  simp only [List.map_map] at lengths
  rw [pairLengths, count]
  exact congrArg _ lengths

theorem gives_readAttributes (faithful : I.Faithful inv) (inner : ∀ h, Gives inv (child h) P)
    (h : Handle) :
    Gives inv (I.readAttributes child h) fun attrs =>
      ∀ pairs ∈ attrs, Fits (pairLengths pairs) ∧ ∀ pair ∈ pairs, P pair.2 := by
  apply (faithful.attrs h).bind
  intro attrs fits
  dsimp only
  split
  · exact .of_pure nofun
  · rw [map_eq_pure_bind]
    apply (gives_readPairs inner _).bind
    intro named read
    apply Gives.of_pure
    rintro pairs ⟨⟩
    refine ⟨?_, read.2⟩
    -- Some attributes are left out, which makes no length larger.
    rw [fits_cons] at fits
    rw [read.1, fits_cons]
    refine ⟨Nat.lt_of_le_of_lt (List.length_filter_le ..) fits.1, fun n hn => fits.2 n ?_⟩
    obtain ⟨pair, kept, rfl⟩ := List.mem_map.mp hn
    exact List.mem_map_of_mem (List.mem_filter.mp kept).1

/-! ### Levels of objects -/

/-- An object that is too large becomes a reference, which is a leaf with a short class. -/
theorem gives_reference {h : Handle} {kind : String} (short : Fits [kind.utf8ByteSize]) :
    Gives inv (pure (.reference h (some kind))) (CollectedAt L shapeOnly depth) :=
  .of_pure (collectedAt_of_isLeaf rfl short)

section

variable (h : Handle) {cls : Option String} {attrs : Option (List (String × Value))}
  (shallow : depth ≤ L.maxDepth) (clsFits : Fits (textLengths? cls))
  (attrsFit : Fits (attrLengths attrs))
  (attrNodes : ∀ p ∈ nodesOfAttrs (depth + 1) attrs, p.2.Collected L shapeOnly p.1)
  (inner : ∀ h, Gives inv (child h) (CollectedAt L shapeOnly (depth + 1)))

include shallow clsFits attrsFit attrNodes

theorem gives_readView_vector {store : Store} {names : Option Names} {dim : Option (List Int32)}
    {dimnames : Option (List (Option Names))}
    (shown : (ObjectView.vector store names dim dimnames).Faithful) :
    Gives inv (readView L shapeOnly child h cls attrs (.vector store names dim dimnames))
      (CollectedAt L shapeOnly depth) := by
  obtain ⟨payload, fits⟩ := shown
  simp only [ObjectView.lengths, fits_append] at fits
  obtain ⟨⟨⟨storeFits, namesFit⟩, dimFits⟩, dimnamesFit⟩ := fits
  obtain ⟨carried, shaped, complete⟩ := Store.read_facts (payload store rfl) storeFits shapeOnly
  apply Gives.of_pure
  -- A vector with dimensions is an array.
  cases dim with
  | none =>
    rw [CollectedAt, nodesAt, List.forall_mem_cons]
    refine ⟨⟨.inr shallow, List.forall_mem_nil _, List.forall_mem_nil _, ?_, ?_⟩, attrNodes⟩
    · intro mode
      simp only [ownLengths, fits_append]
      exact ⟨⟨⟨clsFits, carried mode⟩, namesFit⟩, attrsFit⟩
    · rintro s ⟨⟩
      exact ⟨shaped, complete⟩
  | some dim =>
    rw [CollectedAt, nodesAt, List.forall_mem_cons]
    refine ⟨⟨.inr shallow, List.forall_mem_nil _, List.forall_mem_nil _, ?_, ?_⟩, attrNodes⟩
    · intro mode
      simp only [ownLengths, fits_append, fits_cons]
      exact ⟨⟨⟨clsFits, dimFits _ List.mem_cons_self, carried mode⟩, dimnamesFit⟩, attrsFit⟩
    · rintro s ⟨⟩
      exact ⟨shaped, complete⟩

include inner

theorem gives_readView_list {elements : List Handle} {names : Option Names}
    (fits : Fits (ObjectView.list elements names).lengths) :
    Gives inv (readView L shapeOnly child h cls attrs (.list elements names))
      (CollectedAt L shapeOnly depth) := by
  simp only [ObjectView.lengths, fits_cons] at fits
  by_cases large : L.maxList < elements.length
  · rw [readView, if_pos large]
    exact gives_reference (by decide)
  rw [readView, if_neg large]
  apply (gives_readAll inner elements).bind
  intro vs all
  obtain ⟨count, read⟩ := all
  apply Gives.of_pure
  rw [CollectedAt, nodesAt, List.forall_mem_cons, List.forall_mem_append, forall_mem_nodesOfList]
  refine ⟨⟨.inr shallow, ?_, List.forall_mem_nil _, ?_, by rintro s ⟨⟩⟩, read, attrNodes⟩
  · simpa [elementCounts, count] using large
  · intro mode
    simp only [ownLengths, fits_append, fits_cons, count]
    exact ⟨⟨clsFits, fits⟩, attrsFit⟩

theorem gives_readView_dataFrame {columns : List Handle} {columnNames : Names} {rowCount : Nat}
    {rowNames : Option Names}
    (fits : Fits (ObjectView.dataFrame columns columnNames rowCount rowNames).lengths) :
    Gives inv (readView L shapeOnly child h cls attrs
      (.dataFrame columns columnNames rowCount rowNames)) (CollectedAt L shapeOnly depth) := by
  simp only [ObjectView.lengths, fits_append, fits_cons] at fits
  obtain ⟨⟨columnsFit, rowsFit, namesFit⟩, rowNamesFit⟩ := fits
  by_cases large : L.maxList < columns.length
  · rw [readView, if_pos large]
    exact gives_reference (by decide)
  rw [readView, if_neg large]
  apply (gives_readAll inner columns).bind
  intro vs all
  obtain ⟨count, read⟩ := all
  apply Gives.of_pure
  rw [CollectedAt, nodesAt, List.forall_mem_cons, List.forall_mem_append, forall_mem_nodesOfList]
  refine ⟨⟨.inr shallow, ?_, List.forall_mem_nil _, ?_, by rintro s ⟨⟩⟩, read, attrNodes⟩
  · simpa [elementCounts, count] using large
  · intro mode
    simp only [ownLengths, fits_append, fits_cons, count]
    exact ⟨⟨⟨clsFits, columnsFit, rowsFit, namesFit⟩, rowNamesFit⟩, attrsFit⟩

omit clsFits attrsFit attrNodes

theorem gives_readView_environment {name : String} {bindings : List (String × Handle)}
    (fits : Fits (ObjectView.environment name bindings).lengths) :
    Gives inv (readView L shapeOnly child h cls attrs (.environment name bindings))
      (CollectedAt L shapeOnly depth) := by
  simp only [ObjectView.lengths, fits_cons] at fits
  by_cases large : L.maxEnv < bindings.length
  · rw [readView, if_pos large]
    exact gives_reference (by decide)
  rw [readView, if_neg large]
  apply (gives_readPairs inner bindings).bind
  intro named all
  obtain ⟨lengths, read⟩ := all
  have count : named.length = bindings.length := (List.cons.inj lengths).1
  apply Gives.of_pure
  rw [CollectedAt, nodesAt, List.forall_mem_cons, forall_mem_nodesOfPairs]
  refine ⟨⟨.inr shallow, List.forall_mem_nil _, ?_, ?_, by rintro s ⟨⟩⟩, read⟩
  · simpa [bindingCounts, count] using large
  · intro mode
    rw [ownLengths, lengths, fits_cons, fits_cons]
    exact fits

/-- All slots are read, however many there are. -/
theorem gives_readView_object {name : String} {slots : List (String × Handle)}
    (fits : Fits (ObjectView.object name slots).lengths) :
    Gives inv (readView L shapeOnly child h cls attrs (.object name slots))
      (CollectedAt L shapeOnly depth) := by
  simp only [ObjectView.lengths, fits_cons] at fits
  apply (gives_readPairs inner slots).bind
  intro named all
  obtain ⟨lengths, read⟩ := all
  apply Gives.of_pure
  rw [CollectedAt, nodesAt, List.forall_mem_cons, forall_mem_nodesOfPairs]
  refine ⟨⟨.inr shallow, List.forall_mem_nil _, List.forall_mem_nil _, ?_, by rintro s ⟨⟩⟩, read⟩
  intro mode
  rw [ownLengths, lengths, fits_cons, fits_cons]
  exact fits

end

/-- The value of one level is collected if its parts are. -/
theorem gives_readView (shallow : depth ≤ L.maxDepth)
    (inner : ∀ h, Gives inv (child h) (CollectedAt L shapeOnly (depth + 1))) (h : Handle)
    {cls : Option String} (clsFits : Fits (textLengths? cls))
    {attrs : Option (List (String × Value))}
    (attributed : ∀ pairs ∈ attrs, Fits (pairLengths pairs) ∧
      ∀ pair ∈ pairs, pair.2.CollectedAt L shapeOnly (depth + 1))
    {view : ObjectView} (shown : view.Faithful) :
    Gives inv (readView L shapeOnly child h cls attrs view) (CollectedAt L shapeOnly depth) := by
  have attrsFit : Fits (attrLengths attrs) :=
    fits_attrLengths fun pairs hp => (attributed pairs hp).1
  have attrNodes : ∀ p ∈ nodesOfAttrs (depth + 1) attrs, p.2.Collected L shapeOnly p.1 :=
    forall_mem_nodesOfAttrs.mpr fun pairs hp => (attributed pairs hp).2
  cases view with
  | null | missing => exact .of_pure (collectedAt_of_isLeaf rfl fits_nil)
  | function | other => exact .of_pure (collectedAt_of_isLeaf rfl shown.fits)
  | vector => exact gives_readView_vector h shallow clsFits attrsFit attrNodes shown
  | list => exact gives_readView_list h shallow clsFits attrsFit attrNodes inner shown.fits
  | dataFrame =>
    exact gives_readView_dataFrame h shallow clsFits attrsFit attrNodes inner shown.fits
  | environment => exact gives_readView_environment h shallow inner shown.fits
  | object => exact gives_readView_object h shallow inner shown.fits

/-! ### Whole values -/

/-- All nodes of an object that may nest `levels` others are collected at their depths. -/
theorem gives_readLevels (faithful : I.Faithful inv) (levels : Nat) (h : Handle)
    (reached : depth + levels = L.maxDepth + 1) :
    Gives inv (I.readLevels L shapeOnly levels h) (CollectedAt L shapeOnly depth) := by
  -- With no level left a reference is read, which is a leaf.
  induction levels generalizing depth h with
  | zero => exact .of_pure (collectedAt_of_isLeaf rfl fits_nil)
  | succ levels ih =>
    have inner : ∀ h, Gives inv (I.readLevels L shapeOnly levels h)
        (CollectedAt L shapeOnly (depth + 1)) := fun h => ih h (by omega)
    apply (gives_classOf faithful h).bind
    intro cls clsFits
    apply (gives_readAttributes faithful inner h).bind
    intro attrs attributed
    apply (faithful.view h).bind
    intro view shown
    exact gives_readView (by omega) inner h clsFits attributed shown

/-- All nodes of a value that was read out of the engine are collected. -/
theorem gives_read (faithful : I.Faithful inv) (L : Limits) (shapeOnly : Bool) (h : Handle) :
    Gives inv (I.read L shapeOnly h) (CollectedAt L shapeOnly 0) := by
  rw [read]
  split
  · exact .of_throw _
  · exact gives_readLevels faithful _ h (Nat.zero_add _)

/-- A value that was read out of the engine is written without further references, in full or as a
shape if it has one. It is read back as it is exactly if no node has more slots or attributes than a
list may have entries; otherwise their number is refused. -/
theorem read_roundTrip (faithful : I.Faithful inv) (L : Limits) (shapeOnly : Bool) (h : Handle)
    {s : ι} (good : inv s) {v : Value} (result : ((I.read L shapeOnly h).run.run s).1 = .ok v) :
    v.degrade L = v ∧ ∃ bytes, v.encode L (Answer.coding v) = .ok bytes ∧
      ((∀ p ∈ v.nodes, ∀ n ∈ p.2.partCounts, n ≤ L.maxList) → decode L bytes = .ok v) ∧
      ((¬ ∀ p ∈ v.nodes, ∀ n ∈ p.2.partCounts, n ≤ L.maxList) →
        ∃ what n, decode L bytes = .error (.overLimit what n L.maxList)) := by
  have collected : v.CollectedAt L shapeOnly 0 :=
    (gives_read faithful L shapeOnly h s good).2 v result
  obtain ⟨bytes, written⟩ := collected.exists_encode
  refine ⟨collected.degrade_withLists L.maxList, bytes, written, fun within => ?_, fun beyond => ?_⟩
  · exact collected.decode_encode written (collected.listsWithin_iff.mpr within)
  · -- Under a limit that is large enough the value would be read back, but it is not within `L`.
    obtain ⟨limit, larger, within⟩ := v.exists_listsWithin L.maxList
    rcases decode_withLists larger bytes with agrees | refused
    · rw [collected.decode_encode written within] at agrees
      exact absurd (collected.listsWithin_iff.mp (within_of_decode agrees).listsWithin) beyond
    · exact refused

/-! ### Engines with fixed objects -/

/-- An engine that shows fixed objects. -/
def ofViews (attrs : Handle → List (String × Handle)) (view : Handle → ObjectView) :
    Inspector (StateM Unit) where
  attr? h name := pure ((attrs h).lookup name)
  attrs h := pure (attrs h)
  view h := pure (view h)

theorem faithful_ofViews {attrs : Handle → List (String × Handle)} {view : Handle → ObjectView}
    (named : ∀ h, Fits ((attrs h).length :: (attrs h).map (·.1.utf8ByteSize)))
    (shown : ∀ h, (view h).Faithful) : (ofViews attrs view).Faithful fun _ => True :=
  ⟨fun _ _ => .of_pure trivial, fun h => .of_pure (named h), fun h => .of_pure (shown h)⟩

/-- An environment that holds itself, and a vector with a class and with the environment as an
attribute. -/
def looped : Inspector (StateM Unit) :=
  ofViews (fun h => if h = 2 then [("class", 3), ("home", 1)] else [])
    fun h =>
      if h = 1 then .environment "e" [("self", 1), ("x", 2)]
      else if h = 2 then .vector (.integer [1, 2]) none none none
      else .vector (.character [some "ts"]) none none none

theorem faithful_looped : looped.Faithful fun _ => True := by
  refine faithful_ofViews (fun h => ?_) fun h => ?_
  · split <;> decide
  · split
    · exact ⟨nofun, by decide⟩
    · split <;> exact ⟨by rintro s ⟨⟩; rfl, by decide⟩

/-- The shape of the environment that holds itself, down to one level below the outermost one. -/
def loopedShape : Value :=
  .environment "e" 1
    [("self", .environment "e" 1 [("self", .reference 1 none), ("x", .reference 2 none)]),
      ("x", .vector (some "ts") (.shape ⟨.integer, 2, none⟩) none
        (some [("home", .reference 1 none)]))]

/-- The shape of the environment that holds itself is read back. -/
theorem read_roundTrip_looped :
    ((looped.read ⟨1, 2, 2⟩ true 1).run.run ()).1 = .ok loopedShape ∧
      ∃ bytes, loopedShape.encode ⟨1, 2, 2⟩ .shape = .ok bytes ∧
        decode ⟨1, 2, 2⟩ bytes = .ok loopedShape := by
  have read : ((looped.read ⟨1, 2, 2⟩ true 1).run.run ()).1 = .ok loopedShape := rfl
  obtain ⟨-, bytes, written, back, -⟩ :=
    read_roundTrip faithful_looped ⟨1, 2, 2⟩ true 1 trivial read
  exact ⟨read, bytes, written, back (by decide +kernel)⟩

/-- An object with two slots. -/
def slotted : Inspector (StateM Unit) :=
  ofViews (fun _ => []) fun h => if h = 1 then .object "P" [("a", 2), ("b", 2)] else .null

theorem faithful_slotted : slotted.Faithful fun _ => True := by
  apply faithful_ofViews (fun h => by decide)
  intro h
  split <;> exact ⟨nofun, by decide⟩

/-- An object with more slots than a list may have entries is read out of the engine and written,
and then refused. -/
theorem decode_error_of_slotted :
    slotted.Faithful (fun _ => True) ∧
      ((slotted.read ⟨1, 1, 1⟩ false 1).run.run ()).1 =
        .ok (.object "P" [("a", .null), ("b", .null)]) ∧
      ∃ bytes, (Value.object "P" [("a", .null), ("b", .null)]).encode ⟨1, 1, 1⟩ .full = .ok bytes ∧
        decode ⟨1, 1, 1⟩ bytes = .error (.overLimit "S4 slots" 2 1) :=
  ⟨faithful_slotted, rfl, _, rfl, rfl⟩

end Inspector

end EngineLink
