import EngineLink.Proofs.Value.References
import EngineLink.Proofs.Value.StoreRoundTrip
import EngineLink.Value.Form

/-!
# Values are read back

The writer puts references in place of what is beyond the limits while it walks the tree, and the
reader counts levels while it builds one. Both walks agree with the tree in which the references
have been put before: the writer writes this tree, and the reader gives it back.

## Main results

* `Value.reads_putNode` — the tree, with references, is read back in either mode
* `Value.refusedIf_encode` — in full mode a value is refused if a shape is left in it
* `Value.roundTrip_full` — the round trip of whole values in full mode
-/

namespace EngineLink

open Wire Reader

/-! ### Option bits -/

namespace OptionBit

@[simp] theorem isSet_or (x y bit : UInt32) :
    isSet (x ||| y) bit = (isSet x bit || isSet y bit) := by
  have split : (x ||| y) &&& bit = (x &&& bit) ||| (y &&& bit) := by
    apply UInt32.toBitVec_inj.mp
    ext i inside
    simp [Bool.and_or_distrib_right]
  rw [isSet, split, Bool.eq_iff_iff]
  simp only [isSet, bne_iff_ne, ne_eq, UInt32.or_eq_zero_iff, Bool.or_eq_true]
  rw [Classical.not_and_iff_not_or_not]

@[simp] theorem isSet_when (set : Bool) (bit other : UInt32) :
    isSet (when set bit) other = (set && isSet bit other) := by
  cases set
  · simp [isSet, when]
  · rfl

/-- The bits that a node sets: one of its own kind, the one of attributes and that of the class. -/
theorem layout (own : UInt32) (known : own ∈ [names, dimnames, rowNames]) (a b c : Bool) :
    isSet (when a own ||| when b attrs) cls = false ∧
      isSet (when a own ||| when b attrs ||| when c cls) own = a ∧
      isSet (when a own ||| when b attrs ||| when c cls) attrs = b := by
  simp only [List.mem_cons, List.not_mem_nil, or_false] at known
  rcases known with rfl | rfl | rfl <;> cases a <;> cases b <;> cases c <;> decide

end OptionBit

namespace Value

variable {L : Limits} {mode : Coding} {child : Reader Value} {bytes : Bytes} {depth : Nat}

/-! ### What is carried in each mode -/

/-- `carried` of each value. -/
def carriedList (mode : Coding) (vs : List Value) : List Value :=
  match mode with
  | .full => vs
  | .shape => toShapeList vs

/-- `carried` of each named value. -/
def carriedPairs (mode : Coding) (pairs : List (String × Value)) : List (String × Value) :=
  match mode with
  | .full => pairs
  | .shape => toShapePairs pairs

/-- `carried` of each attribute. -/
def carriedAttrs (mode : Coding) (attrs : Option (List (String × Value))) :
    Option (List (String × Value)) :=
  match mode with
  | .full => attrs
  | .shape => toShapeAttrs attrs

theorem carried_vector (cls : Option String) (store : Store) (names : Option Names)
    (attrs : Option (List (String × Value))) : (vector cls store names attrs).carried mode =
      vector cls (store.carried mode) names (carriedAttrs mode attrs) := by
  cases mode <;> rfl

theorem carried_array (cls : Option String) (store : Store) (dim : List Int32)
    (dimnames : Option (List (Option Names))) (attrs : Option (List (String × Value))) :
    (array cls store dim dimnames attrs).carried mode =
      array cls (store.carried mode) dim dimnames (carriedAttrs mode attrs) := by
  cases mode <;> rfl

theorem carried_list (cls : Option String) (elements : List Value) (names : Option Names)
    (attrs : Option (List (String × Value))) : (list cls elements names attrs).carried mode =
      list cls (carriedList mode elements) names (carriedAttrs mode attrs) := by
  cases mode <;> rfl

theorem carried_dataFrame (cls : Option String) (columns : List Value) (columnNames : Names)
    (rowCount : Nat) (rowNames : Option Names) (attrs : Option (List (String × Value))) :
    (dataFrame cls columns columnNames rowCount rowNames attrs).carried mode =
      dataFrame cls (carriedList mode columns) columnNames rowCount rowNames
        (carriedAttrs mode attrs) := by
  cases mode <;> rfl

theorem carried_environment (name : String) (handle : UInt64) (bindings : List (String × Value)) :
    (environment name handle bindings).carried mode =
      environment name handle (carriedPairs mode bindings) := by
  cases mode <;> rfl

theorem carried_object (cls : String) (slots : List (String × Value)) :
    (object cls slots).carried mode = object cls (carriedPairs mode slots) := by
  cases mode <;> rfl

theorem carried_of_isLeaf {v : Value} (h : v.isLeaf = true) : v.carried mode = v := by
  cases mode <;> cases v <;> first | rfl | cases h

theorem carriedList_cons (v : Value) (vs : List Value) :
    carriedList mode (v :: vs) = v.carried mode :: carriedList mode vs := by
  cases mode <;> rfl

theorem carriedPairs_cons (name : String) (v : Value) (pairs : List (String × Value)) :
    carriedPairs mode ((name, v) :: pairs) =
      (name, v.carried mode) :: carriedPairs mode pairs := by
  cases mode <;> rfl

/-! ### Parts of nodes -/

theorem putNode_of_deep {v : Value} (deep : L.maxDepth < depth) (inner : v.isLeaf = false) :
    putNode L mode depth v = .ok v.putPlaceholder := by
  rw [putNode.eq_def, if_pos (by simp [deep, inner])]

theorem reads_getOptions {cls : Option String} {options : UInt32}
    (free : OptionBit.isSet options OptionBit.cls = false) (fits : Wire.Fits (textLengths? cls)) :
    getOptions.Reads (putOptions cls options)
      (options ||| OptionBit.when cls.isSome OptionBit.cls, cls) := by
  -- Only the class itself sets its bit, which tells the reader whether a class is behind.
  have set : OptionBit.isSet (options ||| OptionBit.when cls.isSome OptionBit.cls)
      OptionBit.cls = cls.isSome := by
    rw [OptionBit.isSet_or, free, OptionBit.isSet_when]
    cases cls <;> rfl
  refine (reads_getU32 _).bind ?_
  rw [set]
  refine (Reads.onlyIf fun s hs => reads_getText ?_).bind_pure (Prod.mk _)
  simpa [Option.mem_def.mp hs] using fits

theorem reads_names {names : Option Names} {set : Bool} (h : set = names.isSome)
    (fits : Wire.Fits (textsLengths? names)) :
    (Reader.onlyIf set getTexts).Reads (putNames names) names := by
  subst h
  refine Reads.onlyIf fun ns hns => reads_getTexts ?_
  simpa [Option.mem_def.mp hns] using fits

theorem reads_dimnames {dimnames : Option (List (Option Names))} {set : Bool}
    (h : set = dimnames.isSome)
    (fits : Wire.Fits ((dimnames.map fun ns => ns.length :: ns.flatMap textsLengths?).getD [])) :
    (Reader.onlyIf set do getTexts?.times (← getCount "dimnames" 4)).Reads
      (putDimnames dimnames) dimnames := by
  subst h
  refine Reads.onlyIf fun ns hns => ?_
  have inner : Wire.Fits (ns.length :: ns.flatMap textsLengths?) := by
    simpa [Option.mem_def.mp hns] using fits
  rw [fits_cons, fits_flatMap] at inner
  exact reads_counted "dimnames" inner.1 (fun n _ => le_length_putTexts? n)
    fun n hn => reads_getTexts? (inner.2 n hn)

theorem reads_getEntries_bind {β : Type} {f : Nat → Reader β} {b : Bytes} {y : β} {n limit : Nat}
    (what : String) (fits : n < countBound) (within : n ≤ limit) (room : n ≤ b.length)
    (h : (f n).Reads b y) : (getEntries what limit >>= f).Reads (putCount n ++ b) y := by
  rw [getEntries, bind_assoc]
  refine reads_getCount_bind what fits (by simpa using room) ?_
  rw [if_neg (Nat.not_lt.mpr within), pure_bind]
  exact h

theorem reads_getPairs {pairs : List (String × Value)} {b : Bytes} {n limit : Nat} (what : String)
    (fits : n < countBound) (within : n ≤ limit) (room : n ≤ b.length)
    (h : (Reader.times (do return (← getText, ← child)) n).Reads b pairs) :
    (getPairs child what limit).Reads (putCount n ++ b) pairs :=
  reads_getEntries_bind what fits within room h

/-! ### Nodes -/

/-- The attributes are read back behind options that tell whether there are any. -/
def ReadsAttrs (L : Limits) (child : Reader Value) (set : Bool) (bytes : Bytes)
    (attrs : Option (List (String × Value))) : Prop :=
  ∀ options, OptionBit.isSet options OptionBit.attrs = set →
    (getAttrs L child options).Reads bytes attrs

variable {cls : Option String} {attrs : Option (List (String × Value))} {set : Bool}
  {body tail : Bytes}

theorem reads_getNode_vector {store : Store} {names : Option Names}
    (clsFits : Wire.Fits (textLengths? cls)) (storeRead : (Store.get mode).Reads body store)
    (namesFit : Wire.Fits (textsLengths? names)) (attrsRead : ReadsAttrs L child set tail attrs) :
    (getNode L mode child .vector).Reads
      (putOptions cls (OptionBit.when names.isSome OptionBit.names |||
        OptionBit.when set OptionBit.attrs) ++ body ++ putNames names ++ tail)
      (vector cls store names attrs) := by
  obtain ⟨free, named, attributed⟩ := OptionBit.layout OptionBit.names (by decide)
    names.isSome set cls.isSome
  simp only [List.append_assoc]
  refine (reads_getOptions free clsFits).bind ?_
  refine storeRead.bind ?_
  refine (reads_names named namesFit).bind ?_
  exact (attrsRead _ attributed).bind_pure _

theorem reads_getNode_array {dim : List Int32} {store : Store}
    {dimnames : Option (List (Option Names))} (clsFits : Wire.Fits (textLengths? cls))
    (dimFits : dim.length < countBound) (storeRead : (Store.get mode).Reads body store)
    (namesFit : Wire.Fits ((dimnames.map fun ns => ns.length :: ns.flatMap textsLengths?).getD []))
    (attrsRead : ReadsAttrs L child set tail attrs) :
    (getNode L mode child .array).Reads
      (putOptions cls (OptionBit.when dimnames.isSome OptionBit.dimnames |||
        OptionBit.when set OptionBit.attrs) ++ putInts dim ++ body ++ putDimnames dimnames ++ tail)
      (array cls store dim dimnames attrs) := by
  obtain ⟨free, named, attributed⟩ := OptionBit.layout OptionBit.dimnames (by decide)
    dimnames.isSome set cls.isSome
  simp only [List.append_assoc]
  refine (reads_getOptions free clsFits).bind ?_
  refine (reads_getInts dimFits).bind ?_
  refine storeRead.bind ?_
  refine (reads_dimnames named namesFit).bind ?_
  exact (attrsRead _ attributed).bind_pure _

theorem reads_getNode_list {n : Nat} {elements : List Value} {names : Option Names}
    (clsFits : Wire.Fits (textLengths? cls)) (fits : n < countBound) (within : n ≤ L.maxList)
    (room : n ≤ body.length) (elementsRead : (child.times n).Reads body elements)
    (namesFit : Wire.Fits (textsLengths? names)) (attrsRead : ReadsAttrs L child set tail attrs) :
    (getNode L mode child .list).Reads
      (putOptions cls (OptionBit.when names.isSome OptionBit.names |||
        OptionBit.when set OptionBit.attrs) ++ putCount n ++ body ++ putNames names ++ tail)
      (list cls elements names attrs) := by
  obtain ⟨free, named, attributed⟩ := OptionBit.layout OptionBit.names (by decide)
    names.isSome set cls.isSome
  simp only [List.append_assoc]
  refine (reads_getOptions free clsFits).bind ?_
  refine reads_getEntries_bind "list length" fits within
    (by rw [List.length_append]; exact Nat.le_add_right_of_le room) ?_
  refine elementsRead.bind ?_
  refine (reads_names named namesFit).bind ?_
  exact (attrsRead _ attributed).bind_pure _

-- The columns come after all names, so the reader has to know their number long before.
theorem reads_getNode_dataFrame {n rowCount : Nat} {columns : List Value} {columnNames : Names}
    {rowNames : Option Names} (clsFits : Wire.Fits (textLengths? cls)) (fits : n < countBound)
    (within : n ≤ L.maxList) (room : n ≤ body.length) (rowsFit : rowCount < countBound)
    (columnsFit : Wire.Fits (textsLengths columnNames))
    (rowNamesFit : Wire.Fits (textsLengths? rowNames))
    (columnsRead : (child.times n).Reads body columns)
    (attrsRead : ReadsAttrs L child set tail attrs) :
    (getNode L mode child .dataFrame).Reads
      (putOptions cls (OptionBit.when rowNames.isSome OptionBit.rowNames |||
        OptionBit.when set OptionBit.attrs) ++ putCount n ++ putCount rowCount ++
          putTexts columnNames ++ putNames rowNames ++ body ++ tail)
      (dataFrame cls columns columnNames rowCount rowNames attrs) := by
  obtain ⟨free, named, attributed⟩ := OptionBit.layout OptionBit.rowNames (by decide)
    rowNames.isSome set cls.isSome
  simp only [List.append_assoc]
  refine (reads_getOptions free clsFits).bind ?_
  refine reads_getEntries_bind "data frame columns" fits within
    (by simp only [List.length_append]; omega) ?_
  refine reads_getLength_bind "row count" rowsFit ?_
  refine (reads_getTexts columnsFit).bind ?_
  refine (reads_names named rowNamesFit).bind ?_
  refine columnsRead.bind ?_
  exact (attrsRead _ attributed).bind_pure _

theorem reads_getNode_environment {name : String} {n : Nat} {bindings : List (String × Value)}
    (handle : UInt64) (nameFits : name.utf8ByteSize < countBound) (fits : n < countBound)
    (within : n ≤ L.maxEnv) (room : n ≤ body.length)
    (bindingsRead : (Reader.times (do return (← getText, ← child)) n).Reads body bindings) :
    (getNode L mode child .environment).Reads
      (putU64 handle ++ putText name ++ putCount n ++ body)
      (environment name handle bindings) := by
  simp only [List.append_assoc]
  refine (reads_getU64 handle).bind ?_
  refine (reads_getText nameFits).bind ?_
  exact (reads_getPairs "environment length" fits within room bindingsRead).bind_pure _

theorem reads_getNode_object {name : String} {n : Nat} {slots : List (String × Value)}
    (nameFits : name.utf8ByteSize < countBound) (fits : n < countBound) (within : n ≤ L.maxList)
    (room : n ≤ body.length)
    (slotsRead : (Reader.times (do return (← getText, ← child)) n).Reads body slots) :
    (getNode L mode child .object).Reads (putText name ++ putCount n ++ body)
      (object name slots) := by
  simp only [List.append_assoc]
  refine (reads_getText nameFits).bind ?_
  exact (reads_getPairs "S4 slots" fits within room slotsRead).bind_pure _

/-! ### Trees -/

/-- The kinds of leaves do not read other values. -/
theorem getNode_of_isLeaf {kind : ValueKind} (h : kind.isLeaf = true) (other : Reader Value) :
    getNode L mode child kind = getNode L mode other kind := by
  cases kind <;> first | rfl | cases h

theorem reads_getTree_leaf (kind : ValueKind) {v : Value} (h : kind.isLeaf = true)
    (body : (getNode L mode (pure null) kind).Reads bytes v) (levels : Nat) :
    (getTree L mode levels).Reads (kind.tag :: bytes) v := by
  -- A leaf is read even if no levels are left.
  cases levels with
  | zero =>
    refine (reads_getU8 kind.tag).bind (a := [kind.tag]) ?_
    rw [ValueKind.ofTag?_tag]
    simpa [h] using body
  | succ levels =>
    refine (reads_getTag "value" (ValueKind.ofTag?_tag kind)).bind (a := [kind.tag]) ?_
    rwa [getNode_of_isLeaf h (pure null)]

theorem reads_getTree_node {kind : ValueKind} {v : Value} (shallow : depth ≤ L.maxDepth)
    (body : (getNode L mode (getTree L mode (L.maxDepth + 1 - (depth + 1))) kind).Reads bytes v) :
    (getTree L mode (L.maxDepth + 1 - depth)).Reads (kind.tag :: bytes) v := by
  rw [Nat.add_sub_add_right] at body
  rw [Nat.succ_sub shallow]
  exact (reads_getTag "value" (ValueKind.ofTag?_tag kind)).bind (a := [kind.tag]) body

theorem reads_putReference {handle : UInt64} {cls : Option String}
    (fits : Wire.Fits (textLengths? cls)) (levels : Nat) :
    (getTree L mode levels).Reads (putReference handle cls) (reference handle cls) :=
  reads_getTree_leaf .reference rfl
    ((reads_getU64 handle).bind ((reads_getText? fits).bind_pure (reference handle))) levels

/-- A tree takes at least one byte. -/
theorem length_pos_of_reads_getTree {v : Value} {levels : Nat}
    (h : (getTree L mode levels).Reads bytes v) : 0 < bytes.length := by
  cases levels <;> exact length_pos_of_reads h rfl

/-- What the reader asks of a node. -/
structure Readable (L : Limits) (mode : Coding) (v : Value) : Prop where
  fits : Wire.Fits (v.ownLengths mode)
  within : ∀ n ∈ v.entryCounts, n ≤ L.maxList
  complete : mode = .shape → ∀ s ∈ v.store?, s.outline.Complete

/-! ### Trees with references -/

theorem reads_putNode_of_isLeaf {v : Value} (leaf : v.isLeaf = true)
    (written : v.putNode L mode depth = .ok bytes) (fits : Wire.Fits (v.ownLengths mode))
    (levels : Nat) : (getTree L mode levels).Reads bytes v := by
  rw [putNode.eq_def, if_neg (by simp [leaf])] at written
  cases v with
  | null =>
    cases written
    exact reads_getTree_leaf .null rfl (.of_pure null) levels
  | missing =>
    cases written
    exact reads_getTree_leaf .missing rfl (.of_pure missing) levels
  | function header =>
    cases written
    rw [ownLengths, fits_cons] at fits
    exact reads_getTree_leaf .function rfl ((reads_getText fits.1).map function) levels
  | reference handle cls =>
    cases written
    exact reads_putReference fits levels
  | other cls =>
    cases written
    rw [ownLengths, fits_cons] at fits
    exact reads_getTree_leaf .other rfl ((reads_getText fits.1).map other) levels
  | vector | array | list | dataFrame | environment | object => cases leaf

/-- Below the deepest level there is a reference in place of the value. -/
theorem reads_putNode_of_deep {v : Value} (deep : L.maxDepth < depth) (inner : v.isLeaf = false)
    (written : v.putNode L mode depth = .ok bytes)
    (readable : (v.degradeAt L depth).Readable L mode) (levels : Nat) :
    (getTree L mode levels).Reads bytes ((v.degradeAt L depth).carried mode) := by
  rw [putNode_of_deep deep inner] at written
  rw [degradeAt_of_deep deep inner] at readable ⊢
  cases written
  rw [carried_of_isLeaf rfl]
  exact reads_putReference readable.fits levels

mutual

/-- The tree of a value, with references for what is beyond the limits, is read back. -/
theorem reads_putNode (v : Value) (depth : Nat) {bytes : Bytes}
    (written : v.putNode L mode depth = .ok bytes)
    (readable : ∀ p ∈ (v.degradeAt L depth).nodesAt depth, p.2.Readable L mode) :
    (getTree L mode (L.maxDepth + 1 - depth)).Reads bytes ((v.degradeAt L depth).carried mode) := by
  have own : (v.degradeAt L depth).Readable L mode :=
    readable (depth, v.degradeAt L depth) (mem_nodesAt ..)
  cases inner : v.isLeaf with
  | true =>
    rw [degradeAt_of_isLeaf inner] at own ⊢
    rw [carried_of_isLeaf inner]
    exact reads_putNode_of_isLeaf inner written own.fits _
  | false =>
    by_cases deep : L.maxDepth < depth
    · exact reads_putNode_of_deep deep inner written own _
    -- The node itself is written: each part is read back, then the values in it.
    have shallow : depth ≤ L.maxDepth := Nat.le_of_not_lt deep
    have here {inner : Bool} : ¬ (decide (L.maxDepth < depth) && inner) = true := by simp [deep]
    obtain ⟨fits, within, complete⟩ := own
    cases v with
    | null | missing | function | reference | other => cases inner
    | vector cls store names attrs =>
      rw [putNode, if_neg here] at written
      simp only [bind_eq_ok, Except.ok.injEq] at written
      obtain ⟨body, bodyWritten, tail, tailWritten, rfl⟩ := written
      rw [degradeAt, if_neg deep] at readable fits within complete ⊢
      rw [nodesAt, List.forall_mem_cons] at readable
      simp only [ownLengths, fits_append] at fits
      obtain ⟨⟨⟨clsFits, storeFits⟩, namesFit⟩, attrsFit⟩ := fits
      have storeRead := Store.reads_get bodyWritten storeFits fun h => complete h store rfl
      rw [carried_vector]
      exact reads_getTree_node shallow (reads_getNode_vector clsFits storeRead namesFit
        (reads_putAttrs attrs (depth + 1) tailWritten attrsFit within readable.2))
    | array cls store dim dimnames attrs =>
      rw [putNode, if_neg here] at written
      simp only [bind_eq_ok, Except.ok.injEq] at written
      obtain ⟨body, bodyWritten, tail, tailWritten, rfl⟩ := written
      rw [degradeAt, if_neg deep] at readable fits within complete ⊢
      rw [nodesAt, List.forall_mem_cons] at readable
      simp only [ownLengths, fits_append, fits_cons] at fits
      obtain ⟨⟨⟨clsFits, dimFits, storeFits⟩, namesFit⟩, attrsFit⟩ := fits
      have storeRead := Store.reads_get bodyWritten storeFits fun h => complete h store rfl
      rw [carried_array]
      exact reads_getTree_node shallow (reads_getNode_array clsFits dimFits storeRead namesFit
        (reads_putAttrs attrs (depth + 1) tailWritten attrsFit within readable.2))
    | list cls elements names attrs =>
      rw [putNode, if_neg here] at written
      simp only [bind_eq_ok, Except.ok.injEq] at written
      obtain ⟨body, bodyWritten, tail, tailWritten, rfl⟩ := written
      rw [degradeAt, if_neg deep] at readable fits within complete ⊢
      rw [nodesAt, List.forall_mem_cons, List.forall_mem_append] at readable
      simp only [ownLengths, fits_append, fits_cons, length_degradeList] at fits
      obtain ⟨⟨clsFits, lengthFits, namesFit⟩, attrsFit⟩ := fits
      simp only [entryCounts, List.forall_mem_cons, length_degradeList] at within
      obtain ⟨elementsRead, room⟩ := reads_putNodes elements (depth + 1) bodyWritten readable.2.1
      rw [carried_list]
      exact reads_getTree_node shallow (reads_getNode_list clsFits lengthFits within.1 room
        elementsRead namesFit
        (reads_putAttrs attrs (depth + 1) tailWritten attrsFit within.2 readable.2.2))
    | dataFrame cls columns columnNames rowCount rowNames attrs =>
      rw [putNode, if_neg here] at written
      simp only [bind_eq_ok, Except.ok.injEq] at written
      obtain ⟨body, bodyWritten, tail, tailWritten, rfl⟩ := written
      rw [degradeAt, if_neg deep] at readable fits within complete ⊢
      rw [nodesAt, List.forall_mem_cons, List.forall_mem_append] at readable
      simp only [ownLengths, fits_append, fits_cons, length_degradeList] at fits
      obtain ⟨⟨⟨clsFits, lengthFits, rowsFit, columnsFit⟩, namesFit⟩, attrsFit⟩ := fits
      simp only [entryCounts, List.forall_mem_cons, length_degradeList] at within
      obtain ⟨columnsRead, room⟩ := reads_putNodes columns (depth + 1) bodyWritten readable.2.1
      rw [carried_dataFrame]
      exact reads_getTree_node shallow (reads_getNode_dataFrame clsFits lengthFits within.1 room
        rowsFit columnsFit namesFit columnsRead
        (reads_putAttrs attrs (depth + 1) tailWritten attrsFit within.2 readable.2.2))
    | environment name handle bindings =>
      -- Writer and tree replace an environment with too many bindings at the same place.
      rw [putNode, if_neg here] at written
      rw [degradeAt] at readable fits ⊢
      by_cases large : L.maxEnv < bindings.length
      · rw [if_pos large] at written
        rw [if_pos (.inr large)] at fits ⊢
        cases written
        rw [carried_of_isLeaf rfl]
        exact reads_putReference fits _
      rw [if_neg large] at written
      rw [if_neg (not_or.mpr ⟨deep, large⟩)] at readable fits ⊢
      simp only [bind_eq_ok, Except.ok.injEq] at written
      obtain ⟨body, bodyWritten, rfl⟩ := written
      rw [nodesAt, List.forall_mem_cons] at readable
      -- References stand under the names of what they replace, so lengths of names stay.
      rw [ownLengths, fits_cons, pairLengths_degradePairs, pairLengths, fits_cons] at fits
      obtain ⟨bindingsRead, room⟩ :=
        reads_putPairs bindings (depth + 1) bodyWritten fits.2.2 readable.2
      rw [carried_environment]
      exact reads_getTree_node shallow (reads_getNode_environment handle fits.1 fits.2.1
        (Nat.le_of_not_lt large) room bindingsRead)
    | object cls slots =>
      rw [putNode, if_neg here] at written
      simp only [bind_eq_ok, Except.ok.injEq] at written
      obtain ⟨body, bodyWritten, rfl⟩ := written
      rw [degradeAt, if_neg deep] at readable fits within ⊢
      rw [nodesAt, List.forall_mem_cons] at readable
      rw [ownLengths, fits_cons, pairLengths_degradePairs, pairLengths, fits_cons] at fits
      simp only [entryCounts, List.forall_mem_cons, length_degradePairs] at within
      obtain ⟨slotsRead, room⟩ := reads_putPairs slots (depth + 1) bodyWritten fits.2.2 readable.2
      rw [carried_object]
      exact reads_getTree_node shallow
        (reads_getNode_object fits.1 fits.2.1 within.1 room slotsRead)

/-- So are trees one after another, each of which takes some bytes. -/
theorem reads_putNodes (vs : List Value) (depth : Nat) {bytes : Bytes}
    (written : putNodes L mode depth vs = .ok bytes)
    (readable : ∀ p ∈ nodesOfList depth (degradeList L depth vs), p.2.Readable L mode) :
    (Reader.times (getTree L mode (L.maxDepth + 1 - depth)) vs.length).Reads bytes
      (carriedList mode (degradeList L depth vs)) ∧ vs.length ≤ bytes.length := by
  cases vs with
  | nil =>
    cases written
    cases mode <;> exact ⟨.of_pure [], Nat.le_refl 0⟩
  | cons v vs =>
    simp only [putNodes, bind_eq_ok, Except.ok.injEq] at written
    obtain ⟨first, firstWritten, others, othersWritten, rfl⟩ := written
    simp only [degradeList, nodesOfList, List.forall_mem_append] at readable
    have firstRead := reads_putNode v depth firstWritten readable.1
    obtain ⟨othersRead, room⟩ := reads_putNodes vs depth othersWritten readable.2
    constructor
    · rw [degradeList, carriedList_cons]
      exact firstRead.bind (othersRead.bind_pure _)
    · have := length_pos_of_reads_getTree firstRead
      simp only [List.length_append, List.length_cons]
      omega

/-- So are named trees one after another. -/
theorem reads_putPairs (pairs : List (String × Value)) (depth : Nat) {bytes : Bytes}
    (written : putPairs L mode depth pairs = .ok bytes)
    (fits : Wire.Fits (pairs.map (·.1.utf8ByteSize)))
    (readable : ∀ p ∈ nodesOfPairs depth (degradePairs L depth pairs), p.2.Readable L mode) :
    (Reader.times (do return (← getText, ← getTree L mode (L.maxDepth + 1 - depth)))
      pairs.length).Reads bytes (carriedPairs mode (degradePairs L depth pairs)) ∧
        pairs.length ≤ bytes.length := by
  cases pairs with
  | nil =>
    cases written
    cases mode <;> exact ⟨.of_pure [], Nat.le_refl 0⟩
  | cons pair pairs =>
    obtain ⟨name, v⟩ := pair
    simp only [putPairs, bind_eq_ok, Except.ok.injEq] at written
    obtain ⟨first, firstWritten, others, othersWritten, rfl⟩ := written
    rw [List.map_cons, fits_cons] at fits
    simp only [degradePairs, nodesOfPairs, List.forall_mem_append] at readable
    have firstRead := reads_putNode v depth firstWritten readable.1
    obtain ⟨othersRead, room⟩ := reads_putPairs pairs depth othersWritten fits.2 readable.2
    constructor
    · rw [degradePairs, carriedPairs_cons]
      exact ((reads_getText fits.1).bind (firstRead.bind_pure _)).bind (othersRead.bind_pure _)
    · have := length_pos_of_reads_getTree firstRead
      simp only [List.length_append, List.length_cons]
      omega

theorem reads_putAttrs (attrs : Option (List (String × Value))) (depth : Nat) {bytes : Bytes}
    (written : putAttrs L mode depth attrs = .ok bytes)
    (fits : Wire.Fits (attrLengths (degradeAttrs L depth attrs)))
    (within : ∀ n ∈ (degradeAttrs L depth attrs).toList.map List.length, n ≤ L.maxList)
    (readable : ∀ p ∈ nodesOfAttrs depth (degradeAttrs L depth attrs), p.2.Readable L mode) :
    ReadsAttrs L (getTree L mode (L.maxDepth + 1 - depth)) attrs.isSome bytes
      (carriedAttrs mode (degradeAttrs L depth attrs)) := by
  intro options set
  rw [getAttrs, set]
  cases attrs with
  | none =>
    cases written
    cases mode <;> exact .of_pure none
  | some pairs =>
    simp only [putAttrs, bind_eq_ok, Except.ok.injEq] at written
    obtain ⟨body, bodyWritten, rfl⟩ := written
    rw [attrLengths_degradeAttrs, attrLengths, Option.map_some, Option.getD_some, pairLengths,
      fits_cons] at fits
    rw [counts_degradeAttrs, Option.toList_some, List.map_singleton] at within
    obtain ⟨pairsRead, room⟩ := reads_putPairs pairs depth bodyWritten fits.2 readable
    have read := reads_getPairs "attributes" fits.1 (within _ List.mem_cons_self) room pairsRead
    cases mode <;> exact read.map some

end

/-! ### What can be written -/

/-- Writing is refused, for a shape, if the condition holds, and succeeds otherwise. -/
def RefusedIf (condition : Bool) (written : Except WireFault Bytes) : Prop :=
  match condition with
  | true => written = .error .shapeOnly
  | false => ∃ bytes, written = .ok bytes

namespace RefusedIf

variable {a b : Bool} {x : Except WireFault Bytes} {f : Bytes → Except WireFault Bytes}

theorem ok (bytes : Bytes) : RefusedIf false (.ok bytes) := ⟨bytes, rfl⟩

/-- The first part that is refused decides. -/
theorem bind (first : RefusedIf a x) (next : ∀ bytes, RefusedIf b (f bytes)) :
    RefusedIf (a || b) (x >>= f) := by
  cases a with
  | true =>
    rw [RefusedIf] at first
    rw [first]
    rfl
  | false =>
    obtain ⟨bytes, rfl⟩ := first
    exact next bytes

/-- What is put around a part does not matter. -/
theorem bind_ok (first : RefusedIf a x) (g : Bytes → Bytes) :
    RefusedIf a (x >>= fun bytes => .ok (g bytes)) := by
  rw [← Bool.or_false a]
  exact first.bind fun bytes => ok (g bytes)

end RefusedIf

theorem refusedIf_put (s : Store) : RefusedIf (mode == .full && s.isShape) (s.put mode) := by
  cases refused : mode == .full && s.isShape with
  | true =>
    simp only [Bool.and_eq_true, beq_iff_eq] at refused
    rw [refused.1]
    exact Store.put_full_of_isShape refused.2
  | false =>
    refine Store.exists_put fun full => ?_
    simpa [full] using refused

mutual

/-- A tree is refused in full mode only, and only if a shape is left in it. -/
theorem refusedIf_putNode (v : Value) (depth : Nat) :
    RefusedIf (mode == .full && (v.degradeAt L depth).hasShape) (v.putNode L mode depth) := by
  cases inner : v.isLeaf with
  | true =>
    rw [putNode.eq_def, if_neg (by simp [inner]), degradeAt_of_isLeaf inner]
    cases v with
    | null | missing | function | reference | other =>
      rw [hasShape, Bool.and_false]
      exact .ok _
    | vector | array | list | dataFrame | environment | object => cases inner
  | false =>
    by_cases deep : L.maxDepth < depth
    · rw [putNode_of_deep deep inner, degradeAt_of_deep deep inner, placeholder, hasShape,
        Bool.and_false]
      exact .ok _
    have here {inner : Bool} : ¬ (decide (L.maxDepth < depth) && inner) = true := by simp [deep]
    cases v with
    | null | missing | function | reference | other => cases inner
    | vector cls store names attrs | array cls store dim dimnames attrs =>
      rw [putNode, if_neg here, degradeAt, if_neg deep, hasShape, Bool.and_or_distrib_left]
      exact (refusedIf_put store).bind fun _ => (refusedIf_putAttrs attrs (depth + 1)).bind_ok _
    | list cls vs names attrs | dataFrame cls vs columnNames rowCount rowNames attrs =>
      rw [putNode, if_neg here, degradeAt, if_neg deep, hasShape, Bool.and_or_distrib_left]
      exact (refusedIf_putNodes vs (depth + 1)).bind fun _ =>
        (refusedIf_putAttrs attrs (depth + 1)).bind_ok _
    | environment name handle bindings =>
      rw [putNode, if_neg here, degradeAt]
      by_cases large : L.maxEnv < bindings.length
      · rw [if_pos large, if_pos (.inr large), placeholder, hasShape, Bool.and_false]
        exact .ok _
      rw [if_neg large, if_neg (not_or.mpr ⟨deep, large⟩), hasShape]
      exact (refusedIf_putPairs bindings (depth + 1)).bind_ok _
    | object cls slots =>
      rw [putNode, if_neg here, degradeAt, if_neg deep, hasShape]
      exact (refusedIf_putPairs slots (depth + 1)).bind_ok _

theorem refusedIf_putNodes (vs : List Value) (depth : Nat) :
    RefusedIf (mode == .full && hasShapeList (degradeList L depth vs))
      (putNodes L mode depth vs) := by
  cases vs with
  | nil =>
    rw [degradeList, hasShapeList, Bool.and_false]
    exact .ok []
  | cons v vs =>
    rw [degradeList, hasShapeList, Bool.and_or_distrib_left]
    exact (refusedIf_putNode v depth).bind fun _ => (refusedIf_putNodes vs depth).bind_ok _

theorem refusedIf_putPairs (pairs : List (String × Value)) (depth : Nat) :
    RefusedIf (mode == .full && hasShapePairs (degradePairs L depth pairs))
      (putPairs L mode depth pairs) := by
  cases pairs with
  | nil =>
    rw [degradePairs, hasShapePairs, Bool.and_false]
    exact .ok []
  | cons pair pairs =>
    rw [degradePairs, hasShapePairs, Bool.and_or_distrib_left]
    exact (refusedIf_putNode pair.2 depth).bind fun _ =>
      (refusedIf_putPairs pairs depth).bind_ok _

theorem refusedIf_putAttrs (attrs : Option (List (String × Value))) (depth : Nat) :
    RefusedIf (mode == .full && hasShapeAttrs (degradeAttrs L depth attrs))
      (putAttrs L mode depth attrs) := by
  cases attrs with
  | none =>
    rw [degradeAttrs, hasShapeAttrs, Bool.and_false]
    exact .ok []
  | some pairs =>
    rw [degradeAttrs, hasShapeAttrs]
    exact (refusedIf_putPairs pairs depth).bind_ok _

end

/-! ### Whole values -/

variable {v : Value}

/-- A value is refused in full mode only, and only if a shape is left in it. -/
theorem refusedIf_encode (mode : Coding) (v : Value) :
    RefusedIf (mode == .full && (v.degrade L).hasShape) (v.encode L mode) :=
  (refusedIf_putNode v 0).bind_ok (mode.tag :: ·)

/-- What is written for a value, in either mode, is read back with its references. -/
theorem reads_put (written : v.put L mode = .ok bytes)
    (fits : Wire.Fits ((v.degrade L).lengths mode)) (within : (v.degrade L).ListsWithin L.maxList)
    (complete : mode = .shape → (v.degrade L).ShapesComplete) :
    (get L).Reads bytes ((v.degrade L).carried mode) := by
  rw [lengths, fits_flatMap] at fits
  obtain ⟨body, bodyWritten, tagged⟩ := bind_eq_ok.mp written
  cases tagged
  refine (reads_getTag "codec mode" (Coding.ofTag?_tag mode)).bind (a := [mode.tag]) ?_
  exact reads_putNode v 0 bodyWritten fun p hp =>
    ⟨fits p hp, within p hp, fun shape => complete shape p hp⟩

/-- The round trip in full mode. A value is refused exactly if a shape is left among its stores once
references are in place; otherwise what is written is read back with these references, and a value
within the limits is read back as it is. -/
theorem roundTrip_full (L : Limits) (v : Value) (fits : Wire.Fits ((v.degrade L).lengths .full)) :
    ((∃ bytes, v.encode L .full = .ok bytes) ↔ (v.degrade L).hasShape = false) ∧
      ((v.degrade L).hasShape = true → v.encode L .full = .error .shapeOnly) ∧
      (∀ bytes, v.encode L .full = .ok bytes → (v.degrade L).ListsWithin L.maxList →
        decode L bytes = .ok (v.degrade L)) ∧
      (v.Within L → v.hasShape = false →
        ∃ bytes, v.encode L .full = .ok bytes ∧ decode L bytes = .ok v) := by
  have refused : RefusedIf (v.degrade L).hasShape (v.encode L .full) :=
    refusedIf_encode .full v
  have back (bytes : Bytes) (written : v.encode L .full = .ok bytes)
      (within : (v.degrade L).ListsWithin L.maxList) : decode L bytes = .ok (v.degrade L) :=
    (reads_put written fits within nofun).all
  refine ⟨⟨?_, ?_⟩, ?_, back, ?_⟩
  · rintro ⟨bytes, written⟩
    cases shape : (v.degrade L).hasShape with
    | false => rfl
    | true =>
      rw [shape, RefusedIf, written] at refused
      cases refused
  · intro noShape
    rwa [noShape] at refused
  · intro shape
    rwa [shape] at refused
  · -- Within the limits there is nothing to put a reference for.
    intro within noShape
    have same := degrade_of_within within
    rw [same, noShape] at refused
    obtain ⟨bytes, written⟩ := refused
    rw [same] at back
    exact ⟨bytes, written, back bytes written within.listsWithin⟩

/-- A list that is met too deep, and an environment with too many bindings, are read back as
references. -/
theorem roundTrip_full_nested :
    ∃ bytes, (list none [list none [list none [null] none none] none none,
        environment "e" 7 [("x", ofStore (.raw [1])), ("y", null)]] none none).encode
          ⟨1, 2, 1⟩ .full = .ok bytes ∧
      decode ⟨1, 2, 1⟩ bytes = .ok (list none [list none [reference 0 (some "list")] none none,
        reference 7 (some "environment")] none none) := by
  obtain ⟨writable, -, back, -⟩ := roundTrip_full ⟨1, 2, 1⟩
    (list none [list none [list none [null] none none] none none,
      environment "e" 7 [("x", ofStore (.raw [1])), ("y", null)]] none none) (by decide +kernel)
  obtain ⟨bytes, written⟩ := writable.mpr rfl
  exact ⟨bytes, written, back bytes written (by decide +kernel)⟩

end Value

end EngineLink
