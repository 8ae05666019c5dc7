import EngineLink.Proofs.Value.Decoded
import EngineLink.Proofs.Value.RoundTrip

/-!
# What was read can be written and read again

The reader takes more than the writer makes: option bits that nobody knows, truth values other than
0 and 1, parts of complex numbers that do not agree. All of this is gone from its result. Each length
in the result was a count that the reader has accepted, so the writer can write it again; and each
node is within the limits, so the writer puts no reference. What comes out is read as the same value.

## Main definitions

* `Value.Rewritable` — what the writer needs of a node for its bytes to be read again

## Main results

* `Value.yields_getTree_rewritable` — all nodes of a tree that was read can be written again
* `Value.reencode_of_decode` — a value that was read is written and read again in the same mode
-/

namespace EngineLink

open Wire Reader

namespace Wire

/-! ### Counts -/

theorem yields_checkCount (what : String) (size : Nat) (n : Int32) :
    (checkCount what size n).Yields (· < countBound) := by
  rw [checkCount]
  split
  · exact .of_fail _
  · refine .skip fun _ => .of_pure ?_
    have bound : n.toInt < 2 ^ 31 := Int32.toInt_lt n
    show n.toInt.toNat < countBound
    unfold countBound
    omega

theorem yields_getCount (what : String) (size : Nat) :
    (getCount what size).Yields (· < countBound) :=
  .skip fun n => yields_checkCount what size n

theorem yields_getCount? (what : String) (size : Nat) :
    (getCount? what size).Yields fun o => ∀ n ∈ o, n < countBound := by
  refine .skip fun n => ?_
  split
  · exact .of_pure nofun
  · refine .map ((yields_checkCount what size n).mono fun n bound m hm => ?_)
    cases hm
    exact bound

/-- A counted sequence has as many elements as its count tells. -/
theorem yields_counted {α : Type} {r : Reader α} {P : α → Prop} (h : r.Yields P) (what : String)
    (size : Nat) :
    (getCount what size >>= r.times).Yields fun xs => xs.length < countBound ∧ ∀ x ∈ xs, P x := by
  refine (yields_getCount what size).bind fun n bound => (h.times n).mono fun xs read => ?_
  exact ⟨read.1 ▸ bound, read.2⟩

/-! ### Byte strings and texts -/

theorem yields_take (n : Nat) : (take n).Yields fun bytes => bytes.length = n := by
  intro input bytes rest accepted
  rw [take] at accepted
  split at accepted
  · cases accepted
  · cases accepted
    rw [List.length_take]
    omega

theorem yields_getBytes : getBytes.Yields fun bytes => bytes.length < countBound :=
  (yields_getCount "bytes" 1).bind fun n bound => (yields_take n).mono fun _ size => size ▸ bound

theorem utf8ByteSize_of_textOfBytes? {bytes : Bytes} {s : String} (h : textOfBytes? bytes = some s) :
    s.utf8ByteSize = bytes.length := by
  rw [textOfBytes?, String.fromUTF8?] at h
  split at h
  · cases h
    rfl
  · cases h

theorem yields_getTextOf (n : Nat) : (getTextOf n).Yields fun s => s.utf8ByteSize = n := by
  refine (yields_take n).bind fun bytes size => ?_
  cases known : textOfBytes? bytes with
  | none => exact .of_fail _
  | some s => exact .of_pure (by rw [utf8ByteSize_of_textOfBytes? known, size])

theorem yields_getText? : getText?.Yields fun s => Fits (textLengths? s) := by
  refine (yields_getCount? "string" 1).bind fun o bound => ?_
  cases o with
  | none => exact .of_pure fits_nil
  | some n =>
    refine .map ((yields_getTextOf n).mono fun s size => ?_)
    rw [textLengths?_some, fits_cons, size]
    exact ⟨bound n rfl, fits_nil⟩

theorem yields_getText : getText.Yields fun s => s.utf8ByteSize < countBound := by
  refine yields_getText?.bind fun o fits => ?_
  cases o with
  | none => exact .of_fail _
  | some s => exact .of_pure (fits_cons.mp fits).1

theorem yields_getTexts : getTexts.Yields fun ss => Fits (textsLengths ss) := by
  refine (yields_counted yields_getText? "string array" 4).mono fun ss read => ?_
  rw [textsLengths, fits_cons, fits_flatMap]
  exact read

theorem yields_getTexts? : getTexts?.Yields fun ss => Fits (textsLengths? ss) := by
  refine (yields_getCount? "string array" 4).bind fun o bound => ?_
  cases o with
  | none => exact .of_pure fits_nil
  | some n =>
    refine .map ((yields_getText?.times n).mono fun ss read => ?_)
    rw [textsLengths?_some, textsLengths, fits_cons, fits_flatMap, read.1]
    exact ⟨bound n rfl, read.2⟩

theorem yields_getInts : getInts.Yields fun xs => xs.length < countBound :=
  (yields_counted (.any getI32) "int array" 4).mono fun _ read => read.1

/-- What stands behind a tag is read without it. -/
theorem exists_of_getTag {α : Type} {what : String} {ofTag? : UInt8 → Option α} {input : Bytes}
    {x : α} {rest : Bytes} (h : getTag what ofTag? input = .ok (x, rest)) :
    ∃ t, input = t :: rest ∧ ofTag? t = some x := by
  obtain ⟨⟨t, left⟩, first, second⟩ := bind_eq_ok.mp h
  cases input with
  | nil => cases first
  | cons t bytes =>
    cases first
    cases known : ofTag? t with
    | none =>
      simp only [known] at second
      cases second
    | some y =>
      simp only [known] at second
      cases second
      exact ⟨t, rfl, known⟩

end Wire

/-! ### Stores -/

theorem Complex.yields_getAll (n : Nat) : (Complex.getAll n).Yields fun zs => zs.length = n := by
  refine ((Yields.any _).times n).bind fun res real => ?_
  refine ((Yields.any _).times n).bind fun ims imaginary => .of_pure ?_
  rw [List.length_zipWith, real.1, imaginary.1, Nat.min_self]

theorem Factor.yields_get : Factor.get.Yields fun f => Fits (Store.factor f).payloadLengths := by
  refine .skip fun n => .skip fun ordered => ?_
  refine (yields_getCount "factor levels" 4).bind fun m few => ?_
  refine (yields_getText.times m).bind fun levels read => ?_
  refine (yields_checkCount "factor" 4 n).bind fun n bound => ?_
  refine ((Yields.any _).times n).bind fun codes size => .of_pure ?_
  rw [Store.payloadLengths, fits_cons, fits_cons, size.1, read.1]
  exact ⟨bound, few, List.forall_mem_map.mpr read.2⟩

theorem yields_getLength (what : String) : (getLength what).Yields (· < countBound) :=
  .skip fun n => yields_checkCount what 0 n

theorem StoreShape.yields_get (kind : StoreKind) :
    (StoreShape.get kind).Yields fun s => Fits s.lengths ∧ s.Complete := by
  refine (yields_getLength "store").bind fun length bound => ?_
  cases kind with
  | factor =>
    refine .skip fun ordered => (yields_getLength "factor levels").bind fun levels few => ?_
    refine .of_pure ⟨?_, by simp [StoreShape.Complete]⟩
    simpa [StoreShape.lengths] using ⟨bound, few⟩
  | logical | integer | numeric | complex | character | raw =>
    refine .of_pure ⟨?_, by simp [StoreShape.Complete]⟩
    simpa [StoreShape.lengths] using bound

namespace Store

theorem yields_getElements_fits (kind : StoreKind) :
    (getElements kind).Yields fun s => Fits s.payloadLengths := by
  cases kind with
  | logical =>
    refine (yields_getCount "logical" 1).bind fun n bound => ?_
    refine .map (((Yields.any _).times n).mono fun xs read => ?_)
    simpa [payloadLengths, read.1] using bound
  | numeric =>
    refine (yields_getCount "numeric" 8).bind fun n bound => ?_
    refine .map (((Yields.any _).times n).mono fun xs read => ?_)
    simpa [payloadLengths, read.1] using bound
  | complex =>
    refine (yields_getCount "complex" 16).bind fun n bound => ?_
    refine .map ((Complex.yields_getAll n).mono fun zs size => ?_)
    simpa [payloadLengths, size] using bound
  | integer => exact .map (yields_getInts.mono fun xs bound => by simpa [payloadLengths] using bound)
  | raw => exact .map (yields_getBytes.mono fun xs bound => by simpa [payloadLengths] using bound)
  | character => exact .map yields_getTexts
  | factor => exact .map Factor.yields_get

/-- The lengths of a store that was read are counts, and a shape that was read is complete. -/
theorem yields_get_fits (mode : Coding) :
    (Store.get mode).Yields fun s =>
      Fits (s.lengths mode) ∧ (mode = .shape → s.outline.Complete) := by
  refine .skip fun kind => ?_
  cases mode with
  | full => exact (yields_getElements_fits kind).mono fun s fits => ⟨fits, nofun⟩
  | shape => exact .map ((StoreShape.yields_get kind).mono fun s h => ⟨h.1, fun _ => h.2⟩)

end Store

namespace Value

variable {L : Limits} {mode : Coding} {child : Reader Value} {depth : Nat}

/-! ### Nodes -/

theorem yields_getOptions : getOptions.Yields fun o => Fits (textLengths? o.2) := by
  refine .skip fun options => ?_
  refine (yields_getText.onlyIf _).bind fun cls bound => .of_pure ?_
  simpa [textLengths?, Fits] using bound

theorem yields_names (set : Bool) :
    (Reader.onlyIf set getTexts).Yields fun names => Fits (textsLengths? names) := by
  refine (yields_getTexts.onlyIf set).mono fun names fits => ?_
  cases names with
  | none => exact fits_nil
  | some ns => exact fits ns rfl

theorem yields_dimnames (set : Bool) :
    (Reader.onlyIf set do getTexts?.times (← getCount "dimnames" 4)).Yields fun dimnames =>
      Fits ((dimnames.map fun ns => ns.length :: ns.flatMap textsLengths?).getD []) := by
  refine ((yields_counted yields_getTexts? "dimnames" 4).onlyIf set).mono fun dimnames read => ?_
  cases dimnames with
  | none => exact fits_nil
  | some ns =>
    rw [Option.map_some, Option.getD_some, fits_cons, fits_flatMap]
    exact read ns rfl

theorem yields_getEntries_lt (what : String) (limit : Nat) :
    (getEntries what limit).Yields (· < countBound) := by
  refine (yields_getCount what 1).bind fun n bound => ?_
  split
  · exact .of_fail _
  · exact .of_pure bound

/-- The names of nested values are texts that were read, whatever the values are. -/
theorem yields_getPairs_fits (child : Reader Value) (what : String) (limit : Nat) :
    (getPairs child what limit).Yields fun pairs => Fits (pairLengths pairs) := by
  refine (yields_getEntries_lt what limit).bind fun n bound => ?_
  have named : (do return (← getText, ← child) : Reader (String × Value)).Yields
      fun p => p.1.utf8ByteSize < countBound :=
    yields_getText.bind fun name short => .skip fun v => .of_pure short
  refine (named.times n).mono fun pairs read => ?_
  rw [pairLengths, fits_cons, read.1]
  exact ⟨bound, List.forall_mem_map.mpr read.2⟩

theorem yields_getAttrs_fits (child : Reader Value) (options : UInt32) :
    (getAttrs L child options).Yields fun attrs => Fits (attrLengths attrs) := by
  refine ((yields_getPairs_fits child "attributes" L.maxList).onlyIf _).mono fun attrs fits => ?_
  cases attrs with
  | none => exact fits_nil
  | some pairs => exact fits pairs rfl

/-- What the writer needs of a node for its bytes to be read again. -/
structure Rewritable (mode : Coding) (v : Value) : Prop where
  fits : Fits (v.ownLengths mode)
  complete : mode = .shape → ∀ s ∈ v.store?, s.outline.Complete

/-- A node that was read can be written again, whatever the values in it are. -/
theorem yields_getNode_rewritable (child : Reader Value) (kind : ValueKind) :
    (getNode L mode child kind).Yields (Rewritable mode) := by
  cases kind with
  | null | missing => exact .of_pure ⟨fits_nil, nofun⟩
  | function | other =>
    refine .map (yields_getText.mono fun s short => ⟨?_, nofun⟩)
    simpa [ownLengths] using short
  | reference =>
    exact .skip fun handle => yields_getText?.bind fun cls fits => .of_pure ⟨fits, nofun⟩
  | vector =>
    refine yields_getOptions.bind fun o clsFits => ?_
    refine (Store.yields_get_fits mode).bind fun store stored => ?_
    refine (yields_names _).bind fun names namesFit => ?_
    refine (yields_getAttrs_fits child _).bind fun attrs attrsFit => .of_pure ⟨?_, ?_⟩
    · rw [ownLengths, fits_append, fits_append, fits_append]
      exact ⟨⟨⟨clsFits, stored.1⟩, namesFit⟩, attrsFit⟩
    · simpa [store?] using stored.2
  | array =>
    refine yields_getOptions.bind fun o clsFits => ?_
    refine yields_getInts.bind fun dim dimFits => ?_
    refine (Store.yields_get_fits mode).bind fun store stored => ?_
    refine (yields_dimnames _).bind fun dimnames namesFit => ?_
    refine (yields_getAttrs_fits child _).bind fun attrs attrsFit => .of_pure ⟨?_, ?_⟩
    · rw [ownLengths, fits_append, fits_append, fits_append, fits_cons]
      exact ⟨⟨⟨clsFits, dimFits, stored.1⟩, namesFit⟩, attrsFit⟩
    · simpa [store?] using stored.2
  | list =>
    refine yields_getOptions.bind fun o clsFits => ?_
    refine (yields_getEntries_lt _ _).bind fun n bound => ?_
    refine ((Yields.any child).times n).bind fun elements read => ?_
    refine (yields_names _).bind fun names namesFit => ?_
    refine (yields_getAttrs_fits child _).bind fun attrs attrsFit => .of_pure ⟨?_, nofun⟩
    rw [ownLengths, fits_append, fits_append, fits_cons, read.1]
    exact ⟨⟨clsFits, bound, namesFit⟩, attrsFit⟩
  | dataFrame =>
    refine yields_getOptions.bind fun o clsFits => ?_
    refine (yields_getEntries_lt _ _).bind fun n bound => ?_
    refine (yields_getLength "row count").bind fun rowCount rowsFit => ?_
    refine yields_getTexts.bind fun columnNames columnsFit => ?_
    refine (yields_names _).bind fun rowNames namesFit => ?_
    refine ((Yields.any child).times n).bind fun columns read => ?_
    refine (yields_getAttrs_fits child _).bind fun attrs attrsFit => .of_pure ⟨?_, nofun⟩
    rw [ownLengths, fits_append, fits_append, fits_append, fits_cons, fits_cons, read.1]
    exact ⟨⟨⟨clsFits, bound, rowsFit, columnsFit⟩, namesFit⟩, attrsFit⟩
  | environment =>
    refine .skip fun handle => yields_getText.bind fun name short => ?_
    refine (yields_getPairs_fits child _ _).bind fun bindings fits => .of_pure ⟨?_, nofun⟩
    exact fits_cons.mpr ⟨short, fits⟩
  | object =>
    refine yields_getText.bind fun cls short => ?_
    refine (yields_getPairs_fits child _ _).bind fun slots fits => .of_pure ⟨?_, nofun⟩
    exact fits_cons.mpr ⟨short, fits⟩

/-! ### Trees and values -/

/-- All nodes of a tree that was read can be written again. -/
theorem yields_getTree_rewritable (levels : Nat) (h : depth + levels = L.maxDepth + 1) :
    (getTree L mode levels).Yields fun v => ∀ p ∈ v.nodesAt depth, p.2.Rewritable mode :=
  yields_getTree_nodes (fun child kind _ _ => yields_getNode_rewritable child kind) levels h

/-- The first byte of what was read tells the mode of the tree behind it. -/
theorem exists_of_decode {bytes : Bytes} {v : Value} (accepted : decode L bytes = .ok v) :
    ∃ mode body, bytes = Coding.tag mode :: body ∧
      getTree L mode (L.maxDepth + 1) body = .ok (v, []) := by
  rw [decode, Reader.all] at accepted
  split at accepted
  · cases accepted
  · next read =>
    cases accepted
    obtain ⟨⟨mode, body⟩, first, second⟩ := bind_eq_ok.mp read
    obtain ⟨t, rfl, known⟩ := exists_of_getTag first
    have tag : Coding.tag mode = t := by simpa using List.find?_some known
    exact ⟨mode, body, by rw [tag], second⟩
  · cases accepted

theorem carried_eq_self {v : Value}
    (stores : ∀ p ∈ v.nodes, ∀ s ∈ p.2.store?, s.isShape = (mode == .shape)) :
    v.carried mode = v := by
  cases mode with
  | full => rfl
  | shape => exact (toShape_eq_self_iff v 0).mpr stores

/-- Whatever bytes are read as a value: the value is within the limits, its stores are shapes
exactly if the first byte tells so, its complex numbers are regular, and it is written in the same
mode and read again as itself. -/
theorem reencode_of_decode {bytes : Bytes} {v : Value} (accepted : decode L bytes = .ok v) :
    ∃ mode, bytes.head? = some (Coding.tag mode) ∧ v.Within L ∧
      (∀ p ∈ v.nodes, ∀ s ∈ p.2.store?, s.isShape = (mode == .shape)) ∧
      (∀ p ∈ v.nodes, ∀ zs, p.2.store? = some (.complex zs) →
        ∀ z ∈ zs, Complex.Regular z.re z.im) ∧
      ∃ out, v.encode L mode = .ok out ∧ decode L out = .ok v := by
  obtain ⟨mode, body, rfl, read⟩ := exists_of_decode accepted
  have sound : v.AcceptedAt L mode 0 :=
    yields_getTree _ (Nat.zero_add _) body v [] read
  have rewritable := yields_getTree_rewritable _ (Nat.zero_add _) body v [] read
  have within := sound.within
  have stores : ∀ p ∈ v.nodes, ∀ s ∈ p.2.store?, s.isShape = (mode == .shape) :=
    fun p hp => (sound p hp).stores
  -- There is nothing to put a reference for, so a shape in full mode is all the writer could refuse.
  have same := degrade_of_within within
  have writable : (mode == .full && v.hasShape) = false := by
    cases mode with
    | full => exact (hasShape_eq_false_iff v 0).mpr stores
    | shape => rfl
  obtain ⟨out, written⟩ : ∃ out, v.encode L mode = .ok out := by
    have refused := refusedIf_encode (L := L) mode v
    rwa [same, writable] at refused
  have fits : Fits ((v.degrade L).lengths mode) := by
    rw [same, lengths, fits_flatMap]
    exact fun p hp => (rewritable p hp).fits
  have back := (reads_put written fits (by rw [same]; exact within.listsWithin)
    fun shape => by rw [same]; exact fun p hp => (rewritable p hp).complete shape).all
  rw [same, carried_eq_self stores] at back
  exact ⟨mode, rfl, within, stores, fun p hp zs _ z hz => z.regular, out, written, back⟩

/-- A list with unknown option bits, of a complex number whose real part alone is no number and of a
factor whose order is told by the byte 7. -/
def looseBytes : Bytes :=
  [0x00, 0x12, 0x80, 0, 0, 0, 0, 0, 0, 2] ++
    [0x10, 0, 0, 0, 0x20, 4, 0, 0, 0, 1, 0x7F, 0xF0, 0, 0, 0, 0, 0, 1, 0x3F, 0xF0, 0, 0, 0, 0, 0, 0] ++
    [0x10, 0, 0, 0, 0, 10, 0, 0, 0, 1, 7, 0, 0, 0, 1, 0, 0, 0, 1, 0x61, 0, 0, 0, 1]

/-- Nothing of what is loose in the bytes is left in the value. -/
theorem reencode_of_decode_looseBytes :
    decode ⟨1, 2, 0⟩ looseBytes = .ok (list none
      [ofStore (.complex [.notNumber]), ofStore (.factor ⟨[1], ["a"], true⟩)] none none) ∧
    ∃ out, (list none [ofStore (.complex [.notNumber]), ofStore (.factor ⟨[1], ["a"], true⟩)]
        none none).encode ⟨1, 2, 0⟩ .full = .ok out ∧
      decode ⟨1, 2, 0⟩ out = decode ⟨1, 2, 0⟩ looseBytes := by
  have accepted : decode ⟨1, 2, 0⟩ looseBytes = .ok (list none
      [ofStore (.complex [.notNumber]), ofStore (.factor ⟨[1], ["a"], true⟩)] none none) := rfl
  obtain ⟨mode, head, -, -, -, out, written, back⟩ := reencode_of_decode accepted
  refine ⟨accepted, out, ?_, back.trans accepted.symm⟩
  cases mode with
  | full => exact written
  | shape => cases head

end Value

end EngineLink
