import EngineLink.Proofs.Value.Decoded

/-!
# A larger limit on lists

The limit on lists matters to the reader only, and only where it checks a number of entries. So two
readers whose limits differ in nothing else agree, except where the one with the smaller limit
refuses a number of entries.

## Main definitions

* `Reader.AgreesUpTo` — a reader agrees with another one, or refuses a number of entries
* `Limits.withLists` — limits with another limit on lists

## Main results

* `Value.encode_withLists` — the limit on lists does not matter to the writer
* `Value.decode_withLists` — reading agrees with reading under a larger limit on lists, or refuses
  a number of entries
-/

namespace EngineLink

namespace Reader

variable {α β : Type} {limit : Nat} {r r' : Reader α} {f f' : α → Reader β}

/-- The reader agrees with another one, or refuses a number of entries that is beyond `limit`. -/
def AgreesUpTo (limit : Nat) (r r' : Reader α) : Prop :=
  ∀ input, r input = r' input ∨ ∃ what n rest, r input = .error ⟨.overLimit what n limit, rest⟩

namespace AgreesUpTo

theorem refl (r : Reader α) : r.AgreesUpTo limit r := fun _ => .inl rfl

theorem bind (h : r.AgreesUpTo limit r') (h' : ∀ x, (f x).AgreesUpTo limit (f' x)) :
    (r >>= f).AgreesUpTo limit (r' >>= f') := by
  intro input
  rcases h input with same | ⟨what, n, rest, refused⟩
  · -- The first parts agree, so the second parts start from the same bytes.
    cases first : r' input with
    | error refusal =>
      left
      show (do let p ← r input; f p.1 p.2) = (do let p ← r' input; f' p.1 p.2)
      rw [same, first]
      rfl
    | ok p =>
      have step : (r >>= f) input = f p.1 p.2 ∧ (r' >>= f') input = f' p.1 p.2 := by
        constructor
        · show (do let p ← r input; f p.1 p.2) = _
          rw [same, first]
          rfl
        · show (do let p ← r' input; f' p.1 p.2) = _
          rw [first]
          rfl
      rw [step.1, step.2]
      exact h' p.1 p.2
  · right
    refine ⟨what, n, rest, ?_⟩
    show (do let p ← r input; f p.1 p.2) = _
    rw [refused]
    rfl

/-- What comes before is the same. -/
theorem after (r : Reader α) (h : ∀ x, (f x).AgreesUpTo limit (f' x)) :
    (r >>= f).AgreesUpTo limit (r >>= f') :=
  (refl r).bind h

/-- What is made of the result is the same. -/
theorem before (h : r.AgreesUpTo limit r') (f : α → Reader β) :
    (r >>= f).AgreesUpTo limit (r' >>= f) :=
  h.bind fun x => refl (f x)

theorem onlyIf (h : r.AgreesUpTo limit r') (present : Bool) :
    (r.onlyIf present).AgreesUpTo limit (r'.onlyIf present) := by
  cases present with
  | false => exact refl _
  | true =>
    simp only [Reader.onlyIf, if_pos, map_eq_pure_bind]
    exact h.before _

theorem times (h : r.AgreesUpTo limit r') (n : Nat) :
    (r.times n).AgreesUpTo limit (r'.times n) := by
  induction n with
  | zero => exact refl _
  | succ n ih => exact h.bind fun x => ih.before _

end AgreesUpTo

end Reader

/-- The limits with another limit on lists. -/
def Limits.withLists (L : Limits) (limit : Nat) : Limits := { L with maxList := limit }

namespace Value

open Wire Reader

variable {L : Limits} {mode : Coding} {child child' : Reader Value} {limit : Nat}

/-! ### Reading -/

theorem getEntries_agrees (what : String) {small large : Nat} (h : small ≤ large) :
    (getEntries what small).AgreesUpTo small (getEntries what large) := by
  apply AgreesUpTo.after
  intro n input
  -- Beyond the small limit the first reader refuses. Within it neither does.
  by_cases excess : small < n
  · rw [if_pos excess]
    exact .inr ⟨what, n, input, rfl⟩
  · have within : ¬ large < n := by omega
    rw [if_neg excess, if_neg within]
    exact .inl rfl

theorem getPairs_agrees (h : child.AgreesUpTo limit child') {small large : Nat}
    (entries : ∀ what, (getEntries what small).AgreesUpTo limit (getEntries what large))
    (what : String) :
    (getPairs child what small).AgreesUpTo limit (getPairs child' what large) := by
  apply (entries what).bind
  intro n
  exact AgreesUpTo.times (.after _ fun name => h.before _) n

theorem getAttrs_agrees (h : child.AgreesUpTo L.maxList child') (larger : L.maxList ≤ limit)
    (options : UInt32) :
    (getAttrs L child options).AgreesUpTo L.maxList (getAttrs (L.withLists limit) child' options) :=
  (getPairs_agrees h (fun what => getEntries_agrees what larger) _).onlyIf _

/-- A node is read as under a larger limit on lists, if the values in it are. -/
theorem getNode_agrees (h : child.AgreesUpTo L.maxList child') (larger : L.maxList ≤ limit)
    (kind : ValueKind) :
    (getNode L mode child kind).AgreesUpTo L.maxList
      (getNode (L.withLists limit) mode child' kind) := by
  cases kind with
  | null | missing | function | reference | other => exact .refl _
  | vector =>
    apply AgreesUpTo.after
    intro options
    apply AgreesUpTo.after
    intro store
    apply AgreesUpTo.after
    intro names
    exact (getAttrs_agrees h larger _).before _
  | array =>
    apply AgreesUpTo.after
    intro options
    apply AgreesUpTo.after
    intro dim
    apply AgreesUpTo.after
    intro store
    apply AgreesUpTo.after
    intro dimnames
    exact (getAttrs_agrees h larger _).before _
  | list =>
    apply AgreesUpTo.after
    intro options
    apply (getEntries_agrees _ larger).bind
    intro n
    apply (h.times n).bind
    intro elements
    apply AgreesUpTo.after
    intro names
    exact (getAttrs_agrees h larger _).before _
  | dataFrame =>
    apply AgreesUpTo.after
    intro options
    apply (getEntries_agrees _ larger).bind
    intro n
    apply AgreesUpTo.after
    intro rowCount
    apply AgreesUpTo.after
    intro columnNames
    apply AgreesUpTo.after
    intro rowNames
    apply (h.times n).bind
    intro columns
    exact (getAttrs_agrees h larger _).before _
  | environment =>
    apply AgreesUpTo.after
    intro handle
    apply AgreesUpTo.after
    intro name
    -- Bindings have a limit of their own, which is the same on both sides.
    exact (getPairs_agrees h (fun what => .refl _) _).before _
  | object =>
    apply AgreesUpTo.after
    intro cls
    exact (getPairs_agrees h (fun what => getEntries_agrees what larger) _).before _

theorem getTree_agrees (larger : L.maxList ≤ limit) (levels : Nat) :
    (getTree L mode levels).AgreesUpTo L.maxList (getTree (L.withLists limit) mode levels) := by
  -- The values in a node are read with one level less. With none left, only leaves are read.
  induction levels with
  | zero =>
    apply AgreesUpTo.after
    intro t
    split
    · next kind known =>
      by_cases leaf : kind.isLeaf = true
      · rw [if_pos leaf, if_pos leaf]
        exact getNode_agrees (.refl _) larger kind
      · rw [if_neg leaf, if_neg leaf]
        exact .refl _
    · exact .refl _
  | succ levels ih => exact .after _ fun kind => getNode_agrees ih larger kind

/-- Reading agrees with reading under a larger limit on lists, or refuses a number of entries. -/
theorem decode_withLists (larger : L.maxList ≤ limit) (bytes : Bytes) :
    decode L bytes = decode (L.withLists limit) bytes ∨
      ∃ what n, decode L bytes = .error (.overLimit what n L.maxList) := by
  have agrees : (get L).AgreesUpTo L.maxList (get (L.withLists limit)) :=
    .after _ fun mode => getTree_agrees larger _
  rcases agrees bytes with same | ⟨what, n, rest, refused⟩
  · left
    rw [decode, decode, Reader.all, Reader.all, same]
  · right
    refine ⟨what, n, ?_⟩
    rw [decode, Reader.all, refused]

/-! ### Writing -/

mutual

theorem putNode_withLists (v : Value) (depth : Nat) :
    putNode (L.withLists limit) mode depth v = putNode L mode depth v := by
  cases v with
  | null | missing | function | reference | other => rfl
  | vector cls store names attrs | array cls store dim dimnames attrs =>
    rw [putNode, putNode, putAttrs_withLists attrs]
    rfl
  | list cls vs names attrs | dataFrame cls vs columnNames rowCount rowNames attrs =>
    rw [putNode, putNode, putNodes_withLists vs, putAttrs_withLists attrs]
    rfl
  | environment name handle pairs | object cls pairs =>
    rw [putNode, putNode, putPairs_withLists pairs]
    rfl

theorem putNodes_withLists (vs : List Value) (depth : Nat) :
    putNodes (L.withLists limit) mode depth vs = putNodes L mode depth vs := by
  cases vs with
  | nil => rfl
  | cons v vs => simp only [putNodes, putNode_withLists v, putNodes_withLists vs]

theorem putPairs_withLists (pairs : List (String × Value)) (depth : Nat) :
    putPairs (L.withLists limit) mode depth pairs = putPairs L mode depth pairs := by
  cases pairs with
  | nil => rfl
  | cons pair pairs =>
    simp only [putPairs, putNode_withLists pair.2, putPairs_withLists pairs]

theorem putAttrs_withLists (attrs : Option (List (String × Value))) (depth : Nat) :
    putAttrs (L.withLists limit) mode depth attrs = putAttrs L mode depth attrs := by
  cases attrs with
  | none => rfl
  | some pairs => simp only [putAttrs, putPairs_withLists pairs]

end

/-- The limit on lists does not matter to the writer. -/
theorem encode_withLists (limit : Nat) (v : Value) :
    v.encode (L.withLists limit) mode = v.encode L mode := by
  rw [encode, encode, put, put, putNode_withLists]

end Value

end EngineLink
