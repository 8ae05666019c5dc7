import EngineLink.Proofs.Value.Nodes
import EngineLink.Value.Form

/-!
# What the reader of values accepts

Whatever bytes the reader is given: if it accepts them, no node of its result is beyond the limits,
and all stores in it travelled in the mode that the first byte tells. The reader counts levels down
while the depth of the nodes goes up; below the last level it accepts only leaves.

## Main definitions

* `Reader.Yields` — whatever a reader accepts has a property
* `Value.Accepted` — what the reader makes sure of at one node

## Main results

* `Value.yields_getNode_nodes` — all nodes below a node come from the reader of the values in it
* `Value.yields_getTree_nodes` — what holds of each node that can be read holds of all of a tree
* `Value.yields_getTree` — all nodes of a tree that was read are accepted at their depths
* `Value.within_of_decode` — a value that was read is within the limits
-/

namespace EngineLink

namespace Reader

variable {α β : Type} {r : Reader α} {f : α → Reader β} {P : α → Prop} {Q : β → Prop} {x : α}

/-- Whatever the reader accepts satisfies `P`. -/
def Yields (r : Reader α) (P : α → Prop) : Prop :=
  ∀ input x rest, r input = .ok (x, rest) → P x

namespace Yields

theorem of_pure (h : P x) : (pure x : Reader α).Yields P := by
  intro input y rest accepted
  cases accepted
  exact h

theorem of_fail (fault : WireFault) : (fail fault : Reader α).Yields P := by
  intro input y rest accepted
  cases accepted

theorem mono {P' : α → Prop} (h : r.Yields P) (h' : ∀ x, P x → P' x) : r.Yields P' :=
  fun input x rest accepted => h' x (h input x rest accepted)

theorem and {P' : α → Prop} (h : r.Yields P) (h' : r.Yields P') :
    r.Yields fun x => P x ∧ P' x :=
  fun input x rest accepted => ⟨h input x rest accepted, h' input x rest accepted⟩

/-- Nothing is known of what was read. -/
theorem any (r : Reader α) : r.Yields fun _ => True := fun _ _ _ _ => trivial

theorem bind (h : r.Yields P) (h' : ∀ x, P x → (f x).Yields Q) : (r >>= f).Yields Q := by
  intro input y rest accepted
  obtain ⟨⟨x, left⟩, first, second⟩ := bind_eq_ok.mp accepted
  exact h' x (h input x left first) left y rest second

/-- A part of which nothing has to be known. -/
theorem skip (h : ∀ x, (f x).Yields Q) : (r >>= f).Yields Q :=
  (any r).bind fun x _ => h x

theorem map {g : α → β} (h : r.Yields fun x => Q (g x)) : (g <$> r).Yields Q := by
  rw [map_eq_pure_bind]
  exact h.bind fun x hx => .of_pure hx

theorem onlyIf (h : r.Yields P) (present : Bool) :
    (r.onlyIf present).Yields fun o => ∀ x ∈ o, P x := by
  cases present with
  | false => exact .of_pure nofun
  | true =>
    apply map
    intro input x rest accepted y hy
    cases hy
    exact h input x rest accepted

theorem times (h : r.Yields P) (n : Nat) :
    (r.times n).Yields fun xs => xs.length = n ∧ ∀ x ∈ xs, P x := by
  induction n with
  | zero => exact .of_pure ⟨rfl, nofun⟩
  | succ n ih =>
    refine h.bind fun x hx => ih.bind fun xs hxs => .of_pure ?_
    exact ⟨congrArg (· + 1) hxs.1, List.forall_mem_cons.mpr ⟨hx, hxs.2⟩⟩

theorem all {input : Bytes} (h : r.Yields P) (accepted : r.all input = .ok x) : P x := by
  rw [Reader.all] at accepted
  split at accepted
  · cases accepted
  · next read =>
    cases accepted
    exact h input x [] read
  · cases accepted

end Yields

end Reader

open Wire Reader

/-! ### Stores -/

theorem Store.yields_getElements (kind : StoreKind) :
    (Store.getElements kind).Yields fun s => s.isShape = false := by
  cases kind with
  | logical | numeric | complex => exact .skip fun _ => .map fun _ _ _ _ => rfl
  | integer | character | raw | factor => exact .map fun _ _ _ _ => rfl

/-- A store that was read is a shape exactly in shape mode. -/
theorem Store.yields_get (mode : Coding) :
    (Store.get mode).Yields fun s => s.isShape = (mode == .shape) := by
  refine .skip fun kind => ?_
  cases mode with
  | shape => exact .map fun _ _ _ _ => rfl
  | full => exact Store.yields_getElements kind

namespace Value

variable {L : Limits} {mode : Coding} {child : Reader Value} {depth : Nat}

/-! ### Nodes -/

/-- What the reader makes sure of at a node that it meets at depth `depth`. -/
structure Accepted (L : Limits) (mode : Coding) (depth : Nat) (v : Value) : Prop where
  /-- Only leaves are met below the deepest level. -/
  shallow : v.isLeaf ∨ depth ≤ L.maxDepth
  entries : ∀ n ∈ v.entryCounts, n ≤ L.maxList
  bindings : ∀ n ∈ v.bindingCounts, n ≤ L.maxEnv
  /-- The store is a shape exactly in shape mode. -/
  stores : ∀ s ∈ v.store?, s.isShape = (mode == .shape)

/-- All nodes of a value that is met at depth `depth` are accepted. -/
def AcceptedAt (L : Limits) (mode : Coding) (depth : Nat) (v : Value) : Prop :=
  ∀ p ∈ v.nodesAt depth, p.2.Accepted L mode p.1

theorem yields_getEntries (what : String) (limit : Nat) :
    (getEntries what limit).Yields (· ≤ limit) := by
  refine .skip fun n => ?_
  by_cases large : limit < n
  · rw [if_pos large]
    exact .of_fail _
  · rw [if_neg large]
    exact .of_pure (Nat.le_of_not_lt large)

section

variable {P : Value → Prop}

theorem yields_getPairs (h : child.Yields P) (what : String) (limit : Nat) :
    (getPairs child what limit).Yields fun pairs =>
      pairs.length ≤ limit ∧ ∀ pair ∈ pairs, P pair.2 := by
  refine (yields_getEntries what limit).bind fun n bounded => ?_
  have pair : (do return (← getText, ← child) : Reader (String × Value)).Yields fun p => P p.2 :=
    .skip fun _ => h.bind fun _ hv => .of_pure hv
  intro input pairs rest accepted
  obtain ⟨count, named⟩ := pair.times n input pairs rest accepted
  exact ⟨count ▸ bounded, named⟩

theorem yields_getAttrs (h : child.Yields P) (options : UInt32) :
    (getAttrs L child options).Yields fun attrs =>
      ∀ pairs ∈ attrs, pairs.length ≤ L.maxList ∧ ∀ pair ∈ pairs, P pair.2 :=
  (yields_getPairs h "attributes" L.maxList).onlyIf _

end

section

variable {P : Nat × Value → Prop}

/-- All nodes below a node that was read come from the reader of the values in it. -/
theorem yields_getNode_nodes (inner : child.Yields fun v => ∀ p ∈ v.nodesAt (depth + 1), P p)
    (kind : ValueKind) :
    (getNode L mode child kind).Yields fun v => P (depth, v) → ∀ p ∈ v.nodesAt depth, P p := by
  have single {v : Value} (leaf : v.isLeaf = true) (own : P (depth, v)) :
      ∀ p ∈ v.nodesAt depth, P p := by
    cases v with
    | null | missing | function | reference | other =>
      rw [nodesAt, List.forall_mem_cons]
      exact ⟨own, List.forall_mem_nil _⟩
    | vector | array | list | dataFrame | environment | object => cases leaf
  cases kind with
  | null | missing => exact .of_pure (single rfl)
  | function | other => exact .map fun _ _ _ _ => single rfl
  | reference => exact .skip fun _ => .skip fun _ => .of_pure (single rfl)
  | vector =>
    refine .skip fun _ => .skip fun store => .skip fun _ => ?_
    refine (yields_getAttrs inner _).bind fun attrs below => .of_pure fun own => ?_
    rw [nodesAt, List.forall_mem_cons, forall_mem_nodesOfAttrs]
    exact ⟨own, fun pairs given => (below pairs given).2⟩
  | array =>
    refine .skip fun _ => .skip fun dim => .skip fun store => .skip fun _ => ?_
    refine (yields_getAttrs inner _).bind fun attrs below => .of_pure fun own => ?_
    rw [nodesAt, List.forall_mem_cons, forall_mem_nodesOfAttrs]
    exact ⟨own, fun pairs given => (below pairs given).2⟩
  | list =>
    refine .skip fun _ => .skip fun n => ?_
    refine (inner.times n).bind fun elements read => .skip fun _ => ?_
    refine (yields_getAttrs inner _).bind fun attrs below => .of_pure fun own => ?_
    rw [nodesAt, List.forall_mem_cons, List.forall_mem_append, forall_mem_nodesOfList,
      forall_mem_nodesOfAttrs]
    exact ⟨own, read.2, fun pairs given => (below pairs given).2⟩
  | dataFrame =>
    refine .skip fun _ => .skip fun n => .skip fun _ => .skip fun _ => .skip fun _ => ?_
    refine (inner.times n).bind fun columns read => ?_
    refine (yields_getAttrs inner _).bind fun attrs below => .of_pure fun own => ?_
    rw [nodesAt, List.forall_mem_cons, List.forall_mem_append, forall_mem_nodesOfList,
      forall_mem_nodesOfAttrs]
    exact ⟨own, read.2, fun pairs given => (below pairs given).2⟩
  | environment =>
    refine .skip fun handle => .skip fun name => ?_
    refine (yields_getPairs inner _ _).bind fun bindings read => .of_pure fun own => ?_
    rw [nodesAt, List.forall_mem_cons, forall_mem_nodesOfPairs]
    exact ⟨own, read.2⟩
  | object =>
    refine .skip fun cls => ?_
    refine (yields_getPairs inner _ _).bind fun slots read => .of_pure fun own => ?_
    rw [nodesAt, List.forall_mem_cons, forall_mem_nodesOfPairs]
    exact ⟨own, read.2⟩

end

/-- A node is accepted if its depth is, or if it is a leaf, whatever the values in it are. -/
theorem yields_getNode_accepted (child : Reader Value) (kind : ValueKind)
    (met : kind.isLeaf = true ∨ depth ≤ L.maxDepth) :
    (getNode L mode child kind).Yields (Accepted L mode depth) := by
  have shallow (inner : kind.isLeaf = false) : depth ≤ L.maxDepth :=
    met.resolve_left (by simp [inner])
  have attributed (options : UInt32) : (getAttrs L child options).Yields fun attrs =>
      ∀ n ∈ attrs.toList.map List.length, n ≤ L.maxList :=
    (yields_getAttrs (.any child) options).mono fun attrs read => by
      simpa using fun pairs given => (read pairs given).1
  -- Nothing is counted in a leaf, and it has no store.
  have single {v : Value} (leaf : v.isLeaf = true) : v.Accepted L mode depth := by
    cases v with
    | null | missing | function | reference | other =>
      exact ⟨.inl leaf, List.forall_mem_nil _, List.forall_mem_nil _, by simp [store?]⟩
    | vector | array | list | dataFrame | environment | object => cases leaf
  cases kind with
  | null | missing => exact .of_pure (single rfl)
  | function | other => exact .map fun _ _ _ _ => single rfl
  | reference => exact .skip fun _ => .skip fun _ => .of_pure (single rfl)
  | vector =>
    refine .skip fun _ => (Store.yields_get mode).bind fun store stored => .skip fun _ => ?_
    refine (attributed _).bind fun attrs few => .of_pure ?_
    exact ⟨.inr (shallow rfl), few, List.forall_mem_nil _, by simpa [store?] using stored⟩
  | array =>
    refine .skip fun _ => .skip fun _ => (Store.yields_get mode).bind fun store stored => ?_
    refine .skip fun _ => (attributed _).bind fun attrs few => .of_pure ?_
    exact ⟨.inr (shallow rfl), few, List.forall_mem_nil _, by simpa [store?] using stored⟩
  | list =>
    refine .skip fun _ => (yields_getEntries _ _).bind fun n bounded => ?_
    refine ((Yields.any child).times n).bind fun elements read => .skip fun _ => ?_
    refine (attributed _).bind fun attrs few => .of_pure ?_
    refine ⟨.inr (shallow rfl), ?_, List.forall_mem_nil _, by simp [store?]⟩
    rw [entryCounts, List.forall_mem_cons, read.1]
    exact ⟨bounded, few⟩
  | dataFrame =>
    refine .skip fun _ => (yields_getEntries _ _).bind fun n bounded => ?_
    refine .skip fun _ => .skip fun _ => .skip fun _ => ?_
    refine ((Yields.any child).times n).bind fun columns read => ?_
    refine (attributed _).bind fun attrs few => .of_pure ?_
    refine ⟨.inr (shallow rfl), ?_, List.forall_mem_nil _, by simp [store?]⟩
    rw [entryCounts, List.forall_mem_cons, read.1]
    exact ⟨bounded, few⟩
  | environment =>
    refine .skip fun _ => .skip fun _ => ?_
    refine (yields_getPairs (.any child) _ _).bind fun bindings read => .of_pure ?_
    exact ⟨.inr (shallow rfl), List.forall_mem_nil _, by simpa [bindingCounts] using read.1,
      by simp [store?]⟩
  | object =>
    refine .skip fun _ => ?_
    refine (yields_getPairs (.any child) _ _).bind fun slots read => .of_pure ?_
    exact ⟨.inr (shallow rfl), by simpa [entryCounts] using read.1, List.forall_mem_nil _,
      by simp [store?]⟩

/-! ### Trees and values -/

/-- What holds of every node that can be read at a depth, whatever the values in it are, holds of
all nodes of a tree that was read. -/
theorem yields_getTree_nodes {P : Nat × Value → Prop}
    (own : ∀ child kind depth, (kind.isLeaf = true ∨ depth ≤ L.maxDepth) →
      (getNode L mode child kind).Yields fun v => P (depth, v))
    (levels : Nat) (h : depth + levels = L.maxDepth + 1) :
    (getTree L mode levels).Yields fun v => ∀ p ∈ v.nodesAt depth, P p := by
  have step {child : Reader Value} {kind : ValueKind} {depth : Nat}
      (met : kind.isLeaf = true ∨ depth ≤ L.maxDepth)
      (inner : child.Yields fun v => ∀ p ∈ v.nodesAt (depth + 1), P p) :
      (getNode L mode child kind).Yields fun v => ∀ p ∈ v.nodesAt depth, P p :=
    ((yields_getNode_nodes inner kind).and (own child kind depth met)).mono fun v h => h.1 h.2
  -- Depth and levels that are left sum up to the same all the way down, so where none is left the
  -- depth is beyond the limit, and only leaves are read.
  induction levels generalizing depth with
  | zero =>
    refine .skip fun t => ?_
    split
    · next kind known =>
      by_cases leaf : kind.isLeaf = true
      · rw [if_pos leaf]
        -- A leaf has no values in it, so the reader of these is never run.
        refine step (.inl leaf) (.of_pure ?_)
        rw [nodesAt, List.forall_mem_singleton]
        exact own (pure null) .null (depth + 1) (.inl rfl) [] null [] rfl
      · rw [if_neg leaf]
        exact .of_fail _
    · exact .of_fail _
  | succ levels ih =>
    refine .skip fun kind => step (.inr (by omega)) (ih ?_)
    omega

/-- All nodes of a tree that was read are accepted at their depths. -/
theorem yields_getTree (levels : Nat) (h : depth + levels = L.maxDepth + 1) :
    (getTree L mode levels).Yields (AcceptedAt L mode depth) :=
  yields_getTree_nodes (fun child kind _ met => yields_getNode_accepted child kind met) levels h

/-- A value that was read is accepted in the mode of its first byte. -/
theorem yields_get (L : Limits) :
    (Value.get L).Yields fun v => ∃ mode, v.AcceptedAt L mode 0 := by
  refine .skip fun mode => ?_
  intro input v rest accepted
  exact ⟨mode, yields_getTree _ (Nat.zero_add _) input v rest accepted⟩

theorem AcceptedAt.within {v : Value} (h : v.AcceptedAt L mode 0) : v.Within L := by
  intro p hp
  exact ⟨(h p hp).shallow, (h p hp).entries, (h p hp).bindings⟩

theorem yields_get_within (L : Limits) : (Value.get L).Yields (Within L) := by
  intro input v rest accepted
  obtain ⟨mode, sound⟩ := yields_get L input v rest accepted
  exact sound.within

/-- A value that was read is within the limits. -/
theorem within_of_decode {bytes : Bytes} {v : Value} (accepted : decode L bytes = .ok v) :
    v.Within L :=
  (yields_get_within L).all accepted

end Value

end EngineLink
