import Mathlib.Data.List.Induction
import EngineLink.Proofs.Debug.Hits
import EngineLink.Proofs.Debug.TracepointForms

/-!
# What an update does to a tracepoint

For one tracepoint, all that matters of an update are the entries about it: the last one tells the
state afterwards, and a deletion anywhere among them takes it out of every element of its file. None
of this looks at more of a deletion than its file and its number, so an update means the same after
it has been sent.

## Main definitions

* `TracepointUpdate.last?` — the last entry about a tracepoint
* `TracepointUpdate.deletes` — whether a deletion of it is among the entries

## Main results

* `Registry.state?_update`, `Registry.isInstalled_update` — what an update makes of a tracepoint
* `TracepointUpdate.means_same_when_read` — an update arrives as its normal form and does the same
-/

namespace EngineLink

open Wire Reader

/-- The last entry about a tracepoint. -/
def TracepointUpdate.last? (u : TracepointUpdate) (path : String) (id : Int64) :
    Option TracepointState :=
  u.states.reverse.find? (Registry.isAt path id)

/-- Whether an entry of an update deletes a tracepoint. -/
def TracepointUpdate.deletes (u : TracepointUpdate) (path : String) (id : Int64) : Bool :=
  u.states.any fun s => s.type == .deleted && Registry.isAt path id s

/-- What an entry tells of its tracepoint: the state, or that there is none any more. -/
def TracepointState.told? (s : TracepointState) : Option TracepointState :=
  if s.type = .deleted then none else some s

namespace Registry

variable {path elementId : String} {id : Int64}

/-! ### Looking up one tracepoint -/

theorem find?_insertState (s : TracepointState) (states : List TracepointState) :
    (insertState s states).find? (isAt path id) =
      if isAt path id s then some s else states.find? (isAt path id) := by
  induction states with
  | nil => cases h : isAt path id s <;> simp [insertState, h]
  | cons t rest ih =>
    rw [insertState]
    by_cases same : isAt s.filePath s.id t = true
    · -- The state that is replaced is about the same tracepoint.
      have about : isAt path id t = isAt path id s := by
        obtain ⟨file, number⟩ := isAt_iff.mp same
        rw [isAt, isAt, file, number]
      rw [if_pos same, List.find?_cons, List.find?_cons, about]
      cases isAt path id s <;> rfl
    rw [if_neg same]
    by_cases before : precedes s t = true
    · rw [if_pos before, List.find?_cons]
      cases isAt path id s <;> rfl
    rw [if_neg before, List.find?_cons, List.find?_cons, ih]
    cases about : isAt path id t with
    | false => rfl
    | true =>
      -- A state that is about the tracepoint comes first, so the new one is about another.
      obtain ⟨rfl, rfl⟩ := isAt_iff.mp about
      dsimp only
      rw [if_neg]
      intro this
      obtain ⟨file, number⟩ := isAt_iff.mp this
      exact same (isAt_iff.mpr ⟨file.symm, number.symm⟩)

theorem state?_remove (r : Registry) (file : String) (n : Int64) :
    (r.remove file n).state? path id =
      if file = path ∧ n = id then none else r.state? path id := by
  rw [state?, remove, List.find?_filter, state?]
  by_cases same : file = path ∧ n = id
  · rw [if_pos same]
    obtain ⟨rfl, rfl⟩ := same
    simp
  · rw [if_neg same]
    congr 1
    funext s
    -- A state that is about one tracepoint is not about the other.
    cases about : isAt path id s with
    | false => simp
    | true =>
      obtain ⟨rfl, rfl⟩ := isAt_iff.mp about
      have other : isAt file n s = false := by
        rw [Bool.eq_false_iff, Ne, isAt_iff]
        simpa [eq_comm] using same
      simp [other]

theorem lookup_map {α β : Type} [BEq α] [LawfulBEq α] (f : α → β → β) (a : α)
    (entries : List (α × β)) :
    (entries.map fun (key, x) => (key, f key x)).lookup a = (entries.lookup a).map (f a) := by
  induction entries with
  | nil => rfl
  | cons entry rest ih =>
    obtain ⟨key, x⟩ := entry
    rw [List.map_cons, List.lookup_cons, List.lookup_cons]
    cases same : a == key with
    | true =>
      rw [eq_of_beq same]
      rfl
    | false => exact ih

theorem isInstalled_remove (r : Registry) (file : String) (n : Int64) :
    (r.remove file n).isInstalled path elementId id =
      if file = path ∧ n = id then false else r.isInstalled path elementId id := by
  have lookup := lookup_map (fun (key : String × String) ids =>
    if key.1 == file then ids.filter (· != n) else ids) (path, elementId) r.installed
  rw [isInstalled, installedIn, remove]
  dsimp only at lookup ⊢
  rw [lookup, isInstalled, installedIn]
  cases r.installed.lookup (path, elementId) with
  | none => simp
  | some ids =>
    by_cases here : file = path
    · subst here
      by_cases number : n = id
      · subst number
        simp
      · have kept : id ≠ n := Ne.symm number
        simp [number, kept]
    · have there : path ≠ file := Ne.symm here
      simp [here, there]

/-! ### Updates -/

theorem state?_updateState (r : Registry) (s : TracepointState) :
    (r.updateState s).state? path id = if isAt path id s then s.told? else r.state? path id := by
  rw [updateState, TracepointState.told?]
  by_cases gone : s.type = .deleted
  · rw [if_pos gone, if_pos gone, state?_remove]
    simp only [isAt_iff]
  · rw [if_neg gone, if_neg gone]
    exact find?_insertState s r.states

theorem isInstalled_updateState (r : Registry) (s : TracepointState) :
    (r.updateState s).isInstalled path elementId id =
      if s.type == .deleted && isAt path id s then false
      else r.isInstalled path elementId id := by
  rw [updateState]
  by_cases gone : s.type = .deleted
  · rw [if_pos gone, isInstalled_remove]
    simp only [gone, beq_self_eq_true, Bool.true_and, isAt_iff]
  · rw [if_neg gone, if_neg (by simp [gone])]
    rfl

/-- Of an update only the last entry about a tracepoint tells its state. -/
theorem state?_update (r : Registry) (u : TracepointUpdate) :
    (r.update u).state? path id = match u.last? path id with
      | some s => s.told?
      | none => if u.reset then none else r.state? path id := by
  obtain ⟨reset, states⟩ := u
  rw [update, TracepointUpdate.last?]
  dsimp only
  -- The last entry is the first one to be looked at.
  induction states using List.reverseRecOn with
  | nil => cases reset <;> rfl
  | append_singleton states s ih =>
    rw [List.foldl_append, List.foldl_cons, List.foldl_nil, state?_updateState, ih,
      List.reverse_append, List.reverse_singleton, List.singleton_append, List.find?_cons]
    cases isAt path id s <;> rfl

/-- An update takes out of the elements what it deletes, and nothing else. -/
theorem isInstalled_update (r : Registry) (u : TracepointUpdate) :
    (r.update u).isInstalled path elementId id =
      if u.deletes path id then false else r.isInstalled path elementId id := by
  obtain ⟨reset, states⟩ := u
  rw [update, TracepointUpdate.deletes]
  dsimp only
  induction states using List.reverseRecOn with
  | nil => cases reset <;> rfl
  | append_singleton states s ih =>
    rw [List.foldl_append, List.foldl_cons, List.foldl_nil, isInstalled_updateState, ih,
      List.any_append, List.any_cons, List.any_nil, Bool.or_false]
    cases s.type == .deleted && isAt path id s <;> simp

/-- Of a deletion only the file and the number matter. -/
theorem updateState_normalize (r : Registry) (s : TracepointState) :
    r.updateState s.normalize = r.updateState s := by
  rw [TracepointState.normalize]
  split_ifs with gone
  · rw [updateState, updateState, if_pos gone]
    rfl
  · rfl

end Registry

namespace TracepointUpdate

/-- An update does the same as its normal form. -/
theorem update_normalize (r : Registry) (u : TracepointUpdate) :
    r.update u.normalize = r.update u := by
  rw [Registry.update, Registry.update, normalize, List.foldl_map]
  simp only [Registry.updateState_normalize]

/-- Whatever follows it, an update is read up to its end, with the deletions reduced to file and
number, and it makes of every registry what the update that was sent makes of it. -/
theorem means_same_when_read {u : TracepointUpdate} (fits : Fits u.lengths) (rest : Bytes) :
    ∃ v : TracepointUpdate,
      (WireForm.get : Reader TracepointUpdate) (WireForm.put u ++ rest) = .ok (v, rest) ∧
        v.reset = u.reset ∧
        v.states = u.states.map
          (fun s => if s.type = .deleted then .deleted s.filePath s.id else s) ∧
        ∀ r : Registry, r.update v = r.update u :=
  ⟨u.normalize, reads_get fits rest, rfl, rfl, fun r => update_normalize r u⟩

/-- Two states of one element, with a deletion in another file between them. -/
def interleaved : TracepointUpdate :=
  ⟨false, [⟨.lineBreakpoint, 1, "a", "f", [1], none, TracepointFlag.enabled, none⟩,
    ⟨.deleted, 2, "b", "g", [2], some "x", TracepointFlag.enabled, some "y"⟩,
    ⟨.lineBreakpoint, 3, "a", "f", [3], none, TracepointFlag.enabled, none⟩]⟩

/-- The state after the deletion is read as one of the first file and its element. -/
theorem means_same_when_read_interleaved :
    Fits interleaved.lengths ∧
      ∃ v : TracepointUpdate,
        (WireForm.get : Reader TracepointUpdate) (WireForm.put interleaved ++ [0xff]) =
            .ok (v, [0xff]) ∧
          v.reset = false ∧
          v.states = [⟨.lineBreakpoint, 1, "a", "f", [1], none, TracepointFlag.enabled, none⟩,
            .deleted "b" 2,
            ⟨.lineBreakpoint, 3, "a", "f", [3], none, TracepointFlag.enabled, none⟩] ∧
          ∀ r : Registry, r.update v = r.update interleaved := by
  have fits : Fits interleaved.lengths := by decide +kernel
  exact ⟨fits, means_same_when_read fits [0xff]⟩

end TracepointUpdate

end EngineLink
