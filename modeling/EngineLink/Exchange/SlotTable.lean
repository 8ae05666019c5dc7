import EngineLink.ClientId
import EngineLink.Message.Item

/-!
# The slots of an exchange

Each slot has at most one client. Its requests wait in one queue, what it is to get waits in
another, and at most one of its calls waits for the latter.

## Main definitions

* `SlotState` — the queues and the client of a slot
* `SlotTable` — the slots in the order of their numbers

## Main results

* `SlotTable.lookup_insert` — setting a slot changes no other slot
* `SlotTable.get_of_find?` — the entry that a search finds is the state of its slot
* `SlotTable.nodup_filter` — a search lists no slot twice
-/

namespace EngineLink

/-- A call of a client, named by a number. -/
abbrev CallId := Nat

/-- The queues and the client of a slot. -/
structure SlotState where
  /-- Requests of the client that the engine has not got yet. -/
  inbound : List Item := []
  /-- Items that the client has not got yet. -/
  outbound : List Item := []
  /-- Whether the engine is executing a request of the client. -/
  executing : Bool := false
  /-- The call that waits for items. -/
  waiter : Option CallId := none
  /-- The attached client. -/
  client : Option ClientId := none
  /-- What the client was last told about the engine being busy. -/
  clientBusy : Option Bool := none

/-- The slots that have been used, in the order of their numbers. -/
structure SlotTable where
  /-- The slots with their states. -/
  entries : List (SlotId × SlotState) := []
  /-- No slot comes twice, and lower ones come first. -/
  ordered : entries.Pairwise (·.1 < ·.1) := by exact .nil

namespace SlotTable

/-- The state of a slot. A slot that has not been used is empty. -/
def get (t : SlotTable) (s : SlotId) : SlotState := (t.entries.lookup s).getD {}

/-- Put an entry into an ordered list, in place of the one with the same number. -/
def insert (s : SlotId) (state : SlotState) :
    List (SlotId × SlotState) → List (SlotId × SlotState)
  | [] => [(s, state)]
  | (t, old) :: rest =>
    if s == t then (s, state) :: rest
    else if s < t then (s, state) :: (t, old) :: rest
    else (t, old) :: insert s state rest

theorem mem_insert {s : SlotId} {state : SlotState} {entries : List (SlotId × SlotState)}
    {e : SlotId × SlotState} (h : e ∈ insert s state entries) :
    e = (s, state) ∨ e ∈ entries := by
  induction entries with
  | nil => exact .inl (List.mem_singleton.mp h)
  | cons first rest ih =>
    rw [insert] at h
    split at h
    · exact (List.mem_cons.mp h).imp_right (List.mem_cons_of_mem _)
    · split at h
      · exact List.mem_cons.mp h
      · rcases List.mem_cons.mp h with rfl | h
        · exact .inr List.mem_cons_self
        · exact (ih h).imp_right (List.mem_cons_of_mem _)

/-- Putting an entry into an ordered list keeps the order. -/
theorem ordered_insert (s : SlotId) (state : SlotState) {entries : List (SlotId × SlotState)}
    (ordered : entries.Pairwise (·.1 < ·.1)) :
    (insert s state entries).Pairwise (·.1 < ·.1) := by
  induction entries with
  | nil => exact List.pairwise_singleton _ _
  | cons first rest ih =>
    obtain ⟨t, old⟩ := first
    obtain ⟨before, behind⟩ := List.pairwise_cons.mp ordered
    rw [insert]
    split
    · next same =>
      obtain rfl := eq_of_beq same
      exact List.pairwise_cons.mpr ⟨before, behind⟩
    · next other =>
      split
      · next less =>
        refine List.pairwise_cons.mpr ⟨?_, ordered⟩
        rw [List.forall_mem_cons]
        exact ⟨less, fun e h => UInt32.lt_trans less (before e h)⟩
      · next notLess =>
        -- What stands behind the first entry now is the new entry or stood there before.
        refine List.pairwise_cons.mpr ⟨fun e h => ?_, ih behind⟩
        rcases mem_insert h with rfl | h
        · have other : s ≠ t := by simpa using other
          exact UInt32.lt_of_le_of_ne (UInt32.not_lt.mp notLess) other.symm
        · exact before e h

/-- Set the state of a slot. -/
def set (t : SlotTable) (s : SlotId) (state : SlotState) : SlotTable :=
  ⟨insert s state t.entries, ordered_insert s state t.ordered⟩

/-- The lowest slot with some property. -/
def find? (t : SlotTable) (p : SlotId → SlotState → Bool) : Option (SlotId × SlotState) :=
  t.entries.find? fun (s, state) => p s state

/-- The slots with some property, in the order of their numbers. -/
def filter (t : SlotTable) (p : SlotId → SlotState → Bool) : List SlotId :=
  (t.entries.filter fun (s, state) => p s state).map (·.1)

/-! ### States of slots -/

theorem lookup_insert (s t : SlotId) (state : SlotState) (entries : List (SlotId × SlotState)) :
    (insert s state entries).lookup t = if t == s then some state else entries.lookup t := by
  induction entries with
  | nil =>
    rw [insert, List.lookup_cons, List.lookup_nil]
    cases t == s <;> rfl
  | cons e rest ih =>
    obtain ⟨u, old⟩ := e
    rw [insert]
    by_cases h : s = u
    · subst h
      rw [if_pos (beq_self_eq_true s), List.lookup_cons, List.lookup_cons]
      cases t == s <;> rfl
    · rw [if_neg (by simpa using h)]
      split
      · rw [List.lookup_cons]
        cases t == s <;> rfl
      · rw [List.lookup_cons, List.lookup_cons, ih]
        by_cases ht : t = u
        · have hs : (t == s) = false := beq_false_of_ne fun hs => h (hs.symm.trans ht)
          rw [ht, beq_self_eq_true, ← ht, hs]
          rfl
        · rw [beq_false_of_ne ht]

@[simp] theorem get_set_self (t : SlotTable) (s : SlotId) (state : SlotState) :
    (t.set s state).get s = state := by simp [get, set, lookup_insert]

theorem get_set_of_ne (t : SlotTable) {s u : SlotId} (h : u ≠ s) (state : SlotState) :
    (t.set s state).get u = t.get u := by simp [get, set, lookup_insert, h]

theorem lookup_of_mem {s : SlotId} {state : SlotState} {entries : List (SlotId × SlotState)}
    (ordered : entries.Pairwise (·.1 < ·.1)) (h : (s, state) ∈ entries) :
    entries.lookup s = some state := by
  induction entries with
  | nil => cases h
  | cons first rest ih =>
    obtain ⟨u, old⟩ := first
    obtain ⟨before, behind⟩ := List.pairwise_cons.mp ordered
    rcases List.mem_cons.mp h with same | h
    · obtain ⟨rfl, rfl⟩ := Prod.mk.inj same
      exact List.lookup_cons_self
    · -- The first entry has a lower number, so the lookup goes past it.
      have other : (s == u) = false := beq_false_of_ne (UInt32.ne_of_lt (before _ h)).symm
      rw [List.lookup_cons, other]
      exact ih behind h

/-- An entry is the state of its slot. -/
theorem get_of_mem {t : SlotTable} {s : SlotId} {state : SlotState}
    (h : (s, state) ∈ t.entries) : t.get s = state := by
  rw [get, lookup_of_mem t.ordered h]
  rfl

/-- The entry that a search finds is the state of its slot. -/
theorem get_of_find? {t : SlotTable} {p : SlotId → SlotState → Bool} {s : SlotId}
    {state : SlotState} (h : t.find? p = some (s, state)) : t.get s = state :=
  get_of_mem (List.mem_of_find?_eq_some h)

/-- A search lists no slot twice. -/
theorem nodup_filter (t : SlotTable) (p : SlotId → SlotState → Bool) : (t.filter p).Nodup := by
  have increasing := List.Pairwise.filter (fun e => p e.1 e.2) t.ordered
  exact List.pairwise_map.mpr (increasing.imp fun less => UInt32.ne_of_lt less)

end SlotTable

end EngineLink
