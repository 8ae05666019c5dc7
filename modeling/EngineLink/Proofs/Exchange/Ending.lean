import EngineLink.Proofs.Exchange.Calls

/-!
# The last results

When the coordinator stops, every call that waits ends. It gets all that is queued on its slot. On
the primary slot, console output that has been collected is queued before, behind all else.

## Main definitions

* `Coordinator.lastItems`, `Coordinator.lastResult` — what a waiting call gets at the end

## Main results

* `Coordinator.Tidy.exists_ended_stop` — the calls that end
-/

namespace EngineLink

namespace SlotTable

variable {t : SlotTable} {s : SlotId}

/-- A slot on which a call waits has been used. -/
theorem mem_entries_of_waiter {call : CallId} (waits : (t.get s).waiter = some call) :
    (s, t.get s) ∈ t.entries := by
  rw [get] at waits ⊢
  cases found : t.entries.lookup s with
  | none =>
    rw [found] at waits
    cases waits
  | some state =>
    obtain ⟨before, behind, split, -⟩ := List.lookup_eq_some_iff.mp found
    simp [split]

/-- A slot on which a call waits is among those that have some property of it. -/
theorem mem_filter_of_waiter {call : CallId} {p : SlotId → SlotState → Bool}
    (waits : (t.get s).waiter = some call) (has : p s (t.get s) = true) : s ∈ t.filter p := by
  refine List.mem_map.mpr ⟨(s, t.get s), ?_, rfl⟩
  exact List.mem_filter.mpr ⟨mem_entries_of_waiter waits, has⟩

end SlotTable

namespace Coordinator

variable {caller : CallId → SlotId × ClientId} {c : Coordinator} {f : Front} {s : SlotId}

/-! ### What clients see -/

/-- What a waiting call gets at the end. -/
def lastOf (busy : Bool) (items : List Item) : Except Status Batch :=
  if items.isEmpty then .error .stopped else .ok ⟨busy, items⟩

namespace Front

/-- The waiting call of a slot ends with what is queued. -/
def releaseLast (busy : Bool) (f : Front) (s : SlotId) : Front :=
  match (f.desks s).waiter with
  | none => f
  | some call =>
    { f.set s { f.desks s with waiter := none, outbound := [] } with
      ended := f.ended ++ [(call, lastOf busy (f.desks s).outbound)] }

/-- How the waiting calls of some slots end. -/
def lastEnds (busy : Bool) (f : Front) (slots : List SlotId) :
    List (CallId × Except Status Batch) :=
  slots.filterMap fun s => (f.desks s).waiter.map (·, lastOf busy (f.desks s).outbound)

theorem desks_releaseLast_of_ne {u : SlotId} (busy : Bool) (f : Front) (other : u ≠ s) :
    (f.releaseLast busy s).desks u = f.desks u := by
  rw [releaseLast]
  split
  · rfl
  · exact desks_set_of_ne f other _

theorem waiter_releaseLast (busy : Bool) (f : Front) (s : SlotId) :
    ((f.releaseLast busy s).desks s).waiter = none := by
  rw [releaseLast]
  split
  · next free => exact free
  · exact congrArg Desk.waiter (desks_set_self ..)

theorem ended_releaseLast (busy : Bool) (f : Front) (s : SlotId) :
    (f.releaseLast busy s).ended = f.ended ++ f.lastEnds busy [s] := by
  rw [releaseLast, lastEnds]
  split
  · next free => simp [free]
  · next call waits => simp [waits]

/-- The waiting calls of distinct slots end one after another, each with what is queued for it. -/
theorem foldl_releaseLast {slots : List SlotId} (distinct : slots.Nodup) (busy : Bool) (f : Front) :
    (slots.foldl (releaseLast busy) f).ended = f.ended ++ f.lastEnds busy slots ∧
      ∀ u, ((slots.foldl (releaseLast busy) f).desks u).waiter =
        if u ∈ slots then none else (f.desks u).waiter := by
  induction slots generalizing f with
  | nil => exact ⟨(List.append_nil _).symm, fun u => (if_neg List.not_mem_nil).symm⟩
  | cons s slots ih =>
    obtain ⟨new, later⟩ := List.nodup_cons.mp distinct
    obtain ⟨ended, waiters⟩ := ih later (f.releaseLast busy s)
    have others : ∀ u ∈ slots, (f.releaseLast busy s).desks u = f.desks u := fun u member =>
      desks_releaseLast_of_ne busy f (ne_of_mem_of_not_mem member new)
    rw [List.foldl_cons]
    refine ⟨?_, fun u => ?_⟩
    · have same : (f.releaseLast busy s).lastEnds busy slots = f.lastEnds busy slots :=
        List.filterMap_congr fun u member => by rw [others u member]
      rw [ended, same, ended_releaseLast, List.append_assoc]
      exact congrArg (f.ended ++ ·) List.filterMap_append.symm
    · rw [waiters u]
      by_cases here : u = s
      · rw [here, waiter_releaseLast, ite_self, if_pos List.mem_cons_self]
      · rw [desks_releaseLast_of_ne busy f here]
        simp [here]

end Front

/-- A slot on which no call waits is left as it is. -/
theorem releaseLast_of_free (free : (c.slot s).waiter = none) : c.releaseLast s = c := by
  rw [releaseLast]
  split
  · rw [release, free]
  · exact if_pos (Option.isNone_iff_eq_none.mpr free)

theorem front_releaseLast (c : Coordinator) (s : SlotId) :
    (c.releaseLast s).front = c.front.releaseLast c.busy s := by
  have waiter : (c.front.desks s).waiter = (c.slot s).waiter := rfl
  have outbound : (c.front.desks s).outbound = (c.slot s).outbound := rfl
  rw [Front.releaseLast]
  cases waits : (c.slot s).waiter with
  | none => rw [releaseLast_of_free waits, waiter, waits]
  | some call =>
    rw [waiter, waits, outbound, releaseLast]
    split
    · next empty =>
      rw [front_release, Front.dismiss, waiter, waits, empty]
      dsimp only
      rw [outbound, empty]
      rfl
    · next queued =>
      have full : lastOf c.busy (c.slot s).outbound = .ok ⟨c.busy, (c.slot s).outbound⟩ :=
        if_neg fun none => queued (List.isEmpty_iff.mp none)
      have taken : (c.slot s).waiter.isNone ≠ true := by
        rw [waits]
        exact Bool.false_ne_true
      rw [if_neg taken, front_handOver, full]
      exact Front.deal_handOver waits c.busy

theorem busy_releaseLast (c : Coordinator) (s : SlotId) : (c.releaseLast s).busy = c.busy := by
  have released (result : Except Status Batch) : (c.release s result).busy = c.busy := by
    rw [release]
    split <;> rfl
  rw [releaseLast]
  split
  · exact released _
  · split
    · rfl
    · exact released _

theorem front_foldl_releaseLast (slots : List SlotId) (c : Coordinator) :
    (slots.foldl releaseLast c).front = slots.foldl (Front.releaseLast c.busy) c.front := by
  induction slots generalizing c with
  | nil => rfl
  | cons s slots ih =>
    rw [List.foldl_cons, ih, busy_releaseLast, front_releaseLast]
    rfl

/-- When the calls of all slots are released, none waits any longer. -/
theorem waiter_foldl_releaseLast (c : Coordinator) (s : SlotId) :
    (((c.slots.filter fun _ _ => true).foldl releaseLast c).slot s).waiter = none := by
  obtain ⟨-, waiters⟩ := Front.foldl_releaseLast (c.slots.nodup_filter fun _ _ => true) c.busy c.front
  have last := waiters s
  rw [← front_foldl_releaseLast] at last
  split at last
  · exact last
  · next unused =>
    refine last.trans (Option.eq_none_iff_forall_ne_some.mpr fun call waits => ?_)
    exact unused (SlotTable.mem_filter_of_waiter waits rfl)

/-! ### Collected output -/

/-- What is queued for a slot at the end. Console output comes behind all else. -/
def lastItems (c : Coordinator) (s : SlotId) : List Item :=
  (c.slot s).outbound ++
    if s.isPrimary && !c.stdout.isEmpty then [outputItem c.stdout.text] else []

/-- What a call that waits on a slot gets at the end. -/
def lastResult (c : Coordinator) (s : SlotId) : Except Status Batch := lastOf c.busy (c.lastItems s)

theorem flushOutput_of_empty (empty : c.stdout.isEmpty = true) : c.flushOutput = c := by
  have taken : c.stdout.take = (none, c.stdout) := if_pos empty
  rw [flushOutput, taken]

theorem flushOutput_of_full (full : c.stdout.isEmpty = false) : c.flushOutput =
    ({ c with stdout := { c.stdout with text := "" } } : Coordinator).pushOutbound SlotId.primary
      (outputItem c.stdout.text) := by
  have taken : c.stdout.take = (some c.stdout.text, { c.stdout with text := "" }) :=
    if_neg (Bool.eq_false_iff.mp full)
  rw [flushOutput, taken]

theorem exists_flushOutput (c : Coordinator) :
    ∃ slots stdout, c.flushOutput = { c with slots, stdout } := by
  cases empty : c.stdout.isEmpty with
  | true => exact ⟨_, _, flushOutput_of_empty empty⟩
  | false =>
    rw [flushOutput_of_full empty, pushOutbound]
    split <;> exact ⟨_, _, rfl⟩

theorem waiter_flushOutput (c : Coordinator) (s : SlotId) :
    (c.flushOutput.slot s).waiter = (c.slot s).waiter := by
  cases empty : c.stdout.isEmpty with
  | true => rw [flushOutput_of_empty empty]
  | false =>
    rw [flushOutput_of_full empty, pushOutbound]
    split
    · rfl
    · by_cases here : s = SlotId.primary
      · rw [here, slot_modifySlot_self]
        rfl
      · rw [slot_modifySlot_of_ne _ here]
        rfl

/-- Output is queued only for a client. -/
theorem outbound_flushOutput {client : ClientId} (attached : (c.slot s).client = some client) :
    (c.flushOutput.slot s).outbound = c.lastItems s := by
  cases empty : c.stdout.isEmpty with
  | true => simp [flushOutput_of_empty empty, lastItems, empty]
  | false =>
    rw [flushOutput_of_full empty, lastItems, empty, pushOutbound]
    have slots (u : SlotId) : ({ c with stdout := { c.stdout with text := "" } } :
        Coordinator).slot u = c.slot u := rfl
    rw [slots]
    by_cases here : s = SlotId.primary
    · obtain rfl := here
      have taken : (c.slot SlotId.primary).client.isNone ≠ true := by
        rw [attached]
        exact Bool.false_ne_true
      rw [if_neg taken, slot_modifySlot_self]
      rfl
    · have apart : s.isPrimary = false := beq_false_of_ne here
      rw [apart, apply_ite (slot · s), slot_modifySlot_of_ne _ here, slots, ite_self]
      exact (List.append_nil _).symm

/-! ### The end -/

/-- When the calls of all slots are released, exactly the waiting ones end. -/
theorem Tidy.exists_ended_releaseLast (h : c.Tidy caller) {d : Coordinator}
    (released : (c.flushOutput.slots.filter fun _ _ => true).foldl releaseLast c.flushOutput = d) :
    ∃ last, d.front.ended = c.front.ended ++ last ∧ (∀ call result, (call, result) ∈ last ↔
      ∃ s, (c.slot s).waiter = some call ∧ result = c.lastResult s) ∧
    ∀ s, (d.slot s).waiter = none := by
  obtain ⟨slots, stdout, flushed⟩ := c.exists_flushOutput
  have busy : c.flushOutput.busy = c.busy := by rw [flushed]
  have before : c.flushOutput.front.ended = c.front.ended := by
    rw [flushed]
    rfl
  have distinct := c.flushOutput.slots.nodup_filter fun _ _ => true
  have used {s : SlotId} {call : CallId} (waits : (c.slot s).waiter = some call) :
      s ∈ c.flushOutput.slots.filter fun _ _ => true :=
    SlotTable.mem_filter_of_waiter ((waiter_flushOutput c s).trans waits) rfl
  obtain ⟨ended, -⟩ := Front.foldl_releaseLast distinct c.busy c.flushOutput.front
  rw [← busy, ← front_foldl_releaseLast, released, busy] at ended
  have waiting (s : SlotId) : (c.flushOutput.front.desks s).waiter = (c.slot s).waiter :=
    waiter_flushOutput c s
  have queued {s : SlotId} {call : CallId} (waits : (c.slot s).waiter = some call) :
      lastOf c.busy (c.flushOutput.front.desks s).outbound = c.lastResult s := by
    obtain ⟨client, attached, -⟩ := h.waits s call waits
    exact congrArg (lastOf c.busy) (outbound_flushOutput attached)
  refine ⟨_, before ▸ ended, fun call result => ?_, fun s => ?_⟩
  · simp only [Front.lastEnds, List.mem_filterMap, Option.map_eq_some_iff, waiting, Prod.mk.injEq]
    constructor
    · rintro ⟨s, -, call, waits, rfl, rfl⟩
      exact ⟨s, waits, queued waits⟩
    · rintro ⟨s, waits, rfl⟩
      exact ⟨s, used waits, call, waits, rfl, queued waits⟩
  · rw [← released]
    exact waiter_foldl_releaseLast _ s

theorem waiter_stop (c : Coordinator) (s : SlotId) : (c.stop.slot s).waiter = none :=
  waiter_foldl_releaseLast _ s

/-- At the end, exactly the waiting calls end, and none waits any longer. -/
theorem Tidy.exists_ended_stop (tidy : c.Tidy caller) : ∃ last,
    c.stop.front.ended = c.front.ended ++ last ∧ (∀ call result, (call, result) ∈ last ↔
      ∃ s, (c.slot s).waiter = some call ∧ result = c.lastResult s) ∧
    ∀ s, (c.stop.slot s).waiter = none := by
  -- That no events are served any longer does not matter here.
  have halted : ({ c with running := false } : Coordinator).Tidy caller := tidy.of_slots_eq rfl
  exact halted.exists_ended_releaseLast rfl

end Coordinator

end EngineLink
