import EngineLink.Proofs.Exchange.Settling
import EngineLink.Proofs.Exchange.Views

/-!
# Calls of clients

A call of a client is under way to the coordinator first. When it arrives, it ends at once or waits on
its slot, in place of the call that waited there before. A waiting call ends when something is
delivered, when another call, another client or the end comes, or when its client leaves. It is lost
only if its caller has gone. So each call is counted once, wherever it is.

## Main definitions

* `Coordinator.Front.tally` — how often a call has ended or waits
* `Coordinator.Front.Counts` — which calls come and which are lost in a change
* `Coordinator.IsOutcome` — how a call can end

## Main results

* `Coordinator.Leads.counts` — the calls that come are counted
* `Coordinator.Front.Proper.deal` — calls end as they can
-/

namespace EngineLink

namespace Coordinator

variable {caller : CallId → SlotId × ClientId} {c : Coordinator} {f g : Front} {deals : List Deal}
  {s u : SlotId} {call : CallId} {a : Act} {e : Event}

/-! ### Deals -/

/-- The calls that come with an event. -/
def called : Event → List CallId
  | .call _ _ _ call => [call]
  | _ => []

/-- The calls that come in an act. -/
def callsBy : Act → List CallId
  | .receive e => called e
  | .pump _ => []

/-- The calls that start to wait or end at once in a deal. -/
def Deal.takes : Deal → List CallId
  | .wait _ call => [call]
  | .refuse call _ => [call]
  | _ => []

/-- The calls that are lost in a deal. -/
def Deal.loses : Deal → List CallId
  | .forget _ call => [call]
  | _ => []

/-- A call that starts to wait in a deal does so on its own slot. -/
def Deal.Placed (caller : CallId → SlotId × ClientId) : Deal → Prop
  | .wait s call => (caller call).1 = s
  | _ => True

/-- The calls that come in an act are those that start to wait or end at once. -/
theorem Deals.flatMap_takes (h : c.Deals a deals) : deals.flatMap Deal.takes = callsBy a := by
  cases a with
  | receive e =>
    cases e with
    | call s client items call =>
      cases h with
      | quiet none => exact absurd rfl (none s client items call)
      | bring brings few => rcases brings with isReply | ⟨wait, isSubmission⟩ <;> contradiction
      | call attached => rfl
      | refuse kind => rfl
    | _ =>
      refine List.flatMap_eq_nil_iff.mpr fun deal member => ?_
      cases h.forall_in deal member <;> rfl
  | pump gone =>
    refine List.flatMap_eq_nil_iff.mpr fun deal member => ?_
    cases h.forall_in deal member <;> rfl

theorem Deals.placed (h : c.Deals a deals) (owned : CallOwned caller a) :
    ∀ deal ∈ deals, deal.Placed caller := by
  intro deal member
  cases h.forall_in deal member with
  | wait => exact congrArg Prod.fst (show caller _ = _ from owned)
  | _ => trivial

/-! ### Counting calls -/

namespace Front

/-- Calls wait on their own slots. -/
def Owned (caller : CallId → SlotId × ClientId) (f : Front) : Prop :=
  ∀ s, ∀ call ∈ (f.desks s).waiter, (caller call).1 = s

/-- How often a call has ended, and once more if it waits. -/
def tally (caller : CallId → SlotId × ClientId) (call : CallId) (f : Front) : Nat :=
  (f.ended.map (·.1)).count call + if (f.desks (caller call).1).waiter = some call then 1 else 0

theorem waiter_dismiss (f : Front) (s : SlotId) (result : Except Status Batch) (u : SlotId) :
    ((f.dismiss s result).desks u).waiter = if u = s then none else (f.desks u).waiter := by
  rw [dismiss]
  split
  · next none =>
    split
    · next here => rw [here, none]
    · rfl
  · split
    · next here =>
      rw [here]
      exact congrArg Desk.waiter (desks_set_self ..)
    · next other => exact congrArg Desk.waiter (desks_set_of_ne f other _)

theorem waiter_set (f : Front) (s : SlotId) (desk : Desk) (u : SlotId) :
    ((f.set s desk).desks u).waiter = if u = s then desk.waiter else (f.desks u).waiter := by
  split
  · next here => rw [here, desks_set_self]
  · next other => rw [desks_set_of_ne f other]

/-- A change to a desk that leaves the call that waits there. -/
theorem waiter_set_of_eq {desk : Desk} (same : desk.waiter = (f.desks s).waiter) (u : SlotId) :
    ((f.set s desk).desks u).waiter = (f.desks u).waiter := by
  rw [waiter_set, same]
  split
  · next here => rw [here]
  · rfl

theorem tally_of_eq (waiters : ∀ u, (g.desks u).waiter = (f.desks u).waiter)
    (ended : g.ended = f.ended) (call : CallId) : g.tally caller call = f.tally caller call := by
  rw [tally, tally, waiters, ended]

theorem owned_of_eq (waiters : ∀ u, (g.desks u).waiter = (f.desks u).waiter)
    (h : f.Owned caller) : g.Owned caller := by
  intro u call waits
  rw [waiters] at waits
  exact h u call waits

theorem Owned.dismiss (h : f.Owned caller) (s : SlotId) (result : Except Status Batch) :
    (f.dismiss s result).Owned caller := by
  intro u call waits
  rw [waiter_dismiss] at waits
  split at waits
  · cases waits
  · exact h u call waits

/-- A call that ends does not wait any longer. -/
theorem tally_dismiss (h : f.Owned caller) (s : SlotId) (result : Except Status Batch)
    (call : CallId) : (f.dismiss s result).tally caller call = f.tally caller call := by
  cases waits : (f.desks s).waiter with
  | none =>
    have same : f.dismiss s result = f := by rw [dismiss, waits]
    rw [same]
  | some ends =>
    have place := h s ends waits
    have ended : (f.dismiss s result).ended = f.ended ++ [(ends, result)] := by
      rw [dismiss, waits]
    rw [tally, tally, ended, List.map_append, List.count_append, waiter_dismiss]
    by_cases same : call = ends
    · subst same
      rw [if_pos place, place, waits]
      simp
    · have apart : (f.desks s).waiter ≠ some call := by
        rw [waits]
        exact fun isCall => same (Option.some.inj isCall).symm
      have none : List.count call [ends] = 0 := List.count_eq_zero.mpr (by simpa using same)
      split
      · next here => simp [none, here, apart]
      · simp [none]

/-- A call that starts to wait on its own slot, where none waits, is counted. -/
theorem tally_wait (call : CallId) {new : CallId} {desk : Desk} (free : (f.desks s).waiter = none)
    (place : (caller new).1 = s) (waits : desk.waiter = some new) :
    (f.set s desk).tally caller call = f.tally caller call + [new].count call := by
  rw [tally, tally, waiter_set, waits]
  have ended : (f.set s desk).ended = f.ended := rfl
  rw [ended, Nat.add_assoc]
  congr 1
  by_cases same : call = new
  · subst same
    rw [if_pos place, place, free]
    simp
  · have none : [new].count call = 0 := List.count_eq_zero.mpr (by simpa using same)
    have apart : some new ≠ some call := fun isCall => same (Option.some.inj isCall).symm
    rw [none, Nat.add_zero]
    by_cases here : (caller call).1 = s
    · rw [if_pos here, if_neg apart, here, free, if_neg nofun]
    · rw [if_neg here]

theorem tally_ended (f : Front) (call new : CallId) (result : Except Status Batch) :
    ({ f with ended := f.ended ++ [(new, result)] } : Front).tally caller call =
      f.tally caller call + [new].count call := by
  rw [tally, tally, List.map_append, List.count_append, List.map_singleton]
  dsimp only
  omega

/-- What changes are counted: the calls that are taken come to the others, and all others are counted
as before, unless they are lost. -/
structure Counts (caller : CallId → SlotId × ClientId) (f : Front) (takes loses : List CallId)
    (g : Front) : Prop where
  owned : g.Owned caller
  most : ∀ call, g.tally caller call ≤ f.tally caller call + takes.count call
  kept : ∀ call ∉ loses, g.tally caller call = f.tally caller call + takes.count call

namespace Counts

variable {takes loses : List CallId}

/-- No call is lost. -/
theorem of_tally (owned : g.Owned caller)
    (same : ∀ call, g.tally caller call = f.tally caller call + takes.count call) :
    f.Counts caller takes loses g :=
  ⟨owned, fun call => Nat.le_of_eq (same call), fun call _ => same call⟩

/-- A change that leaves the waiting calls and those that have ended. -/
theorem of_eq (h : f.Owned caller) (waiters : ∀ u, (g.desks u).waiter = (f.desks u).waiter)
    (ended : g.ended = f.ended) : f.Counts caller [] loses g :=
  .of_tally (owned_of_eq waiters h) (tally_of_eq waiters ended)

/-- A call ends, and then the desk changes. -/
theorem of_dismiss (h : f.Owned caller) {result : Except Status Batch}
    (waiters : ∀ u, (g.desks u).waiter = ((f.dismiss s result).desks u).waiter)
    (ended : g.ended = (f.dismiss s result).ended) : f.Counts caller [] loses g :=
  .of_tally (owned_of_eq waiters (h.dismiss s result)) fun call =>
    (tally_of_eq waiters ended call).trans (tally_dismiss h s result call)

theorem trans {more gone : List CallId} {last : Front} (first : f.Counts caller takes loses g)
    (next : g.Counts caller more gone last) :
    f.Counts caller (takes ++ more) (loses ++ gone) last := by
  refine ⟨next.owned, fun call => ?_, fun call stays => ?_⟩
  · have before := first.most call
    have after := next.most call
    rw [List.count_append]
    omega
  · rw [List.mem_append, not_or] at stays
    rw [next.kept call stays.2, first.kept call stays.1, List.count_append, Nat.add_assoc]

end Counts

/-- A call waits on its own slot, in place of the one that waited before. -/
theorem counts_wait (h : f.Owned caller) {new : CallId} (place : (caller new).1 = s) :
    f.Counts caller [new] [] (f.deal (.wait s new)) := by
  have free : ((f.dismiss s (.error superseded)).desks s).waiter = none := by
    rw [waiter_dismiss, if_pos rfl]
  refine .of_tally (fun u call waiting => ?_) fun call => ?_
  · rw [deal, waiter_set] at waiting
    split at waiting
    · next here =>
      obtain rfl := Option.some.inj waiting
      exact place.trans here.symm
    · exact h.dismiss s _ u call waiting
  · have waits : (f.deal (.wait s new)).tally caller call = _ := tally_wait call free place rfl
    rwa [tally_dismiss h] at waits

/-- A call that is forgotten is lost, and no other. -/
theorem counts_forget (h : f.Owned caller) (s : SlotId) (gone : CallId) :
    f.Counts caller [] [gone] (f.deal (.forget s gone)) := by
  rw [deal]
  split
  · next waits =>
    have ended : (f.set s { f.desks s with waiter := none }).ended = f.ended := rfl
    refine ⟨fun u call waiting => ?_, fun call => ?_, fun call stays => ?_⟩
    · rw [waiter_set] at waiting
      split at waiting
      · cases waiting
      · exact h u call waiting
    · rw [tally, tally, waiter_set, ended]
      split
      · exact Nat.add_le_add_left (by simp) _
      · exact Nat.le_refl _
    · rw [tally, tally, waiter_set, ended]
      split
      · next here =>
        have apart : some gone ≠ some call := by simpa using Ne.symm (List.ne_of_not_mem_cons stays)
        rw [here, waits, if_neg apart]
        rfl
      · rfl
  · exact .of_eq h (fun _ => rfl) rfl

/-- A deal counts the calls that start to wait or end at once. -/
theorem counts_deal (h : f.Owned caller) (deal : Deal) (placed : deal.Placed caller) :
    f.Counts caller deal.takes deal.loses (f.deal deal) := by
  cases deal with
  | put s item => exact .of_eq h (waiter_set_of_eq rfl) rfl
  | wait s new => exact counts_wait h placed
  | refuse new status => exact .of_tally h fun call => tally_ended f call new _
  | attach s => exact .of_dismiss h (waiter_set_of_eq rfl) rfl
  | leave s => exact .of_dismiss h (waiter_set_of_eq rfl) rfl
  | handOver s busy => exact .of_dismiss h (waiter_set_of_eq rfl) rfl
  | forget s gone => exact counts_forget h s gone
  | close s => exact .of_dismiss h (fun _ => rfl) rfl

end Front

/-- The calls that are lost had callers that have gone. -/
theorem Deals.gone_of_loses (h : c.Deals a deals) (lost : call ∈ deals.flatMap Deal.loses) :
    ∃ gone, a = .pump gone ∧ gone call = true := by
  obtain ⟨deal, member, loses⟩ := List.mem_flatMap.mp lost
  cases h.forall_in deal member with
  | @forget gone s call left =>
    obtain rfl := List.mem_singleton.mp loses
    exact ⟨gone, rfl, left⟩
  | _ => cases loses

/-- Deals count the calls that start to wait or end at once. -/
theorem Leads.counts (leads : Leads f deals g) (owned : f.Owned caller)
    (placed : ∀ deal ∈ deals, deal.Placed caller) :
    f.Counts caller (deals.flatMap Deal.takes) (deals.flatMap Deal.loses) g := by
  induction leads with
  | nil => exact .of_tally owned fun _ => rfl
  | @output _ g text _ ih =>
    have before := ih placed
    have queued : g.Counts caller [] [] (g.put SlotId.primary (outputItem text)) :=
      Front.counts_deal before.owned (.put SlotId.primary (outputItem text)) trivial
    have both := before.trans queued
    rwa [List.append_nil, List.append_nil] at both
  | deal deal _ ih =>
    rw [List.forall_mem_append, List.forall_mem_singleton] at placed
    have before := ih placed.1
    rw [List.flatMap_append, List.flatMap_append, List.flatMap_singleton, List.flatMap_singleton]
    exact before.trans (Front.counts_deal before.owned deal placed.2)

/-! ### Results of calls -/

/-- How a call can end: with a batch, or as disconnected, cancelled or stopped. -/
def IsOutcome : Except Status Batch → Prop
  | .ok _ => True
  | .error status => status.code = Status.Code.disconnected ∨
      status.code = Status.Code.cancelled ∨ status.code = Status.Code.stopped

/-- All calls have ended in one of these ways. -/
def Front.Proper (f : Front) : Prop := ∀ p ∈ f.ended, IsOutcome p.2

namespace Front

theorem Proper.append (h : f.Proper) {result : Except Status Batch} (outcome : IsOutcome result)
    (desks : SlotId → Desk) (call : CallId) (next : Nat) :
    (Front.mk desks (f.ended ++ [(call, result)]) next).Proper := by
  rw [Proper, List.forall_mem_append, List.forall_mem_singleton]
  exact ⟨h, outcome⟩

theorem Proper.dismiss (h : f.Proper) (s : SlotId) {result : Except Status Batch}
    (outcome : IsOutcome result) : (f.dismiss s result).Proper := by
  rw [Front.dismiss]
  split
  · exact h
  · exact h.append outcome _ _ _

theorem Proper.deal (h : f.Proper) {deal : Deal} (possible : deal.In a) : (f.deal deal).Proper := by
  cases possible with
  | put => exact h
  | wait => exact h.dismiss _ (.inr (.inl rfl))
  | refuse kind =>
    refine h.append ?_ _ _ _
    rcases kind with rfl | rfl
    · exact .inl rfl
    · exact .inr (.inr rfl)
  | attach => exact h.dismiss _ (.inl rfl)
  | leave => exact h.dismiss _ (.inl rfl)
  | handOver => exact h.dismiss _ trivial
  | forget =>
    rw [Front.deal]
    split <;> exact h
  | close => exact h.dismiss _ (.inr (.inr rfl))

end Front

end Coordinator
end EngineLink
