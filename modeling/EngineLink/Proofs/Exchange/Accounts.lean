import EngineLink.Proofs.Exchange.Ending

/-!
# Calls along a course

Wherever a course of an exchange has come, each call that has been made is under way to the
coordinator, waits, or has ended, and only one of these. Only a call whose caller has gone can get
lost. When the coordinator has stopped, no call waits.

## Main definitions

* `Exchange.OwnCalls`, `Exchange.callsOf` — the calls that moves make
* `Exchange.Orderly` — what holds of a view at any time
* `Exchange.Counted` — each call is in one place

## Main results

* `Exchange.Orderly.act` — whatever the coordinator does
* `Exchange.invariant_counted` — along every course
-/

namespace EngineLink

open Coordinator

namespace Exchange

variable {κ : Type} {caller : CallId → SlotId × ClientId} {v : View} {x y : Exchange κ}
  {move : Move κ} {a : Act} {e : Event} {events : List Event}

/-! ### Calls that are made -/

/-- Each call is made by its own client on its own slot. -/
def OwnCalls (caller : CallId → SlotId × ClientId) (_ : Exchange κ) : Move κ → Prop
  | .call s client _ call => caller call = (s, client)
  | _ => True

/-- The calls that are made in a move. -/
def callsOf : Move κ → List CallId
  | .call _ _ _ call => [call]
  | _ => []

theorem OwnCalls.callOwned (own : OwnCalls caller x move) (posts : x.posted? move = some e) :
    CallOwned caller (.receive e) := by
  cases move with
  | call s client items call =>
    obtain rfl := Option.some.inj posts
    exact own
  | finish reply =>
    rw [posted?] at posts
    split at posts
    · obtain rfl := Option.some.inj posts
      trivial
    · cases posts
  | _ => cases posts <;> trivial

/-- The calls of a move are those of the event that it posts. -/
theorem flatMap_called_posted? (x : Exchange κ) (move : Move κ) :
    (x.posted? move).toList.flatMap called = callsOf move := by
  cases move with
  | finish reply =>
    rw [posted?]
    split <;> rfl
  | _ => rfl

/-! ### What holds at any time -/

/-- The coordinator is in order, calls that are under way have their own clients, calls have ended
properly, and none waits when the coordinator has stopped. -/
structure Orderly (caller : CallId → SlotId × ClientId) (v : View) : Prop where
  tidy : v.coordinator.Tidy caller
  settled : v.coordinator.sent = []
  held : v.coordinator.Held fun _ => True
  owned : ∀ e ∈ v.events, CallOwned caller (.receive e)
  proper : v.front.Proper
  idle : v.coordinator.running = false → ∀ s, (v.coordinator.slot s).waiter = none

namespace Orderly

theorem ofCapacity (caller : CallId → SlotId × ClientId) (capacity : Nat) :
    Orderly caller (Exchange.ofCapacity capacity : Exchange κ).view where
  tidy := tidy_ofCapacity caller capacity
  settled := rfl
  held := List.forall_mem_nil _
  owned := List.forall_mem_nil _
  proper := List.forall_mem_nil _
  idle := nofun

/-- How calls have ended is what has been handed on. -/
theorem ended_front (h : Orderly caller v) : v.front.ended = endedBy v.results := by
  have none : v.results ++ v.coordinator.sent = v.results := by rw [h.settled, List.append_nil]
  exact congrArg endedBy none

theorem owned_front (h : Orderly caller v) : v.front.Owned caller := by
  intro s call waits
  obtain ⟨client, -, own⟩ := h.tidy.waits s call waits
  exact congrArg Prod.fst own

/-- No call waits after the end. -/
theorem idle_act (h : Orderly caller v) (a : Act)
    (stopped : (v.coordinator.act a).running = false) (s : SlotId) :
    ((v.coordinator.act a).slot s).waiter = none := by
  cases running : v.coordinator.running with
  | true =>
    by_cases ends : a = .receive .shutdown
    · have served : v.coordinator.act a = v.coordinator.stop := by
        rw [ends]
        exact if_pos running
      obtain ⟨-, -, -, free⟩ := h.tidy.exists_ended_stop
      rw [served]
      exact free s
    · exact absurd stopped (by simp [running_act h.held.labelled running ends])
  | false =>
    -- Calls are only refused from now on, so desks stay as they are.
    have free := h.idle running s
    cases a with
    | pump gone =>
      have still : v.coordinator.act (.pump gone) = v.coordinator :=
        if_neg (Bool.eq_false_iff.mp running)
      rw [still]
      exact free
    | receive e =>
      have same : ((v.act (.receive e) []).front.desks s).waiter = (v.front.desks s).waiter := by
        rcases View.front_act_of_stopped running e [] with same | ⟨_, _, _, _, -, same⟩
        · rw [same]
        · rw [same]
          rfl
      exact same.trans free

/-- Whatever the coordinator does, all stays in order. -/
theorem act (h : Orderly caller v) (own : CallOwned caller a)
    (left : ∀ e ∈ events, CallOwned caller (.receive e)) : Orderly caller (v.act a events) where
  tidy := (h.tidy.act own).of_slots_eq rfl
  settled := rfl
  held := (h.held.act a).of_eq rfl rfl
  owned := left
  proper := by
    obtain ⟨deals, does, leads⟩ := View.exists_deals v a events
    exact leads.keeps_of does.forall_in (fun _ => .put) (fun _ _ possible proper =>
      proper.deal possible) h.proper
  idle stopped s := h.idle_act a stopped s

theorem post (h : Orderly caller v) (own : CallOwned caller (.receive e)) :
    Orderly caller (v.post e) := by
  cases running : v.coordinator.running with
  | true =>
    rw [View.post_of_running running]
    refine { h with owned := ?_ }
    rw [List.forall_mem_append, List.forall_mem_singleton]
    exact ⟨h.owned, own⟩
  | false =>
    rw [View.post_of_stopped running]
    exact h.act own h.owned

theorem shows (h : Orderly caller x.view) (own : OwnCalls caller x move)
    (becomes : x.Shows move v) : Orderly caller v := by
  cases becomes with
  | quiet posts => exact h
  | abandon call => exact { h with }
  | post posts => exact h.post (own.callOwned posts)
  | @receive e later first =>
    have owned := h.owned
    rw [show x.view.events = e :: later from first, List.forall_mem_cons] at owned
    exact h.act owned.1 owned.2
  | pump running => exact h.act trivial h.owned

end Orderly

/-! ### Each call in one place -/

/-- How often a call is under way, waits or has ended. -/
def View.total (caller : CallId → SlotId × ClientId) (call : CallId) (v : View) : Nat :=
  v.front.tally caller call + (v.events.flatMap called).count call

/-- Each call that has been made is in one place, or its caller has gone. -/
structure Counted (caller : CallId → SlotId × ClientId) (calls : List CallId) (v : View) :
    Prop where
  orderly : Orderly caller v
  most : ∀ call, v.total caller call ≤ calls.count call
  kept : ∀ call ∉ v.abandoned, v.total caller call = calls.count call

namespace Counted

variable {calls : List CallId}

theorem ofCapacity (caller : CallId → SlotId × ClientId) (capacity : Nat) :
    Counted caller [] (Exchange.ofCapacity capacity : Exchange κ).view :=
  ⟨.ofCapacity caller capacity, fun _ => Nat.le_refl _, fun _ _ => rfl⟩

/-- Whatever the coordinator does, a call is lost only if its caller has gone. -/
theorem act (h : Counted caller calls v) {more : List CallId} (own : CallOwned caller a)
    (left : ∀ e ∈ events, CallOwned caller (.receive e))
    (knows : ∀ gone, a = .pump gone → gone = v.abandoned.contains)
    (comes : ∀ call, (callsBy a).count call + (events.flatMap called).count call =
      (v.events.flatMap called).count call + more.count call) :
    Counted caller (calls ++ more) (v.act a events) := by
  obtain ⟨deals, does, leads⟩ := View.exists_deals v a events
  have counts := leads.counts h.orderly.owned_front (does.placed own)
  rw [does.flatMap_takes] at counts
  have together (call : CallId) : (v.act a events).total caller call =
      (v.act a events).front.tally caller call + (events.flatMap called).count call := rfl
  have before (call : CallId) : v.total caller call =
      v.front.tally caller call + (v.events.flatMap called).count call := rfl
  refine ⟨h.orderly.act own left, fun call => ?_, fun call stays => ?_⟩
  · have most := h.most call
    have fewer := counts.most call
    have came := comes call
    rw [together, List.count_append]
    rw [before] at most
    omega
  · have kept := h.kept call stays
    have same := counts.kept call fun lost => by
      obtain ⟨gone, rfl, left⟩ := does.gone_of_loses lost
      rw [knows gone rfl] at left
      exact stays (List.contains_iff_mem.mp left)
    have came := comes call
    rw [together, List.count_append]
    rw [before] at kept
    omega

theorem post (h : Counted caller calls v) (own : CallOwned caller (.receive e)) :
    Counted caller (calls ++ called e) (v.post e) := by
  have orderly := h.orderly.post own
  cases running : v.coordinator.running with
  | true =>
    rw [View.post_of_running running] at orderly ⊢
    have grown (call : CallId) : ({ v with events := v.events ++ [e] } : View).total caller call =
        v.total caller call + (called e).count call := by
      rw [View.total, View.total, List.flatMap_append, List.flatMap_singleton, List.count_append]
      exact (Nat.add_assoc ..).symm
    refine ⟨orderly, fun call => ?_, fun call stays => ?_⟩
    · rw [grown, List.count_append]
      exact Nat.add_le_add_right (h.most call) _
    · rw [grown, List.count_append, h.kept call stays]
  | false =>
    rw [View.post_of_stopped running]
    exact h.act own h.orderly.owned nofun fun call => Nat.add_comm ..

theorem shows (h : Counted caller calls x.view) (own : OwnCalls caller x move)
    (becomes : x.Shows move v) : Counted caller (calls ++ callsOf move) v := by
  have brings := flatMap_called_posted? x move
  have nothing {more : List CallId} (none : more = []) : calls ++ more = calls := by
    rw [none, List.append_nil]
  cases becomes with
  | quiet posts =>
    rw [posts] at brings
    rw [nothing brings.symm]
    exact h
  | abandon call =>
    rw [nothing brings.symm]
    refine ⟨h.orderly.shows own (.abandon call), h.most, fun other stays => ?_⟩
    exact h.kept other fun gone => stays (List.mem_cons_of_mem _ gone)
  | @post _ e posts =>
    rw [posts, Option.toList_some, List.flatMap_singleton] at brings
    rw [← brings]
    exact h.post (own.callOwned posts)
  | @receive e later first =>
    have owned := h.orderly.owned
    have first : x.view.events = e :: later := first
    rw [first, List.forall_mem_cons] at owned
    refine h.act owned.1 owned.2 nofun fun call => ?_
    rw [first, List.flatMap_cons, List.count_append]
    rfl
  | pump running =>
    refine h.act trivial h.orderly.owned ?_ fun call => Nat.zero_add _
    rintro _ ⟨⟩
    rfl

end Counted

/-- Each call is in one place along every course. -/
theorem invariant_counted (caller : CallId → SlotId × ClientId) :
    Invariant (κ := κ) (OwnCalls caller) callsOf fun calls x => Counted caller calls x.view := by
  refine .of_view ⟨fun _ => trivial, rfl⟩ ⟨fun _ => trivial, rfl⟩ (fun h => h.orderly.settled)
    (fun h own becomes => h.shows own becomes) fun {calls v} h => ?_
  have posted : Counted caller (calls ++ []) (v.post .shutdown) := h.post (e := .shutdown) trivial
  rwa [List.append_nil] at posted

end Exchange

end EngineLink
