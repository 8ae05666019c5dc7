import EngineLink.Proofs.Exchange.Reattach
import EngineLink.Proofs.Exchange.RequestOrder
import EngineLink.Proofs.Exchange.Views

/-!
# What a client leaves behind

When a client leaves a slot, its requests and what is queued for it are dropped. But one request of
the slot can have been handed to the engine. Its reply is queued for whoever is attached to the slot
when it arrives. All else that is delivered on the slot later answers requests of others.

Requests are told apart from what the engine has for clients by a mark that the engine itself never
uses. Then what has been delivered on the slot, what is queued there, and the requests of the slot
that are under way can only be shifted from one place to the next.

## Main definitions

* `Exchange.submittedBut` — the requests that others submit
* `Exchange.Spares`, `Exchange.Truthful` — what moves may say
* `Exchange.ledger` — where marked items of a slot can be

## Main results

* `Exchange.ledger_of_move` — marked items are only shifted
* `Exchange.delivered_after_leaving` — what is delivered after a client has left
-/

namespace EngineLink

namespace Coordinator.Front

variable {f : Front} {s u : SlotId} {client : ClientId}

/-! ### Clients come once -/

theorem client_set (f : Front) (s : SlotId) (desk : Desk) (u : SlotId) :
    ((f.set s desk).desks u).client = if u = s then desk.client else (f.desks u).client := by
  split
  · next here => rw [here, desks_set_self]
  · next other => rw [desks_set_of_ne f other]

@[simp] theorem client_dismiss (f : Front) (s : SlotId) (result : Except Status Batch) (u : SlotId) :
    ((f.dismiss s result).desks u).client = (f.desks u).client := by
  rw [dismiss]
  split
  · rfl
  · refine (client_set ..).trans ?_
    split
    · next here => rw [here]
    · rfl

/-- The clients of the slots after a deal. -/
def clientsAfter (f : Front) : Deal → SlotId → Option ClientId
  | .attach s, u => if u = s then some ⟨f.next⟩ else (f.desks u).client
  | .leave s, u => if u = s then none else (f.desks u).client
  | _, u => (f.desks u).client

theorem client_deal (f : Front) (deal : Deal) (u : SlotId) :
    ((f.deal deal).desks u).client = f.clientsAfter deal u := by
  -- A deal of another kind leaves the client of its slot.
  have kept (g : Front) (s : SlotId) (desk : Desk) (same : desk.client = (g.desks s).client) :
      ((g.set s desk).desks u).client = (g.desks u).client := by
    rw [client_set, same]
    split
    · next here => rw [here]
    · rfl
  cases deal with
  | put s item => exact kept _ _ _ rfl
  | wait s call =>
    refine (kept (f.dismiss s (.error superseded)) s _ ?_).trans (client_dismiss ..)
    rfl
  | refuse call status => rfl
  | attach s =>
    refine (client_set ..).trans ?_
    rw [client_dismiss, next_dismiss]
    rfl
  | leave s =>
    refine (client_set ..).trans ?_
    rw [client_dismiss]
    rfl
  | handOver s busy =>
    refine (kept (f.dismiss s (.ok ⟨busy, (f.desks s).outbound⟩)) s _ ?_).trans (client_dismiss ..)
    rfl
  | forget s call =>
    rw [Front.deal]
    split
    · exact kept _ _ _ rfl
    · rfl
  | close s => exact client_dismiss ..

theorem next_le_deal (f : Front) (deal : Deal) : f.next ≤ (f.deal deal).next := by
  cases deal with
  | put s item => exact Nat.le_refl _
  | refuse call status => exact Nat.le_refl _
  | attach s => exact Nat.le_succ_of_le (Nat.le_of_eq (next_dismiss ..).symm)
  | forget s call =>
    rw [Front.deal]
    split
    · exact Nat.le_refl _
    · exact Nat.le_refl _
  | _ => exact Nat.le_of_eq (next_dismiss ..).symm

/-- All clients have come before the next one. -/
def Numbered (f : Front) : Prop := ∀ s, ∀ client ∈ (f.desks s).client, client.number < f.next

theorem Numbered.deal (h : f.Numbered) (deal : Deal) : (f.deal deal).Numbered := by
  intro u client attached
  have kept (same : (f.desks u).client = some client) : client.number < (f.deal deal).next :=
    Nat.lt_of_lt_of_le (h u client same) (next_le_deal f deal)
  rw [client_deal] at attached
  cases deal with
  | attach s =>
    rw [clientsAfter] at attached
    split at attached
    · obtain rfl := Option.some.inj attached
      exact Nat.lt_succ_of_le (Nat.le_of_eq (next_dismiss f s _).symm)
    · exact kept attached
  | leave s =>
    rw [clientsAfter] at attached
    split at attached
    · cases attached
    · exact kept attached
  | _ => exact kept attached

/-- A client has left a slot. -/
structure Left (s : SlotId) (client : ClientId) (f : Front) : Prop where
  absent : (f.desks s).client ≠ some client
  known : client.number < f.next

/-- A client that has left does not come back. -/
theorem Left.deal (h : f.Left s client) (deal : Deal) : (f.deal deal).Left s client := by
  refine ⟨?_, Nat.lt_of_lt_of_le h.known (next_le_deal f deal)⟩
  rw [client_deal]
  cases deal with
  | attach u =>
    rw [clientsAfter]
    split
    · intro back
      have known := h.known
      rw [← Option.some.inj back] at known
      exact Nat.lt_irrefl _ known
    · exact h.absent
  | leave u =>
    rw [clientsAfter]
    split
    · exact nofun
    · exact h.absent
  | _ => exact h.absent

end Coordinator.Front

namespace Exchange

open Track Coordinator

variable {κ : Type} {x y z : Exchange κ} {move : Move κ} {n : Nat} {s : SlotId} {client : ClientId}
  {caller : CallId → SlotId × ClientId} {mine : Item → Bool} {e : Event} {v : View}

/-! ### Requests of others -/

/-- The requests that clients other than a given one submit on a slot with an event. -/
def submissionBut (s : SlotId) (client : ClientId) : Event → List Item
  | .call slot who items _ => if slot = s ∧ who ≠ client then submitted s items else []
  | _ => []

/-- The requests that clients other than a given one submit on a slot in a move. -/
def submittedBut (s : SlotId) (client : ClientId) (move : Move κ) : List Item :=
  (said? move).toList.flatMap (submissionBut s client)

/-- The requests of a slot that the engine has not taken, besides those that a client submits: those
that have been handed out, those in the queue of the slot, and those that the coordinator has not
received yet. -/
def toTake (s : SlotId) (client : ClientId) (x : Exchange κ) : List Item :=
  (requestedItems x.wakes).filter (·.slot == s) ++
    ((x.coordinator.requestSide s).inbound ++ x.events.flatMap (submissionBut s client))

/-- After a client has left, only others get requests into the queue of the slot. -/
theorem inbound_requestsAfter_sublist {c : Coordinator} (left : (c.slot s).client ≠ some client)
    (e : Event) : (c.requestsAfter e s).inbound.Sublist
      ((c.requestSide s).inbound ++ submissionBut s client e) := by
  cases e with
  | call slot who items call =>
    rw [requestsAfter]
    split
    · next attached =>
      by_cases here : slot = s
      · subst here
        have other : who ≠ client := by
          rintro rfl
          exact left attached
        rw [submissionBut, if_pos ⟨rfl, other⟩, Function.update_self]
      · rw [Function.update_of_ne (Ne.symm here)]
        exact List.sublist_append_left _ _
    · exact List.sublist_append_left _ _
  | disconnect slot who =>
    rw [requestsAfter]
    split
    · by_cases here : s = slot
      · rw [here, Function.update_self]
        exact List.nil_sublist _
      · rw [Function.update_of_ne here]
        exact List.sublist_append_left _ _
    · exact List.sublist_append_left _ _
  | executed item =>
    rw [requestsAfter]
    by_cases here : s = item.slot
    · rw [here, Function.update_self]
      exact List.sublist_append_left _ _
    · rw [Function.update_of_ne here]
      exact List.sublist_append_left _ _
  | _ => exact List.sublist_append_left _ _

/-- An event, after a client has left: what others submit may get into the queue. -/
theorem toTake_receive (serving : InService n x)
    (left : (x.coordinator.slot s).client ≠ some client) {e : Event} {later : List Event}
    (first : x.events = e :: later) (stays : e ≠ .shutdown) (received : y = { x with
      coordinator := x.coordinator.handle e, events := later }.collect) :
    (y.toTake s client).Sublist (x.toTake s client) := by
  obtain ⟨requested, requests⟩ := receive_requests serving stays received
  have queued := inbound_requestsAfter_sublist left e
  have events : y.events = later := by rw [received, collect]
  have arrives : ((x.coordinator.requestsAfter e s).inbound ++
      later.flatMap (submissionBut s client)).Sublist
        ((x.coordinator.requestSide s).inbound ++ x.events.flatMap (submissionBut s client)) := by
    rw [first, List.flatMap_cons, ← List.append_assoc]
    exact queued.append_right _
  rw [toTake, toTake, requested, requests, events]
  exact arrives.append_left _

/-- A request of the slot goes from the front of the queue to the end of those handed out. -/
theorem toTake_pump (serving : InService n x) (s : SlotId) (client : ClientId) :
    x.pump.toTake s client = x.toTake s client := by
  have events : x.pump.events = x.events := rfl
  rcases pump_requests serving with
    ⟨requested, requests⟩ | ⟨item, inbound, first, requests, requested⟩
  · rw [toTake, toTake, requested, requests, events]
  · rw [toTake, toTake, requested, requests, events, List.filter_append]
    by_cases here : item.slot = s
    · subst here
      rw [first, Function.update_self]
      simp
    · rw [Function.update_of_ne (Ne.symm here)]
      simp [here]

/-- One move, after a client has left: what the engine takes comes from the front, and what others
submit is put at the end. -/
theorem toTake_of_move (serving : InService n x) (left : (x.coordinator.slot s).client ≠ some client)
    (runs : y.isRunning = true) (moved : x.move? move = some y) :
    (takenIn s (x, move) ++ y.toTake s client).Sublist
      (x.toTake s client ++ submittedBut s client move) := by
  have quiet {events : List Event} (same : events.flatMap (submissionBut s client) =
      x.events.flatMap (submissionBut s client)) :
        ((requestedItems x.wakes).filter (·.slot == s) ++ ((x.coordinator.requestSide s).inbound ++
          events.flatMap (submissionBut s client))).Sublist (x.toTake s client ++ []) := by
    rw [same, List.append_nil]
    exact List.Sublist.refl _
  have silent {e : Event} (nothing : submissionBut s client e = []) :
      (x.events ++ [e]).flatMap (submissionBut s client) =
        x.events.flatMap (submissionBut s client) := by
    rw [List.flatMap_append, List.flatMap_singleton, nothing, List.append_nil]
  have equal {l l' : List Item} (same : l = l') : l.Sublist l' := same ▸ List.Sublist.refl l
  cases moved_of_move serving.running moved with
  | ask item resume now free => exact quiet (silent rfl)
  | say move e now posts =>
    have nothingTaken : takenIn s (x, move) = [] := by cases move <;> cases posts <;> rfl
    refine equal ?_
    rw [nothingTaken, submittedBut, posts, toTake, toTake]
    simp only [Option.toList_some, List.flatMap_append, List.flatMap_singleton, List.append_assoc,
      List.nil_append]
  | abandon call => exact quiet rfl
  | idle reply => exact quiet rfl
  | finish request rest reply now top => exact quiet (silent rfl)
  | resume question resume rest answer wakes now top first own =>
    refine equal ?_
    rw [toTake, toTake, takenIn, first]
    exact (List.append_nil _).symm
  | drop question resume rest answer wakes top first =>
    refine equal ?_
    rw [toTake, toTake, takenIn, first]
    exact (List.append_nil _).symm
  | serve question resume rest request wakes now top first =>
    refine equal ?_
    have front : request :: requestedItems wakes = [request] ++ requestedItems wakes := rfl
    have nothing : submittedBut s client (.wake : Move κ) = [] := rfl
    rw [toTake, toTake, takenIn, first, requestedItems_execute, front, nothing, List.append_nil,
      List.filter_append, List.append_assoc]
    rfl
  | receive e later first =>
    have stays : e ≠ .shutdown := by
      rintro rfl
      exact Bool.false_ne_true ((running_handle_shutdown x.coordinator).symm.trans runs)
    exact (toTake_receive serving left first stays rfl).trans (List.sublist_append_left _ _)
  | pump =>
    rw [toTake_pump serving]
    exact List.sublist_append_left _ _

/-! ### Marks -/

/-- What the engine says by itself has no mark. -/
def Spares (mine : Item → Bool) : Event → Prop
  | .submit item _ => mine item.request = false
  | _ => True

/-- Executor and callers are honest, and what the engine says by itself has no mark. -/
def Truthful (caller : CallId → SlotId × ClientId) (mine : Item → Bool) (x : Exchange κ)
    (move : Move κ) : Prop := x.Honest caller move ∧ ∀ e ∈ x.posted? move, Spares mine e

theorem truthful_receive (x : Exchange κ) : x.Truthful caller mine .receive :=
  ⟨trivial, fun _ none => nomatch none⟩

theorem truthful_pump (x : Exchange κ) : x.Truthful caller mine .pump :=
  ⟨trivial, fun _ none => nomatch none⟩

/-- Calls are made by their owners, also when they arrive. -/
theorem Honest.callOwned_posted (honest : x.Honest caller move) (posts : x.posted? move = some e) :
    CallOwned caller (.receive e) := by
  cases move with
  | ask item resume =>
    obtain rfl := Option.some.inj posts
    trivial
  | finish reply =>
    rw [posted?] at posts
    split at posts
    · obtain rfl := Option.some.inj posts
      trivial
    · cases posts
  | _ => exact honest.callOwned posts

/-- What holds of every view in a course. -/
structure Fair (caller : CallId → SlotId × ClientId) (mine : Item → Bool) (v : View) : Prop where
  numbered : v.front.Numbered
  owned : ∀ e ∈ v.events, CallOwned caller (.receive e)
  spared : ∀ e ∈ v.events, Spares mine e
  held : v.coordinator.Held fun _ => True
  unmarked : ∀ question ∈ v.coordinator.questions, mine question.request = false

theorem fair_ofCapacity (caller : CallId → SlotId × ClientId) (mine : Item → Bool)
    (capacity : Nat) : Fair caller mine (ofCapacity capacity : Exchange κ).view where
  numbered _ _ none := nomatch none
  owned := List.forall_mem_nil _
  spared := List.forall_mem_nil _
  held := List.forall_mem_nil _
  unmarked := List.forall_mem_nil _

namespace Fair

/-- An act keeps this if it asks no question with a mark. -/
theorem act (h : Fair caller mine v) {a : Act} {events : List Event} (fewer : events ⊆ v.events)
    (spares : ∀ question ∈ questionsBy a, mine question.request = false) :
    Fair caller mine (v.act a events) where
  numbered := View.keeps_act (fun _ deal numbered => numbered.deal deal) h.numbered a events
  owned e member := h.owned e (fewer member)
  spared e member := h.spared e (fewer member)
  held := h.held.act a
  unmarked question waits := by
    rcases List.mem_append.mp (questions_act_subset h.held a waits) with before | asked
    · exact h.unmarked question before
    · exact spares question asked

/-- What an event asks has no mark. -/
theorem spares_receive (spares : Spares mine e) :
    ∀ question ∈ questionsBy (.receive e), mine question.request = false := by
  cases e with
  | submit item wait =>
    cases wait with
    | false => exact List.forall_mem_nil _
    | true => exact List.forall_mem_singleton.mpr spares
  | _ => exact List.forall_mem_nil _

theorem post (h : Fair caller mine v) (owned : CallOwned caller (.receive e))
    (spares : Spares mine e) : Fair caller mine (v.post e) := by
  rw [View.post]
  split
  · refine { h with owned := ?_, spared := ?_ }
    · rw [List.forall_mem_append, List.forall_mem_singleton]
      exact ⟨h.owned, owned⟩
    · rw [List.forall_mem_append, List.forall_mem_singleton]
      exact ⟨h.spared, spares⟩
  · exact h.act (List.Subset.refl _) (spares_receive spares)

theorem moves (h : Fair caller mine x.view) (truthful : x.Truthful caller mine move)
    (becomes : x.Shows move v) : Fair caller mine v := by
  cases becomes with
  | quiet posts => exact h
  | abandon call => exact { h with }
  | post posts => exact h.post (truthful.1.callOwned_posted posts) (truthful.2 _ posts)
  | @receive e later first =>
    have events : x.view.events = e :: later := first
    refine h.act ?_ (spares_receive (h.spared e ?_))
    · rw [events]
      exact List.subset_cons_self _ _
    · rw [events]
      exact List.mem_cons_self
  | pump running => exact h.act (List.Subset.refl _) (List.forall_mem_nil _)

end Fair

/-! ### Stocks -/

/-- The calls on a slot. -/
def callsOn (caller : CallId → SlotId × ClientId) (s : SlotId) (call : CallId) : Bool :=
  (caller call).1 == s

/-- The marked items that the calls on a slot have got, and those that are queued there. -/
def stock (caller : CallId → SlotId × ClientId) (mine : Item → Bool) (s : SlotId) (v : View) :
    List Item := v.front.stock (mine ·.request) (callsOn caller s) s

/-- A call waits on its own slot. -/
theorem apart_of_deals {c : Coordinator} {a : Act} {deals : List Deal} (does : c.Deals a deals)
    (owned : CallOwned caller a) : ∀ deal ∈ deals, deal.Apart (callsOn caller s) s := by
  intro deal member
  cases does.forall_in deal member with
  | @wait u client items call =>
    intro other
    rw [callsOn, show caller call = (u, client) from owned]
    exact beq_eq_false_iff_ne.mpr other
  | _ => trivial

/-- Of what comes to a slot in an act, only a reply has a mark. -/
theorem brings_sublist {c : Coordinator} {a : Act} {deals : List Deal} (does : c.Deals a deals)
    (unmarked : ∀ question ∈ c.questions, mine question.request = false)
    (spares : ∀ e, a = .receive e → Spares mine e) {replies : List Item}
    (arrives : ∀ item, a = .receive (.executed item) → item.slot = s → replies = [item]) :
    ((deals.flatMap (Deal.brings s)).filter (mine ·.request)).Sublist
      (replies.filter (mine ·.request)) := by
  have nothing {items : List Item} (none : ∀ item ∈ items, mine item.request = false) :
      (items.filter (mine ·.request)).Sublist (replies.filter (mine ·.request)) := by
    rw [List.filter_eq_nil_iff.mpr fun item member => Bool.eq_false_iff.mp (none item member)]
    exact List.nil_sublist _
  rcases does.brings_cases s with
    none | ⟨e, item, rfl, brings, here, one⟩ | ⟨call, rfl, few⟩ | ⟨gone, -, -, -, p, innermost, one⟩
  · exact nothing (none ▸ List.forall_mem_nil _)
  · rw [one]
    rcases brings with rfl | ⟨wait, rfl⟩
    · rw [arrives item rfl here]
    · exact nothing (List.forall_mem_singleton.mpr (spares _ rfl))
  · refine nothing fun item member => unmarked item ?_
    obtain ⟨p, waits, rfl⟩ := List.mem_map.mp (List.mem_filter.mp (few member)).1
    exact List.mem_map_of_mem (List.mem_reverse.mp waits)
  · refine nothing ?_
    rw [one, List.forall_mem_singleton]
    exact unmarked _ (List.mem_map_of_mem (List.mem_of_mem_head? innermost))

/-- What comes to a slot in an act of a running coordinator. -/
theorem stock_act (h : Fair caller mine v) (output : ∀ text, mine (outputItem text) = false)
    (apart : v.front.Apart (callsOn caller s) s) {a : Act} (owned : CallOwned caller a)
    (spares : ∀ e, a = .receive e → Spares mine e) {replies : List Item}
    (arrives : ∀ item, a = .receive (.executed item) → item.slot = s → replies = [item])
    (events : List Event) : (v.act a events).front.Apart (callsOn caller s) s ∧
      (stock caller mine s (v.act a events)).Sublist
        (stock caller mine s v ++ replies.filter (mine ·.request)) := by
  obtain ⟨deals, does, leads⟩ := View.exists_deals v a events
  obtain ⟨apartNow, stocked⟩ : _ ∧ (stock caller mine s (v.act a events)).Sublist _ :=
    leads.stock output apart (apart_of_deals does owned)
  exact ⟨apartNow, stocked.trans ((brings_sublist does h.unmarked spares arrives).append_left _)⟩

/-- After the end, nothing comes to a slot. -/
theorem stock_act_of_stopped (stopped : v.coordinator.running = false)
    (apart : v.front.Apart (callsOn caller s) s) (e : Event) (events : List Event) :
    (v.act (.receive e) events).front.Apart (callsOn caller s) s ∧
      (stock caller mine s (v.act (.receive e) events)).Sublist (stock caller mine s v) := by
  rcases v.front_act_of_stopped stopped e events with
    same | ⟨u, client, items, call, -, refused⟩
  · rw [stock, same]
    exact ⟨apart, List.Sublist.refl _⟩
  · rw [stock, refused]
    refine ⟨apart.deal (.refuse call .stopped) trivial, ?_⟩
    have stocked : (Front.stock (mine ·.request) _ s _).Sublist _ :=
      Front.stock_deal apart (.refuse call .stopped)
    have nothing : Deal.brings s (.refuse call .stopped) = [] := rfl
    rwa [nothing, List.filter_nil, List.append_nil] at stocked

/-- What comes to a slot in a move, as long as the coordinator runs. -/
theorem stock_of_shows (running : x.isRunning = true) (h : Fair caller mine x.view)
    (output : ∀ text, mine (outputItem text) = false)
    (apart : x.view.front.Apart (callsOn caller s) s) (becomes : x.Shows move v) :
    v.front.Apart (callsOn caller s) s ∧ (stock caller mine s v).Sublist
      (stock caller mine s x.view ++ (answeredIn s (x, move)).filter (mine ·.request)) := by
  cases becomes with
  | quiet posts => exact ⟨apart, List.sublist_append_left _ _⟩
  | abandon call => exact ⟨apart, List.sublist_append_left _ _⟩
  | @post move e posts =>
    rw [View.post_of_running running]
    exact ⟨apart, List.sublist_append_left _ _⟩
  | @receive e later first =>
    have known : e ∈ x.view.events := by
      rw [show x.view.events = e :: later from first]
      exact List.mem_cons_self
    have answered : answeredIn s (x, .receive) = repliesTo s e := by
      rw [answeredIn, first]
      exact List.append_nil _
    rw [answered]
    refine stock_act h output apart (h.owned e known) ?_ ?_ later
    · rintro _ ⟨⟩
      exact h.spared e known
    · rintro item ⟨⟩ here
      exact if_pos here
  | pump runs =>
    refine stock_act (a := .pump x.abandoned.contains) h output apart trivial ?_ ?_ _
    · rintro _ ⟨⟩
    · rintro item ⟨⟩

/-- What comes to a slot in a move after the end. -/
theorem stock_of_shows_of_stopped (stopped : x.isRunning = false)
    (apart : x.view.front.Apart (callsOn caller s) s) (becomes : x.Shows move v) :
    v.front.Apart (callsOn caller s) s ∧
      (stock caller mine s v).Sublist (stock caller mine s x.view) := by
  cases becomes with
  | quiet posts => exact ⟨apart, List.Sublist.refl _⟩
  | abandon call => exact ⟨apart, List.Sublist.refl _⟩
  | post posts =>
    rw [View.post_of_stopped stopped]
    exact stock_act_of_stopped stopped apart _ _
  | receive first => exact stock_act_of_stopped stopped apart _ _
  | pump running => exact absurd (stopped.symm.trans running) Bool.false_ne_true

/-! ### Ledgers -/

/-- The requests of a slot that have not been answered: those that the engine has taken, and then
those that it has not taken. -/
def inWork (s : SlotId) (client : ClientId) (x : Exchange κ) : List Item :=
  x.opened s ++ (x.toTake s client).map Item.request

/-- One move, after a client has left: what is answered comes from the front, and what others submit
is put at the end. -/
theorem inWork_of_move (serving : InService n x) (honest : x.Honest caller move)
    (left : (x.coordinator.slot s).client ≠ some client) (moved : x.move? move = some y) :
    ((answeredIn s (x, move)).map Item.request ++
      if y.isRunning then y.inWork s client else []).Sublist
        (x.inWork s client ++ (submittedBut s client move).map Item.request) := by
  have opens := opened_of_move (s := s) serving honest moved
  split
  · next runs =>
    have takes := (toTake_of_move serving left runs moved).map Item.request
    rw [List.map_append, List.map_append] at takes
    rw [inWork, inWork, ← List.append_assoc, ← opens, List.append_assoc, List.append_assoc]
    exact takes.append_left _
  · -- An event that stops the coordinator takes nothing.
    cases move with
    | receive =>
      have nothing : takenIn s (x, .receive) = [] := rfl
      rw [nothing, List.map_nil, List.append_nil] at opens
      rw [List.append_nil, inWork, opens, List.append_assoc, List.append_assoc]
      exact List.sublist_append_left _ _
    | _ => exact List.nil_sublist _

/-- What holds of every state of a course. -/
structure Watched (caller : CallId → SlotId × ClientId) (mine : Item → Bool) (s : SlotId)
    (x : Exchange κ) : Prop where
  serving : (∃ n, InService n x) ∨ x.Ended
  fair : Fair caller mine x.view
  apart : x.view.front.Apart (callsOn caller s) s

namespace Watched

theorem start (caller : CallId → SlotId × ClientId) (mine : Item → Bool) (s : SlotId)
    (capacity : Nat) : Watched caller mine s (ofCapacity capacity : Exchange κ) where
  serving := .inl ⟨0, inService_ofCapacity capacity⟩
  fair := fair_ofCapacity caller mine capacity
  apart _ _ _ none := nomatch none

theorem moves (h : Watched caller mine s x) (output : ∀ text, mine (outputItem text) = false)
    (truthful : x.Truthful caller mine move) (serves : move = .pump → x.isRunning = true)
    (moved : x.move? move = some y) : Watched caller mine s y := by
  have becomes := shows_of_move serves moved
  have fair := h.fair.moves truthful becomes
  rcases h.serving with ⟨n, serving⟩ | ended
  · refine ⟨?_, fair, (stock_of_shows serving.running h.fair output h.apart becomes).1⟩
    exact (inService_or_ended_of_move move (.inl serving) truthful.1.keepsSlot serves moved).imp_left
      fun serving => ⟨_, serving⟩
  · have apart : _ ∧ (stock caller mine s y.view).Sublist (stock caller mine s x.view) :=
      stock_of_shows_of_stopped ended.stopped h.apart becomes
    exact ⟨.inr (ended.moves serves moved), fair, apart.1⟩

/-- What does not matter for clients. -/
theorem of_view_eq (h : Watched caller mine s x) (same : y.view = x.view)
    (serving : (∃ n, InService n y) ∨ y.Ended) : Watched caller mine s y :=
  ⟨serving, same ▸ h.fair, same ▸ h.apart⟩

theorem askStopped (h : Watched caller mine s x) (item : Item) :
    Watched caller mine s (x.askStopped item).2 := by
  refine h.of_view_eq (view_askStopped x item) ?_
  exact h.serving.imp (fun ⟨_, serving⟩ => ⟨_, serving.askStopped item⟩) (·.askStopped item)

/-- A coordinator that has stopped and has received all events. -/
theorem close (h : Watched caller mine s x) (stopped : x.isRunning = false)
    (none : x.events = []) :
    (x.coordinate 0).view = x.view ∧ Watched caller mine s (x.coordinate 0) := by
  have ended : x.Ended := h.serving.resolve_left fun ⟨n, serving⟩ =>
    Bool.false_ne_true (stopped.symm.trans serving.running)
  have same := view_close stopped none ended.settled
  refine ⟨same, h.of_view_eq same ?_⟩
  exact (inService_or_ended_coordinate (n := 0) (.inr ended) 0).imp_left fun serving => ⟨0, serving⟩

theorem shutdown (h : Watched caller mine s x) : Watched caller mine s x.shutdown := by
  have serving : (∃ n, InService n x.shutdown) ∨ x.shutdown.Ended :=
    h.serving.imp (fun ⟨n, serving⟩ => ⟨n, serving.shutdown⟩) Ended.shutdown
  have fair := h.fair.post (e := .shutdown) trivial trivial
  refine ⟨serving, view_shutdown x ▸ fair, ?_⟩
  rw [view_shutdown]
  rcases h.serving with ⟨n, serving⟩ | ended
  · rw [View.post_of_running serving.running]
    exact h.apart
  · have apart : _ ∧ (stock caller mine s _).Sublist (stock caller mine s x.view) :=
      stock_act_of_stopped ended.stopped h.apart .shutdown x.view.events
    rw [View.post_of_stopped ended.stopped]
    exact apart.1

end Watched

/-- Where marked requests of a slot can be: answered and delivered or queued, and, as long as the
coordinator runs, not answered yet. -/
def ledger (caller : CallId → SlotId × ClientId) (mine : Item → Bool) (s : SlotId)
    (client : ClientId) (x : Exchange κ) : List Item :=
  (stock caller mine s x.view).map Item.request ++
    (if x.isRunning then x.inWork s client else []).filter mine

theorem ledger_of_stopped (stopped : x.isRunning = false) :
    x.ledger caller mine s client = (stock caller mine s x.view).map Item.request := by
  rw [ledger, if_neg (Bool.eq_false_iff.mp stopped)]
  exact List.append_nil _

/-- One move, after a client has left: marked requests are only shifted, and those that others
submit are put at the end. -/
theorem ledger_of_move (h : Watched caller mine s x)
    (output : ∀ text, mine (outputItem text) = false) (left : x.view.front.Left s client)
    (truthful : x.Truthful caller mine move) (serves : move = .pump → x.isRunning = true)
    (moved : x.move? move = some y) : (y.ledger caller mine s client).Sublist
      (x.ledger caller mine s client ++
        ((submittedBut s client move).map Item.request).filter mine) := by
  have becomes := shows_of_move serves moved
  rcases h.serving with ⟨n, serving⟩ | ended
  · have stocked := (stock_of_shows serving.running h.fair output h.apart becomes).2
    have shifted := (inWork_of_move serving truthful.1 left.absent moved).filter mine
    have replies : ((answeredIn s (x, move)).filter (mine ·.request)).map Item.request =
        ((answeredIn s (x, move)).map Item.request).filter mine := List.filter_map.symm
    have delivered := stocked.map Item.request
    rw [List.map_append, replies] at delivered
    rw [List.filter_append, List.filter_append] at shifted
    rw [ledger, ledger, if_pos serving.running]
    refine (delivered.append_right _).trans ?_
    rw [List.append_assoc, List.append_assoc]
    exact shifted.append_left _
  · obtain ⟨-, stocked⟩ :
        _ ∧ (stock caller mine s y.view).Sublist (stock caller mine s x.view) :=
      stock_of_shows_of_stopped ended.stopped h.apart becomes
    rw [ledger_of_stopped ended.stopped, ledger_of_stopped (ended.moves serves moved).stopped]
    exact (stocked.map _).trans (List.sublist_append_left _ _)

theorem ledger_askStopped (item : Item) :
    (x.askStopped item).2.ledger caller mine s client = x.ledger caller mine s client := by
  obtain ⟨now, started⟩ := exists_start x
  rw [askStopped, number, started]
  rfl

theorem ledger_shutdown (h : Watched caller mine s x) : (x.shutdown.ledger caller mine s client).Sublist
    (x.ledger caller mine s client) := by
  rcases h.serving with ⟨n, serving⟩ | ended
  · have posted : x.shutdown = { x with state := .stopped, events := x.events ++ [.shutdown] } :=
      post_of_running (x := { x with state := .stopped }) serving.running .shutdown
    have replied : repliedItems (x.events ++ [Event.shutdown]) = repliedItems x.events := by
      rw [repliedItems_append]
      exact List.append_nil _
    have submitted : (x.events ++ [Event.shutdown]).flatMap (submissionBut s client) =
        x.events.flatMap (submissionBut s client) := by
      rw [List.flatMap_append]
      exact List.append_nil _
    have same : x.shutdown.inWork s client = x.inWork s client := by
      rw [posted, inWork, inWork, opened, opened, toTake, toTake, replied, submitted]
    rw [ledger, ledger, same, posted]
    exact List.Sublist.refl _
  · have stocked : _ ∧ (stock caller mine s _).Sublist (stock caller mine s x.view) :=
      stock_act_of_stopped ended.stopped h.apart .shutdown x.view.events
    rw [ledger_of_stopped ended.stopped, ledger_of_stopped ended.shutdown.stopped, view_shutdown,
      View.post_of_stopped ended.stopped]
    exact stocked.2.map _

/-! ### Courses -/

theorem invariant_watched (caller : CallId → SlotId × ClientId) (s : SlotId)
    (output : ∀ text, mine (outputItem text) = false) :
    Invariant (κ := κ) (Truthful caller mine) (fun _ => ([] : List Item))
      fun _ x => Watched caller mine s x where
  receives := ⟨truthful_receive, rfl⟩
  pumps := ⟨truthful_pump, rfl⟩
  moves h truthful serves moved := h.moves output truthful serves moved
  asks item h := h.askStopped item
  closes h stopped none := (h.close stopped none).2
  stops h := h.shutdown

/-- What deeds keep after a client has left. -/
structure Shifted (caller : CallId → SlotId × ClientId) (mine : Item → Bool) (s : SlotId)
    (client : ClientId) (y : Exchange κ) (brought : List Item) (x : Exchange κ) : Prop where
  watched : Watched caller mine s x
  left : x.view.front.Left s client
  grown : y.results <+: x.view.results
  shifted : (x.ledger caller mine s client).Sublist
    (y.ledger caller mine s client ++ (brought.map Item.request).filter mine)

theorem invariant_shifted (caller : CallId → SlotId × ClientId) (s : SlotId) (client : ClientId)
    (output : ∀ text, mine (outputItem text) = false) (y : Exchange κ) :
    Invariant (Truthful caller mine) (submittedBut s client)
      (Shifted caller mine s client y) where
  receives := ⟨truthful_receive, rfl⟩
  pumps := ⟨truthful_pump, rfl⟩
  moves {brought x move z} h truthful serves moved := by
    have becomes := shows_of_move serves moved
    refine ⟨h.watched.moves output truthful serves moved, ?_, ?_, ?_⟩
    · exact becomes.keeps_front (fun _ deal left => left.deal deal) h.left
    · exact h.grown.trans becomes.results_prefix
    · have shifted := ledger_of_move h.watched output h.left truthful serves moved
      rw [List.map_append, List.filter_append, ← List.append_assoc]
      exact shifted.trans (h.shifted.append_right _)
  asks {brought x} item h := by
    have same := view_askStopped x item
    refine ⟨h.watched.askStopped item, ?_, ?_, ?_⟩
    · rw [same]
      exact h.left
    · rw [same]
      exact h.grown
    · rw [ledger_askStopped]
      exact h.shifted
  closes {brought x} h stopped none := by
    obtain ⟨same, watched⟩ := h.watched.close stopped none
    have still : (x.coordinate 0).isRunning = false :=
      (congrArg (·.coordinator.running) same).trans stopped
    refine ⟨watched, ?_, ?_, ?_⟩
    · rw [same]
      exact h.left
    · rw [same]
      exact h.grown
    · rw [ledger_of_stopped still, same, ← ledger_of_stopped stopped]
      exact h.shifted
  stops {brought x} h := by
    refine ⟨h.watched.shutdown, ?_, ?_, ?_⟩
    · rw [view_shutdown]
      exact View.keeps_post (fun _ deal left => left.deal deal) h.left _
    · rw [view_shutdown]
      exact h.grown.trans (View.results_post x.view .shutdown)
    · exact (ledger_shutdown h.watched).trans h.shifted

/-- What is left of a slot when its client has left. -/
theorem leaves_of_receive (running : x.isRunning = true)
    (attached : x.coordinator.clients s = some client) {later : List Event}
    (first : x.events = .disconnect s client :: later) (left : x.receive? = some y) :
    y.view.front = x.view.front.deal (.leave s) ∧ (y.coordinator.requestSide s).inbound = [] := by
  obtain rfl := Option.some.inj ((receive?_cons first).symm.trans left)
  have handled : x.coordinator.handle (.disconnect s client) = x.coordinator.disconnect s client :=
    if_pos running
  have acted : (x.coordinator.after x.results).act (.receive (.disconnect s client)) =
      (x.coordinator.after x.results).disconnect s client := if_pos running
  have here : (x.coordinator.slot s).client = some client := attached
  refine ⟨?_, ?_⟩
  · have seen := View.front_act x.view (.receive (.disconnect s client)) later
    exact (seen.trans (congrArg Coordinator.front acted)).trans (front_disconnect attached)
  · have requests := requestSide_serve x.coordinator (e := .disconnect s client) nofun
    have dropped : ((x.coordinator.handle (.disconnect s client)).requestSide s).inbound = [] := by
      rw [handled, ← serve, requests, requestsAfter, if_pos here, Function.update_self]
    exact dropped

/-- The requests of a slot that are under way, in the order in which they are answered. -/
theorem map_underWay (serving : InService n x) (s : SlotId) : (x.underWay s).map Item.request =
    x.opened s ++ ((requestedItems x.wakes).filter (·.slot == s)).map Item.request := by
  have once := length_underWay_le serving s
  rw [underWay, List.filter_append, List.filter_append] at once ⊢
  rw [opened, List.filter_append]
  generalize (repliedItems x.events).filter (·.slot == s) = replies at once ⊢
  generalize (servedItems x.stack).filter (·.slot == s) = executed at once ⊢
  generalize (requestedItems x.wakes).filter (·.slot == s) = requested at once ⊢
  cases requested with
  | nil => rw [List.nil_append, List.map_nil, List.append_nil]
  | cons request rest =>
    -- There is no room for another one.
    simp only [List.length_append, List.length_cons] at once
    obtain rfl : replies = [] := List.length_eq_zero_iff.mp (by omega)
    obtain rfl : executed = [] := List.length_eq_zero_iff.mp (by omega)
    simp

/-- The marked requests whose replies the calls on a slot have got. -/
def answeredTo (caller : CallId → SlotId × ClientId) (mine : Item → Bool) (s : SlotId)
    (results : List Effect) : List Item :=
  ((gotBy (callsOn caller s) (endedBy results)).map Item.request).filter mine

theorem answeredTo_append (results more : List Effect) :
    answeredTo caller mine s (results ++ more) =
      answeredTo caller mine s results ++ answeredTo caller mine s more := by
  rw [answeredTo, endedBy_append, gotBy_append, List.map_append, List.filter_append]
  rfl

theorem map_stock (v : View) : (stock caller mine s v).map Item.request =
    answeredTo caller mine s (v.results ++ v.coordinator.sent) ++
      ((v.front.desks s).outbound.map Item.request).filter mine := by
  rw [stock, Front.stock, answeredTo, ← List.filter_append, ← List.map_append]
  exact List.filter_map.symm

/-- A client leaves a slot, and the course goes on. Requests are told apart from what the engine has
for clients by a mark. All marked items that calls on the slot get from then on are replies to marked
requests, one for each, in the same order: to the one that was being executed or was on its way
when the client left, if there was one, and to those that other clients submit on the slot. -/
theorem delivered_after_leaving {capacity : Nat} {before after : List (Deed κ)}
    {later : List Event} (reached : Course (Truthful caller mine) (ofCapacity capacity) before x)
    (output : ∀ text, mine (outputItem text) = false) (running : x.isRunning = true)
    (attached : x.coordinator.clients s = some client)
    (first : x.events = .disconnect s client :: later) (left : x.receive? = some y)
    (onward : Course (Truthful caller mine) y after z) :
    (y.underWay s).length ≤ 1 ∧ ∃ more, z.results = y.results ++ more ∧
      (answeredTo caller mine s more).Sublist
        (((y.underWay s ++ (y.events.flatMap (submissionBut s client) ++
          gathered (submittedBut s client) after)).map Item.request).filter mine) := by
  have always := invariant_watched caller s (κ := κ) output
  have watched : Watched caller mine s x := always.course reached [] (.start caller mine s capacity)
  have watchedNow : Watched caller mine s y := always.receive [] watched left
  obtain ⟨seen, dropped⟩ := leaves_of_receive running attached first left
  have gone : y.view.front.Left s client := by
    refine ⟨?_, ?_⟩
    · rw [seen, Front.client_deal, Front.clientsAfter, if_pos rfl]
      exact nofun
    · rw [seen]
      exact Nat.lt_of_lt_of_le (watched.fair.numbered s client attached) (Front.next_le_deal ..)
  obtain ⟨n, serving⟩ : ∃ n, InService n y := by
    obtain ⟨n, serving⟩ := watched.serving.resolve_right fun ended =>
      Bool.false_ne_true (ended.stopped.symm.trans running)
    obtain rfl := Option.some.inj ((receive?_cons first).symm.trans left)
    exact ⟨n, serving.receive first nofun⟩
  have shifted := (invariant_shifted caller s client output y).course onward []
    ⟨watchedNow, gone, List.prefix_rfl, List.sublist_append_left _ _⟩
  obtain ⟨more, grown⟩ := shifted.grown
  refine ⟨length_underWay_le serving s, more, grown.symm, ?_⟩
  -- Nothing is left in the queues of the slot.
  have empty : (y.view.front.desks s).outbound = [] := by
    rw [seen, Front.deal, Front.desks_set_self]
  have results : y.view.results ++ y.view.coordinator.sent = y.results := by
    rw [show y.view.coordinator.sent = [] from serving.settled, List.append_nil]
    rfl
  have work : y.inWork s client =
      (y.underWay s ++ y.events.flatMap (submissionBut s client)).map Item.request := by
    rw [inWork, toTake, dropped, List.nil_append, List.map_append, List.map_append,
      map_underWay serving, List.append_assoc]
  have kept : y.ledger caller mine s client =
      answeredTo caller mine s y.results ++ (y.inWork s client).filter mine := by
    rw [ledger, map_stock, if_pos serving.running, empty, results]
    exact congrArg (· ++ _) (List.append_nil _)
  have got : (answeredTo caller mine s y.results ++ answeredTo caller mine s more).Sublist
      (z.ledger caller mine s client) := by
    rw [← answeredTo_append, grown, ledger, map_stock, answeredTo_append, List.append_assoc,
      List.append_assoc]
    exact List.sublist_append_left _ _
  have bound := got.trans shifted.shifted
  rw [kept, List.append_assoc, List.append_sublist_append_left, work, List.nil_append,
    ← List.filter_append, ← List.map_append, List.append_assoc] at bound
  exact bound

/-- A client submits a request while the engine waits, and leaves while it is executed. -/
def leavingRun : List (Move Unit) :=
  attachedRun ++ [.call 1 ⟨2⟩ [numbered 7] 2, .receive, .pump, .wake, .disconnect 1 ⟨2⟩]

/-- Another client takes the slot and calls before the reply arrives. -/
def succeedingRun : List (Move Unit) :=
  [.connect 1 3, .receive, .call 1 ⟨3⟩ [] 4, .receive, .finish ((numbered 7).answered .done),
    .receive, .pump]

/-- The clients that make the calls. -/
def callerOf (call : CallId) : SlotId × ClientId := (1, if call = 2 then ⟨2⟩ else ⟨3⟩)

/-- The request of the client that leaves has a mark. -/
def marked (item : Item) : Bool := item.id == some 7

theorem exists_succession : ∃ x y z : Exchange Unit,
    Course (Truthful callerOf marked) (ofCapacity 64) (leavingRun.map .move) x ∧
      x.isRunning = true ∧ x.coordinator.clients 1 = some ⟨2⟩ ∧
      x.events = [.disconnect 1 ⟨2⟩] ∧ x.receive? = some y ∧
      Course (Truthful callerOf marked) y (succeedingRun.map .move) z ∧
      y.underWay 1 = [numbered 7] ∧ y.events = [] ∧
      z.results = y.results ++ [.attach 3 (.ok ⟨3⟩),
        .resolve 4 (.ok ⟨false, [(numbered 7).answered .done]⟩)] := by
  refine ⟨_, _, _, course_of_visited rfl ?_ ?_ rfl, rfl, rfl, rfl, rfl,
    course_of_visited rfl ?_ ?_ rfl, rfl, rfl, rfl⟩
  · simp only [leavingRun, attachedRun, List.cons_append, List.nil_append, List.zip_cons_cons,
      List.zip_nil_right, List.forall_mem_cons, Truthful, Honest, posted?, said?, Option.mem_def,
      Option.some.injEq, forall_eq', reduceCtorEq, false_implies, Spares, implies_true, and_true,
      true_and]
    exact ⟨rfl, rfl, List.forall_mem_nil _⟩
  · simp only [List.forall_mem_cons]
    exact ⟨rfl, rfl, rfl, rfl, rfl, rfl, rfl, rfl, rfl, rfl, rfl, rfl, List.forall_mem_nil _⟩
  · simp only [succeedingRun, List.zip_cons_cons, List.zip_nil_right, List.forall_mem_cons,
      Truthful, Honest, posted?, said?, Option.mem_def, Option.some.injEq, forall_eq', reduceCtorEq,
      false_implies, Spares, implies_true, and_true, true_and]
    refine ⟨rfl, ⟨?_, ?_⟩, List.forall_mem_nil _⟩
    · rintro request rest ⟨⟩
      exact ⟨.done, rfl⟩
    · rintro e ⟨⟩
      trivial
  · simp only [List.forall_mem_cons]
    exact ⟨rfl, rfl, rfl, rfl, rfl, rfl, rfl, rfl, List.forall_mem_nil _⟩

theorem delivered_after_leaving_succession : ∃ (y z : Exchange Unit) (more : List Effect),
    z.results = y.results ++ more ∧ answeredTo callerOf marked 1 more = [numbered 7] ∧
      (answeredTo callerOf marked 1 more).Sublist ((y.underWay 1).map Item.request) := by
  obtain ⟨x, y, z, reached, running, attached, first, left, onward, under, none, results⟩ :=
    exists_succession
  obtain ⟨-, more, grown, answered⟩ :=
    delivered_after_leaving reached (fun _ => rfl) running attached first left onward
  obtain rfl := List.append_cancel_left (grown.symm.trans results)
  refine ⟨y, z, _, results, rfl, ?_⟩
  rw [none, under] at answered
  rw [under]
  exact answered

/-- The reply to a request of a client that has left can be delivered to another client. -/
theorem delivered_to_successor :
    ¬∀ (capacity : Nat) (caller : CallId → SlotId × ClientId) (mine : Item → Bool) (s : SlotId)
      (client : ClientId) (before after : List (Deed Unit)) (x y z : Exchange Unit)
      (later : List Event) (more : List Effect),
        Course (Truthful caller mine) (ofCapacity capacity) before x →
        (∀ text, mine (outputItem text) = false) → x.isRunning = true →
        x.coordinator.clients s = some client → x.events = .disconnect s client :: later →
        x.receive? = some y → Course (Truthful caller mine) y after z →
        ((y.events.flatMap (submissionBut s client) ++
          gathered (submittedBut s client) after).map Item.request).filter mine = [] →
        z.results = y.results ++ more → answeredTo caller mine s more = [] := by
  intro dropped
  obtain ⟨x, y, z, reached, running, attached, first, left, onward, -, none, results⟩ :=
    exists_succession
  have never := dropped 64 callerOf marked 1 ⟨2⟩ _ _ x y z [] _ reached (fun _ => rfl) running
    attached first left onward (by rw [none]; rfl) results
  cases never

end Exchange

end EngineLink
