import EngineLink.Proofs.Exchange.Deals

/-!
# What comes to a slot

Items are queued on a slot until a call on the slot takes all of them. So what the calls on a slot
get, and what is queued there in the end, was queued at first or has been put into the queue
meanwhile, each item once. Only a few acts put something into a queue.

## Main definitions

* `Coordinator.Front.stock` — what some calls have got and what is queued on their slot
* `Coordinator.Deal.brings` — what a deal puts into the queue of a slot

## Main results

* `Coordinator.Leads.stock` — what comes to a slot was there or is brought
* `Coordinator.Deals.brings_cases` — what an act brings to a slot
-/

namespace EngineLink.Coordinator

variable {c : Coordinator} {f g : Front} {deals : List Deal} {s : SlotId} {a : Act}

/-! ### Stocks -/

/-- What some calls have got. -/
def gotBy (ours : CallId → Bool) (ended : List (CallId × Except Status Batch)) : List Item :=
  ended.flatMap fun
    | (call, .ok batch) => if ours call then batch.items else []
    | _ => []

@[simp] theorem gotBy_append (ours : CallId → Bool)
    (ended more : List (CallId × Except Status Batch)) :
    gotBy ours (ended ++ more) = gotBy ours ended ++ gotBy ours more := List.flatMap_append

@[simp] theorem gotBy_error (ours : CallId → Bool) (call : CallId) (status : Status) :
    gotBy ours [(call, .error status)] = [] := rfl

theorem gotBy_ok (ours : CallId → Bool) (call : CallId) (batch : Batch) :
    gotBy ours [(call, .ok batch)] = if ours call then batch.items else [] :=
  List.flatMap_singleton ..

/-- The items of a kind that the calls on a slot have got, and those that are queued there. -/
def Front.stock (kind : Item → Bool) (ours : CallId → Bool) (s : SlotId) (f : Front) : List Item :=
  (gotBy ours f.ended ++ (f.desks s).outbound).filter kind

/-- No call that waits on another slot counts. -/
def Front.Apart (ours : CallId → Bool) (s : SlotId) (f : Front) : Prop :=
  ∀ u, u ≠ s → ∀ call ∈ (f.desks u).waiter, ours call = false

/-- What a deal puts into the queue of a slot. -/
def Deal.brings (s : SlotId) : Deal → List Item
  | .put u item => if u = s then [item] else []
  | _ => []

/-- No call that starts to wait on another slot counts. -/
def Deal.Apart (ours : CallId → Bool) (s : SlotId) : Deal → Prop
  | .wait u call => u ≠ s → ours call = false
  | _ => True

namespace Front

variable {kind : Item → Bool} {ours : CallId → Bool} {u : SlotId} {desk : Desk}

theorem Apart.set (apart : f.Apart ours s)
    (waits : u ≠ s → ∀ call ∈ desk.waiter, ours call = false) : (f.set u desk).Apart ours s := by
  intro v other
  by_cases same : v = u
  · subst same
    rw [desks_set_self]
    exact waits other
  · rw [desks_set_of_ne f same]
    exact apart v other

theorem Apart.dismiss (apart : f.Apart ours s) (u : SlotId) (result : Except Status Batch) :
    (f.dismiss u result).Apart ours s := by
  rw [Front.dismiss]
  split
  · exact apart
  · refine apart.set fun _ _ none => ?_
    cases none

theorem Apart.deal (apart : f.Apart ours s) (next : Deal) (own : next.Apart ours s) :
    (f.deal next).Apart ours s := by
  cases next with
  | put u item => exact apart.set (apart u)
  | wait u call =>
    refine (apart.dismiss u _).set fun other waiter same => ?_
    obtain rfl := Option.some.inj same
    exact own other
  | refuse call status => exact apart
  | attach u => exact (apart.dismiss u _).set (apart.dismiss u _ u)
  | leave u => exact (apart.dismiss u _).set (apart.dismiss u _ u)
  | handOver u busy => exact (apart.dismiss u _).set (apart.dismiss u _ u)
  | forget u call =>
    rw [Front.deal]
    split
    · refine apart.set fun _ _ none => ?_
      cases none
    · exact apart
  | close u => exact apart.dismiss u _

/-- A change to a desk that leaves its queue or drops it. -/
theorem stock_set (queued : desk.outbound.Sublist (f.desks u).outbound) :
    ((f.set u desk).stock kind ours s).Sublist (f.stock kind ours s) := by
  refine List.Sublist.filter kind (List.Sublist.append_left ?_ _)
  by_cases same : u = s
  · subst same
    rwa [desks_set_self]
  · simp only [desks_set_of_ne f (Ne.symm same), List.Sublist.refl]

/-- A call that ends without a batch gets nothing. -/
theorem stock_dismiss (f : Front) (u : SlotId) (status : Status) :
    ((f.dismiss u (.error status)).stock kind ours s).Sublist (f.stock kind ours s) := by
  rw [dismiss]
  split
  · exact List.Sublist.refl _
  · next call _ =>
    have same : ({ f.set u { f.desks u with waiter := none } with
        ended := f.ended ++ [(call, .error status)] } : Front).stock kind ours s =
          (f.set u { f.desks u with waiter := none }).stock kind ours s := by
      rw [stock, gotBy_append, gotBy_error, List.append_nil]
      rfl
    rw [same]
    exact stock_set (List.Sublist.refl _)

/-- A call that counts gets what is queued on the slot, and no other. -/
theorem stock_handOver (apart : f.Apart ours s) (u : SlotId) (busy : Bool) :
    ((f.deal (.handOver u busy)).stock kind ours s).Sublist (f.stock kind ours s) := by
  cases waits : (f.desks u).waiter with
  | none =>
    have nobody : f.dismiss u (.ok ⟨busy, (f.desks u).outbound⟩) = f := by rw [dismiss, waits]
    rw [deal, nobody]
    exact stock_set (List.nil_sublist _)
  | some call =>
    rw [deal_handOver waits]
    refine List.Sublist.filter kind ?_
    dsimp only
    rw [gotBy_append, gotBy_ok, List.append_assoc]
    refine List.Sublist.append_left ?_ _
    by_cases same : u = s
    · subst same
      rw [desks_set_self, List.append_nil]
      split
      · exact List.Sublist.refl _
      · exact List.nil_sublist _
    · rw [apart u same call waits, if_neg Bool.false_ne_true, List.nil_append]
      simp only [desks_set_of_ne f (Ne.symm same), List.Sublist.refl]

/-- A call ends without a batch, and then the desk changes. -/
theorem stock_set_dismiss (status : Status)
    (queued : desk.outbound.Sublist ((f.dismiss u (.error status)).desks u).outbound) :
    (((f.dismiss u (.error status)).set u desk).stock kind ours s).Sublist
      (f.stock kind ours s) := (stock_set queued).trans (stock_dismiss f u status)

/-- What comes to a slot was there or is brought. -/
theorem stock_deal (apart : f.Apart ours s) (deal : Deal) :
    ((f.deal deal).stock kind ours s).Sublist
      (f.stock kind ours s ++ (deal.brings s).filter kind) := by
  have less {g : Front} (fewer : (g.stock kind ours s).Sublist (f.stock kind ours s)) :
      (g.stock kind ours s).Sublist (f.stock kind ours s ++ (deal.brings s).filter kind) :=
    fewer.trans (List.sublist_append_left _ _)
  cases deal with
  | put u item =>
    by_cases same : u = s
    · subst same
      rw [Deal.brings, if_pos rfl, Front.deal, put, stock, stock, desks_set_self,
        ← List.filter_append, List.append_assoc]
      exact List.Sublist.refl _
    · have other : (f.put u item).stock kind ours s = f.stock kind ours s := by
        rw [stock, put, desks_set_of_ne f (Ne.symm same)]
        rfl
      exact less (other ▸ List.Sublist.refl _)
  | wait u call => exact less (stock_set_dismiss superseded (List.Sublist.refl _))
  | refuse call status =>
    refine less ?_
    rw [Front.deal, stock, gotBy_append, gotBy_error, List.append_nil]
    exact List.Sublist.refl _
  | attach u => exact less (stock_set_dismiss slotTaken (List.Sublist.refl _))
  | leave u => exact less (stock_set_dismiss clientGone (List.nil_sublist _))
  | handOver u busy => exact less (stock_handOver apart u busy)
  | forget u call =>
    rw [Front.deal]
    split
    · exact less (stock_set (List.Sublist.refl _))
    · exact less (List.Sublist.refl _)
  | close u => exact less (stock_dismiss f u _)

end Front

/-- What comes to a slot was there or is brought, if console output does not count. -/
theorem Leads.stock {kind : Item → Bool} {ours : CallId → Bool} (leads : Leads f deals g)
    (output : ∀ text, kind (outputItem text) = false) (apart : f.Apart ours s)
    (own : ∀ deal ∈ deals, deal.Apart ours s) :
    g.Apart ours s ∧ (g.stock kind ours s).Sublist
      (f.stock kind ours s ++ (deals.flatMap (Deal.brings s)).filter kind) := by
  induction leads with
  | nil =>
    rw [List.flatMap_nil, List.filter_nil, List.append_nil]
    exact ⟨apart, List.Sublist.refl _⟩
  | @output deals g text _ ih =>
    obtain ⟨apart, stocked⟩ := ih own
    refine ⟨apart.deal (.put SlotId.primary (outputItem text)) trivial, ?_⟩
    have queued : ((g.put SlotId.primary (outputItem text)).stock kind ours s).Sublist _ :=
      Front.stock_deal apart (.put SlotId.primary (outputItem text))
    have nothing : (Deal.brings s (.put SlotId.primary (outputItem text))).filter kind = [] := by
      rw [Deal.brings]
      split
      · exact List.filter_cons_of_neg (Bool.eq_false_iff.mp (output text))
      · rfl
    rw [nothing, List.append_nil] at queued
    exact queued.trans stocked
  | @deal deals g deal _ ih =>
    rw [List.forall_mem_append, List.forall_mem_singleton] at own
    obtain ⟨apart, stocked⟩ := ih own.1
    refine ⟨apart.deal deal own.2, ?_⟩
    rw [List.flatMap_append, List.flatMap_singleton, List.filter_append, ← List.append_assoc]
    exact (Front.stock_deal apart deal).trans (stocked.append_right _)

/-! ### What acts bring -/

theorem brings_puts (s u : SlotId) (items : List Item) :
    (items.map (.put u)).flatMap (Deal.brings s) = if u = s then items else [] := by
  rw [List.flatMap_map]
  split
  · next same => simp [Deal.brings, same]
  · next other => simp [Deal.brings, other]

theorem Deal.IsLast.brings_eq {deal : Deal} (last : deal.IsLast) : deal.brings s = [] := by
  cases deal with
  | put u item => exact last.elim
  | _ => rfl

theorem Deal.HandsOut.brings_eq {gone : CallId → Bool} {deal : Deal} (out : deal.HandsOut gone) :
    deal.brings s = [] := by
  cases deal with
  | put u item => exact out.elim
  | _ => rfl

/-- What an act brings to a slot, besides console output: nothing, what the engine has for it, open
questions when a client comes, or the innermost question when nothing else is queued. -/
theorem Deals.brings_cases (h : c.Deals a deals) (s : SlotId) :
    deals.flatMap (Deal.brings s) = [] ∨
    (∃ e item, a = .receive e ∧ (e = .executed item ∨ ∃ wait, e = .submit item wait) ∧
      item.slot = s ∧ deals.flatMap (Deal.brings s) = [item]) ∨
    (∃ call, a = .receive (.connect s call) ∧
      deals.flatMap (Deal.brings s) ⊆ c.questionsTo s) ∨
    ∃ gone, a = .pump gone ∧ s = SlotId.primary ∧ c.primaryQueue = [] ∧
      ∃ p ∈ c.pending.head?, deals.flatMap (Deal.brings s) = [p.question] := by
  cases h with
  | @bring e item items brings few =>
    rw [brings_puts]
    split
    · next here =>
      rcases List.sublist_cons_iff.mp few with none | ⟨rest, rfl, none⟩
      · exact .inl (List.sublist_nil.mp none)
      · obtain rfl := List.sublist_nil.mp none
        exact .inr (.inl ⟨e, item, rfl, brings, here, rfl⟩)
    · exact .inl rfl
  | @connect u call added among =>
    rw [List.flatMap_cons, brings_puts]
    by_cases here : u = s
    · subst here
      rw [if_pos rfl]
      exact .inr (.inr (.inl ⟨call, rfl, among⟩))
    · rw [if_neg here]
      exact .inl rfl
  | stop last =>
    exact .inl (List.flatMap_eq_nil_iff.mpr fun deal member => (last deal member).brings_eq)
  | @pump gone again deals repeats out =>
    have rest : deals.flatMap (Deal.brings s) = [] :=
      List.flatMap_eq_nil_iff.mpr fun deal member => (out deal member).brings_eq
    rw [List.flatMap_append, rest, List.append_nil, brings_puts]
    rcases repeats with rfl | ⟨empty, p, innermost, rfl⟩
    · rw [ite_self]
      exact .inl rfl
    · by_cases here : SlotId.primary = s
      · rw [if_pos here]
        exact .inr (.inr (.inr ⟨gone, rfl, here.symm, empty, p, innermost, rfl⟩))
      · rw [if_neg here]
        exact .inl rfl
  | _ => exact .inl rfl

end EngineLink.Coordinator
