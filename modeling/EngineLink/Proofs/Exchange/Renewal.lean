import EngineLink.Proofs.Exchange.Retries

/-!
# Questions that the client may leave once more

A question that has been queued again for the primary client is marked, and a marked question
fails when it stays without an answer. What the client submits takes the mark from the innermost
question only. A question further out keeps its mark, and fails unless the client submits something
while it is the innermost one.

Questions are told apart by their places in the stack, counted from the outermost. A question keeps
its place as long as it waits, whether numbers are distinct or not.

## Main definitions

* `Coordinator.at?` — the question at a place
* `Coordinator.WaitsIn` — a question waits during a whole run
* `Coordinator.RenewedIn`, `Coordinator.RepeatedIn` — its mark is taken, or it is queued again

## Main results

* `Coordinator.keepsPlace_act` — what one act does to a question that goes on waiting
* `Coordinator.repeatedIn_iff` — whether a question was queued again before it is marked
* `Coordinator.repeatedIn_iff_of_fails` — whether a question is queued again after a submission,
  before it fails
-/

namespace EngineLink.Coordinator

variable {c d : Coordinator} {a : Act} {place : Nat} {p : Pending}

/-! ### Runs -/

/-- At some time in a run, something holds of the state and the next act. -/
def Meets (c : Coordinator) (run : List Act) (what : Coordinator → Act → Prop) : Prop :=
  ∃ before a after, run = before ++ a :: after ∧ what (c.acts before) a

theorem not_meets_nil {what : Coordinator → Act → Prop} : ¬c.Meets [] what := by
  rintro ⟨before, a, after, none, -⟩
  exact absurd none.symm (List.append_ne_nil_of_right_ne_nil before (List.cons_ne_nil a after))

theorem meets_cons {run : List Act} {what : Coordinator → Act → Prop} :
    c.Meets (a :: run) what ↔ what c a ∨ (c.act a).Meets run what := by
  constructor
  · rintro ⟨before, b, after, same, holds⟩
    cases before with
    | nil =>
      obtain ⟨rfl, -⟩ := List.cons.inj same
      exact .inl holds
    | cons first before =>
      obtain ⟨rfl, later⟩ := List.cons.inj same
      exact .inr ⟨before, b, after, later, holds⟩
  · rintro (holds | ⟨before, b, after, rfl, holds⟩)
    · exact ⟨[], a, run, rfl, holds⟩
    · exact ⟨a :: before, b, after, rfl, holds⟩

instance decidableMeets (what : Coordinator → Act → Prop) [∀ c a, Decidable (what c a)] :
    ∀ (c : Coordinator) (run : List Act), Decidable (c.Meets run what)
  | _, [] => isFalse not_meets_nil
  | c, a :: run =>
    have := decidableMeets what (c.act a) run
    decidable_of_iff _ meets_cons.symm

/-! ### Places -/

/-- The question at a place of the stack, counted from the outermost. -/
def at? (c : Coordinator) (place : Nat) : Option Pending := c.pending.reverse[place]?

theorem at?_of_pending_eq (same : d.pending = c.pending) : d.at? place = c.at? place := by
  rw [at?, at?, same]

theorem at?_innermost {rest : List Pending} (pending : c.pending = p :: rest) :
    c.at? rest.length = some p := by
  rw [at?, pending, List.reverse_cons, ← List.length_reverse, List.getElem?_concat_length]

/-- Below the innermost question, places are those of the rest. -/
theorem at?_of_cons {rest : List Pending} (pending : c.pending = p :: rest)
    (below : place < rest.length) : c.at? place = rest.reverse[place]? := by
  rw [at?, pending, List.reverse_cons]
  exact List.getElem?_append_left (by rwa [List.length_reverse])

/-- Questions at the bottom of the stack keep their places. -/
theorem at?_of_suffix (suffix : d.pending <:+ c.pending) (waits : place < d.pending.length) :
    d.at? place = c.at? place := by
  obtain ⟨inner, same⟩ := suffix
  rw [at?, at?, ← same, List.reverse_append]
  exact (List.getElem?_append_left (by rwa [List.length_reverse])).symm

/-- The question at a place is the innermost one. -/
def Innermost (c : Coordinator) (place : Nat) : Prop := c.pending.length = place + 1

theorem Innermost.at?_eq (h : c.Innermost place) {rest : List Pending}
    (pending : c.pending = p :: rest) : c.at? place = some p := by
  rw [Innermost, pending, List.length_cons, Nat.add_right_cancel_iff] at h
  rw [← h]
  exact at?_innermost pending

/-! ### One act -/

/-- The client submits something while the question at a place is the innermost one. -/
def Renews (place : Nat) (c : Coordinator) : Act → Prop
  | .receive e => c.running = true ∧ c.Submits e ∧ c.Innermost place
  | .pump _ => False

instance (place : Nat) (c : Coordinator) (a : Act) : Decidable (Renews place c a) := by
  cases a <;> unfold Renews Innermost <;> infer_instance

/-- The question at a place is queued again. -/
def RepeatsAt (place : Nat) (c : Coordinator) : Act → Prop
  | .receive _ => False
  | .pump _ => (∃ question, c.Repeats question) ∧ c.Innermost place

/-- A question that goes on waiting stays the same. It loses its mark when the client submits
something while it is the innermost one, and gets it when it is queued again. -/
structure KeepsPlace (place : Nat) (c : Coordinator) (a : Act) (p q : Pending) : Prop where
  before : c.at? place = some p
  after : (c.act a).at? place = some q
  same : q.question = p.question
  renewed : Renews place c a → q.retried = false
  repeated : RepeatsAt place c a → p.retried = false ∧ q.retried = true
  kept : ¬Renews place c a → ¬RepeatsAt place c a → q.retried = p.retried

/-- A question that is not concerned. -/
theorem keepsPlace_of_eq (waits : place < c.pending.length)
    (same : (c.act a).at? place = c.at? place) (quiet : ¬Renews place c a)
    (unrepeated : ¬RepeatsAt place c a) : ∃ p, KeepsPlace place c a p p := by
  have inside : place < c.pending.reverse.length := by rwa [List.length_reverse]
  refine ⟨c.pending.reverse[place], List.getElem?_eq_getElem inside, ?_, rfl, ?_, ?_, ?_⟩
  · rw [same]
    exact List.getElem?_eq_getElem inside
  · exact fun renews => absurd renews quiet
  · exact fun repeats => absurd repeats unrepeated
  · exact fun _ _ => rfl

/-- What an event changes before anything is answered. -/
theorem begun_cases (c : Coordinator) (e : Event) :
    (¬c.Submits e ∧ c.pending <:+ (c.begun e).pending) ∨
      c.Submits e ∧ (c.begun e).pending = c.renewRetry.pending := by
  cases e with
  | submit item wait =>
    cases wait with
    | false => exact .inl ⟨id, List.suffix_refl _⟩
    | true => exact .inl ⟨id, List.suffix_cons ..⟩
  | call s client items call =>
    rw [begun]
    split
    · next submits => exact .inr ⟨submits, rfl⟩
    · next quiet => exact .inl ⟨quiet, List.suffix_refl _⟩
  | _ => exact .inl ⟨id, List.suffix_refl _⟩

theorem keepsPlace_receive (held : c.Held fun _ => True) (running : c.running = true) {e : Event}
    (waits : place < c.pending.length) (waitsThen : place < (c.act (.receive e)).pending.length) :
    ∃ p q, KeepsPlace place c (.receive e) p q := by
  have served : c.act (.receive e) = c.serve e := if_pos running
  have suffix : (c.serve e).pending <:+ (c.begun e).pending :=
    (settles_serve (e := e) held (fun _ _ => trivial) (fun _ _ => trivial) fun _ _ => trivial).suffix
  rw [served] at waitsThen
  have after : (c.act (.receive e)).at? place = (c.begun e).at? place := by
    rw [served]
    exact at?_of_suffix suffix waitsThen
  rcases begun_cases c e with ⟨quiet, older⟩ | ⟨submits, renewed⟩
  · obtain ⟨p, keeps⟩ := keepsPlace_of_eq waits (after.trans (at?_of_suffix older waits).symm)
      (fun renews => quiet renews.2.1) (fun repeats : False => repeats)
    exact ⟨p, p, keeps⟩
  · rw [at?_of_pending_eq renewed] at after
    cases stack : c.pending with
    | nil =>
      rw [stack] at waits
      cases waits
    | cons top rest =>
      have now : c.renewRetry.pending = ⟨top.question, false⟩ :: rest := by
        rw [renewRetry, stack]
      by_cases innermost : c.Innermost place
      · -- The innermost question loses its mark.
        have innermostNow : c.renewRetry.Innermost place := by
          rw [Innermost, now]
          rwa [Innermost, stack] at innermost
        refine ⟨top, ⟨top.question, false⟩, innermost.at?_eq stack,
          after.trans (innermostNow.at?_eq now), rfl, fun _ => rfl,
          fun repeats : False => repeats.elim, fun quiet _ => ?_⟩
        exact absurd ⟨running, submits, innermost⟩ quiet
      · have below : place < rest.length := by
          rw [Innermost, stack, List.length_cons] at innermost
          rw [stack, List.length_cons] at waits
          omega
        obtain ⟨p, keeps⟩ := keepsPlace_of_eq waits
          (after.trans ((at?_of_cons now below).trans (at?_of_cons stack below).symm))
          (fun renews => innermost renews.2.2) (fun repeats : False => repeats)
        exact ⟨p, p, keeps⟩

/-- A question that is not marked and lacks its answer is queued again. -/
theorem repeats_of_eq {top : Pending} {rest : List Pending} (running : c.running = true)
    (same : c.forward.retryIfRequested = ({ c.forward with
      retryRequested := false
      pending := { top with retried := true } :: rest } : Coordinator).modifySlot
        SlotId.primary fun state => { state with outbound := state.outbound ++ [top.question] }) :
    c.Repeats top.question := by
  refine ⟨running, ?_⟩
  rw [same, primaryQueue, slot_modifySlot_self]
  rfl

theorem keepsPlace_pump (held : c.Held fun _ => True) (running : c.running = true)
    {gone : CallId → Bool} (waits : place < c.pending.length)
    (waitsThen : place < (c.act (.pump gone)).pending.length) :
    ∃ p q, KeepsPlace place c (.pump gone) p q := by
  by_cases repeats : RepeatsAt place c (.pump gone)
  · obtain ⟨⟨question, again⟩, innermost⟩ := repeats
    obtain ⟨rest, before, after⟩ := again.stack gone
    have innermostThen : (c.act (.pump gone)).Innermost place := by
      rw [Innermost, after]
      rwa [Innermost, before] at innermost
    exact ⟨⟨question, false⟩, ⟨question, true⟩, innermost.at?_eq before, innermostThen.at?_eq after,
      rfl, nofun, fun _ => ⟨rfl, rfl⟩, fun _ not => absurd ⟨⟨question, again⟩, innermost⟩ not⟩
  · suffices same : (c.act (.pump gone)).at? place = c.at? place by
      obtain ⟨p, keeps⟩ := keepsPlace_of_eq waits same nofun repeats
      exact ⟨p, p, keeps⟩
    have pumped : c.act (.pump gone) = c.pump gone := if_pos running
    have delivered : (c.pump gone).pending = c.forward.retryIfRequested.pending :=
      congrArg EngineSide.pending (engineSide_pump gone c)
    rw [pumped] at waitsThen ⊢
    rw [at?_of_pending_eq delivered, ← at?_of_pending_eq (pending_forward c)]
    rw [delivered] at waitsThen
    rcases retryIfRequested_cases c.forward with
      same | ⟨top, rest, lacks, ⟨-, same⟩ | ⟨fresh, same⟩⟩
    · rw [same]
      rfl
    · have failed := settles_fail held.forward (fun _ _ => trivial) lacks trivial
      rw [same] at waitsThen ⊢
      exact at?_of_suffix failed.suffix waitsThen
    · have again : c.Repeats top.question := repeats_of_eq running same
      have pending : c.forward.retryIfRequested.pending = { top with retried := true } :: rest := by
        rw [same]
        rfl
      have below : place < rest.length := by
        have outer : ¬c.Innermost place := fun innermost => repeats ⟨⟨_, again⟩, innermost⟩
        rw [Innermost, ← pending_forward, lacks.pending, List.length_cons] at outer
        rw [← pending_forward, lacks.pending, List.length_cons] at waits
        omega
      exact (at?_of_cons pending below).trans (at?_of_cons lacks.pending below).symm

/-- What one act does to a question that goes on waiting. -/
theorem keepsPlace_act (held : c.Held fun _ => True) (waits : place < c.pending.length)
    (waitsThen : place < (c.act a).pending.length) : ∃ p q, KeepsPlace place c a p q := by
  by_cases running : c.running = true
  · cases a with
    | receive e => exact keepsPlace_receive held running waits waitsThen
    | pump gone => exact keepsPlace_pump held running waits waitsThen
  · -- After the end, questions are left alone.
    have same : (c.act a).at? place = c.at? place := by
      cases a with
      | receive e =>
        rw [act, handle, if_neg running]
        exact at?_of_pending_eq (congrArg EngineSide.pending (engineSide_refuse c e))
      | pump gone => rw [act, if_neg running]
    have quiet : ¬Renews place c a := by
      cases a with
      | receive e => exact fun renews => running renews.1
      | pump gone => exact id
    have unrepeated : ¬RepeatsAt place c a := by
      cases a with
      | receive e => exact id
      | pump gone =>
        rintro ⟨⟨question, again⟩, -⟩
        exact running again.1
    obtain ⟨p, keeps⟩ := keepsPlace_of_eq waits same quiet unrepeated
    exact ⟨p, p, keeps⟩

/-! ### Runs of acts -/

/-- A question waits at a place in all states of a run. -/
def WaitsIn (place : Nat) : Coordinator → List Act → Prop
  | c, [] => place < c.pending.length
  | c, a :: run => place < c.pending.length ∧ WaitsIn place (c.act a) run

instance decidableWaitsIn (place : Nat) :
    ∀ (c : Coordinator) (run : List Act), Decidable (WaitsIn place c run)
  | c, [] => inferInstanceAs (Decidable (place < c.pending.length))
  | c, a :: run =>
    have := decidableWaitsIn place (c.act a) run
    inferInstanceAs (Decidable (place < c.pending.length ∧ WaitsIn place (c.act a) run))

/-- The client submits something while the question at a place is the innermost one. -/
def RenewedIn (place : Nat) (c : Coordinator) (run : List Act) : Prop := c.Meets run (Renews place)

instance (place : Nat) (c : Coordinator) (run : List Act) : Decidable (RenewedIn place c run) :=
  inferInstanceAs (Decidable (c.Meets run (Renews place)))

/-- The question at a place is queued again in a run. -/
def RepeatedIn (place : Nat) (c : Coordinator) (run : List Act) : Prop :=
  c.Meets run (RepeatsAt place)

theorem WaitsIn.first {run : List Act} (waits : WaitsIn place c run) :
    place < c.pending.length := by
  cases run with
  | nil => exact waits
  | cons a run => exact waits.1

/-- A question that is marked in the end was queued again in a run exactly if it was not marked at
first or has lost its mark in the run. -/
theorem repeatedIn_iff {asked : List (Option RequestId)} (balanced : Balanced asked c)
    {run : List Act} (waits : WaitsIn place c run) {last : Pending}
    (ends : (c.acts run).at? place = some last) (marked : last.retried = true) :
    ∃ p, c.at? place = some p ∧ p.question = last.question ∧
      (RepeatedIn place c run ↔ p.retried = false ∨ RenewedIn place c run) := by
  induction run generalizing c asked with
  | nil =>
    refine ⟨last, ends, rfl, ⟨fun repeated => absurd repeated not_meets_nil, ?_⟩⟩
    rintro (fresh | renewed)
    · exact absurd (marked.symm.trans fresh) Bool.noConfusion
    · exact absurd renewed not_meets_nil
  | cons a run ih =>
    obtain ⟨p, q, keeps⟩ := keepsPlace_act balanced.held waits.1 waits.2.first
    obtain ⟨q', found, question, onward⟩ := ih (balanced.act a) waits.2 ends
    obtain rfl := Option.some.inj (keeps.after.symm.trans found)
    refine ⟨p, keeps.before, keeps.same.symm.trans question, ?_⟩
    rw [RepeatedIn, RenewedIn, meets_cons, meets_cons, ← RepeatedIn, ← RenewedIn, onward]
    by_cases renews : Renews place c a
    · exact iff_of_true (.inr (.inl (keeps.renewed renews))) (.inr (.inl renews))
    · by_cases repeats : RepeatsAt place c a
      · exact iff_of_true (.inl repeats) (.inl (keeps.repeated repeats).1)
      · rw [or_iff_right repeats, or_iff_right renews, keeps.kept renews repeats]

/-- A question to the primary client that fails after the client has submitted something was queued
again in between exactly if it was not marked when the client submitted it, or was the innermost
question then or when the client submitted something later. -/
theorem repeatedIn_iff_of_fails {capacity : Nat} {before between : List Act} {e : Event}
    {now : Coordinator} {question : Item} (reached : (ofCapacity capacity).acts before = now)
    (running : now.running = true) (submits : now.Submits e)
    (waits : WaitsIn place now (.receive e :: between))
    (fails : (now.acts (.receive e :: between)).Fails question)
    (innermost : (now.acts (.receive e :: between)).Innermost place) :
    question.slot = SlotId.primary ∧ ∃ p, now.at? place = some p ∧ p.question = question ∧
      (RepeatedIn place now (.receive e :: between) ↔
        p.retried = false ∨ RenewedIn place now (.receive e :: between)) ∧
      (now.Innermost place → RepeatedIn place now (.receive e :: between)) := by
  have balanced := (balanced_ofCapacity capacity).acts before
  rw [reached] at balanced
  obtain ⟨top, rest, lacks, rfl, marked⟩ := fails.lacks
  have ends : (now.acts (.receive e :: between)).at? place = some top :=
    innermost.at?_eq ((pending_forward _).symm.trans lacks.pending)
  obtain ⟨p, found, same, iff⟩ := repeatedIn_iff balanced waits ends marked
  refine ⟨lacks.primary, p, found, same, iff, fun first => iff.mpr (.inr ?_)⟩
  exact ⟨[], .receive e, between, rfl, running, submits, first⟩

/-- The primary client has got a question twice, and the engine asks another client something inside
a request of that one. -/
def coveredRun : List Act :=
  [.receive (.connect SlotId.primary 0), .receive (.connect ⟨1⟩ 1),
    .receive (.submit (lineItem 1 none) true)] ++ comesBack [] 2 ++ comesBack [] 3 ++
      [.receive (.call ⟨1⟩ ⟨2⟩ [panelItem 7 none] 4), .pump fun _ => false,
        .receive (.submit (panelItem 2 none) true)]

/-- The primary client submits something that is no answer to its question. -/
def straySubmission (call : CallId) : Event :=
  .call SlotId.primary ⟨1⟩ [lineItem 99 (some .done)] call

/-- The other client answers, and its request has been executed. -/
def uncoveringRun : List Act :=
  [.pump fun _ => false, .receive (.call ⟨1⟩ ⟨2⟩ [panelItem 2 (some .done)] 6),
    .pump fun _ => false, .receive (.executed (panelItem 7 (some .done)))]

/-- Then the primary client submits something once more, and comes back twice. -/
def renewingRun : List Act :=
  uncoveringRun ++ [.receive (straySubmission 8)] ++ comesBack [] 9 ++
    [.receive (.call SlotId.primary ⟨1⟩ [] 10)]

theorem repeatedIn_iff_of_fails_renewed : ∃ now, (ofCapacity 64).acts coveredRun = now ∧
    (now.acts (.receive (straySubmission 5) :: renewingRun)).Fails (lineItem 1 none) ∧
    now.at? 0 = some ⟨lineItem 1 none, true⟩ ∧
    RenewedIn 0 now (.receive (straySubmission 5) :: renewingRun) ∧
    RepeatedIn 0 now (.receive (straySubmission 5) :: renewingRun) := by
  have fails : (((ofCapacity 64).acts coveredRun).acts
      (.receive (straySubmission 5) :: renewingRun)).Fails (lineItem 1 none) := ⟨rfl, rfl, [], rfl⟩
  have waits : WaitsIn 0 ((ofCapacity 64).acts coveredRun)
      (.receive (straySubmission 5) :: renewingRun) := by decide
  have renewed : RenewedIn 0 ((ofCapacity 64).acts coveredRun)
      (.receive (straySubmission 5) :: renewingRun) := by decide
  have submits : ((ofCapacity 64).acts coveredRun).Submits (straySubmission 5) := by decide
  obtain ⟨-, p, found, -, iff, -⟩ :=
    repeatedIn_iff_of_fails rfl rfl submits waits fails rfl
  exact ⟨_, rfl, fails, rfl, renewed, iff.mpr (.inr renewed)⟩

/-- A question can fail though the client has submitted something since it was queued again. -/
theorem fails_after_submission :
    ¬∀ (capacity : Nat) (before between : List Act) (e : Event) (now : Coordinator)
      (question : Item) (place : Nat), (ofCapacity capacity).acts before = now →
        now.running = true → now.Submits e → WaitsIn place now (.receive e :: between) →
        (now.acts (.receive e :: between)).Fails question →
        (now.acts (.receive e :: between)).Innermost place →
          RepeatedIn place now (.receive e :: between) := by
  intro renewed
  have waits : WaitsIn 0 ((ofCapacity 64).acts coveredRun) (.receive (straySubmission 5) ::
      uncoveringRun ++ [.receive (.call SlotId.primary ⟨1⟩ [] 7)]) := by decide
  have repeated := renewed 64 coveredRun _ (straySubmission 5) _ (lineItem 1 none) 0 rfl rfl
    ⟨rfl, rfl, rfl⟩ waits ⟨rfl, rfl, [], rfl⟩ rfl
  -- It was marked all the time, since the client submitted nothing while it was the innermost one.
  have balanced := (balanced_ofCapacity 64).acts coveredRun
  have ends : (((ofCapacity 64).acts coveredRun).acts (.receive (straySubmission 5) ::
      uncoveringRun ++ [.receive (.call SlotId.primary ⟨1⟩ [] 7)])).at? 0 =
        some ⟨lineItem 1 none, true⟩ := rfl
  obtain ⟨p, found, -, iff⟩ := repeatedIn_iff balanced waits ends rfl
  obtain rfl : ⟨lineItem 1 none, true⟩ = p := Option.some.inj found
  have unrenewed : ¬RenewedIn 0 ((ofCapacity 64).acts coveredRun) (.receive (straySubmission 5) ::
      uncoveringRun ++ [.receive (.call SlotId.primary ⟨1⟩ [] 7)]) := by decide
  exact (iff.mp repeated).elim Bool.noConfusion unrenewed

end EngineLink.Coordinator
