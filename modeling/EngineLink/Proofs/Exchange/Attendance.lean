import Mathlib.Data.List.Induction
import EngineLink.Proofs.Exchange.Settling

/-!
# Questions to slots without a client

A question to a slot without a client is cancelled when it is asked, except that the outermost
question may wait for a primary client to come. When the primary client leaves, its nested questions
are cancelled as they become the innermost ones. When the client of another slot leaves, the
questions to it wait on.

## Main definitions

* `Coordinator.questions` — the questions that wait for answers
* `Coordinator.NoneStranded` — no nested question waits for a primary client to come
* `Coordinator.LeftDuring` — a client has left while a question to it was waiting

## Main results

* `Coordinator.outermost_of_detached` — without a primary client, only the outermost question waits
  for one
* `Coordinator.unattended_iff` — when the innermost question to another slot waits for a client
* `Coordinator.unattended_after_disconnect` — this happens
-/

namespace EngineLink.Coordinator

variable {c d : Coordinator} {s : SlotId} {a : Act}

/-! ### Questions -/

/-- The questions that wait for answers, the innermost first. -/
def questions (c : Coordinator) : List Item := c.pending.map (·.question)

theorem questions_of_pending_eq (same : d.pending = c.pending) : d.questions = c.questions := by
  rw [questions, questions, same]

theorem questions_of_engineSide (same : d.engineSide = c.engineSide) : d.questions = c.questions :=
  questions_of_pending_eq (congrArg EngineSide.pending same)

theorem questions_renewRetry (c : Coordinator) : c.renewRetry.questions = c.questions := by
  rw [renewRetry]
  split
  · rfl
  · next top rest pending =>
    rw [questions, questions, pending]
    rfl

theorem questions_forward (c : Coordinator) : c.forward.questions = c.questions := by
  rcases c.forward_cases with same | ⟨-, s, item, same⟩
  · rw [same]
  · exact questions_of_pending_eq (congrArg EngineSide.pending same)

theorem questions_pump (gone : CallId → Bool) (c : Coordinator) :
    (c.pump gone).questions = c.forward.retryIfRequested.questions :=
  questions_of_engineSide (engineSide_pump gone c)

/-! ### No nested question waits for a primary client -/

/-- Without a primary client, the innermost question is not to the primary slot unless it is the
outermost one. -/
def NoneStranded (c : Coordinator) : Prop :=
  (c.slot SlotId.primary).client = none → ∀ question ∈ c.questions.head?,
    question.slot = SlotId.primary → c.questions = [question]

/-- Whatever has been answered, cancelling goes on until no nested question is stranded. -/
theorem noneStranded_answerFrom (answer : Item) (top : Pending) (rest : List Pending)
    (c : Coordinator) : (c.answerFrom answer (top :: rest)).NoneStranded := by
  -- The cascade stops only at a question that may stay, so the result is checked where it stops.
  induction rest generalizing c answer top with
  | nil =>
    intro _ question first
    cases first
  | cons next others ih =>
    rw [answerFrom]
    generalize popped : ({ c with pending := next :: others } : Coordinator).send
      (.wake (.answer answer)) = d
    have questions : d.questions = next.question :: others.map (·.question) := by
      rw [← popped]
      rfl
    dsimp only [List.head?_cons]
    split
    · exact ih _ _ _
    · split
      · exact ih _ _ _
      · next stays =>
        intro detached question first primary
        rw [questions] at first ⊢
        obtain rfl := Option.some.inj first
        -- A second question below would have had this one cancelled.
        simp only [SlotId.isPrimary, primary, detached, beq_self_eq_true, Option.isNone_none,
          Bool.true_and, Bool.and_true, decide_eq_true_eq, List.length_cons] at stays
        have alone : others = [] := List.length_eq_zero_iff.mp (by omega)
        rw [alone]
        rfl

namespace NoneStranded

theorem of_eq (h : c.NoneStranded)
    (client : (d.slot SlotId.primary).client = (c.slot SlotId.primary).client)
    (questions : d.questions = c.questions) : d.NoneStranded := by
  rwa [NoneStranded, client, questions]

/-- What concerns neither the engine nor who is attached. -/
theorem of_same (h : c.NoneStranded) (clients : d.clients = c.clients)
    (questions : d.questions = c.questions) : d.NoneStranded :=
  h.of_eq (congrFun clients SlotId.primary) questions

theorem answerTop (h : c.NoneStranded) (answer : Item) : (c.answerTop answer).NoneStranded := by
  rw [Coordinator.answerTop]
  cases c.pending with
  | nil => exact h
  | cons top rest => exact noneStranded_answerFrom answer top rest c

theorem receive (h : c.NoneStranded) (s : SlotId) (item : Item) :
    (c.receive s item).NoneStranded := by
  rw [Coordinator.receive]
  split
  · rw [accept]
    split
    · exact h
    · split
      · exact h.answerTop _
      · exact h.of_eq rfl rfl
      · exact h
  · exact h.of_same (clients_modifySlot_of_eq rfl) rfl

theorem foldl {α : Type} {f : Coordinator → α → Coordinator}
    (keeps : ∀ c x, c.NoneStranded → (f c x).NoneStranded) (xs : List α) (h : c.NoneStranded) :
    (xs.foldl f c).NoneStranded := by
  induction xs generalizing c with
  | nil => exact h
  | cons x xs ih => exact ih (keeps c x h)

theorem serveCall (h : c.NoneStranded) (s : SlotId) (client : ClientId) (items : List Item)
    (call : CallId) : (c.serveCall s client items call).NoneStranded := by
  rw [Coordinator.serveCall]
  split
  · exact h.of_eq rfl rfl
  · have waiting : ((c.release s (.error superseded)).modifySlot s fun state =>
        { state with waiter := some call }).NoneStranded := by
      refine h.of_same ?_ (questions_of_engineSide (by simp))
      rw [clients_modifySlot_of_eq rfl, clients_release]
    split
    · exact waiting.of_eq rfl rfl
    · refine .foldl (fun _ item h => h.receive s item) _ ?_
      split
      · exact waiting.of_same (clients_renewRetry _) (questions_renewRetry _)
      · exact waiting

/-- A nested question to the primary slot is only kept if there is a client. -/
theorem ask (c : Coordinator) (item : Item) : (c.ask item).NoneStranded := by
  rw [Coordinator.ask]
  split
  · exact noneStranded_answerFrom _ ⟨item, false⟩ c.pending _
  · next kept =>
    have asked : (⟨item, false⟩ :: c.pending).map (·.question) = item :: c.questions := rfl
    have queued :
        ({ c with pending := ⟨item, false⟩ :: c.pending } : Coordinator).NoneStranded := by
      intro detached question first primary
      rw [Coordinator.questions, asked] at first ⊢
      obtain rfl := Option.some.inj first
      have here : (({ c with pending := ⟨item, false⟩ :: c.pending } :
          Coordinator).slot item.slot).client = none := by
        rw [primary]
        exact detached
      rw [here] at kept
      have alone : c.pending = [] := by simpa [SlotId.isPrimary, primary] using kept
      rw [Coordinator.questions, alone]
      rfl
    exact queued.of_same (clients_enqueue ..) (questions_of_engineSide (engineSide_enqueue ..))

theorem connect (h : c.NoneStranded) (s : SlotId) (call : CallId) :
    (c.connect s call).NoneStranded := by
  intro detached
  have attached := congrFun (clients_connect c s call) SlotId.primary
  rw [Function.update_apply, clients, detached] at attached
  split at attached
  · cases attached
  · have same : (c.connect s call).questions = c.questions := by
      refine questions_of_engineSide ?_
      rw [Coordinator.connect, engineSide_attach]
      exact engineSide_release c s _
    rw [same]
    exact h attached.symm

/-- When the primary client leaves, a nested question that it leaves behind is cancelled at once. -/
theorem disconnect (h : c.NoneStranded) (s : SlotId) (client : ClientId) :
    (c.disconnect s client).NoneStranded := by
  rw [Coordinator.disconnect]
  split
  · exact h
  · dsimp only
    generalize left : (c.release s (.error clientGone)).modifySlot s (fun state =>
      { state with client := none, clientBusy := none, inbound := [], outbound := [] }) = d
    have pending : d.pending = c.pending := by
      rw [← left]
      exact congrArg EngineSide.pending (engineSide_release c s _)
    have questions := questions_of_pending_eq pending
    have others : s ≠ SlotId.primary → d.NoneStranded := by
      intro other
      refine h.of_eq ?_ questions
      rw [← left, slot_modifySlot_of_ne _ other.symm]
      exact congrFun (clients_release c s _) SlotId.primary
    split
    · next top second rest stack =>
      split
      · rw [failTop, Coordinator.answerTop, stack]
        exact noneStranded_answerFrom _ _ _ _
      · next stays =>
        -- The innermost question stays if it or the client belongs to another slot.
        by_cases primary : s = SlotId.primary
        · intro _ question first same
          rw [Coordinator.questions, stack] at first
          obtain rfl := Option.some.inj first
          simp [SlotId.isPrimary, primary, same] at stays
        · exact others primary
    · next short =>
      intro _ question first _
      rw [Coordinator.questions] at first ⊢
      cases stack : d.pending with
      | nil =>
        rw [stack] at first
        cases first
      | cons top rest =>
        cases rest with
        | nil =>
          rw [stack] at first
          obtain rfl := Option.some.inj first
          rfl
        | cons second rest => exact absurd stack (short top second rest)

theorem serve (h : c.NoneStranded) (e : Event) : (c.serve e).NoneStranded := by
  cases e with
  | submit item wait =>
    cases wait with
    | false =>
      exact h.of_same (clients_tell c item) (questions_of_engineSide (engineSide_tell c item))
    | true => exact ask c item
  | executed item =>
    have queued := engineSide_enqueue (({ c with executing := c.executing.tail } :
      Coordinator).modifySlot item.slot fun state => { state with executing := false }) item
    exact h.of_same (clients_finish c item)
      (questions_of_pending_eq (congrArg EngineSide.pending queued))
  | busy busy => exact h.of_eq rfl rfl
  | call s client items call => exact h.serveCall s client items call
  | connect s call => exact h.connect s call
  | disconnect s client => exact h.disconnect s client
  | shutdown =>
    exact h.of_same (clients_stop c)
      (questions_of_pending_eq (congrArg EngineSide.pending (engineSide_stop c)))

theorem retryIfRequested (h : c.NoneStranded) : c.retryIfRequested.NoneStranded := by
  rcases retryIfRequested_cases c with same | ⟨top, rest, lacks, ⟨-, same⟩ | ⟨-, same⟩⟩
  · rw [same]
    exact h.of_eq rfl rfl
  · have taken : ({ c with retryRequested := false } : Coordinator).NoneStranded := h
    rw [same]
    exact taken.answerTop _
  · refine h.of_same (clients_retryIfRequested c) ?_
    rw [same, Coordinator.questions, Coordinator.questions, lacks.pending]
    rfl

theorem pump (h : c.NoneStranded) (gone : CallId → Bool) :
    (c.pump gone).NoneStranded := by
  have forwarded := h.of_same (clients_forward c) (questions_forward c)
  exact forwarded.retryIfRequested.of_same (clients_foldl (clients_deliver gone) _ _)
    (questions_pump gone c)

theorem act (h : c.NoneStranded) (a : Act) : (c.act a).NoneStranded := by
  cases a with
  | receive e =>
    rw [Coordinator.act, handle]
    split
    · exact h.serve e
    · exact h.of_same (clients_refuse c e) (questions_of_engineSide (engineSide_refuse c e))
  | pump gone =>
    rw [Coordinator.act]
    split
    · exact h.pump gone
    · exact h

/-- Every run strands no question. -/
theorem acts (h : c.NoneStranded) (run : List Act) : (c.acts run).NoneStranded := by
  induction run generalizing c with
  | nil => exact h
  | cons a run ih => exact ih (h.act a)

end NoneStranded

theorem noneStranded_ofCapacity (capacity : Nat) : (ofCapacity capacity).NoneStranded := by
  intro _ question first
  cases first

/-- In every state that a run reaches, if the primary slot has no client, then the innermost
question is to another slot or is the outermost one. -/
theorem outermost_of_detached {capacity : Nat} {run : List Act}
    (reached : (ofCapacity capacity).acts run = c)
    (detached : (c.slot SlotId.primary).client = none) :
    ∀ question ∈ c.questions.head?, question.slot ≠ SlotId.primary ∨ c.questions = [question] := by
  intro question first
  have none := (noneStranded_ofCapacity capacity).acts run
  rw [reached] at none
  by_cases primary : question.slot = SlotId.primary
  · exact .inr (none detached question first primary)
  · exact .inl primary

/-- A question to another client. -/
def panelItem (id : RequestId) (answer : Option Answer) : Item :=
  { lineItem id answer with slot := ⟨1⟩ }

/-- The primary client leaves while a question to another client is the innermost one, which is
answered later. -/
def shieldedRun : List Act :=
  [.receive (.connect SlotId.primary 0), .receive (.connect ⟨1⟩ 1),
    .receive (.submit (lineItem 1 none) true), .receive (.submit (lineItem 2 none) true),
    .receive (.submit (panelItem 3 none) true), .receive (.disconnect SlotId.primary ⟨1⟩),
    .receive (.call ⟨1⟩ ⟨2⟩ [panelItem 3 (some .done)] 2)]

theorem outermost_of_detached_shielded : ∃ c, (ofCapacity 64).acts shieldedRun = c ∧
    (c.slot SlotId.primary).client = none ∧ c.answeredIds = [some 3, some 2] ∧
      c.pendingIds = [some 1] ∧
      ∀ question ∈ c.questions.head?,
        question.slot ≠ SlotId.primary ∨ c.questions = [question] := by
  have reached : (ofCapacity 64).acts shieldedRun = _ := rfl
  exact ⟨_, reached, rfl, rfl, rfl, outermost_of_detached reached rfl⟩

/-! ### Questions to other slots -/

/-- The question in an event. -/
def asked : Event → List Item
  | .submit item true => [item]
  | _ => []

theorem questions_begun (c : Coordinator) (e : Event) :
    (c.begun e).questions = asked e ++ c.questions := by
  cases e with
  | submit item wait => cases wait <;> rfl
  | call s client items call =>
    rw [begun]
    split
    · exact questions_renewRetry c
    · rfl
  | _ => rfl

theorem questions_subset_of_suffix (h : d.pending <:+ c.pending) : d.questions ⊆ c.questions :=
  List.map_subset _ h.subset

theorem suffix_answerFrom (answer : Item) (top : Pending) (rest : List Pending) (c : Coordinator) :
    (c.answerFrom answer (top :: rest)).pending <:+ rest := by
  induction rest generalizing c answer top with
  | nil => exact List.suffix_refl []
  | cons next others ih =>
    rw [answerFrom]
    dsimp only [List.head?_cons]
    split
    · exact (ih ..).trans (List.suffix_cons next others)
    · split
      · exact (ih ..).trans (List.suffix_cons next others)
      · exact List.suffix_refl (next :: others)

theorem suffix_failTop (question : Item) (status : Status) (c : Coordinator) :
    (c.failTop question status).pending <:+ c.pending := by
  rw [failTop, answerTop]
  cases stack : c.pending with
  | nil => exact ⟨[], stack⟩
  | cons top rest => exact (suffix_answerFrom _ top rest c).trans (List.suffix_cons top rest)

/-- A question to another slot without a client is cancelled when it is asked. -/
theorem questions_ask_subset {item : Item} (other : item.slot ≠ SlotId.primary)
    (detached : (c.slot item.slot).client = none) : (c.ask item).questions ⊆ c.questions := by
  have alone : (({ c with pending := ⟨item, false⟩ :: c.pending } :
      Coordinator).slot item.slot).client = none := detached
  rw [ask]
  split
  · exact questions_subset_of_suffix (suffix_answerFrom _ ⟨item, false⟩ c.pending _)
  · next kept =>
    refine absurd ?_ kept
    simp [alone, SlotId.isPrimary, other]

theorem mem_questions_serve {question : Item} {e : Event} (held : c.Held fun _ => True)
    (other : question.slot ≠ SlotId.primary) (waits : question ∈ (c.serve e).questions) :
    question ∈ c.questions ∨
      e = .submit question true ∧ (c.slot question.slot).client ≠ none := by
  have settles := settles_serve (e := e) held (fun _ _ => trivial) (fun _ _ => trivial)
    fun _ _ => trivial
  -- Answering only takes questions away, so it was there before or has just been asked.
  have before := questions_subset_of_suffix settles.suffix waits
  rw [questions_begun, List.mem_append] at before
  rcases before with new | old
  · obtain ⟨item, rfl⟩ : ∃ item, e = .submit item true := by
      cases e with
      | submit item wait =>
        cases wait with
        | false => cases new
        | true => exact ⟨item, rfl⟩
      | _ => cases new
    obtain rfl := List.mem_singleton.mp new
    by_cases detached : (c.slot question.slot).client = none
    · exact .inl (questions_ask_subset other detached waits)
    · exact .inr ⟨rfl, detached⟩
  · exact .inl old

theorem questions_pump_subset (gone : CallId → Bool) (c : Coordinator) :
    (c.pump gone).questions ⊆ c.questions := by
  have retried : c.forward.retryIfRequested.questions ⊆ c.forward.questions := by
    rcases retryIfRequested_cases c.forward with same | ⟨top, rest, lacks, ⟨-, same⟩ | ⟨-, same⟩⟩
    · rw [same]
      exact List.Subset.refl _
    · rw [same]
      exact questions_subset_of_suffix (suffix_failTop top.question unanswered
        { c.forward with retryRequested := false })
    · rw [same, questions, questions, lacks.pending]
      exact List.Subset.refl _
  rw [questions_forward] at retried
  rwa [questions_pump]

/-- A question to another slot waits only if it did so before, or if it has just been asked with a
client there. -/
theorem mem_questions_act {question : Item} (held : c.Held fun _ => True)
    (other : question.slot ≠ SlotId.primary) (waits : question ∈ (c.act a).questions) :
    question ∈ c.questions ∨
      a = .receive (.submit question true) ∧ (c.slot question.slot).client ≠ none := by
  cases a with
  | receive e =>
    rw [act, handle] at waits
    split at waits
    · rcases mem_questions_serve held other waits with old | ⟨rfl, attached⟩
      · exact .inl old
      · exact .inr ⟨rfl, attached⟩
    · rw [questions_of_engineSide (engineSide_refuse c e)] at waits
      exact .inl waits
  | pump gone =>
    rw [act] at waits
    split at waits
    · exact .inl (questions_pump_subset gone c waits)
    · exact .inl waits

/-- A slot has no client only if it had none before, or if its client has just left. -/
theorem clients_act_eq_none (empty : (c.act a).clients s = none) :
    c.clients s = none ∨
      ∃ client, a = .receive (.disconnect s client) ∧ c.running = true ∧
        c.clients s = some client := by
  cases a with
  | receive e =>
    rw [act, handle] at empty
    split at empty
    · next running =>
      rw [clients_serve] at empty
      cases e with
      | connect t call =>
        rw [clientsAfter, Function.update_apply] at empty
        split at empty
        · cases empty
        · exact .inl empty
      | disconnect t client =>
        rw [clientsAfter] at empty
        split at empty
        · next attached =>
          rw [Function.update_apply] at empty
          split at empty
          · next same =>
            obtain rfl := same
            exact .inr ⟨client, rfl, running, attached⟩
          · exact .inl empty
        · exact .inl empty
      | _ => exact .inl empty
    · rw [clients_refuse] at empty
      exact .inl empty
  | pump gone =>
    rw [act] at empty
    split at empty
    · rw [clients_pump] at empty
      exact .inl empty
    · exact .inl empty

/-- A client has left while a question to its slot was waiting, and none has come since then. -/
def LeftDuring (start : Coordinator) (run : List Act) (question : Item) : Prop :=
  ∃ before client after, run = before ++ .receive (.disconnect question.slot client) :: after ∧
    (start.acts before).running = true ∧
    (start.acts before).clients question.slot = some client ∧
    question ∈ (start.acts before).questions ∧
    ∀ earlier, earlier <+: after →
      (start.acts (before ++ .receive (.disconnect question.slot client) :: earlier)).clients
        question.slot = none

theorem acts_append (c : Coordinator) (run more : List Act) :
    c.acts (run ++ more) = (c.acts run).acts more := List.foldl_append

theorem LeftDuring.append {start : Coordinator} {run : List Act} {question : Item}
    (left : LeftDuring start run question)
    (empty : (start.acts (run ++ [a])).clients question.slot = none) :
    LeftDuring start (run ++ [a]) question := by
  obtain ⟨before, client, after, rfl, running, attached, waited, since⟩ := left
  refine ⟨before, client, after ++ [a], ?_, running, attached, waited, ?_⟩
  · rw [List.append_assoc, List.cons_append]
  · intro earlier part
    rcases List.prefix_concat_iff.mp part with rfl | part
    · rwa [List.append_assoc, List.cons_append] at empty
    · exact since earlier part

/-- A question to another slot waits without a client there only because the client has left. -/
theorem leftDuring_of_detached {capacity : Nat} {run : List Act} {question : Item}
    (other : question.slot ≠ SlotId.primary)
    (waits : question ∈ ((ofCapacity capacity).acts run).questions)
    (empty : ((ofCapacity capacity).acts run).clients question.slot = none) :
    LeftDuring (ofCapacity capacity) run question := by
  -- By the last act: the slot was empty before it, or the client leaves with it.
  induction run using List.reverseRecOn with
  | nil => cases waits
  | append_singleton run a ih =>
    have held := ((balanced_ofCapacity capacity).acts run).held
    have last := acts_append (ofCapacity capacity) run [a]
    rw [last] at waits
    have old := mem_questions_act held other waits
    rcases clients_act_eq_none (last ▸ empty) with before | ⟨client, rfl, running, attached⟩
    · have waited := old.resolve_right fun new => new.2 before
      exact (ih waited before).append empty
    · have waited := old.resolve_right fun new => by cases new.1
      refine ⟨run, client, [], rfl, running, attached, waited, ?_⟩
      intro earlier part
      rwa [List.prefix_nil.mp part]

theorem detached_of_leftDuring {start : Coordinator} {run : List Act} {question : Item}
    (left : LeftDuring start run question) : (start.acts run).clients question.slot = none := by
  obtain ⟨before, client, after, rfl, -, -, -, since⟩ := left
  exact since after (List.prefix_refl after)

/-- When the client of another slot leaves, no question is answered. -/
theorem questions_disconnect (other : s ≠ SlotId.primary) (client : ClientId) :
    (c.disconnect s client).questions = c.questions := by
  rw [disconnect]
  split
  · rfl
  · have same := questions_of_engineSide (engineSide_release c s (.error clientGone))
    have secondary : s.isPrimary = false := by simpa [SlotId.isPrimary] using other
    dsimp only
    split
    · rw [secondary, Bool.false_and, if_neg Bool.false_ne_true]
      exact same
    · exact same

/-- In every state that a run reaches, a question to another slot waits without a client there
exactly if its client has left meanwhile: whenever the client leaves, all questions wait on. -/
theorem unattended_iff {capacity : Nat} {run : List Act} {question : Item}
    (reached : (ofCapacity capacity).acts run = c) (waits : question ∈ c.questions)
    (other : question.slot ≠ SlotId.primary) :
    (c.clients question.slot = none ↔ LeftDuring (ofCapacity capacity) run question) ∧
      ∀ client, c.running = true → c.clients question.slot = some client →
        (c.act (.receive (.disconnect question.slot client))).questions = c.questions ∧
          (c.act (.receive (.disconnect question.slot client))).clients question.slot = none := by
  subst reached
  refine ⟨⟨leftDuring_of_detached other waits, detached_of_leftDuring⟩, ?_⟩
  intro client running attached
  have served : ((ofCapacity capacity).acts run).act (.receive (.disconnect question.slot client)) =
      ((ofCapacity capacity).acts run).disconnect question.slot client := by
    rw [act, handle, if_pos running]
    rfl
  rw [served]
  refine ⟨questions_disconnect other client, ?_⟩
  have left := clients_disconnect ((ofCapacity capacity).acts run) question.slot client
  rw [left, if_pos attached, Function.update_self]

/-- A client of another slot leaves while a question to it is the innermost one. -/
def desertedRun : List Act :=
  [.receive (.connect ⟨1⟩ 0), .receive (.submit (panelItem 1 none) true),
    .receive (.disconnect ⟨1⟩ ⟨1⟩)]

theorem unattended_iff_deserted : panelItem 1 none ∈ ((ofCapacity 64).acts desertedRun).questions ∧
    LeftDuring (ofCapacity 64) desertedRun (panelItem 1 none) := by
  have waits : panelItem 1 none ∈ ((ofCapacity 64).acts desertedRun).questions := .head _
  exact ⟨waits, (unattended_iff rfl waits (by decide)).1.mp rfl⟩

/-- The innermost question can be to another slot without a client. -/
theorem unattended_after_disconnect :
    ¬∀ (capacity : Nat) (run : List Act) (c : Coordinator), (ofCapacity capacity).acts run = c →
      ∀ question ∈ c.questions.head?, question.slot ≠ SlotId.primary →
        c.clients question.slot ≠ none := by
  intro attended
  exact attended 64 desertedRun _ rfl (panelItem 1 none) rfl (by decide) rfl

end EngineLink.Coordinator
