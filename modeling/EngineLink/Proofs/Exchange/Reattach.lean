import EngineLink.Proofs.Exchange.Retries
import EngineLink.Proofs.Exchange.Stock
import Mathlib.Data.List.Duplicate

/-!
# What a new client finds queued

Whoever takes a slot finds what is left of the queue there, and behind it the open questions to the
slot that are not queued. A question counts as queued if any item with its number is. The numbers
of replies are chosen by clients, so a reply that nobody has got can keep a question with its number
from being queued.

## Main definitions

* `Coordinator.queue` — the items that are queued on a slot
* `Coordinator.othersIn` — what the engine has for clients in a run besides questions
* `Coordinator.Single` — no question is queued twice

## Main results

* `Coordinator.Single.acts` — in every run, no question is queued twice
* `Coordinator.mem_queue_connect_iff` — when a new client finds a question
-/

namespace EngineLink.Coordinator

variable {c d : Coordinator} {s : SlotId} {a : Act} {asked : List Item} {others : Item → Prop}
  {question : Item}

/-! ### Lists -/

/-- An item that occurs twice in a joined list occurs twice in a part of it or in both parts. -/
theorem duplicate_append {items more : List Item} (twice : List.Duplicate question (items ++ more)) :
    List.Duplicate question items ∨ List.Duplicate question more ∨
      question ∈ items ∧ question ∈ more := by
  induction items with
  | nil => exact .inr (.inl twice)
  | cons first items ih =>
    rw [List.cons_append, List.duplicate_cons_iff] at twice
    rcases twice with ⟨rfl, later⟩ | twice
    · rcases List.mem_append.mp later with inside | behind
      · exact .inl (List.duplicate_cons_iff.mpr (.inl ⟨rfl, inside⟩))
      · exact .inr (.inr ⟨List.mem_cons_self, behind⟩)
    · rcases ih twice with inside | behind | ⟨inside, behind⟩
      · exact .inl (inside.duplicate_cons first)
      · exact .inr (.inl behind)
      · exact .inr (.inr ⟨List.mem_cons_of_mem first inside, behind⟩)

theorem duplicate_concat {items : List Item} {last : Item}
    (twice : List.Duplicate question (items ++ [last])) :
    List.Duplicate question items ∨ question = last ∧ question ∈ items := by
  rcases duplicate_append twice with inside | behind | ⟨inside, behind⟩
  · exact .inl inside
  · exact absurd behind (List.not_duplicate_singleton question last)
  · exact .inr ⟨List.mem_singleton.mp behind, inside⟩

/-- What is queued again is not queued twice. -/
theorem duplicate_foldl_requeue {questions outbound : List Item}
    (twice : List.Duplicate question (questions.foldl requeue outbound)) :
    List.Duplicate question outbound := by
  induction questions generalizing outbound with
  | nil => exact twice
  | cons first questions ih =>
    have now : List.Duplicate question (requeue outbound first) := ih twice
    rw [requeue] at now
    split at now
    · exact now
    · next absent =>
      rcases duplicate_concat now with before | ⟨rfl, inside⟩
      · exact before
      · exact absurd (List.any_eq_true.mpr ⟨question, inside, beq_self_eq_true question.id⟩) absent

/-- What is queued again has a number that was not queued. -/
theorem mem_foldl_requeue {questions outbound : List Item} {item : Item}
    (queued : item ∈ questions.foldl requeue outbound) :
    item ∈ outbound ∨ item ∈ questions ∧ ∀ other ∈ outbound, other.id ≠ item.id := by
  induction questions generalizing outbound with
  | nil => exact .inl queued
  | cons first questions ih =>
    rcases ih queued with now | ⟨later, absent⟩
    · rw [requeue] at now
      split at now
      · exact .inl now
      · next absent =>
        refine (List.mem_append.mp now).imp_right fun isFirst => ?_
        obtain rfl := List.mem_singleton.mp isFirst
        refine ⟨List.mem_cons_self, fun other inside same => absent ?_⟩
        exact List.any_eq_true.mpr ⟨other, inside, beq_iff_eq.mpr same⟩
    · refine .inr ⟨List.mem_cons_of_mem first later, fun other inside => absent other ?_⟩
      rw [requeue]
      split
      · exact inside
      · exact List.mem_append_left _ inside

/-! ### Queues -/

/-- The items that are queued on a slot. -/
def queue (c : Coordinator) (s : SlotId) : List Item := (c.slot s).outbound

theorem queue_connect (c : Coordinator) (s : SlotId) (call : CallId) :
    (c.connect s call).queue s = (c.questionsTo s).foldl requeue (c.queue s) := by
  have taken : (c.connect s call).queue s =
      (c.questionsTo s).foldl requeue ((c.release s (.error slotTaken)).queue s) :=
    congrArg SlotState.outbound (slot_modifySlot_self (c.release s (.error slotTaken)) s
      fun state => { state with
        client := some ⟨c.nextClient⟩
        clientBusy := none
        outbound := (c.questionsTo s).foldl requeue state.outbound })
  rw [taken, queue, outbound_release]
  rfl

/-- What has a number was queued before an act, or is put into the queue in it. -/
theorem Leads.queued {deals : List Deal} (leads : Leads c.front deals d.front) (s : SlotId) :
    ((d.queue s).filter (·.id.isSome)).Sublist
      (c.queue s ++ deals.flatMap (Deal.brings s)) := by
  -- No call counts, so that only the queue matters.
  have nothing (ended : List (CallId × Except Status Batch)) :
      gotBy (fun _ => false) ended = [] := by
    refine List.flatMap_eq_nil_iff.mpr fun p _ => ?_
    obtain ⟨call, result⟩ := p
    cases result <;> rfl
  have uncounted : ∀ deal ∈ deals, deal.Apart (fun _ => false) s := by
    intro deal _
    cases deal with
    | wait u call => exact fun _ => rfl
    | _ => trivial
  have stocked : (d.front.stock (·.id.isSome) (fun _ => false) s).Sublist _ :=
    (leads.stock (fun _ => rfl) (fun _ _ _ _ => rfl) uncounted).2
  rw [Front.stock, Front.stock, nothing, nothing, List.nil_append, List.nil_append,
    ← List.filter_append] at stocked
  exact stocked.trans List.filter_sublist

/-! ### What the engine has for clients -/

/-- What the engine tells or replies in an act. -/
def othersBy : Act → List Item
  | .receive (.submit item false) => [item]
  | .receive (.executed item) => [item]
  | _ => []

/-- What the engine tells or replies in a run. -/
def othersIn (run : List Act) : List Item := run.flatMap othersBy

/-- Questions that are open after an act were open before or have just been asked. -/
theorem questions_act_subset (held : c.Held fun _ => True) (a : Act) :
    (c.act a).questions ⊆ c.questions ++ questionsBy a := by
  cases a with
  | receive e =>
    rw [act, handle]
    split
    · have settles := settles_serve (e := e) held (fun _ _ => trivial) (fun _ _ => trivial)
        fun _ _ => trivial
      have before := questions_subset_of_suffix settles.suffix
      rw [questions_begun] at before
      exact List.Subset.trans before List.perm_append_comm.subset
    · rw [questions_of_engineSide (engineSide_refuse c e)]
      exact List.subset_append_left _ _
  | pump gone =>
    rw [act]
    split
    · exact List.Subset.trans (questions_pump_subset gone c) (List.subset_append_left _ _)
    · exact List.subset_append_left _ _

/-! ### Questions in queues -/

/-- What has a number and is queued after an act was queued before, or is brought. -/
theorem exists_brings (c : Coordinator) (a : Act) : ∃ deals, c.Deals a deals ∧
    ∀ s, (((c.act a).queue s).filter (·.id.isSome)).Sublist
      (c.queue s ++ deals.flatMap (Deal.brings s)) := by
  obtain ⟨deals, does, leads⟩ := exists_deals c a
  exact ⟨deals, does, fun s => leads.queued s⟩

/-- What has a number and is queued is a question that was asked, or something else that the engine
has for clients, and no question is queued twice. -/
structure Single (asked : List Item) (others : Item → Prop) (c : Coordinator) : Prop where
  waits : c.questions ⊆ asked
  among : ∀ s, ∀ item ∈ c.queue s, item.id.isSome = true → item ∈ asked ∨ others item
  once : ∀ s, ∀ question ∈ asked, ¬List.Duplicate question (c.queue s)

theorem single_ofCapacity (others : Item → Prop) (capacity : Nat) :
    Single [] others (ofCapacity capacity) where
  waits := List.nil_subset _
  among _ _ none := nomatch none
  once _ _ none := nomatch none

namespace Single

theorem among_act (h : Single asked others c) (tells : ∀ item ∈ othersBy a, others item)
    {item : Item} (queued : item ∈ (c.act a).queue s) (numbered : item.id.isSome = true) :
    item ∈ asked ++ questionsBy a ∨ others item := by
  obtain ⟨deals, does, sub⟩ := exists_brings c a
  have opens (waits : item ∈ c.questions) : item ∈ asked ++ questionsBy a ∨ others item :=
    .inl (List.mem_append_left _ (h.waits waits))
  rcases List.mem_append.mp ((sub s).subset (List.mem_filter.mpr ⟨queued, numbered⟩)) with
    before | brought
  · exact (h.among s item before numbered).imp_left (List.mem_append_left _)
  · rcases does.brings_cases s with
      none | ⟨e, _, rfl, brings, -, one⟩ | ⟨call, rfl, few⟩ | ⟨gone, rfl, -, -, p, innermost, one⟩
    · rw [none] at brought
      cases brought
    · rw [one] at brought
      obtain rfl := List.mem_singleton.mp brought
      rcases brings with rfl | ⟨wait, rfl⟩
      · exact .inr (tells item List.mem_cons_self)
      · cases wait with
        | false => exact .inr (tells item List.mem_cons_self)
        | true => exact .inl (List.mem_append_right _ List.mem_cons_self)
    · obtain ⟨p, waits, rfl⟩ := List.mem_map.mp (List.mem_filter.mp (few brought)).1
      exact opens (List.mem_map_of_mem (List.mem_reverse.mp waits))
    · rw [one] at brought
      obtain rfl := List.mem_singleton.mp brought
      exact opens (List.mem_map_of_mem (List.mem_of_mem_head? innermost))

theorem once_act (h : Single asked others c)
    (numbered : ∀ question ∈ asked ++ questionsBy a, question.id.isSome = true)
    (apart : ∀ question ∈ asked ++ questionsBy a, ¬others question)
    (fresh : ∀ question ∈ questionsBy a, question ∉ asked)
    (tells : ∀ item ∈ othersBy a, others item) (known : question ∈ asked ++ questionsBy a) :
    ¬List.Duplicate question ((c.act a).queue s) := by
  intro twice
  -- A question that is queued has been asked before, and was not queued twice then.
  have older (queued : question ∈ c.queue s) : question ∈ asked :=
    (h.among s question queued (numbered question known)).resolve_right (apart question known)
  have oneBefore (before : List.Duplicate question (c.queue s)) : False :=
    h.once s question (older before.mem) before
  obtain ⟨deals, does, sub⟩ := exists_brings c a
  have joined : List.Duplicate question (c.queue s ++ deals.flatMap (Deal.brings s)) := by
    rw [List.duplicate_iff_sublist] at twice ⊢
    refine List.Sublist.trans ?_ (sub s)
    have both := twice.filter (·.id.isSome)
    have kept : [question, question].filter (·.id.isSome) = [question, question] := by
      simp [numbered question known]
    rwa [kept] at both
  rcases does.brings_cases s with
    none | ⟨e, _, rfl, brings, -, one⟩ | ⟨call, rfl, -⟩ | ⟨gone, rfl, rfl, empty, p, -, one⟩
  · rw [none, List.append_nil] at joined
    exact oneBefore joined
  · rw [one] at joined
    rcases duplicate_concat joined with before | ⟨rfl, queued⟩
    · exact oneBefore before
    · rcases brings with rfl | ⟨wait, rfl⟩
      · exact apart question known (tells question List.mem_cons_self)
      · cases wait with
        | false => exact apart question known (tells question List.mem_cons_self)
        | true => exact fresh question List.mem_cons_self (older queued)
  · rw [act, handle] at twice
    split at twice
    · rw [serve, queue_connect] at twice
      exact oneBefore (duplicate_foldl_requeue twice)
    · exact oneBefore twice
  · -- Nothing else is queued when the innermost question is queued again.
    rw [one, queue, ← primaryQueue, empty, List.nil_append] at joined
    exact absurd joined (List.not_duplicate_singleton question p.question)

theorem act (h : Single asked others c) (held : c.Held fun _ => True)
    (numbered : ∀ question ∈ asked ++ questionsBy a, question.id.isSome = true)
    (apart : ∀ question ∈ asked ++ questionsBy a, ¬others question)
    (fresh : ∀ question ∈ questionsBy a, question ∉ asked)
    (tells : ∀ item ∈ othersBy a, others item) :
    Single (asked ++ questionsBy a) others (c.act a) where
  waits := List.Subset.trans (questions_act_subset held a) (List.append_subset.mpr
    ⟨List.Subset.trans h.waits (List.subset_append_left _ _), List.subset_append_right _ _⟩)
  among _ _ queued numbered := h.among_act tells queued numbered
  once _ _ known := h.once_act numbered apart fresh tells known

/-- In every run, no question is queued twice. -/
theorem acts {ids : List (Option RequestId)} {run : List Act} (h : Single asked others c)
    (balanced : Balanced ids c)
    (numbered : ∀ question ∈ asked ++ questionsIn run, question.id.isSome = true)
    (apart : ∀ question ∈ asked ++ questionsIn run, ¬others question)
    (distinct : (asked ++ questionsIn run).Nodup) (tells : ∀ item ∈ othersIn run, others item) :
    Single (asked ++ questionsIn run) others (c.acts run) := by
  induction run generalizing c asked ids with
  | nil =>
    rw [questionsIn, List.flatMap_nil, List.append_nil]
    exact h
  | cons a run ih =>
    rw [questionsIn, List.flatMap_cons, ← List.append_assoc] at numbered apart distinct ⊢
    rw [othersIn, List.flatMap_cons, List.forall_mem_append] at tells
    have first := h.act balanced.held (List.forall_mem_append.mp numbered).1
      (List.forall_mem_append.mp apart).1 (fun question asks known => ?_) tells.1
    · exact ih first (balanced.act a) numbered apart distinct tells.2
    · have both := (List.nodup_append.mp (List.nodup_append.mp distinct).1).2.2
      exact both question known question asks rfl

end Single

/-- The open questions to the slot of a new client, in a run whose questions have distinct numbers
and are told apart from what else the engine has for clients: a question is queued exactly if it was
queued before, or if nothing with its number was. It is not queued twice. What was queued before
stays in front, and if something with its number was queued, it was the question or something else
that the engine has for clients. -/
theorem mem_queue_connect_iff {capacity : Nat} {run : List Act} (distinct : (askedIn run).Nodup)
    (numbered : none ∉ askedIn run) (apart : ∀ item ∈ othersIn run, item ∉ questionsIn run)
    (reached : (ofCapacity capacity).acts run = c) (running : c.running = true)
    (waits : question ∈ c.questionsTo s) (call : CallId) :
    (question ∈ (c.act (.receive (.connect s call))).queue s ↔
      question ∈ c.queue s ∨ ∀ item ∈ c.queue s, item.id ≠ question.id) ∧
    ¬List.Duplicate question ((c.act (.receive (.connect s call))).queue s) ∧
    c.queue s <+: (c.act (.receive (.connect s call))).queue s ∧
    ∀ item ∈ c.queue s, item.id = question.id → item = question ∨ item ∈ othersIn run := by
  have itself {one other : Item} (first : one ∈ questionsIn run) (second : other ∈ questionsIn run)
      (same : one.id = other.id) : one = other := by
    rw [askedIn_eq] at distinct
    exact List.inj_on_of_nodup_map distinct first second same
  have hasNumber : ∀ question ∈ questionsIn run, question.id.isSome = true := by
    intro question asks
    rw [Option.isSome_iff_ne_none]
    intro unnumbered
    rw [askedIn_eq] at numbered
    exact numbered (List.mem_map.mpr ⟨question, asks, unnumbered⟩)
  have single : Single (questionsIn run) (· ∈ othersIn run) c := by
    have once : (questionsIn run).Nodup := by
      rw [askedIn_eq] at distinct
      exact distinct.of_map _
    rw [← reached]
    exact (single_ofCapacity (· ∈ othersIn run) capacity).acts (balanced_ofCapacity capacity)
      hasNumber (fun question asks other => apart question other asks) once fun _ => id
  have open_ {item : Item} (waits : item ∈ c.questionsTo s) : item ∈ questionsIn run := by
    obtain ⟨p, member, rfl⟩ := List.mem_map.mp (List.mem_filter.mp waits).1
    exact single.waits (List.mem_map_of_mem (List.mem_reverse.mp member))
  have connected : (c.act (.receive (.connect s call))).queue s =
      (c.questionsTo s).foldl requeue (c.queue s) := by
    rw [act, handle, if_pos running]
    exact queue_connect c s call
  obtain ⟨added, grown, -⟩ := exists_foldl_requeue (c.questionsTo s) (c.queue s)
  rw [connected]
  refine ⟨⟨fun queued => ?_, ?_⟩, fun twice => ?_, ⟨added, grown.symm⟩, fun item queued same => ?_⟩
  · exact (mem_foldl_requeue queued).imp_right And.right
  · rintro (before | absent)
    · rw [grown]
      exact List.mem_append_left added before
    · obtain ⟨item, queued, same⟩ := exists_mem_foldl_requeue (c.queue s) waits
      rcases mem_foldl_requeue queued with before | ⟨waitsToo, -⟩
      · exact absurd same (absent item before)
      · rwa [itself (open_ waitsToo) (open_ waits) same] at queued
  · exact single.once s question (open_ waits) (duplicate_foldl_requeue twice)
  · have known := single.among s item queued (same ▸ hasNumber question (open_ waits))
    exact known.imp_left fun asks => itself asks (open_ waits) same

/-- Something to evaluate, or the reply to it. -/
def evaluationItem (id : RequestId) (answer : Option Answer) : Item :=
  ⟨SlotId.primary, some id, .data (.evalVoid "x"), answer⟩

/-- The primary client gets a question with a call that submits a request, which is executed. -/
def repliedRun (id : RequestId) : List Act :=
  [.receive (.connect SlotId.primary 0), .receive (.submit (lineItem 1 none) true)] ++
    comesBack [evaluationItem id none] 1 ++ [.receive (.executed (evaluationItem id (some .done)))]

theorem mem_queue_connect_iff_replied : ∃ c, (ofCapacity 64).acts (repliedRun 7) = c ∧
    lineItem 1 none ∉ c.queue SlotId.primary ∧
    lineItem 1 none ∈ (c.act (.receive (.connect SlotId.primary 2))).queue SlotId.primary ∧
    ¬List.Duplicate (lineItem 1 none)
      ((c.act (.receive (.connect SlotId.primary 2))).queue SlotId.primary) := by
  have apart : ∀ item ∈ othersIn (repliedRun 7), item ∉ questionsIn (repliedRun 7) := by
    intro item other asked
    obtain rfl : item = evaluationItem 7 (some .done) := List.mem_singleton.mp other
    cases List.mem_singleton.mp asked
  have queue : ((ofCapacity 64).acts (repliedRun 7)).queue SlotId.primary =
      [evaluationItem 7 (some .done)] := rfl
  have absent : ∀ item ∈ ((ofCapacity 64).acts (repliedRun 7)).queue SlotId.primary,
      item.id ≠ (lineItem 1 none).id := by
    rw [queue, List.forall_mem_singleton]
    decide
  have waits : lineItem 1 none ∈ ((ofCapacity 64).acts (repliedRun 7)).questionsTo
      SlotId.primary := List.mem_cons_self
  have distinct : (askedIn (repliedRun 7)).Nodup := by decide
  have numbered : none ∉ askedIn (repliedRun 7) := by decide
  have running : ((ofCapacity 64).acts (repliedRun 7)).running = true := rfl
  obtain ⟨iff, once, -, -⟩ := mem_queue_connect_iff distinct numbered apart rfl running waits 2
  exact ⟨_, rfl, fun queued => absent _ queued rfl, iff.mpr (.inr absent), once⟩

/-- A reply that nobody has got can keep a question from a new client. -/
theorem question_not_queued :
    ¬∀ (capacity : Nat) (run : List Act) (c : Coordinator), (ofCapacity capacity).acts run = c →
      c.running = true → ∀ (s : SlotId) (call : CallId), ∀ question ∈ c.questionsTo s,
        question ∈ (c.act (.receive (.connect s call))).queue s ∧
          ¬List.Duplicate question ((c.act (.receive (.connect s call))).queue s) := by
  intro queued
  have question : lineItem 1 none ∈ (((ofCapacity 64).acts (repliedRun 1)).act
      (.receive (.connect SlotId.primary 2))).queue SlotId.primary :=
    (queued 64 (repliedRun 1) _ rfl rfl SlotId.primary 2 (lineItem 1 none) List.mem_cons_self).1
  have only : (((ofCapacity 64).acts (repliedRun 1)).act
      (.receive (.connect SlotId.primary 2))).queue SlotId.primary =
        [evaluationItem 1 (some .done)] := rfl
  rw [only] at question
  cases List.mem_singleton.mp question

end EngineLink.Coordinator
