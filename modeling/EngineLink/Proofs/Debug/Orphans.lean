import EngineLink.Proofs.Debug.Updates

/-!
# Installations without a state

A tracepoint goes away in three ways. A deletion and the firing of a temporary tracepoint take it
out of the states and out of all elements. A reset only empties the states: what was installed stays
installed without a state, until a client tells the state anew or deletes it. No other installation
is ever without a state.

## Main definitions

* `RegistryAct`, `Registry.Does` — what is done to a registry, and what can come of it
* `Registry.Course` — what is done to a fresh registry, in order
* `Forgotten` — a reset has dropped a state, and no client has told it since
* `Registry.Effect` — all that one operation can do to one tracepoint

## Main results

* `Registry.exists_course_iff` — courses lead to the registries that runs lead to
* `Registry.effect_of_does` — what each operation does to a tracepoint
* `Registry.orphaned_iff_forgotten` — an installation is without a state only after a reset
-/

namespace EngineLink

/-- What clients and running code do to a registry. -/
inductive RegistryAct where
  | update (u : TracepointUpdate)
  /-- The positions of a request may be found or not. -/
  | install (located : List LocatedElement)
  | installFlags (tracepoints : List FlagTracepoint)
  | enable (enabled : Bool)
  | hit (path elementId : String) (id : Int64)

namespace RegistryAct

/-- All states are dropped first. -/
def Resets : RegistryAct → Prop
  | update u => u.reset = true
  | _ => False

/-- A client tells the state of a tracepoint. -/
def Tells (path : String) (id : Int64) : RegistryAct → Prop
  | update u => ∃ s ∈ u.states, Registry.isAt path id s = true ∧ s.type ≠ .deleted
  | _ => False

end RegistryAct

/-- A reset has dropped the state of a tracepoint, and no client has told it in the same update or
since. -/
def Forgotten (acts : List RegistryAct) (path : String) (id : Int64) : Prop :=
  ∃ before act after, acts = before ++ act :: after ∧ act.Resets ∧
    ∀ later ∈ act :: after, ¬later.Tells path id

theorem forgotten_concat {acts : List RegistryAct} {act : RegistryAct} {path : String}
    {id : Int64} :
    Forgotten (acts ++ [act]) path id ↔
      (Forgotten acts path id ∨ act.Resets) ∧ ¬act.Tells path id := by
  constructor
  · rintro ⟨before, reset, after, split, resets, untold⟩
    -- The reset is the last operation, or one before it.
    obtain rfl | ⟨after, last, rfl⟩ := List.eq_nil_or_concat after
    · obtain ⟨rfl, same⟩ := List.append_inj' split rfl
      obtain rfl := List.singleton_inj.mp same
      exact ⟨.inr resets, untold _ List.mem_cons_self⟩
    · rw [List.concat_eq_append, ← List.cons_append, ← List.append_assoc] at split
      obtain ⟨rfl, same⟩ := List.append_inj' split rfl
      obtain rfl := List.singleton_inj.mp same
      exact ⟨.inl ⟨before, reset, after, rfl, resets, fun later member =>
        untold later (by grind)⟩, untold _ (by simp)⟩
  · rintro ⟨⟨before, reset, after, rfl, resets, untold⟩ | resets, silent⟩
    · refine ⟨before, reset, after ++ [act], by simp, resets, fun later member => ?_⟩
      rw [← List.cons_append, List.mem_append, List.mem_singleton] at member
      rcases member with earlier | rfl
      · exact untold later earlier
      · exact silent
    · exact ⟨acts, act, [], rfl, resets, by simpa using silent⟩

namespace Registry

variable {r r' : Registry} {act : RegistryAct} {acts : List RegistryAct} {path elementId : String}
  {id : Int64}

/-- What can come of an operation. Only a hit leaves it open, as its condition may be decided in any
way. -/
def Does (r : Registry) : RegistryAct → Registry → Prop
  | .update u, r' => r' = r.update u
  | .install located, r' => r' = (r.install located).2
  | .installFlags tracepoints, r' => r' = (r.installFlags tracepoints).2
  | .enable enabled, r' => r' = { r with breakpointsEnabled := enabled }
  | .hit path elementId id, r' => ∃ event, r.Hits path elementId id event r'

/-- What is done to a fresh registry, in order. -/
inductive Course : List RegistryAct → Registry → Prop
  | start : Course [] {}
  | does {acts : List RegistryAct} {r r' : Registry} (course : Course acts r) (act : RegistryAct)
    (does : r.Does act r') : Course (acts ++ [act]) r'

/-- Courses lead to the registries that runs lead to. -/
theorem exists_course_iff : (∃ acts, Course acts r) ↔ ∃ history, Run history r := by
  constructor
  · rintro ⟨acts, course⟩
    induction course with
    | start => exact ⟨[], .start⟩
    | @does acts r r' _ act does ih =>
      obtain ⟨history, run⟩ := ih
      cases act with
      | update u => exact does ▸ ⟨_, run.update u⟩
      | install located => exact does ▸ ⟨_, run.install located⟩
      | installFlags tracepoints => exact does ▸ ⟨_, run.installFlags tracepoints⟩
      | enable enabled => exact does ▸ ⟨_, run.enable enabled⟩
      | hit path elementId id =>
        obtain ⟨event, hits⟩ := does
        exact ⟨_, run.hit path elementId id hits⟩
  · rintro ⟨history, run⟩
    induction run with
    | start => exact ⟨[], .start⟩
    | update u _ ih => exact ih.imp' _ fun _ course => course.does (.update u) rfl
    | install located _ ih =>
      exact ih.imp' _ fun _ course => course.does (.install located) rfl
    | installFlags tracepoints _ ih =>
      exact ih.imp' _ fun _ course => course.does (.installFlags tracepoints) rfl
    | enable enabled _ ih =>
      exact ih.imp' _ fun _ course => course.does (.enable enabled) rfl
    | hit path elementId id _ hits ih =>
      exact ih.imp' _ fun _ course => course.does (.hit path elementId id) ⟨_, hits⟩

/-! ### Operations -/

/-- All that an operation can do to a tracepoint. -/
inductive Effect (act : RegistryAct) (r r' : Registry) (path : String) (id : Int64) : Prop
  /-- It is taken out of the states and out of all elements. -/
  | removed (unknown : r'.state? path id = none)
      (nowhere : ∀ elementId, r'.isInstalled path elementId id = false)
  /-- Its state is told. -/
  | told (tells : act.Tells path id) (known : (r'.state? path id).isSome)
  /-- Its state is dropped. -/
  | forgotten (resets : act.Resets) (silent : ¬act.Tells path id)
      (unknown : r'.state? path id = none)
  /-- It stays known or unknown. Only what is known is installed anew. -/
  | kept (goesOn : ¬act.Resets) (silent : ¬act.Tells path id)
      (known : (r'.state? path id).isSome = (r.state? path id).isSome)
      (installed : ∀ elementId, r'.isInstalled path elementId id = true →
        r.isInstalled path elementId id = true ∨ (r.state? path id).isSome)

theorem effect_update (r : Registry) (u : TracepointUpdate) (path : String) (id : Int64) :
    Effect (.update u) r (r.update u) path id := by
  have state : (r.update u).state? path id = _ := state?_update r u
  cases last : u.last? path id with
  | some s =>
    have member : s ∈ u.states := List.mem_reverse.mp (List.mem_of_find?_eq_some last)
    have about : isAt path id s = true := List.find?_some last
    rw [last] at state
    dsimp only at state
    by_cases gone : s.type = .deleted
    · refine .removed (by rw [state, TracepointState.told?, if_pos gone]) fun elementId => ?_
      have deletes : u.deletes path id = true :=
        List.any_eq_true.mpr ⟨s, member, by simp [gone, about]⟩
      rw [isInstalled_update, if_pos deletes]
    · refine .told ⟨s, member, about, gone⟩ ?_
      rw [state, TracepointState.told?, if_neg gone]
      rfl
  | none =>
    rw [last] at state
    have others : ∀ s ∈ u.states, isAt path id s = false := fun s member =>
      Bool.eq_false_iff.mpr (List.find?_eq_none.mp last s (List.mem_reverse.mpr member))
    have silent : ¬(RegistryAct.update u).Tells path id := by
      rintro ⟨s, member, about, -⟩
      rw [others s member] at about
      cases about
    cases reset : u.reset with
    | true =>
      rw [reset] at state
      exact .forgotten reset silent state
    | false =>
      rw [reset] at state
      refine .kept (by simp [RegistryAct.Resets, reset]) silent (by rw [state]; rfl) ?_
      intro elementId installed
      rw [isInstalled_update] at installed
      split_ifs at installed
      exact .inl installed

theorem states_install (r : Registry) (located : List LocatedElement) :
    (r.install located).2.states = r.states := by
  induction located generalizing r with
  | nil => rfl
  | cons e rest ih => exact ih (r.installElement e).2

theorem lookup_filter_ne {α β : Type} [BEq α] [LawfulBEq α] {a b : α} (other : a ≠ b)
    (entries : List (α × β)) : (entries.filter (·.1 != b)).lookup a = entries.lookup a := by
  induction entries with
  | nil => rfl
  | cons entry rest ih =>
    obtain ⟨key, x⟩ := entry
    by_cases same : key = b
    · subst same
      simpa [List.lookup_cons, beq_eq_false_iff_ne.mpr other] using ih
    · simp [List.lookup_cons, same, ih]

theorem isInstalled_setInstalled (r : Registry) (file element : String) (ids : List Int64) :
    (r.setInstalled file element ids).isInstalled path elementId id =
      if path = file ∧ elementId = element then ids.contains id
      else r.isInstalled path elementId id := by
  rw [isInstalled, installedIn, setInstalled, List.lookup_cons]
  split_ifs with here
  · obtain ⟨rfl, rfl⟩ := here
    simp
  · have other : (path, elementId) ≠ (file, element) := by simpa using here
    rw [beq_eq_false_iff_ne.mpr other]
    dsimp only
    rw [lookup_filter_ne other]
    rfl

theorem isInstalled_installElement {e : LocatedElement}
    (installed : (r.installElement e).2.isInstalled path elementId id = true) :
    r.isInstalled path elementId id = true ∨ r.isEnabled path id = true := by
  rw [installElement] at installed
  dsimp only at installed
  rw [isInstalled_setInstalled] at installed
  split_ifs at installed with here
  · obtain ⟨rfl, rfl⟩ := here
    exact .inr (mem_resolvePositions (List.contains_iff_mem.mp installed)).2
  · exact .inl installed

theorem isInstalled_install {located : List LocatedElement}
    (installed : (r.install located).2.isInstalled path elementId id = true) :
    r.isInstalled path elementId id = true ∨ r.isEnabled path id = true := by
  induction located generalizing r with
  | nil => exact .inl installed
  | cons e rest ih =>
    -- The states are the same in between, so what is enabled then was enabled before.
    obtain before | enabled := ih (r := (r.installElement e).2) installed
    · exact isInstalled_installElement before
    · exact .inr enabled

theorem isSome_of_isEnabled (enabled : r.isEnabled path id = true) :
    (r.state? path id).isSome := by
  cases known : r.state? path id with
  | none => simp [isEnabled, known] at enabled
  | some s => rfl

theorem effect_install (r : Registry) (located : List LocatedElement) (path : String)
    (id : Int64) : Effect (.install located) r (r.install located).2 path id := by
  refine .kept not_false not_false ?_ fun elementId installed => ?_
  · rw [state?, states_install]
    rfl
  · exact (isInstalled_install installed).imp_right isSome_of_isEnabled

/-- An operation that changes neither the states nor the installations does nothing to any
tracepoint. -/
theorem Effect.of_eq (goesOn : ¬act.Resets) (silent : ¬act.Tells path id)
    (states : r'.states = r.states) (installed : r'.installed = r.installed) :
    Effect act r r' path id := by
  refine .kept goesOn silent ?_ fun elementId here => .inl ?_
  · rw [state?, state?, states]
  · rwa [isInstalled, installedIn, installed] at here

theorem installFlags_same (r : Registry) (tracepoints : List FlagTracepoint) :
    (r.installFlags tracepoints).2.states = r.states ∧
      (r.installFlags tracepoints).2.installed = r.installed := by
  induction tracepoints generalizing r with
  | nil => exact ⟨rfl, rfl⟩
  | cons t rest ih =>
    obtain ⟨states, installed⟩ := ih (r.installFlag t).2
    have step : (r.installFlag t).2.states = r.states ∧
        (r.installFlag t).2.installed = r.installed := by
      rw [installFlag]
      split_ifs <;> exact ⟨rfl, rfl⟩
    exact ⟨states.trans step.1, installed.trans step.2⟩

theorem effect_hit {file element : String} {n : Int64} {event : Option TracepointEvent}
    (hits : r.Hits file element n event r') (path : String) (id : Int64) :
    Effect (.hit file element n) r r' path id := by
  obtain ⟨-, rfl⟩ | ⟨s, failure, may, -, rfl⟩ := hits_cases hits
  · exact .of_eq not_false not_false rfl rfl
  -- What fires is known, so writing its state back makes nothing known.
  obtain ⟨-, known, -⟩ := candidate?_eq_some may
  obtain ⟨-, rfl, rfl⟩ := mem_state known
  obtain ⟨t, samePath, sameId, -, after⟩ := fire_cases r s failure
  have inserted : ({ r with states := insertState t r.states }.state? path id).isSome =
      (r.state? path id).isSome := by
    rw [state?, find?_insertState]
    split_ifs with about
    · obtain ⟨rfl, rfl⟩ := isAt_iff.mp about
      rw [samePath, sameId, known]
      rfl
    · rfl
  rw [after, samePath, sameId]
  by_cases temporary : t.isTemporary = true
  · rw [if_pos temporary]
    by_cases here : s.filePath = path ∧ s.id = id
    · refine .removed (by rw [state?_remove, if_pos here]) fun elementId => ?_
      rw [isInstalled_remove, if_pos here]
    · refine .kept not_false not_false (by rw [state?_remove, if_neg here, inserted]) ?_
      intro elementId installed
      rw [isInstalled_remove, if_neg here] at installed
      exact .inl installed
  · rw [if_neg temporary]
    exact .kept not_false not_false inserted fun elementId installed => .inl installed

/-- Each operation does one of four things to a tracepoint. -/
theorem effect_of_does (does : r.Does act r') (path : String) (id : Int64) :
    Effect act r r' path id := by
  cases act with
  | update u => exact does ▸ effect_update r u path id
  | install located => exact does ▸ effect_install r located path id
  | installFlags tracepoints =>
    obtain ⟨states, installed⟩ := installFlags_same r tracepoints
    exact does ▸ .of_eq not_false not_false states installed
  | enable enabled => exact does ▸ .of_eq not_false not_false rfl rfl
  | hit file element n =>
    obtain ⟨event, hits⟩ := does
    exact effect_hit hits path id

/-! ### Courses -/

/-- What has been forgotten is unknown, and what is installed but unknown has been forgotten. -/
structure Accounted (acts : List RegistryAct) (r : Registry) : Prop where
  unknown : ∀ path id, Forgotten acts path id → r.state? path id = none
  forgotten : ∀ path elementId id, r.isInstalled path elementId id = true →
    r.state? path id = none → Forgotten acts path id

theorem Accounted.does (h : Accounted acts r) (does : r.Does act r') :
    Accounted (acts ++ [act]) r' := by
  refine ⟨fun path id => ?_, fun path elementId id installed unknown => ?_⟩
  · rw [forgotten_concat]
    rintro ⟨before, silent⟩
    cases effect_of_does does path id with
    | removed unknown => exact unknown
    | told tells => exact absurd tells silent
    | forgotten _ _ unknown => exact unknown
    | kept goesOn _ known =>
      have unknown := h.unknown path id (before.resolve_right goesOn)
      rwa [unknown, Option.isSome_none, Option.isSome_eq_false_iff, Option.isNone_iff_eq_none]
        at known
  · rw [forgotten_concat]
    cases effect_of_does does path id with
    | removed _ nowhere =>
      rw [nowhere] at installed
      cases installed
    | told _ known =>
      rw [unknown] at known
      cases known
    | forgotten resets silent => exact ⟨.inr resets, silent⟩
    | kept _ silent known before =>
      rw [unknown, Option.isSome_none] at known
      have installed := (before elementId installed).resolve_right (by simp [← known])
      refine ⟨.inl (h.forgotten path elementId id installed ?_), silent⟩
      exact Option.isNone_iff_eq_none.mp (Option.isSome_eq_false_iff.mp known.symm)

theorem accounted_of_course (course : Course acts r) : Accounted acts r := by
  induction course with
  | start =>
    refine ⟨fun _ _ _ => rfl, fun path elementId id installed _ => ?_⟩
    cases installed
  | does _ act does ih => exact ih.does does

/-- An installation is without a state if and only if a reset has dropped the state and no client
has told it since. Whatever else takes a state away takes the tracepoint out of all elements. -/
theorem orphaned_iff_forgotten (course : Course acts r) :
    (∀ path elementId id, r.isInstalled path elementId id = true →
        (r.state? path id = none ↔ Forgotten acts path id)) ∧
      ∀ act r', r.Does act r' → ¬act.Resets →
        ∀ path id, (r.state? path id).isSome → r'.state? path id = none →
          ∀ elementId, r'.isInstalled path elementId id = false := by
  have accounted := accounted_of_course course
  refine ⟨fun path elementId id installed =>
    ⟨accounted.forgotten path elementId id installed, accounted.unknown path id⟩, ?_⟩
  intro act r' does goesOn path id before unknown
  cases effect_of_does does path id with
  | removed _ nowhere => exact nowhere
  | told _ known =>
    rw [unknown] at known
    cases known
  | forgotten resets => exact absurd resets goesOn
  | kept _ _ known =>
    rw [unknown, before] at known
    cases known

/-- A tracepoint is set. -/
def setting : List RegistryAct :=
  [.update ⟨false, [once]⟩, .install [⟨"a", "f", [(1, true)]⟩]]

theorem course_setting : Course setting (setOnce {}) :=
  (Course.start.does (.update ⟨false, [once]⟩) rfl).does (.install [⟨"a", "f", [(1, true)]⟩]) rfl

/-- A tracepoint is set, and then all states are dropped. -/
def settingAndReset : List RegistryAct := setting ++ [.update ⟨true, []⟩]

theorem course_settingAndReset : Course settingAndReset ((setOnce {}).update ⟨true, []⟩) :=
  course_setting.does (.update ⟨true, []⟩) rfl

/-- After a reset a tracepoint is installed without a state. -/
theorem installed_without_state_after_reset :
    ∃ acts r, Course acts r ∧ r.isInstalled "a" "f" 1 = true ∧ r.state? "a" 1 = none :=
  ⟨settingAndReset, _, course_settingAndReset, rfl, rfl⟩

/-- A reset forgets the tracepoint that is installed, a deletion takes it out of the element. -/
theorem orphaned_iff_forgotten_once :
    (∃ r, Course settingAndReset r ∧ r.isInstalled "a" "f" 1 = true ∧
        r.state? "a" 1 = none ∧ Forgotten settingAndReset "a" 1) ∧
      ∃ r r', Course setting r ∧ r.Does (.update ⟨false, [.deleted "a" 1]⟩) r' ∧
        (r.state? "a" 1).isSome ∧ r'.state? "a" 1 = none ∧
        r'.isInstalled "a" "f" 1 = false := by
  refine ⟨⟨_, course_settingAndReset, rfl, rfl, ?_⟩, _, _, course_setting, rfl, rfl, rfl, ?_⟩
  · exact ((orphaned_iff_forgotten course_settingAndReset).1 "a" "f" 1 rfl).mp rfl
  · exact (orphaned_iff_forgotten course_setting).2 (.update ⟨false, [.deleted "a" 1]⟩) _ rfl
      (by simp [RegistryAct.Resets]) "a" 1 rfl rfl "f"

end Registry

end EngineLink
