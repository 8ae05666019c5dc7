import Mathlib.Data.List.Basic
import EngineLink.Engine.Interpreter

/-!
# Tracepoints that fire

States are kept by file and number, installations by file and element, and a hit looks at both. A
removal takes a tracepoint out of either, a reset only forgets states. So what is installed has been
placed after it was registered, and both after its last removal, whatever happened to its state in
between.

## Main definitions

* `TracepointFact` — what happens to tracepoints: they are registered, removed and placed
* `Registry.Hits` — what can come of a hit, however the condition is decided
* `Registry.Run` — what clients and running code do with a registry, and what it makes happen
* `Armed` — a tracepoint has been registered and then placed in an element, and not removed since

## Main results

* `Registry.hits_cases` — a hit changes nothing unless a tracepoint fires
* `Registry.Grounded.run` — in every run, what is known is registered and what is installed is armed
* `Registry.armed_of_fires` — a tracepoint fires only while it is known, enabled and armed
-/

namespace EngineLink

/-- What happens to a tracepoint. -/
inductive TracepointFact where
  /-- A client tells the state of the tracepoint. -/
  | registered (path : String) (id : Int64)
  /-- A client deletes the tracepoint, or it fires and is a temporary one. -/
  | removed (path : String) (id : Int64)
  /-- An installation finds the position in an element, while the tracepoint is enabled. -/
  | placed (path elementId : String) (id : Int64)
  deriving DecidableEq, Repr

/-- A tracepoint has been registered and not removed since. -/
def Registered (history : List TracepointFact) (path : String) (id : Int64) : Prop :=
  ∃ before after, history = before ++ .registered path id :: after ∧ .removed path id ∉ after

/-- A tracepoint has been registered and later placed in an element, and not removed since. -/
def Armed (history : List TracepointFact) (path elementId : String) (id : Int64) : Prop :=
  ∃ before between after,
    history = before ++ .registered path id :: between ++ .placed path elementId id :: after ∧
      .removed path id ∉ between ∧ .removed path id ∉ after

namespace Registry

variable {r r' : Registry} {history : List TracepointFact} {path elementId : String} {id : Int64}
  {event : Option TracepointEvent}

/-! ### Hits -/

/-- What can come of a hit: an event, if the tracepoint fires, and the registry after it. It does so
for some interpreter and some way in which what the condition asks for is carried out. -/
def Hits (r : Registry) (path elementId : String) (id : Int64) (event : Option TracepointEvent)
    (r' : Registry) : Prop :=
  ∃ (ι : Type) (I : Interpreter ι) (environment : Option Handle) (σ : Type)
    (handler : (q : EvalRequest ι) → StateM σ q.Reply) (s : σ),
    (((I.hit r path elementId id environment).interpret handler).run s).1 = (event, r')

/-- What comes of a hit on a tracepoint that may fire, given how its condition is decided. -/
def outcome (r : Registry) (s : TracepointState) :
    Except EvalFault Bool → Option TracepointEvent × Registry
  | .ok false => (none, r)
  | .ok true => ((r.fire s none).1, (r.fire s none).2)
  | .error fault => ((r.fire s (some fault)).1, (r.fire s (some fault)).2)

theorem hit_of_candidate {ι : Type} (I : Interpreter ι) (environment : Option Handle)
    {s : TracepointState} (may : r.candidate? path elementId id = some s) :
    ∃ decide, I.hit r path elementId id environment = decide >>= fun d => pure (r.outcome s d) := by
  rw [Interpreter.hit, may]
  dsimp only
  cases s.condition with
  | none => exact ⟨pure (.ok true), rfl⟩
  | some condition =>
    refine ⟨(I.holds condition environment).run, ?_⟩
    dsimp only
    congr 1
    funext decided
    rcases decided with fault | ⟨⟩ | ⟨⟩ <;> rfl

/-- A hit changes nothing unless a tracepoint fires that may. -/
theorem hits_cases (hits : r.Hits path elementId id event r') :
    (event = none ∧ r' = r) ∨
      ∃ s failure, r.candidate? path elementId id = some s ∧
        event = some (r.fire s failure).1 ∧ r' = (r.fire s failure).2 := by
  obtain ⟨ι, I, environment, σ, handler, start, result⟩ := hits
  cases may : r.candidate? path elementId id with
  | none =>
    rw [Interpreter.hit, may] at result
    cases result
    exact .inl ⟨rfl, rfl⟩
  | some s =>
    obtain ⟨decide, hit⟩ := hit_of_candidate I environment may
    rw [hit, Job.bind_eq, Job.interpret_bind, StateT.run_bind] at result
    -- All that matters of the condition is how it is decided.
    generalize (decide.interpret handler).run start = decided at result
    obtain ⟨fault | ⟨⟩ | ⟨⟩, later⟩ := decided
    · cases result
      exact .inr ⟨s, some fault, rfl, rfl, rfl⟩
    · cases result
      exact .inl ⟨rfl, rfl⟩
    · cases result
      exact .inr ⟨s, none, rfl, rfl, rfl⟩

/-- An interpreter that can do nothing. -/
def failing : Interpreter Unit where
  parse _ := throw (.eval "no parser")
  eval _ _ := throw (.eval "no evaluation")
  assign _ _ := throw (.eval "no assignment")
  inspector := ⟨fun _ _ => pure none, fun _ => pure [], fun _ => pure .null⟩
  create _ := throw (.eval "no objects")
  debugBackend _ := none

/-- A tracepoint without a condition fires wherever it may. -/
theorem hits_of_unconditional {s : TracepointState}
    (may : r.candidate? path elementId id = some s) (always : s.condition = none) :
    r.Hits path elementId id (some (r.fire s none).1) (r.fire s none).2 := by
  refine ⟨Unit, failing, none, Unit, fun q => pure (match q with
    | .isInterrupted => false
    | .ask item _ => item
    | .getState => ()
    | .setState _ => ()
    | .writeOut _ => ()
    | .writeErr _ => ()
    | .interrupt => ()
    | .gate _ => ()), (), ?_⟩
  rw [Interpreter.hit, may]
  dsimp only
  rw [always]
  rfl

/-! ### Runs -/

/-- What an entry of an update makes happen. -/
def registersEntry (s : TracepointState) : TracepointFact :=
  if s.type = .deleted then .removed s.filePath s.id else .registered s.filePath s.id

/-- What an update makes happen, entry by entry. A reset only forgets. -/
def registers (u : TracepointUpdate) : List TracepointFact := u.states.map registersEntry

/-- What an installation in one element makes happen. -/
def placesIn (r : Registry) (e : LocatedElement) : List TracepointFact :=
  e.found.filterMap fun (id, here) =>
    if here && r.isEnabled e.path id then some (.placed e.path e.elementId id) else none

/-- What a hit makes happen. The event tells in its flags whether the tracepoint is temporary. -/
def removes (path : String) (id : Int64) : Option TracepointEvent → List TracepointFact
  | some event =>
    if TracepointFlag.isSet event.flags TracepointFlag.temporary then [.removed path id] else []
  | none => []

/-- What clients and running code do with a registry, and what this makes happen, in order.
Installations may find any positions, and conditions may be decided in any way. -/
inductive Run : List TracepointFact → Registry → Prop
  | start : Run [] {}
  | update {history : List TracepointFact} {r : Registry} (u : TracepointUpdate) :
    Run history r → Run (history ++ registers u) (r.update u)
  | install {history : List TracepointFact} {r : Registry} (located : List LocatedElement) :
    Run history r → Run (history ++ located.flatMap r.placesIn) (r.install located).2
  | installFlags {history : List TracepointFact} {r : Registry}
      (tracepoints : List FlagTracepoint) :
    Run history r → Run history (r.installFlags tracepoints).2
  | enable {history : List TracepointFact} {r : Registry} (enabled : Bool) :
    Run history r → Run history { r with breakpointsEnabled := enabled }
  | hit {history : List TracepointFact} {r r' : Registry} {event : Option TracepointEvent}
      (path elementId : String) (id : Int64) :
    Run history r → r.Hits path elementId id event r' → Run (history ++ removes path id event) r'

end Registry

/-! ### Histories -/

section Histories

variable {history more : List TracepointFact} {path elementId : String} {id : Int64}

theorem Registered.append (h : Registered history path id) (kept : .removed path id ∉ more) :
    Registered (history ++ more) path id := by
  obtain ⟨before, after, rfl, none⟩ := h
  refine ⟨before, after ++ more, by simp, ?_⟩
  rw [List.mem_append, not_or]
  exact ⟨none, kept⟩

theorem Armed.append (h : Armed history path elementId id) (kept : .removed path id ∉ more) :
    Armed (history ++ more) path elementId id := by
  obtain ⟨before, between, after, rfl, first, last⟩ := h
  refine ⟨before, between, after ++ more, by simp, first, ?_⟩
  rw [List.mem_append, not_or]
  exact ⟨last, kept⟩

theorem registered_append_registered : Registered (history ++ [.registered path id]) path id :=
  ⟨history, [], rfl, List.not_mem_nil⟩

/-- Placing a registered tracepoint arms it. -/
theorem Registered.place (h : Registered history path id)
    (placed : .placed path elementId id ∈ more) (kept : .removed path id ∉ more) :
    Armed (history ++ more) path elementId id := by
  obtain ⟨before, after, rfl, none⟩ := h
  obtain ⟨first, last, rfl⟩ := List.append_of_mem placed
  simp only [List.mem_append, List.mem_cons, not_or] at kept
  refine ⟨before, after ++ first, last, by simp, ?_, kept.2.2⟩
  rw [List.mem_append, not_or]
  exact ⟨none, kept.1⟩

/-- A list that ends in `rest` has an element that is not in there in front of it. -/
theorem append_cons_eq_append {α : Type} {more history before rest : List α} {x : α}
    (split : more ++ x :: history = before ++ rest) (absent : x ∉ rest) :
    ∃ gap, history = gap ++ rest := by
  obtain ⟨gap, rfl, later⟩ | ⟨gap, rfl, later⟩ := List.append_eq_append_iff.mp split
  · cases gap with
    | nil =>
      rw [List.nil_append] at later
      exact absurd (later ▸ List.mem_cons_self) absent
    | cons y gap => exact ⟨gap, (List.cons.inj later).2⟩
  · exact absurd (later ▸ List.mem_append_right _ List.mem_cons_self) absent

/-- What is armed has been registered and placed since any of its removals. -/
theorem Armed.since (h : Armed (more ++ .removed path id :: history) path elementId id) :
    Armed history path elementId id := by
  obtain ⟨before, between, after, split, first, last⟩ := h
  rw [List.append_assoc, List.cons_append] at split
  have absent : TracepointFact.removed path id ∉
      .registered path id :: (between ++ .placed path elementId id :: after) := by
    simp [first, last]
  obtain ⟨gap, rfl⟩ := append_cons_eq_append split absent
  exact ⟨gap, between, after, by simp, first, last⟩

end Histories

/-! ### What is known and what is installed -/

namespace Registry

variable {r r' : Registry} {history : List TracepointFact} {path elementId : String} {id : Int64}
  {event : Option TracepointEvent}

theorem isAt_iff {s : TracepointState} : isAt path id s = true ↔ s.filePath = path ∧ s.id = id := by
  simp [isAt]

theorem mem_insertState {s t : TracepointState} {states : List TracepointState}
    (h : t ∈ insertState s states) : t = s ∨ t ∈ states := by
  induction states with
  | nil => exact .inl (List.mem_singleton.mp h)
  | cons u rest ih =>
    rw [insertState] at h
    split_ifs at h <;> grind

theorem mem_state {s : TracepointState} (h : r.state? path id = some s) :
    s ∈ r.states ∧ s.filePath = path ∧ s.id = id :=
  ⟨List.mem_of_find?_eq_some h, isAt_iff.mp (List.find?_some h)⟩

/-- A tracepoint may fire if it is installed, known and enabled. -/
theorem candidate?_eq_some {s : TracepointState} (may : r.candidate? path elementId id = some s) :
    id ∈ r.installedIn path elementId ∧ r.state? path id = some s ∧ s.isEnabled = true ∧
      (s.type.isBreakpoint = true → r.breakpointsEnabled = true) := by
  rw [candidate?] at may
  split_ifs at may with out
  · cases may
  obtain ⟨t, known, may⟩ := Option.bind_eq_some_iff.mp may
  split_ifs at may with off
  · cases may
  cases may
  simp only [isInstalled, Bool.not_eq_true', Bool.not_eq_false, List.contains_iff_mem,
    Bool.or_eq_true, Bool.and_eq_true, not_or, not_and] at out off
  exact ⟨out, known, off.1, off.2⟩

/-- Firing keeps the state of the tracepoint, perhaps with a flag more, or removes it. -/
theorem fire_cases (r : Registry) (s : TracepointState) (failure : Option EvalFault) :
    ∃ t : TracepointState, t.filePath = s.filePath ∧ t.id = s.id ∧
      (r.fire s failure).1.flags = t.flags ∧
      (r.fire s failure).2 = if t.isTemporary
        then { r with states := insertState t r.states }.remove t.filePath t.id
        else { r with states := insertState t r.states } := by
  cases failure with
  | none => exact ⟨s, rfl, rfl, rfl, rfl⟩
  | some fault => exact ⟨{ s with flags := s.flags ||| failureFlag fault }, rfl, rfl, rfl, rfl⟩

theorem mem_insertId {x : Int64} {ids : List Int64} (h : id ∈ insertId x ids) :
    id = x ∨ id ∈ ids := by
  induction ids with
  | nil => exact .inl (List.mem_singleton.mp h)
  | cons y rest ih =>
    rw [insertId] at h
    split_ifs at h <;> grind

/-- What is set afterwards has been found and is enabled. -/
theorem mem_resolvePositions {found : List (Int64 × Bool)} {isEnabled : Int64 → Bool}
    {installed : List Int64} (h : id ∈ (resolvePositions installed found isEnabled).2) :
    (id, true) ∈ found ∧ isEnabled id = true := by
  have foldl (found : List (Int64 × Bool)) (set : List Int64)
      (h : id ∈ found.foldl
        (fun set (id, here) => if here && isEnabled id then insertId id set else set) set) :
      id ∈ set ∨ (id, true) ∈ found ∧ isEnabled id = true := by
    induction found generalizing set with
    | nil => exact .inl h
    | cons x rest ih =>
      obtain known | ⟨inRest, enabled⟩ := ih _ h
      · dsimp only at known
        split_ifs at known with set
        · obtain rfl | known := mem_insertId known
          · rw [Bool.and_eq_true] at set
            exact .inr ⟨set.1 ▸ List.mem_cons_self, set.2⟩
          · exact .inl known
        · exact .inl known
      · exact .inr ⟨List.mem_cons_of_mem _ inRest, enabled⟩
  exact (foldl found [] h).resolve_left List.not_mem_nil

/-- What is known is registered, and what is installed in an element is armed there. -/
structure Grounded (history : List TracepointFact) (r : Registry) : Prop where
  states : ∀ s ∈ r.states, Registered history s.filePath s.id
  installed : ∀ entry ∈ r.installed, ∀ id ∈ entry.2, Armed history entry.1.1 entry.1.2 id

namespace Grounded

theorem installedIn (h : Grounded history r) (member : id ∈ r.installedIn path elementId) :
    Armed history path elementId id := by
  cases found : r.installed.lookup (path, elementId) with
  | none => simp [Registry.installedIn, found] at member
  | some ids =>
    obtain ⟨before, after, split, -⟩ := List.lookup_eq_some_iff.mp found
    rw [Registry.installedIn, found] at member
    exact h.installed ((path, elementId), ids) (by simp [split]) id member

/-- Nothing is lost by what is not a removal. -/
theorem append {more : List TracepointFact} (h : Grounded history r)
    (kept : ∀ path id, .removed path id ∉ more) : Grounded (history ++ more) r where
  states s known := (h.states s known).append (kept _ _)
  installed entry known id member := (h.installed entry known id member).append (kept _ _)

theorem remove (h : Grounded history r) (path : String) (id : Int64) :
    Grounded (history ++ [.removed path id]) (r.remove path id) where
  states s known := by
    obtain ⟨known, other⟩ := List.mem_filter.mp known
    rw [Bool.not_eq_true', Bool.eq_false_iff, Ne, isAt_iff] at other
    refine (h.states s known).append ?_
    simpa [eq_comm] using other
  installed entry kept other member := by
    obtain ⟨⟨⟨file, elementId⟩, ids⟩, known, rfl⟩ := List.mem_map.mp kept
    refine (h.installed ((file, elementId), ids) known other ?_).append ?_
    · dsimp only at member
      split_ifs at member
      · exact (List.mem_filter.mp member).1
      · exact member
    · -- In its own file the number has been filtered out.
      simp only [List.mem_singleton, TracepointFact.removed.injEq, not_and]
      rintro rfl rfl
      simp at member

theorem insert {s : TracepointState} (h : Grounded history r)
    (registered : Registered history s.filePath s.id) :
    Grounded history { r with states := insertState s r.states } where
  states t known := by
    obtain rfl | known := mem_insertState known
    · exact registered
    · exact h.states t known
  installed := h.installed

theorem updateState (h : Grounded history r) (s : TracepointState) :
    Grounded (history ++ [registersEntry s]) (r.updateState s) := by
  rw [registersEntry, Registry.updateState]
  split_ifs with gone
  · exact h.remove _ _
  · exact (h.append (by simp)).insert registered_append_registered

theorem updateStates (states : List TracepointState) (h : Grounded history r) :
    Grounded (history ++ states.map registersEntry) (states.foldl Registry.updateState r) := by
  induction states generalizing history r with
  | nil => simpa using h
  | cons s rest ih =>
    rw [List.map_cons, List.append_cons, List.foldl_cons]
    exact ih (h.updateState s)

theorem update (h : Grounded history r) (u : TracepointUpdate) :
    Grounded (history ++ registers u) (r.update u) := by
  refine updateStates u.states ?_
  split_ifs
  · exact ⟨fun s known => absurd known List.not_mem_nil, h.installed⟩
  · exact h

/-- What an element has installed afterwards was found there, and is enabled and hence known. -/
theorem installElement (h : Grounded history r) (e : LocatedElement) :
    Grounded (history ++ r.placesIn e) (r.installElement e).2 := by
  have kept : ∀ path id, .removed path id ∉ r.placesIn e := by simp [placesIn]
  refine ⟨(h.append kept).states, fun entry known id member => ?_⟩
  obtain rfl | known := List.mem_cons.mp known
  · have set : id ∈ (resolvePositions (r.installedIn e.path e.elementId) e.found
        (r.isEnabled e.path)).2 := member
    obtain ⟨found, enabled⟩ := mem_resolvePositions set
    cases known : r.state? e.path id with
    | none => simp [Registry.isEnabled, known] at enabled
    | some s =>
      obtain ⟨member, samePath, sameId⟩ := mem_state known
      have registered : Registered history e.path id := samePath ▸ sameId ▸ h.states s member
      refine registered.place (List.mem_filterMap.mpr ⟨(id, true), found, ?_⟩) (kept _ _)
      simp [enabled]
  · exact (h.append kept).installed entry (List.mem_of_mem_filter known) id member

theorem install (located : List LocatedElement) (h : Grounded history r) :
    Grounded (history ++ located.flatMap r.placesIn) (r.install located).2 := by
  induction located generalizing history r with
  | nil =>
    rw [List.flatMap_nil, List.append_nil]
    exact h
  | cons e rest ih =>
    rw [List.flatMap_cons, ← List.append_assoc]
    exact ih (h.installElement e)

theorem installFlags (tracepoints : List FlagTracepoint) (h : Grounded history r) :
    Grounded history (r.installFlags tracepoints).2 := by
  induction tracepoints generalizing r with
  | nil => exact h
  | cons t rest ih =>
    have step : Grounded history (r.installFlag t).2 := by
      rw [installFlag]
      split_ifs <;> exact ⟨h.states, h.installed⟩
    exact ih step

theorem fire {s : TracepointState} (h : Grounded history r) (failure : Option EvalFault)
    (known : Registered history s.filePath s.id) :
    Grounded (history ++ removes s.filePath s.id (some (r.fire s failure).1))
      (r.fire s failure).2 := by
  obtain ⟨t, samePath, sameId, flags, after⟩ := fire_cases r s failure
  rw [← samePath, ← sameId] at known ⊢
  rw [removes, flags, after, ← TracepointState.isTemporary]
  split_ifs
  · exact (h.insert known).remove _ _
  · rw [List.append_nil]
    exact h.insert known

/-- What is known is registered, and what is installed is armed, in every run. -/
theorem run (h : Run history r) : Grounded history r := by
  induction h with
  | start => exact ⟨by simp, by simp⟩
  | update u _ h => exact h.update u
  | install located _ h => exact h.install located
  | installFlags tracepoints _ h => exact h.installFlags tracepoints
  | enable enabled _ h => exact ⟨h.states, h.installed⟩
  | hit path elementId id _ hits h =>
    obtain ⟨rfl, rfl⟩ | ⟨s, failure, may, rfl, rfl⟩ := hits_cases hits
    · rw [removes, List.append_nil]
      exact h
    · obtain ⟨-, known, -⟩ := candidate?_eq_some may
      obtain ⟨member, rfl, rfl⟩ := mem_state known
      exact h.fire failure (h.states s member)

end Grounded

/-- A tracepoint fires only if it is known and enabled, with breakpoints switched on if it is one,
and if it has been registered and then placed in the element since its last removal. -/
theorem armed_of_fires {fired : TracepointEvent} (run : Run history r)
    (fires : r.Hits path elementId id (some fired) r') :
    (∃ s, r.state? path id = some s ∧ s.isEnabled = true ∧
        (s.type.isBreakpoint = true → r.breakpointsEnabled = true)) ∧
      Armed history path elementId id ∧
      ∀ before after, history = before ++ .removed path id :: after →
        Armed after path elementId id := by
  obtain ⟨none, -⟩ | ⟨s, failure, may, -, -⟩ := hits_cases fires
  · cases none
  obtain ⟨installed, known, enabled, switch⟩ := candidate?_eq_some may
  have armed := (Grounded.run run).installedIn installed
  refine ⟨⟨s, known, enabled, switch⟩, armed, ?_⟩
  rintro before after rfl
  exact armed.since

/-- A temporary tracepoint. -/
def once : TracepointState :=
  ⟨.lineBreakpoint, 1, "a", "f", [], none, TracepointFlag.enabled ||| TracepointFlag.temporary,
    none⟩

/-- A client tells the state of the temporary tracepoint and has it installed. -/
def setOnce (r : Registry) : Registry :=
  ((r.update ⟨false, [once]⟩).install [⟨"a", "f", [(1, true)]⟩]).2

theorem Run.setOnce (run : Run history r) :
    Run (history ++ [.registered "a" 1] ++
      (r.update ⟨false, [once]⟩).placesIn ⟨"a", "f", [(1, true)]⟩) r.setOnce := by
  have step := (run.update ⟨false, [once]⟩).install [⟨"a", "f", [(1, true)]⟩]
  rwa [List.flatMap_singleton] at step

/-- A temporary tracepoint that has fired fires once more after it has been set anew. -/
theorem armed_of_fires_again :
    ∃ before r fired r',
      Run (before ++ .removed "a" 1 :: [.registered "a" 1, .placed "a" "f" 1]) r ∧
        r.Hits "a" "f" 1 (some fired) r' ∧
        Armed [.registered "a" 1, .placed "a" "f" 1] "a" "f" 1 := by
  have may : (setOnce {}).candidate? "a" "f" 1 = some once := rfl
  have fired := Run.start.setOnce.hit "a" "f" 1 (hits_of_unconditional may rfl)
  have mayAgain : ((setOnce {}).fire once none).2.setOnce.candidate? "a" "f" 1 = some once := rfl
  have fires := hits_of_unconditional mayAgain rfl
  exact ⟨[.registered "a" 1, .placed "a" "f" 1], _, _, _, fired.setOnce, fires,
    (armed_of_fires fired.setOnce fires).2.2 [.registered "a" 1, .placed "a" "f" 1] _ rfl⟩

end Registry

end EngineLink
