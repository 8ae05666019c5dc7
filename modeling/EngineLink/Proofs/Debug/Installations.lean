import EngineLink.Proofs.Debug.Orphans

/-!
# What stays installed after a request

An installation looks up the wanted positions in their order and reports what became of each of
them. The elements are set one after another, and each is set anew: what it held before goes, also
when an earlier part of the same request has set it and reported it as set. So it is the last report
on an element that tells what is installed there.

## Main definitions

* `InstallationRequest.wanted` — the wanted positions in their order
* `InstallationRequest.byElement` — a list of answers to all of them, by elements
* `ElementPositions.lastReport?` — the last report on an element of a file

## Main results

* `InstallationRequest.run_locate` — positions are looked up once each, in their order
* `Registry.isInstalled_install_iff` — what is installed after a request
* `Registry.installed_iff_last_report` — the results of a request, and what they tell
* `Registry.reported_set_and_dropped` — a tracepoint is reported as set and not installed
-/

namespace EngineLink

/-- The tracepoint is reported as set. -/
def InstallationResult.isSet : InstallationResult → Bool
  | foundUnchanged | foundAndSet => true
  | notFound | foundButUnset => false

/-! ### Wanted positions -/

namespace ElementPositions

/-- Whether these are positions in an element of a file. -/
def isIn (path elementId : String) (e : ElementPositions) : Bool :=
  e.file.key == path && e.elementId == elementId

theorem isIn_iff {path elementId : String} {e : ElementPositions} :
    e.isIn path elementId = true ↔ e.file.key = path ∧ e.elementId = elementId := by
  rw [isIn, Bool.and_eq_true, beq_iff_eq, beq_iff_eq]

/-- The element, with whether each of its positions has been found. -/
def located (e : ElementPositions) (found : List Bool) : LocatedElement :=
  ⟨e.file.key, e.elementId, (e.positions.map (·.id)).zip found⟩

/-- A position of the element with a certain tracepoint is reported as set. -/
def ReportsSet (id : Int64) (report : ElementPositions × List InstallationResult) : Prop :=
  ∃ p result, (p, result) ∈ report.1.positions.zip report.2 ∧ p.id = id ∧ result.isSet = true

/-- The last report on an element of a file. -/
def lastReport? (path elementId : String)
    (reports : List (ElementPositions × List InstallationResult)) :
    Option (ElementPositions × List InstallationResult) :=
  reports.reverse.find? (·.1.isIn path elementId)

theorem lastReport?_cons (path elementId : String)
    (report : ElementPositions × List InstallationResult)
    (reports : List (ElementPositions × List InstallationResult)) :
    lastReport? path elementId (report :: reports) =
      (lastReport? path elementId reports).or
        (if report.1.isIn path elementId then some report else none) := by
  rw [lastReport?, List.reverse_cons, List.find?_append, List.find?_singleton]
  rfl

theorem lastReport?_eq_some {path elementId : String}
    {report : ElementPositions × List InstallationResult}
    {before after : List (ElementPositions × List InstallationResult)}
    (here : report.1.isIn path elementId = true)
    (last : ∀ later ∈ after, later.1.isIn path elementId = false) :
    lastReport? path elementId (before ++ report :: after) = some report := by
  rw [lastReport?, List.find?_eq_some_iff_append]
  exact ⟨here, after.reverse, before.reverse, by simp, by simpa using last⟩

end ElementPositions

namespace InstallationRequest

open ElementPositions

variable {σ α β : Type} {elements : List ElementPositions} {answers : List α}

/-- The wanted positions with their elements, in order. -/
def wanted (elements : List ElementPositions) : List (ElementPositions × TracepointPosition) :=
  elements.flatMap fun e => e.positions.map (e, ·)

/-- Answers to all wanted positions, by elements. -/
def byElement : List ElementPositions → List α → List (ElementPositions × List α)
  | [], _ => []
  | e :: rest, answers =>
    (e, answers.take e.positions.length) :: byElement rest (answers.drop e.positions.length)

/-- The elements, with whether each position has been found. -/
def allLocated (elements : List ElementPositions) (answers : List Bool) : List LocatedElement :=
  (byElement elements answers).map fun (e, found) => e.located found

theorem map_fst_byElement (elements : List ElementPositions) (answers : List α) :
    (byElement elements answers).map (·.1) = elements := by
  induction elements generalizing answers with
  | nil => rfl
  | cons e rest ih => exact congrArg (e :: ·) (ih _)

theorem wanted_cons (e : ElementPositions) (rest : List ElementPositions) :
    wanted (e :: rest) = e.positions.map (e, ·) ++ wanted rest := rfl

theorem byElement_append {e : ElementPositions} {rest : List ElementPositions} {first more : List α}
    (all : first.length = e.positions.length) :
    byElement (e :: rest) (first ++ more) = (e, first) :: byElement rest more := by
  rw [byElement, List.take_left' all, List.drop_left' all]

theorem allLocated_append {e : ElementPositions} {rest : List ElementPositions}
    {first more : List Bool} (all : first.length = e.positions.length) :
    allLocated (e :: rest) (first ++ more) = e.located first :: allLocated rest more := by
  rw [allLocated, byElement_append all]
  rfl

/-- The answers to the first element, and those to the other ones. -/
theorem exists_append {e : ElementPositions} {rest : List ElementPositions}
    (all : answers.length = (wanted (e :: rest)).length) :
    ∃ first more, answers = first ++ more ∧ first.length = e.positions.length ∧
      more.length = (wanted rest).length := by
  rw [wanted_cons, List.length_append, List.length_map] at all
  refine ⟨_, _, (List.take_append_drop e.positions.length answers).symm, ?_, ?_⟩
  · rw [List.length_take]
    omega
  · rw [List.length_drop]
    omega

/-- An answer to a wanted position is one to its element. -/
theorem mem_byElement {i : Nat} {e : ElementPositions} {p : TracepointPosition} {answer : α}
    (all : answers.length = (wanted elements).length) (here : (wanted elements)[i]? = some (e, p))
    (answered : answers[i]? = some answer) :
    ∃ before part after, byElement elements answers = before ++ (e, part) :: after ∧
      (p, answer) ∈ e.positions.zip part := by
  induction elements generalizing answers i with
  | nil => cases here
  | cons d rest ih =>
    obtain ⟨first, more, rfl, size, sizes⟩ := exists_append all
    rw [byElement_append size]
    rw [wanted_cons] at here
    -- The position is one in the first element or in one of the others.
    by_cases inFirst : i < first.length
    · rw [List.getElem?_append_left (by simpa [← size] using inFirst), List.getElem?_map,
        Option.map_eq_some_iff] at here
      rw [List.getElem?_append_left inFirst] at answered
      obtain ⟨p', here, same⟩ := here
      obtain ⟨rfl, rfl⟩ := Prod.mk.inj same
      refine ⟨[], first, _, rfl, List.mem_of_getElem? (i := i) ?_⟩
      rw [List.getElem?_zip_eq_some]
      exact ⟨here, answered⟩
    · rw [List.getElem?_append_right (by simpa [← size] using inFirst)] at here
      rw [List.getElem?_append_right (Nat.not_lt.mp inFirst)] at answered
      rw [List.length_map, ← size] at here
      obtain ⟨before, part, after, split, member⟩ := ih sizes here answered
      exact ⟨(d, first) :: before, part, after, by rw [split]; rfl, member⟩

/-! ### Looking up -/

/-- Look up all wanted positions, one after another. -/
def lookUp {m : Type → Type} [Monad m] (locate : String → String → TracepointPosition → m Bool)
    (elements : List ElementPositions) : m (List Bool) :=
  (wanted elements).mapM fun (e, p) => locate e.file.key e.elementId p

theorem length_run_mapM (f : α → StateM σ β) (xs : List α) (s : σ) :
    ((xs.mapM f).run s).1.length = xs.length := by
  induction xs generalizing s with
  | nil => rfl
  | cons x xs ih =>
    rw [List.mapM_cons]
    exact congrArg Nat.succ (ih _)

/-- The numbers of positions with what becomes of them. -/
theorem run_mapM_zip (f : α → StateM σ β) (number : α → Int64) (xs : List α) (s : σ) :
    (xs.mapM fun x => do return (number x, ← f x)).run s =
      ((xs.map number).zip ((xs.mapM f).run s).1, ((xs.mapM f).run s).2) := by
  induction xs generalizing s with
  | nil => rfl
  | cons x xs ih =>
    rw [List.mapM_cons, List.mapM_cons]
    obtain ⟨answers, after⟩ := Prod.ext_iff.mp (ih ((f x).run s).2)
    exact Prod.ext (congrArg (_ :: ·) answers) after

theorem run_lookUp_cons (locate : String → String → TracepointPosition → StateM σ Bool)
    (e : ElementPositions) (rest : List ElementPositions) (s : σ) :
    (lookUp locate (e :: rest)).run s =
      let (first, s) := (e.positions.mapM fun p => locate e.file.key e.elementId p).run s
      let (more, s) := (lookUp locate rest).run s
      (first ++ more, s) := by
  rw [lookUp, wanted_cons, List.mapM_append, List.mapM_map]
  rfl

/-- Positions are looked up once each, in their order. -/
theorem run_locate (locate : String → String → TracepointPosition → StateM σ Bool)
    (request : InstallationRequest) (s : σ) :
    (request.locate locate).run s =
      let (answers, s) := (lookUp locate request.elements).run s
      (allLocated request.elements answers, s) := by
  obtain ⟨elements⟩ := request
  rw [InstallationRequest.locate]
  dsimp only
  induction elements generalizing s with
  | nil => rfl
  | cons e rest ih =>
    -- The first element is looked up before the others, which go on from the state after it.
    have first := run_mapM_zip (fun p => locate e.file.key e.elementId p) (·.id) e.positions s
    have size := length_run_mapM (fun p => locate e.file.key e.elementId p) e.positions s
    rw [run_lookUp_cons, List.mapM_cons, StateT.run_bind, StateT.run_bind, first]
    generalize (e.positions.mapM fun p => locate e.file.key e.elementId p).run s = x at size
    obtain ⟨found, s'⟩ := x
    dsimp only at size ⊢
    have next := ih s'
    generalize (lookUp locate rest).run s' = y at next ⊢
    obtain ⟨more, s''⟩ := y
    obtain ⟨answers, after⟩ := Prod.ext_iff.mp next
    dsimp only
    rw [allLocated_append size]
    exact Prod.ext (congrArg (e.located found :: ·) answers) after

theorem length_lookUp (locate : String → String → TracepointPosition → StateM σ Bool)
    (elements : List ElementPositions) (s : σ) :
    ((lookUp locate elements).run s).1.length = (wanted elements).length :=
  length_run_mapM _ _ s

end InstallationRequest

namespace Registry

open ElementPositions InstallationRequest

variable {σ : Type} {r : Registry} {path elementId : String} {id : Int64}
  {elements : List ElementPositions} {answers : List Bool}

/-! ### One element -/

theorem mem_insertId_iff {x : Int64} {ids : List Int64} :
    id ∈ insertId x ids ↔ id = x ∨ id ∈ ids := by
  refine ⟨mem_insertId, fun h => ?_⟩
  induction ids with
  | nil => exact List.mem_singleton.mpr (h.resolve_right List.not_mem_nil)
  | cons y rest ih =>
    rw [insertId]
    split_ifs <;> grind

/-- What has been found and is enabled is set afterwards, and nothing else. -/
theorem mem_resolvePositions_iff {found : List (Int64 × Bool)} {isEnabled : Int64 → Bool}
    {installed : List Int64} :
    id ∈ (resolvePositions installed found isEnabled).2 ↔
      (id, true) ∈ found ∧ isEnabled id = true := by
  refine ⟨mem_resolvePositions, ?_⟩
  rintro ⟨here, enabled⟩
  -- What is set stays, so the induction is over all sets to begin with.
  have foldl (found : List (Int64 × Bool)) (set : List Int64)
      (h : id ∈ set ∨ (id, true) ∈ found) :
      id ∈ found.foldl
        (fun set x => if x.2 && isEnabled x.1 then insertId x.1 set else set) set := by
    induction found generalizing set with
    | nil => exact h.resolve_right List.not_mem_nil
    | cons x rest ih =>
      refine ih _ ?_
      obtain known | here := h
      · dsimp only
        split_ifs
        · exact .inl (mem_insertId_iff.mpr (.inr known))
        · exact .inl known
      · refine (List.mem_cons.mp here).imp_left ?_
        rintro rfl
        simp [enabled, mem_insertId_iff]
  exact foldl found [] (.inr here)

theorem isSet_ofFound (installed : List Int64) (isEnabled : Int64 → Bool) (x : Int64 × Bool) :
    (InstallationResult.ofFound installed isEnabled x).isSet = (x.2 && isEnabled x.1) := by
  obtain ⟨id, _ | _⟩ := x
  · rfl
  · rw [InstallationResult.ofFound]
    cases isEnabled id <;> cases installed.contains id <;> rfl

theorem notFound_ofFound (installed : List Int64) (isEnabled : Int64 → Bool) (x : Int64 × Bool) :
    (InstallationResult.ofFound installed isEnabled x == .notFound) = !x.2 := by
  obtain ⟨id, _ | _⟩ := x
  · rfl
  · rw [InstallationResult.ofFound]
    cases isEnabled id <;> cases installed.contains id <;> rfl

theorem zip_map_zip {α β γ : Type} (xs : List α) (ys : List β) (f : α × β → γ) :
    xs.zip ((xs.zip ys).map f) = (xs.zip ys).map fun x => (x.1, f x) := by
  induction xs generalizing ys with
  | nil => rfl
  | cons x xs ih =>
    cases ys with
    | nil => rfl
    | cons y ys => exact congrArg (_ :: ·) (ih ys)

/-- What an element reports as set is what has been found there and is enabled. -/
theorem reportsSet_installElement (r : Registry) (e : ElementPositions) (found : List Bool)
    (id : Int64) :
    ReportsSet id (e, (r.installElement (e.located found)).1) ↔
      (id, true) ∈ (e.located found).found ∧ r.isEnabled e.file.key id = true := by
  rw [installElement, resolvePositions, located, List.zip_map_left]
  dsimp only
  rw [List.map_map, ReportsSet, zip_map_zip]
  constructor
  · rintro ⟨p, result, member, rfl, set⟩
    obtain ⟨⟨q, here⟩, asked, same⟩ := List.mem_map.mp member
    obtain ⟨rfl, rfl⟩ := Prod.mk.inj same
    rw [Function.comp_apply, isSet_ofFound, Bool.and_eq_true] at set
    obtain ⟨rfl, enabled⟩ := set
    exact ⟨List.mem_map_of_mem asked, enabled⟩
  · rintro ⟨member, enabled⟩
    obtain ⟨⟨p, here⟩, asked, same⟩ := List.mem_map.mp member
    obtain ⟨rfl, rfl⟩ := Prod.mk.inj same
    refine ⟨p, _, List.mem_map_of_mem asked, rfl, ?_⟩
    rw [Function.comp_apply, isSet_ofFound, Bool.and_eq_true]
    exact ⟨rfl, enabled⟩

theorem isInstalled_installElement_iff (r : Registry) (e : ElementPositions) (found : List Bool) :
    (r.installElement (e.located found)).2.isInstalled path elementId id = true ↔
      if e.isIn path elementId = true
      then ReportsSet id (e, (r.installElement (e.located found)).1)
      else r.isInstalled path elementId id = true := by
  rw [reportsSet_installElement, installElement]
  dsimp only
  rw [isInstalled_setInstalled]
  by_cases here : e.isIn path elementId = true
  · obtain ⟨rfl, rfl⟩ := isIn_iff.mp here
    rw [if_pos here, if_pos ⟨rfl, rfl⟩, List.contains_iff_mem, mem_resolvePositions_iff]
    rfl
  · rw [if_neg here, if_neg fun both => here (isIn_iff.mpr ⟨both.1.symm, both.2.symm⟩)]

theorem results_installElement (r : Registry) {e : ElementPositions} {found : List Bool}
    (all : found.length = e.positions.length) :
    (r.installElement (e.located found)).1.map (· == .notFound) = found.map (!·) ∧
      (r.installElement (e.located found)).1.map (·.isSet) =
        (e.positions.map (e, ·)).zipWith
          (fun (e, p) found => found && r.isEnabled e.file.key p.id) found := by
  rw [installElement, resolvePositions, located]
  dsimp only
  rw [List.map_map, List.map_map, List.zipWith_map_left, List.zip_map_left]
  constructor
  · have answered : (e.positions.zip found).map Prod.snd = found :=
      List.map_snd_zip (Nat.le_of_eq all)
    nth_rewrite 2 [← answered]
    rw [List.map_map, List.map_map]
    exact List.map_congr_left fun x _ => notFound_ofFound ..
  · rw [List.map_map, List.zip_eq_zipWith, List.map_zipWith]
    exact congrArg (List.zipWith · _ _) (funext₂ fun p here => isSet_ofFound ..)

/-! ### All elements -/

/-- The last report on an element tells what is installed there afterwards. -/
theorem isInstalled_install_iff (all : answers.length = (wanted elements).length) :
    (r.install (allLocated elements answers)).2.isInstalled path elementId id = true ↔
      match lastReport? path elementId
        (byElement elements (r.install (allLocated elements answers)).1) with
      | some report => ReportsSet id report
      | none => r.isInstalled path elementId id = true := by
  induction elements generalizing r answers with
  | nil => exact Iff.rfl
  | cons e rest ih =>
    obtain ⟨found, more, rfl, size, sizes⟩ := exists_append all
    have next := ih (r := (r.installElement (e.located found)).2) sizes
    rw [allLocated_append size, install]
    dsimp only
    rw [byElement_append (by simp [installElement, resolvePositions, located, size]),
      lastReport?_cons]
    revert next
    cases lastReport? path elementId (byElement rest
        ((r.installElement (e.located found)).2.install (allLocated rest more)).1) with
    | some report => exact fun next => next
    | none =>
      intro next
      refine next.trans ((isInstalled_installElement_iff r e found).trans ?_)
      rw [Option.none_or]
      dsimp only
      split_ifs <;> rfl

/-- Each result is about the position at its place. -/
theorem results_install (all : answers.length = (wanted elements).length) :
    (r.install (allLocated elements answers)).1.map (· == .notFound) = answers.map (!·) ∧
      (r.install (allLocated elements answers)).1.map (·.isSet) =
        (wanted elements).zipWith (fun (e, p) found => found && r.isEnabled e.file.key p.id)
          answers := by
  induction elements generalizing r answers with
  | nil =>
    obtain rfl := List.length_eq_zero_iff.mp all
    exact ⟨rfl, rfl⟩
  | cons e rest ih =>
    obtain ⟨found, more, rfl, size, sizes⟩ := exists_append all
    obtain ⟨notFound, set⟩ := ih (r := (r.installElement (e.located found)).2) sizes
    obtain ⟨notFoundHere, setHere⟩ := results_installElement r size
    rw [allLocated_append size, wanted_cons, List.zipWith_append (by simp [size]), install]
    dsimp only
    rw [List.map_append, List.map_append, List.map_append, notFound, set, notFoundHere, setHere]
    exact ⟨rfl, rfl⟩

/-- There is one result for each wanted position, in their order. A position that is reported as set
is installed afterwards if and only if the last report on its element reports it as set. If no
element is named twice, this is its own report. -/
theorem installed_iff_last_report (r : Registry) (request : InstallationRequest)
    (locate : String → String → TracepointPosition → StateM σ Bool) (s : σ) :
    let answers := ((lookUp locate request.elements).run s).1
    let outcome := r.install ((request.locate locate).run s).1
    let reports := byElement request.elements outcome.1
    outcome.1.length = (wanted request.elements).length ∧
      outcome.1.map (· == .notFound) = answers.map (!·) ∧
      outcome.1.map (·.isSet) = (wanted request.elements).zipWith
        (fun (e, p) found => found && r.isEnabled e.file.key p.id) answers ∧
      (∀ (i : Nat) e p result, (wanted request.elements)[i]? = some (e, p) →
        outcome.1[i]? = some result → result.isSet = true →
          (outcome.2.isInstalled e.file.key e.elementId p.id = true ↔
            ∃ report, lastReport? e.file.key e.elementId reports = some report ∧
              ReportsSet p.id report)) ∧
      ((request.elements.Pairwise fun e later => later.isIn e.file.key e.elementId = false) →
        ∀ (i : Nat) e p result, (wanted request.elements)[i]? = some (e, p) →
          outcome.1[i]? = some result → result.isSet = true →
            outcome.2.isInstalled e.file.key e.elementId p.id = true) := by
  dsimp only
  rw [run_locate]
  have all := length_lookUp locate request.elements s
  generalize (lookUp locate request.elements).run s = looked at all ⊢
  obtain ⟨answers, s⟩ := looked
  dsimp only at all ⊢
  obtain ⟨notFound, set⟩ := results_install (r := r) all
  have size : (r.install (allLocated request.elements answers)).1.length =
      (wanted request.elements).length := by
    simpa [all] using congrArg List.length notFound
  refine ⟨size, notFound, set, ?_, ?_⟩
  · intro i e p result here answered set
    obtain ⟨before, part, after, split, -⟩ := mem_byElement size here answered
    rw [isInstalled_install_iff all]
    cases last : lastReport? e.file.key e.elementId (byElement request.elements
      (r.install (allLocated request.elements answers)).1) with
    | some report => simp
    | none =>
      have other := List.find?_eq_none.mp last (e, part) (by simp [split])
      exact absurd (isIn_iff.mpr ⟨rfl, rfl⟩) other
  · intro once i e p result here answered set
    obtain ⟨before, part, after, split, member⟩ := mem_byElement size here answered
    -- The elements after the one of the position are other ones.
    rw [← map_fst_byElement request.elements, split, List.map_append, List.map_cons] at once
    have others : ∀ later ∈ after, later.1.isIn e.file.key e.elementId = false := fun _ inAfter =>
      List.rel_of_pairwise_cons (List.pairwise_append.mp once).2.1 (List.mem_map_of_mem inAfter)
    have own : lastReport? e.file.key e.elementId (before ++ (e, part) :: after) = some (e, part) :=
      lastReport?_eq_some (isIn_iff.mpr ⟨rfl, rfl⟩) others
    rw [isInstalled_install_iff all, split, own]
    exact ⟨p, result, member, rfl, set⟩

/-- Two tracepoints of an element are known and enabled. -/
def bothEnabled : Registry :=
  ({} : Registry).update ⟨false, [1, 2].map fun id =>
    ⟨.lineBreakpoint, id, "a", "f", [1], none, TracepointFlag.enabled, none⟩⟩

/-- A request that names an element twice, each time for one of the tracepoints. -/
def namedTwice : InstallationRequest :=
  ⟨[1, 2].map fun id => ⟨⟨some "a", none, 0⟩, "f", none, [⟨.lineBreakpoint, id, [1], none⟩]⟩⟩

/-- All positions exist. -/
def everywhere : String → String → TracepointPosition → StateM Unit Bool := fun _ _ _ => pure true

/-- A tracepoint is reported as set, and the same request takes it out of the element again. -/
theorem reported_set_and_dropped :
    ∃ (r : Registry) (request : InstallationRequest)
      (locate : String → String → TracepointPosition → StateM Unit Bool),
      let outcome := r.install ((request.locate locate).run ()).1
      ∃ (i : Nat) (e : ElementPositions) (p : TracepointPosition),
        (wanted request.elements)[i]? = some (e, p) ∧ outcome.1[i]? = some .foundAndSet ∧
          outcome.2.isInstalled e.file.key e.elementId p.id = false :=
  ⟨bothEnabled, namedTwice, everywhere, 0, _, _, rfl, rfl, rfl⟩

/-- Of an element that is named twice, what the second report sets is installed. -/
theorem installed_iff_last_report_namedTwice :
    let outcome := bothEnabled.install ((namedTwice.locate everywhere).run ()).1
    outcome.1 = [.foundAndSet, .foundAndSet] ∧ outcome.2.isInstalled "a" "f" 1 = false ∧
      outcome.2.isInstalled "a" "f" 2 = true := by
  have told := (installed_iff_last_report bothEnabled namedTwice everywhere ()).2.2.2.1
  refine ⟨rfl, rfl, (told 1 _ _ .foundAndSet rfl rfl rfl).mpr ⟨_, rfl, ?_⟩⟩
  exact ⟨_, _, List.mem_cons_self, rfl, rfl⟩

end Registry

end EngineLink
