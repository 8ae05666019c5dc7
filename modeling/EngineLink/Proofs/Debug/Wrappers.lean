import Mathlib.Data.List.Basic
import EngineLink.Debug.CallStack

/-!
# Wrappers in call stacks

The frames of a wrapper lie next to each other. Which frames are those of a wrapper is told by how
their calls begin, so there are stacks in which runs of several lengths begin at one frame, and runs
that begin inside others. From the outermost frame on, each time the longest run is taken; frames
that it passes over begin no other.

## Main definitions

* `Wrapper`, `Wrapper.all` — how the calls of wrappers follow each other
* `Wrapper.Runs` — a number of frames are those of a wrapper
* `CallStack.Greedy` — the roles of the frames if the longest runs are taken

## Main results

* `CallStack.exists_greedy`, `CallStack.Greedy.unique` — each stack has its greedy roles
* `CallStack.Greedy.markWrappers_eq` — frames are marked with their greedy roles
-/

namespace EngineLink

open FrameFlag

/-! ### Calls of wrappers -/

/-- How the calls of a wrapper follow each other. -/
structure Wrapper where
  /-- The mark of its frames. -/
  flag : UInt32
  /-- How its calls begin, the outermost first. -/
  calls : List String
  /-- How the calls begin that may follow. -/
  more : String
  /-- How many calls may follow. -/
  limit : Nat

namespace Wrapper

/-- The wrappers of calls that read a source file and of calls that run a console command. -/
def all : List Wrapper :=
  [⟨source, ["source(", "eval.with.vis("], "eval.with.vis(", 1⟩,
    ⟨source, ["source(", "withVisible(", "eval("], "eval(", 1⟩,
    ⟨command, ["rj:::.statet.evalCommand("], "eval(", 2⟩,
    ⟨command, [".statet.evalCommand("], "eval(", 2⟩]

/-- The calls of the outermost frames begin in the given ways. -/
def Begins : List String → List Frame → Prop
  | [], _ => True
  | start :: calls, f :: frames => f.callBegins start = true ∧ Begins calls frames
  | _ :: _, [] => False

/-- The `n` outermost frames are those of a wrapper. -/
def Runs (w : Wrapper) (n : Nat) (frames : List Frame) : Prop :=
  ∃ k ≤ w.limit, n = w.calls.length + k ∧ Begins (w.calls ++ List.replicate k w.more) frames

variable {w : Wrapper} {f : Frame} {frames rest : List Frame} {calls more : List String}
  {start : String} {k n limit : Nat}

theorem begins_append :
    Begins (calls ++ more) frames ↔
      Begins calls frames ∧ Begins more (frames.drop calls.length) := by
  induction calls generalizing frames with
  | nil => simp [Begins]
  | cons start calls ih =>
    cases frames with
    | nil => simp [Begins]
    | cons f rest => simp [Begins, ih, and_assoc]

theorem length_le_of_begins (h : Begins calls frames) : calls.length ≤ frames.length := by
  induction calls generalizing frames with
  | nil => exact Nat.zero_le _
  | cons start calls ih =>
    cases frames with
    | nil => exact h.elim
    | cons f rest => exact Nat.succ_le_succ (ih h.2)

theorem leading_cons (limit : Nat) (start : String) (f : Frame) (rest : List Frame) :
    CallStack.leading (limit + 1) start (f :: rest) =
      if f.callBegins start then CallStack.leading limit start rest + 1 else 0 := by
  rw [CallStack.leading, List.take_succ_cons, List.takeWhile_cons]
  split_ifs <;> rfl

/-- Up to the limit, as many calls may follow as begin in the given way. -/
theorem begins_replicate (within : k ≤ limit) :
    Begins (List.replicate k start) frames ↔ k ≤ CallStack.leading limit start frames := by
  induction k generalizing limit frames with
  | zero => simp [Begins]
  | succ k ih =>
    obtain ⟨limit, rfl⟩ : ∃ n, limit = n + 1 := ⟨limit - 1, by omega⟩
    cases frames with
    | nil => simp [List.replicate_succ, Begins, CallStack.leading]
    | cons f rest =>
      rw [List.replicate_succ, leading_cons]
      by_cases here : f.callBegins start = true
      · simp [Begins, here, ih (Nat.le_of_succ_le_succ within)]
      · simp [Begins, here]

theorem leading_le (limit : Nat) (start : String) (frames : List Frame) :
    CallStack.leading limit start frames ≤ limit :=
  Nat.le_trans (List.takeWhile_prefix _).length_le (List.length_take_le _ _)

/-- The number of frames in the longest run of a wrapper. -/
def longest (w : Wrapper) (frames : List Frame) : Nat :=
  w.calls.length + CallStack.leading w.limit w.more (frames.drop w.calls.length)

theorem runs_iff :
    w.Runs n frames ↔ Begins w.calls frames ∧ w.calls.length ≤ n ∧ n ≤ w.longest frames := by
  rw [longest]
  constructor
  · rintro ⟨k, within, rfl, begins⟩
    rw [begins_append, begins_replicate within] at begins
    exact ⟨begins.1, by omega, by omega⟩
  · rintro ⟨begins, least, most⟩
    have within : n - w.calls.length ≤ w.limit := by
      have := leading_le w.limit w.more (frames.drop w.calls.length)
      omega
    refine ⟨n - w.calls.length, within, by omega, ?_⟩
    rw [begins_append, begins_replicate within]
    exact ⟨begins, by omega⟩

theorem runs_longest (begins : Begins w.calls frames) : w.Runs (w.longest frames) frames :=
  runs_iff.mpr ⟨begins, Nat.le_add_right .., Nat.le_refl _⟩

end Wrapper

namespace Frame

variable {f : Frame} {a b : String}

/-- A call does not begin in two ways of which neither continues the other. -/
theorem not_callBegins (h : f.callBegins a = true)
    (apart : ¬a.toList <+: b.toList ∧ ¬b.toList <+: a.toList) : f.callBegins b = false := by
  rw [Bool.eq_false_iff]
  intro h'
  rw [callBegins] at h h'
  cases call : f.call with
  | none => simp [call] at h
  | some text =>
    rw [call] at h h'
    rw [List.isPrefixOf_iff_prefix] at h h'
    obtain first | second := List.prefix_or_prefix_of_prefix h h'
    · exact apart.1 first
    · exact apart.2 second

end Frame

namespace CallStack

open Wrapper

variable {f : Frame} {frames rest : List Frame} {w : Wrapper} {n : Nat}

/-- A wrapper whose calls are met is found, with the longest of its runs. -/
theorem wrapper_of_begins (member : w ∈ Wrapper.all) (begins : Begins w.calls (f :: rest)) :
    wrapper f rest = (w.flag, w.longest (f :: rest)) := by
  simp only [Wrapper.all, List.mem_cons, List.not_mem_nil, or_false] at member
  rcases member with rfl | rfl | rfl | rfl
  · obtain _ | ⟨g, inside⟩ := rest
    · exact begins.2.elim
    · obtain ⟨outer, inner, -⟩ := begins
      simp [wrapper, sourceRun, longest, outer, inner]
  · obtain _ | ⟨g, _ | ⟨h, inside⟩⟩ := rest
    · exact begins.2.elim
    · exact begins.2.2.elim
    · obtain ⟨outer, inner, innermost, -⟩ := begins
      have other := Frame.not_callBegins (b := "eval.with.vis(") inner (by decide)
      simp [wrapper, sourceRun, longest, outer, inner, innermost, other]
  · have other := Frame.not_callBegins (b := "source(") begins.1 (by decide)
    simp [wrapper, commandRun, longest, begins.1, other]
  · have other := Frame.not_callBegins (b := "source(") begins.1 (by decide)
    simp [wrapper, commandRun, longest, begins.1, other]

/-- What is found is a wrapper. -/
theorem begins_of_wrapper (found : (wrapper f rest).2 ≠ 0) :
    ∃ w ∈ Wrapper.all, Begins w.calls (f :: rest) := by
  rw [wrapper] at found
  simp only [Wrapper.all, List.mem_cons, List.not_mem_nil, or_false, exists_eq_or_imp,
    exists_eq_left]
  split_ifs at found with outer outer
  · -- A call that reads a file has a wrapper only with the right calls inside.
    obtain _ | ⟨g, inside⟩ := rest
    · exact absurd rfl found
    change sourceRun (g :: inside) ≠ 0 at found
    rw [sourceRun.eq_def] at found
    dsimp only at found
    split_ifs at found with inner inner
    · exact .inl ⟨outer, inner, trivial⟩
    · obtain _ | ⟨h, inside⟩ := inside
      · exact absurd rfl found
      dsimp only at found
      split_ifs at found with innermost
      · exact .inr (.inl ⟨outer, inner, innermost, trivial⟩)
      · exact absurd rfl found
    · exact absurd rfl found
  · rw [Bool.or_eq_true] at outer
    exact .inr (.inr (outer.imp (⟨·, trivial⟩) (⟨·, trivial⟩)))
  · exact absurd rfl found

/-- The longest run of all wrappers is the longest of its own. -/
theorem eq_longest (member : w ∈ Wrapper.all) (runs : w.Runs n frames)
    (longest : ∀ v ∈ Wrapper.all, ∀ k, v.Runs k frames → k ≤ n) : w.longest frames = n := by
  obtain ⟨begins, -, most⟩ := runs_iff.mp runs
  exact Nat.le_antisymm (longest w member _ (runs_longest begins)) most

theorem wrapper_of_longest (member : w ∈ Wrapper.all) (runs : w.Runs n (f :: rest))
    (longest : ∀ v ∈ Wrapper.all, ∀ k, v.Runs k (f :: rest) → k ≤ n) :
    wrapper f rest = (w.flag, n) := by
  rw [wrapper_of_begins member (runs_iff.mp runs).1, eq_longest member runs longest]

theorem wrapper_of_none (none : ∀ w ∈ Wrapper.all, ∀ n, ¬w.Runs n (f :: rest)) :
    (wrapper f rest).2 = 0 := by
  by_contra found
  obtain ⟨w, member, begins⟩ := begins_of_wrapper found
  exact none w member _ (runs_longest begins)

theorem pos_of_runs (member : w ∈ Wrapper.all) (runs : w.Runs n frames) : 0 < n := by
  have some_ : 0 < w.calls.length := by
    simp only [Wrapper.all, List.mem_cons, List.not_mem_nil, or_false] at member
    rcases member with rfl | rfl | rfl | rfl <;> exact Nat.succ_pos _
  exact Nat.lt_of_lt_of_le some_ (runs_iff.mp runs).2.1

theorem le_length_of_runs (runs : w.Runs n frames) : n ≤ frames.length := by
  obtain ⟨k, -, rfl, begins⟩ := runs
  simpa using length_le_of_begins begins

theorem exists_cons_of_runs (member : w ∈ Wrapper.all) (runs : w.Runs n frames) :
    ∃ f rest, frames = f :: rest :=
  List.exists_cons_of_length_pos
    (Nat.lt_of_lt_of_le (pos_of_runs member runs) (le_length_of_runs runs))

/-! ### Roles -/

end CallStack

/-- The role of a frame in a wrapper: the mark of the wrapper, and how far inside the frame is. -/
structure WrapperRole where
  flag : UInt32
  place : Nat
  deriving DecidableEq, Repr

/-- The roles of `n` frames of a wrapper, from a place on. -/
def WrapperRole.ofRun (flag : UInt32) (first n : Nat) : List (Option WrapperRole) :=
  (List.range' first n).map fun place => some ⟨flag, place⟩

/-- The frame with the mark of its role. -/
def Frame.inRole (f : Frame) : Option WrapperRole → Frame
  | some role => f.mark role.flag role.place
  | none => f

@[simp] theorem Frame.inRole_none (f : Frame) : f.inRole none = f := rfl

namespace CallStack

open Wrapper

variable {f : Frame} {frames rest : List Frame} {w : Wrapper} {n : Nat}
  {roles others : List (Option WrapperRole)}

/-- The roles that frames get if, from the outermost one on, each time the longest run of a wrapper
is taken that begins there. -/
inductive Greedy : List Frame → List (Option WrapperRole) → Prop
  | nil : Greedy [] []
  | run {frames : List Frame} {roles : List (Option WrapperRole)} {w : Wrapper} {n : Nat}
    (member : w ∈ Wrapper.all) (runs : w.Runs n frames)
    (longest : ∀ v ∈ Wrapper.all, ∀ k, v.Runs k frames → k ≤ n)
    (rest : Greedy (frames.drop n) roles) : Greedy frames (WrapperRole.ofRun w.flag 0 n ++ roles)
  | plain {f : Frame} {frames : List Frame} {roles : List (Option WrapperRole)}
    (none : ∀ w ∈ Wrapper.all, ∀ n, ¬w.Runs n (f :: frames)) (rest : Greedy frames roles) :
    Greedy (f :: frames) (Option.none :: roles)

theorem exists_greedy (frames : List Frame) : ∃ roles, Greedy frames roles := by
  induction h : frames.length using Nat.strongRecOn generalizing frames with
  | _ size ih =>
    obtain _ | ⟨f, rest⟩ := frames
    · exact ⟨[], .nil⟩
    by_cases none : ∀ w ∈ Wrapper.all, ∀ n, ¬w.Runs n (f :: rest)
    · obtain ⟨roles, greedy⟩ := ih rest.length (by simp [← h]) rest rfl
      exact ⟨_, .plain none greedy⟩
    · push Not at none
      obtain ⟨w, member, n, runs⟩ := none
      have begins := (runs_iff.mp runs).1
      have runs := runs_longest begins
      have shorter : ((f :: rest).drop (w.longest (f :: rest))).length < size := by
        have := pos_of_runs member runs
        rw [List.length_drop, ← h]
        simp only [List.length_cons]
        omega
      obtain ⟨roles, greedy⟩ := ih _ shorter _ rfl
      refine ⟨_, .run member runs (fun v among k others => ?_) greedy⟩
      -- Wherever two wrappers begin, the same one is found.
      obtain ⟨beginsToo, -, most⟩ := runs_iff.mp others
      have same := (wrapper_of_begins member begins).symm.trans (wrapper_of_begins among beginsToo)
      rwa [(Prod.mk.inj same).2]

theorem Greedy.unique (h : Greedy frames roles) (h' : Greedy frames others) : roles = others := by
  induction h generalizing others with
  | nil =>
    cases h' with
    | nil => rfl
    | run member runs =>
      exact absurd (le_length_of_runs runs) (Nat.not_le.mpr (pos_of_runs member runs))
  | run member runs longest rest ih =>
    obtain ⟨f, inside, rfl⟩ := exists_cons_of_runs member runs
    -- Both take the run that is found, and go on at the same frame.
    have found := wrapper_of_longest member runs longest
    cases h' with
    | run member' runs' longest' rest' =>
      rw [wrapper_of_longest member' runs' longest'] at found
      obtain ⟨flag, rfl⟩ := Prod.mk.inj found
      rw [flag, ih rest']
    | plain none => exact absurd runs (none _ member _)
  | plain none rest ih =>
    cases h' with
    | run member runs => exact absurd runs (none _ member _)
    | plain _ rest' => rw [ih rest']

theorem length_ofRun (flag : UInt32) (first n : Nat) :
    (WrapperRole.ofRun flag first n).length = n := by
  simp [WrapperRole.ofRun]

theorem Greedy.length_eq (h : Greedy frames roles) : roles.length = frames.length := by
  induction h with
  | nil => rfl
  | run member runs _ _ ih =>
    have := le_length_of_runs runs
    rw [List.length_append, length_ofRun, ih, List.length_drop]
    omega
  | plain _ _ ih => rw [List.length_cons, List.length_cons, ih]

/-! ### Marks -/

/-- Frames that are ahead of a wrapper get its marks. -/
theorem markWrappers_ahead (flag : UInt32) (place : Nat) (within : n ≤ frames.length) :
    markWrappers flag place n frames =
      List.zipWith Frame.inRole (frames.take n) (WrapperRole.ofRun flag place n) ++
        markWrappers 0 0 0 (frames.drop n) := by
  induction n generalizing place frames with
  | zero => cases frames <;> rfl
  | succ n ih =>
    obtain _ | ⟨f, rest⟩ := frames
    · exact absurd within (Nat.not_succ_le_zero n)
    rw [markWrappers, ih (place + 1) (Nat.le_of_succ_le_succ within)]
    rfl

/-- The roles of a wrapper go to as many frames, and the others to the frames inside. -/
theorem zipWith_ofRun (flag : UInt32) (within : n ≤ frames.length)
    (roles : List (Option WrapperRole)) :
    List.zipWith Frame.inRole frames (WrapperRole.ofRun flag 0 n ++ roles) =
      List.zipWith Frame.inRole (frames.take n) (WrapperRole.ofRun flag 0 n) ++
        List.zipWith Frame.inRole (frames.drop n) roles := by
  have same : (frames.take n).length = (WrapperRole.ofRun flag 0 n).length := by
    rw [length_ofRun, List.length_take, Nat.min_eq_left within]
  rw [← List.zipWith_append same, List.take_append_drop]

theorem Greedy.markWrappers_eq (h : Greedy frames roles) :
    markWrappers 0 0 0 frames = List.zipWith Frame.inRole frames roles := by
  induction h with
  | nil => rfl
  | @run frames roles w n member runs longest rest ih =>
    have some_ := pos_of_runs member runs
    have within := le_length_of_runs runs
    obtain ⟨f, inside, rfl⟩ := exists_cons_of_runs member runs
    obtain ⟨n, rfl⟩ : ∃ k, n = k + 1 := ⟨n - 1, by omega⟩
    rw [markWrappers, wrapper_of_longest member runs longest]
    dsimp only
    rw [markWrappers_ahead _ _ (Nat.le_of_succ_le_succ within), zipWith_ofRun _ within, ← ih]
    rfl
  | @plain f frames roles none rest ih =>
    have found := wrapper_of_none none
    rw [markWrappers]
    generalize wrapper f frames = x at found
    obtain ⟨flag, n⟩ := x
    obtain rfl : n = 0 := found
    exact congrArg (f :: ·) ih

end CallStack

end EngineLink
