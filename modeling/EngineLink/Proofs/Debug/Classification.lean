import EngineLink.Proofs.Debug.Wrappers

/-!
# The pass that classifies a stack

Frames can be marked in one pass by places, which moves on by as many frames as belong to the
wrapper that it has met. It never looks behind the end of the stack, and it marks the frames with
their greedy roles. These have bits of their own, so that they can be read off the flags, and
classifying a stack once more changes nothing.

## Main definitions

* `CallStack.classifyByPlace?` — the pass by places, without outcome if a place is out of range
* `WrapperRole.bits`, `WrapperRole.mask` — how flags tell the role of a frame

## Main results

* `CallStack.classifyByPlace?_eq` — the pass by places gives the classified stack
* `CallStack.map_classify` — only flags change
* `CallStack.classify_classify` — what has been classified is left as it is
* `CallStack.classify_greedy` — all of this, and that the flags tell the greedy roles
-/

namespace EngineLink

open FrameFlag

namespace CallStack

open Wrapper

variable {f g : Frame} {frames rest done : List Frame} {w : Wrapper} {i n : Nat}
  {role : Option WrapperRole} {roles : List (Option WrapperRole)}

/-! ### The pass by places -/

/-- The first `n` frames with the marks of a wrapper, from a place on. -/
def markFirst (flag : UInt32) (first n : Nat) (frames : List Frame) : List Frame :=
  List.zipWith Frame.inRole (frames.take n) (WrapperRole.ofRun flag first n) ++ frames.drop n

theorem markFirst_zero (flag : UInt32) (first : Nat) (frames : List Frame) :
    markFirst flag first 0 frames = frames := rfl

/-- The frames from a place on, which must not lie behind the end. -/
def from? (frames : List Frame) (i : Nat) : Option (List Frame) :=
  if i ≤ frames.length then some (frames.drop i) else none

/-- How many of the first frames have calls that begin in the given ways, and the frames with marks
if all of them do. -/
def tagRun (flag : UInt32) (first : Nat) (starts : List String) (frames : List Frame) :
    Nat × List Frame :=
  let matched := ((starts.zip frames).takeWhile fun (start, f) => f.callBegins start).length
  (matched, if matched = starts.length then markFirst flag first matched frames else frames)

/-- The same from a place on. -/
def tagRun? (frames : List Frame) (i : Nat) (flag : UInt32) (first : Nat)
    (starts : List String) : Option (Nat × List Frame) := do
  let (matched, tagged) := tagRun flag first starts (← from? frames i)
  return (matched, frames.take i ++ tagged)

/-- Mark the wrapper whose outermost frame is at a place, telling where to go on. -/
def tagAt? (frames : List Frame) (i : Nat) : Option (Nat × List Frame) := do
  let frame ← frames[i]?
  if frame.callBegins "source(" then
    if frames[i + 1]?.any (·.callBegins "eval.with.vis(") then
      let (_, frames) ← tagRun? frames i source 0 ["source(", "eval.with.vis("]
      let (more, frames) ← tagRun? frames (i + 2) source 2 ["eval.with.vis("]
      return (i + 2 + more, frames)
    else
      let (matched, frames) ← tagRun? frames i source 0 ["source(", "withVisible(", "eval("]
      if matched = 3 then
        let (more, frames) ← tagRun? frames (i + 3) source 3 ["eval("]
        return (i + 3 + more, frames)
      else return (i + 1, frames)
  else if frame.callBegins "rj:::.statet.evalCommand(" ||
      frame.callBegins ".statet.evalCommand(" then
    let (more, frames) ← tagRun? (frames.modify i (·.mark command 0)) (i + 1) command 1 ["eval("]
    if more = 1 then
      let (more, frames) ← tagRun? frames (i + 2) command 2 ["eval("]
      return (i + 2 + more, frames)
    else return (i + 1, frames)
  else return (i + 1, frames)

/-- Mark wrappers from a place on, in a number of rounds. -/
def pass? (frames : List Frame) (i : Nat) : Nat → Option (List Frame)
  | 0 => if i < frames.length then none else some frames
  | rounds + 1 =>
    if i < frames.length then do
      let (i, frames) ← tagAt? frames i
      pass? frames i rounds
    else some frames

/-- `classify` by places. There is no outcome if a place is out of range. -/
def classifyByPlace? (frames : List Frame) : Option CallStack := do
  let frames ← pass? frames 0 frames.length
  return ⟨frames.modify (frames.length - 1) (·.mark top 0)⟩

theorem tagRun?_append (here : i = done.length) (flag : UInt32) (first : Nat)
    (starts : List String) :
    tagRun? (done ++ frames) i flag first starts =
      some ((tagRun flag first starts frames).1, done ++ (tagRun flag first starts frames).2) := by
  subst here
  simp [tagRun?, from?]

theorem length_takeWhile_zip {starts : List String} :
    ((starts.zip frames).takeWhile fun (start, f) => f.callBegins start).length = starts.length ↔
      Begins starts frames := by
  induction starts generalizing frames with
  | nil => simp [Begins]
  | cons start starts ih =>
    obtain _ | ⟨f, rest⟩ := frames
    · simp [Begins]
    · by_cases here : f.callBegins start = true
      · simpa [here, Begins] using ih
      · simp [here, Begins]

theorem tagRun_of_begins {starts : List String} (begins : Begins starts frames) (flag : UInt32)
    (first : Nat) :
    tagRun flag first starts frames =
      (starts.length, markFirst flag first starts.length frames) := by
  rw [tagRun, length_takeWhile_zip.mpr begins, if_pos rfl]

theorem tagRun_of_not_begins {starts : List String} (other : ¬Begins starts frames)
    (flag : UInt32) (first : Nat) :
    (tagRun flag first starts frames).1 ≠ starts.length ∧
      (tagRun flag first starts frames).2 = frames := by
  have fewer := mt length_takeWhile_zip.mp other
  exact ⟨fewer, if_neg fewer⟩

theorem tagRun_singleton (flag : UInt32) (first : Nat) (start : String) (frames : List Frame) :
    tagRun flag first [start] frames =
      (leading 1 start frames, markFirst flag first (leading 1 start frames) frames) := by
  obtain _ | ⟨f, rest⟩ := frames
  · rfl
  · rw [leading_cons]
    by_cases here : f.callBegins start = true
    · simp [tagRun, here, leading]
    · simp [tagRun, here, markFirst_zero]

/-- Frames that lie further inside are tagged from their own place on. -/
theorem tagRun?_inside (done more frames : List Frame) (here : i = done.length + more.length)
    (flag : UInt32) (first : Nat) (start : String) :
    tagRun? (done ++ (more ++ frames)) i flag first [start] =
      some (leading 1 start frames,
        done ++ (more ++ markFirst flag first (leading 1 start frames) frames)) := by
  rw [← List.append_assoc, tagRun?_append (by simpa using here), tagRun_singleton,
    List.append_assoc]

theorem getElem?_here (done : List Frame) (f : Frame) (rest : List Frame) :
    (done ++ f :: rest)[done.length]? = some f := by simp

theorem getElem?_next (done : List Frame) (f : Frame) (rest : List Frame) :
    (done ++ f :: rest)[done.length + 1]? = rest.head? := by
  rw [List.getElem?_append_right (Nat.le_add_right ..), Nat.add_sub_cancel_left,
    List.getElem?_cons_succ, List.head?_eq_getElem?]

theorem modify_here (done : List Frame) (f : Frame) (rest : List Frame) (change : Frame → Frame) :
    (done ++ f :: rest).modify done.length change = done ++ change f :: rest := by
  induction done with
  | nil => rfl
  | cons g done ih => exact congrArg (g :: ·) ih

theorem tagAt?_evalVis (outer : f.callBegins "source(" = true)
    (inner : g.callBegins "eval.with.vis(" = true) (rest : List Frame) :
    tagAt? (done ++ f :: g :: rest) done.length =
      some (done.length + (2 + leading 1 "eval.with.vis(" rest),
        done ++ markFirst source 0 (2 + leading 1 "eval.with.vis(" rest) (f :: g :: rest)) := by
  have begins : Begins ["source(", "eval.with.vis("] (f :: g :: rest) := ⟨outer, inner, trivial⟩
  have inside := tagRun?_inside done [f.mark source 0, g.mark source 1] rest rfl source 2
    "eval.with.vis("
  simp only [tagAt?, getElem?_here, getElem?_next, List.head?_cons, Option.any_some, outer, inner,
    if_true, Option.bind_eq_bind, Option.bind_some, tagRun?_append rfl, tagRun_of_begins begins]
  refine (congrArg (Option.bind · _) inside).trans ?_
  simp only [Option.bind_some, Nat.add_assoc, Nat.add_comm 2]
  rfl

/-- After the call of a file there may be a chain of other calls. -/
theorem tagAt?_visible {h : Frame} (outer : f.callBegins "source(" = true)
    (inner : g.callBegins "withVisible(" = true) (innermost : h.callBegins "eval(" = true)
    (rest : List Frame) :
    tagAt? (done ++ f :: g :: h :: rest) done.length =
      some (done.length + (3 + leading 1 "eval(" rest),
        done ++ markFirst source 0 (3 + leading 1 "eval(" rest) (f :: g :: h :: rest)) := by
  have begins : Begins ["source(", "withVisible(", "eval("] (f :: g :: h :: rest) :=
    ⟨outer, inner, innermost, trivial⟩
  have other := Frame.not_callBegins (b := "eval.with.vis(") inner (by decide)
  have inside := tagRun?_inside done
    [f.mark source 0, g.mark source 1, h.mark source 2] rest rfl source 3 "eval("
  simp only [tagAt?, getElem?_here, getElem?_next, List.head?_cons, Option.any_some, outer, other,
    if_true, Bool.false_eq_true, if_false, Option.bind_eq_bind, Option.bind_some,
    tagRun?_append rfl, tagRun_of_begins begins]
  refine (if_pos rfl).trans ((congrArg (Option.bind · _) inside).trans ?_)
  simp only [Option.bind_some, Nat.add_assoc, Nat.add_comm 3]
  rfl

theorem tagAt?_command (other : f.callBegins "source(" = false)
    (outer : (f.callBegins "rj:::.statet.evalCommand(" || f.callBegins ".statet.evalCommand(") =
      true) (rest : List Frame) :
    tagAt? (done ++ f :: rest) done.length =
      some (done.length + (1 + leading 2 "eval(" rest),
        done ++ markFirst command 0 (1 + leading 2 "eval(" rest) (f :: rest)) := by
  have first := tagRun?_inside done [f.mark command 0] rest rfl command 1 "eval("
  simp only [tagAt?, getElem?_here, other, Bool.false_eq_true, if_false, outer, if_true,
    modify_here, Option.bind_eq_bind, Option.bind_some]
  refine (congrArg (Option.bind · _) first).trans ?_
  rw [Option.bind_some]
  obtain _ | ⟨g, inside⟩ := rest
  · rfl
  rw [leading_cons, leading_cons]
  -- A second call is looked for only behind a first one.
  by_cases inner : g.callBegins "eval(" = true
  · have second := tagRun?_inside done [f.mark command 0, g.mark command 1] inside rfl command 2
      "eval("
    rw [if_pos inner, if_pos inner]
    refine (congrArg (Option.bind · _) second).trans ?_
    simp only [Option.bind_some, Nat.add_assoc, Nat.add_comm 1, Nat.add_comm 2]
    rfl
  · rw [if_neg inner, if_neg inner]
    rfl

theorem tagAt?_none (done : List Frame) (none : ∀ w ∈ Wrapper.all, ¬Begins w.calls (f :: rest)) :
    tagAt? (done ++ f :: rest) done.length = some (done.length + 1, done ++ f :: rest) := by
  simp only [Wrapper.all, List.forall_mem_cons] at none
  obtain ⟨evalVis, visible, command, command', -⟩ := none
  by_cases outer : f.callBegins "source(" = true
  · have next : ¬rest.head?.any (·.callBegins "eval.with.vis(") = true := by
      intro inner
      obtain _ | ⟨g, inside⟩ := rest
      · cases inner
      · exact evalVis ⟨outer, inner, trivial⟩
    obtain ⟨fewer, same⟩ := tagRun_of_not_begins visible source 0
    simp only [tagAt?, getElem?_here, getElem?_next, outer, if_true, next,
      Option.bind_eq_bind, Option.bind_some, tagRun?_append rfl, same]
    exact if_neg fewer
  · have plain : ¬(f.callBegins "rj:::.statet.evalCommand(" ||
        f.callBegins ".statet.evalCommand(") = true := by
      rw [Bool.or_eq_true]
      rintro (start | start)
      · exact command ⟨start, trivial⟩
      · exact command' ⟨start, trivial⟩
    simp only [tagAt?, getElem?_here, outer, plain, Option.bind_eq_bind, Option.bind_some]
    rfl

theorem tagAt?_of_begins (done : List Frame) (member : w ∈ Wrapper.all)
    (begins : Begins w.calls (f :: rest)) :
    tagAt? (done ++ f :: rest) done.length =
      some (done.length + w.longest (f :: rest),
        done ++ markFirst w.flag 0 (w.longest (f :: rest)) (f :: rest)) := by
  simp only [Wrapper.all, List.mem_cons, List.not_mem_nil, or_false] at member
  rcases member with rfl | rfl | rfl | rfl
  · obtain _ | ⟨g, inside⟩ := rest
    · exact begins.2.elim
    · exact tagAt?_evalVis begins.1 begins.2.1 inside
  · obtain _ | ⟨g, _ | ⟨h, inside⟩⟩ := rest
    · exact begins.2.elim
    · exact begins.2.2.elim
    · exact tagAt?_visible begins.1 begins.2.1 begins.2.2.1 inside
  · exact tagAt?_command (Frame.not_callBegins begins.1 (by decide)) (by simp [begins.1]) rest
  · exact tagAt?_command (Frame.not_callBegins begins.1 (by decide)) (by simp [begins.1]) rest

theorem pass?_of_greedy (done : List Frame) (rounds : Nat) (greedy : Greedy frames roles)
    (enough : frames.length ≤ rounds) :
    pass? (done ++ frames) done.length rounds =
      some (done ++ List.zipWith Frame.inRole frames roles) := by
  induction greedy generalizing done rounds with
  | nil => cases rounds <;> simp [pass?]
  | @run frames roles w n member runs longest rest ih =>
    have some_ := pos_of_runs member runs
    have within := le_length_of_runs runs
    obtain ⟨f, inside, rfl⟩ := exists_cons_of_runs member runs
    obtain ⟨rounds, rfl⟩ : ∃ k, rounds = k + 1 := ⟨rounds - 1, by simp at enough; omega⟩
    have tagged := tagAt?_of_begins done member (runs_iff.mp runs).1
    rw [eq_longest member runs longest] at tagged
    have marked : (List.zipWith Frame.inRole ((f :: inside).take n)
        (WrapperRole.ofRun w.flag 0 n)).length = n := by
      rw [List.length_zipWith, length_ofRun, List.length_take, Nat.min_eq_left within,
        Nat.min_self]
    -- One round marks the whole run, and the next one goes on behind it.
    have next := ih (done ++ List.zipWith Frame.inRole ((f :: inside).take n)
      (WrapperRole.ofRun w.flag 0 n)) rounds (by
        rw [List.length_drop]
        omega)
    rw [List.length_append, marked, List.append_assoc, List.append_assoc] at next
    rw [pass?, if_pos (by simp), tagged, zipWith_ofRun _ within]
    exact next
  | @plain f frames roles none rest ih =>
    obtain ⟨rounds, rfl⟩ : ∃ k, rounds = k + 1 := ⟨rounds - 1, by simp at enough; omega⟩
    have same := tagAt?_none done fun w member begins =>
      none w member _ (runs_longest begins)
    have next := ih (done ++ [f]) rounds (Nat.le_of_succ_le_succ enough)
    rw [pass?, if_pos (by simp), same]
    simpa using next

theorem markTop_eq_modify (frames : List Frame) :
    markTop frames = frames.modify (frames.length - 1) (·.mark top 0) := by
  fun_induction markTop frames with
  | case1 => rfl
  | case2 f => rfl
  | case3 f rest more ih =>
    obtain _ | ⟨g, rest⟩ := rest
    · exact absurd rfl more
    · rw [ih]
      rfl

/-- The pass by places never leaves the stack and gives the classification. -/
theorem classifyByPlace?_eq (frames : List Frame) :
    classifyByPlace? frames = some (classify frames) := by
  obtain ⟨roles, greedy⟩ := exists_greedy frames
  have passed := pass?_of_greedy [] frames.length greedy (Nat.le_refl _)
  rw [List.nil_append, List.nil_append, ← greedy.markWrappers_eq, List.length_nil] at passed
  rw [classifyByPlace?, passed, classify, markTop_eq_modify]
  rfl

/-! ### Flags -/

theorem getElem?_classify (greedy : Greedy frames roles) (here : frames[i]? = some f)
    (plays : roles[i]? = some role) :
    (classify frames).frames[i]? =
      some (if i + 1 = frames.length then (f.inRole role).mark top 0 else f.inRole role) := by
  have size : (List.zipWith Frame.inRole frames roles).length = frames.length := by
    rw [List.length_zipWith, greedy.length_eq, Nat.min_self]
  have within := (List.getElem?_eq_some_iff.mp here).1
  rw [classify, greedy.markWrappers_eq]
  dsimp only
  rw [markTop_eq_modify, List.getElem?_modify, size, List.getElem?_zipWith, here, plays]
  by_cases last : i + 1 = frames.length
  · rw [if_pos last, show frames.length - 1 = i by omega]
    simp
  · rw [if_neg last]
    simp [show ¬frames.length - 1 = i by omega]

end CallStack

namespace WrapperRole

/-- The bits that tell the role of a frame. -/
def mask : UInt32 := source ||| command ||| 3

/-- The bits of a role. A frame without a role has none of them. -/
def bits : Option WrapperRole → UInt32
  | some role => role.flag ||| UInt32.ofNat role.place
  | none => 0

end WrapperRole

theorem Frame.inRole_eq (f : Frame) (role : Option WrapperRole) :
    f.inRole role = { f with flags := f.flags ||| WrapperRole.bits role } := by
  cases role with
  | none =>
    rw [inRole_none, WrapperRole.bits, UInt32.or_zero]
  | some role => rfl

/-- Classification adds the bits of its role to a frame, and marks the last one. -/
theorem CallStack.getElem?_classify_eq {frames : List Frame} {roles : List (Option WrapperRole)}
    {i : Nat} {f : Frame} {role : Option WrapperRole} (greedy : Greedy frames roles)
    (here : frames[i]? = some f) (plays : roles[i]? = some role) :
    (classify frames).frames[i]? = some { f with
      flags := f.flags ||| WrapperRole.bits role |||
        if i + 1 = frames.length then top else 0 } := by
  rw [getElem?_classify greedy here plays, Frame.inRole_eq]
  split_ifs
  · rfl
  · rw [UInt32.or_zero]

theorem FrameFlag.or_and (a b c : UInt32) : (a ||| b) &&& c = (a &&& c) ||| (b &&& c) := by
  apply UInt32.toBitVec_inj.mp
  simp only [UInt32.toBitVec_and, UInt32.toBitVec_or]
  exact BitVec.and_or_distrib_right

namespace CallStack

open Wrapper

variable {f : Frame} {frames others : List Frame} {i : Nat} {role : Option WrapperRole}
  {roles : List (Option WrapperRole)}

/-- The roles that frames can get. -/
theorem Greedy.role_cases (greedy : Greedy frames roles) (member : role ∈ roles) :
    role = none ∨ ∃ flag place, role = some ⟨flag, place⟩ ∧ (flag = source ∨ flag = command) ∧
      place < 4 := by
  induction greedy with
  | nil => cases member
  | @run frames roles w n among runs _ _ ih =>
    refine (List.mem_append.mp member).elim (fun ran => .inr ?_) ih
    obtain ⟨place, inRun, rfl⟩ := List.mem_map.mp ran
    rw [List.mem_range'_1] at inRun
    obtain ⟨k, within, rfl, -⟩ := runs
    refine ⟨w.flag, place, rfl, ?_⟩
    simp only [Wrapper.all, List.mem_cons, List.not_mem_nil, or_false] at among
    rcases among with rfl | rfl | rfl | rfl <;> simp at within inRun ⊢ <;> omega
  | plain _ _ ih =>
    exact (List.mem_cons.mp member).elim .inl ih

/-- Roles are told by bits of their own. -/
theorem Greedy.bits_and (greedy : Greedy frames roles) (member : role ∈ roles) :
    WrapperRole.bits role &&& WrapperRole.mask = WrapperRole.bits role ∧
      WrapperRole.bits role &&& top = 0 ∧
      WrapperRole.bits role &&& ~~~(top ||| WrapperRole.mask) = 0 := by
  obtain rfl | ⟨flag, place, rfl, flagged, few⟩ := greedy.role_cases member
  · decide
  · have places : place = 0 ∨ place = 1 ∨ place = 2 ∨ place = 3 := by omega
    rcases flagged with rfl | rfl <;> rcases places with rfl | rfl | rfl | rfl <;> decide

theorem begins_congr {calls : List String}
    (same : others.map Frame.call = frames.map Frame.call) :
    Begins calls others ↔ Begins calls frames := by
  induction calls generalizing others frames with
  | nil => rfl
  | cons start calls ih =>
    obtain _ | ⟨g, others⟩ := others <;> obtain _ | ⟨f, frames⟩ := frames
    · rfl
    · cases same
    · cases same
    · obtain ⟨call, same⟩ := List.cons.inj same
      rw [Begins, Begins, ih same, Frame.callBegins, Frame.callBegins, call]

/-- Roles depend on the calls only. -/
theorem Greedy.of_calls (greedy : Greedy frames roles)
    (same : others.map Frame.call = frames.map Frame.call) : Greedy others roles := by
  have runs (w : Wrapper) (n : Nat) {others frames : List Frame}
      (same : others.map Frame.call = frames.map Frame.call) :
      w.Runs n others ↔ w.Runs n frames := by
    simp only [Runs, begins_congr same]
  induction greedy generalizing others with
  | nil => exact List.map_eq_nil_iff.mp same ▸ .nil
  | run member ran longest rest ih =>
    refine .run member ((runs _ _ same).mpr ran)
      (fun v among k other => longest v among k ((runs v k same).mp other)) (ih ?_)
    rw [List.map_drop, List.map_drop, same]
  | plain none rest ih =>
    obtain _ | ⟨g, others⟩ := others
    · cases same
    · exact .plain (fun w member n ran => none w member n ((runs w n same).mp ran))
        (ih (List.cons.inj same).2)

/-- Classification changes only flags. -/
theorem map_classify {α : Type} (field : Frame → α)
    (kept : ∀ (f : Frame) (flag : UInt32) (place : Nat), field (f.mark flag place) = field f)
    (frames : List Frame) : (classify frames).frames.map field = frames.map field := by
  have topMarked (frames : List Frame) : (markTop frames).map field = frames.map field := by
    fun_induction markTop frames <;> simp [*]
  have wrappersMarked (flag : UInt32) (place left : Nat) :
      (markWrappers flag place left frames).map field = frames.map field := by
    fun_induction markWrappers flag place left frames <;> simp [*]
  exact (topMarked _).trans (wrappersMarked 0 0 0)

theorem length_classify (frames : List Frame) :
    (classify frames).frames.length = frames.length := by
  simpa using congrArg List.length (map_classify (fun _ => ()) (fun _ _ _ => rfl) frames)

theorem mark_mark (f : Frame) (flag : UInt32) (place : Nat) :
    (f.mark flag place).mark flag place = f.mark flag place := by
  simp [Frame.mark, UInt32.or_assoc]

theorem mark_comm (f : Frame) (flag flag' : UInt32) (place place' : Nat) :
    (f.mark flag place).mark flag' place' = (f.mark flag' place').mark flag place := by
  rw [Frame.mark, Frame.mark, Frame.mark, Frame.mark]
  dsimp only
  rw [UInt32.or_assoc, UInt32.or_comm (flag ||| _), ← UInt32.or_assoc]

theorem inRole_inRole (f : Frame) (role : Option WrapperRole) :
    (f.inRole role).inRole role = f.inRole role := by
  cases role with
  | none => rfl
  | some role => exact mark_mark f role.flag role.place

theorem inRole_mark (f : Frame) (role : Option WrapperRole) (flag : UInt32) (place : Nat) :
    (f.mark flag place).inRole role = (f.inRole role).mark flag place := by
  cases role with
  | none => rfl
  | some role => exact mark_comm f flag role.flag place role.place

/-- What has been classified is left as it is. -/
theorem classify_classify (frames : List Frame) :
    classify (classify frames).frames = classify frames := by
  obtain ⟨roles, greedy⟩ := exists_greedy frames
  -- The calls are the same, so the frames get the same roles, which add no bits any more.
  have again : Greedy (classify frames).frames roles :=
    greedy.of_calls (map_classify Frame.call (fun _ _ _ => rfl) frames)
  refine congrArg CallStack.mk (List.ext_getElem? fun i => ?_ : _ = (classify frames).frames)
  change (classify (classify frames).frames).frames[i]? = _
  cases here : frames[i]? with
  | none =>
    rw [List.getElem?_eq_none_iff] at here
    rw [List.getElem?_eq_none, List.getElem?_eq_none] <;> simpa only [length_classify] using here
  | some f =>
    have within := (List.getElem?_eq_some_iff.mp here).1
    obtain ⟨role, plays⟩ : ∃ role, roles[i]? = some role :=
      ⟨_, List.getElem?_eq_getElem (greedy.length_eq ▸ within)⟩
    have first := getElem?_classify greedy here plays
    rw [getElem?_classify again first plays, first, length_classify]
    split_ifs
    · rw [inRole_mark, mark_mark, inRole_inRole]
    · rw [inRole_inRole]

/-- Frames are classified as the greedy roles say, whose bits no other bits are mixed with. The pass
by places never leaves the stack, and what has been classified is left as it is. -/
theorem classify_greedy
    (plain : ∀ f ∈ frames, f.flags &&& (top ||| WrapperRole.mask) = 0) :
    classifyByPlace? frames = some (classify frames) ∧
      (classify frames).frames.length = frames.length ∧
      (∃ roles, Greedy frames roles ∧ (∀ others, Greedy frames others → others = roles) ∧
        roles.length = frames.length ∧
        ∀ (i : Nat) f role, frames[i]? = some f → roles[i]? = some role →
          ∃ g, (classify frames).frames[i]? = some g ∧ { f with flags := g.flags } = g ∧
            g.flags &&& WrapperRole.mask = WrapperRole.bits role ∧
            (g.isTop = true ↔ i + 1 = frames.length) ∧
            g.flags &&& ~~~(top ||| WrapperRole.mask) =
              f.flags &&& ~~~(top ||| WrapperRole.mask)) ∧
      classify (classify frames).frames = classify frames := by
  obtain ⟨roles, greedy⟩ := exists_greedy frames
  refine ⟨classifyByPlace?_eq frames, length_classify frames, ⟨roles, greedy,
    fun others h => h.unique greedy, greedy.length_eq, ?_⟩, classify_classify frames⟩
  intro i f role here plays
  have clean := plain f (List.mem_of_getElem? here)
  have unmasked : f.flags &&& WrapperRole.mask = 0 := by
    rw [show WrapperRole.mask = (top ||| WrapperRole.mask) &&& WrapperRole.mask by decide,
      ← UInt32.and_assoc, clean, UInt32.zero_and]
  have notTop : f.flags &&& top = 0 := by
    rw [show top = (top ||| WrapperRole.mask) &&& top by decide, ← UInt32.and_assoc, clean,
      UInt32.zero_and]
  obtain ⟨masked, apart, none⟩ := greedy.bits_and (List.mem_of_getElem? plays)
  have topMasked : top &&& WrapperRole.mask = 0 := by decide
  have topNone : top &&& ~~~(top ||| WrapperRole.mask) = 0 := by decide
  refine ⟨_, getElem?_classify_eq greedy here plays, rfl, ?_⟩
  rw [Frame.isTop, isSet]
  dsimp only
  by_cases last : i + 1 = frames.length
  · rw [if_pos last]
    simp only [or_and, unmasked, notTop, masked, apart, none, topMasked, topNone, last,
      UInt32.or_zero, UInt32.zero_or, UInt32.and_self]
    decide
  · rw [if_neg last]
    simp only [UInt32.or_zero, or_and, unmasked, notTop, masked, apart, none, last, UInt32.zero_or]
    decide

/-- A frame of its own call only. -/
def bare (place : Nat) (call : String) : Frame :=
  ⟨Int32.ofNat place, some call, UInt64.ofNat place, none, 0, none, 0⟩

/-- A console command that reads a file, in which another one is read. -/
def readInside : List Frame :=
  [bare 0 ".statet.evalCommand(1L)", bare 1 "eval(expr)", bare 2 "source(a)",
    bare 3 "withVisible(eval(ei))", bare 4 "eval(ei)", bare 5 "eval(ei)", bare 6 "source(b)",
    bare 7 "eval.with.vis(ei)", bare 8 "f()"]

/-- The second chain is one of its own, and the call inside has no role. -/
theorem classify_greedy_readInside :
    (∀ f ∈ readInside, f.flags &&& (top ||| WrapperRole.mask) = 0) ∧
      classifyByPlace? readInside = some (classify readInside) ∧
      (classify readInside).frames.map (·.flags) =
        [0x20, 0x21, 0x10, 0x11, 0x12, 0x13, 0x10, 0x11, 0x1000] := by
  have plain : ∀ f ∈ readInside, f.flags &&& (top ||| WrapperRole.mask) = 0 := by decide
  exact ⟨plain, (classify_greedy plain).1, by decide⟩

end CallStack

end EngineLink
