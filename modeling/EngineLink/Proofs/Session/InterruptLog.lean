import EngineLink.Proofs.Session.Evaluations
import EngineLink.Proofs.Session.Outlook

/-!
# A log of interrupts and evaluations

Whether an interrupt has been requested is one flag, which all evaluations look at. It is forgotten
when an evaluation begins and when an interrupt has ended one. A log notes the interrupts that come,
and how evaluations begin, hear of them and end with them. Whatever happens to the running code, an
evaluation ends with an interrupt only if one is owed to it that came since it began.

## Main definitions

* `Note`, `Evaluation` — what is noted, and an evaluation that has not ended with an interrupt
* `Occurrence` — what can happen to the evaluation of the running code
* `owed` — the interrupts that evaluations may still end with
* `Evaluation.Grounded`, `Cancelled` — what the log shows about an evaluation

## Main results

* `occurrence_of_request` — what a request with a mark can mean to evaluations
* `Occurrence.owed_le` — evaluations end with interrupts that are owed to them
* `Occurrence.latest`, `Occurrence.cancelled` — the log accounts for all evaluations
-/

namespace EngineLink

/-! ### The log -/

/-- What matters about the course of a session for its interrupts, as it is noted in a log. An
evaluation is known by the place in the log at which it began. -/
inductive Note where
  /-- An interrupt has been requested. -/
  | came
  /-- The evaluation of a data request or a line begins. -/
  | began
  /-- An evaluation has found out that an interrupt was requested. -/
  | heard (began : Nat)
  /-- The data request or the line has ended with an interrupt. -/
  | interrupted (began : Option Nat)
  deriving DecidableEq, Repr

/-- Whether an interrupt has ended a data request or a line. -/
def Note.isInterrupted : Note → Bool
  | interrupted _ => true
  | _ => false

/-- An evaluation that has not ended with an interrupt. -/
structure Evaluation where
  /-- Its place in the log. -/
  began : Nat
  /-- Whether it has found out that an interrupt was requested. -/
  heard : Bool
  deriving DecidableEq, Repr

variable {ι : Type}

/-- The latest evaluation of code after a request, which is noted at a place in the log. -/
def Evaluation.after (place : Nat) (e : Option Evaluation) :
    (r : TaskRequest ι × Option Mark) → r.1.Reply → Option Evaluation
  | (_, some .begins), _ => some ⟨place, false⟩
  | (_, some .interrupted), _ => none
  | (.code .isInterrupted, none), interrupted =>
    e.map fun e => { e with heard := e.heard || interrupted }
  | (.console _, none), _ => none
  | (_, none), _ => e

/-- What is noted about a request. -/
def Note.ofRequest (e : Option Evaluation) :
    (r : TaskRequest ι × Option Mark) → r.1.Reply → List Note
  | (_, some .begins), _ => [began]
  | (_, some .interrupted), _ => [interrupted (e.map (·.began))]
  | (.code .interrupt, none), _ => [came]
  | (.code .isInterrupted, none), (answer : Bool) =>
    if answer then (e.map fun e => heard e.began).toList else []
  | _, _ => []

/-- What is noted about what others do. -/
def Note.ofMove : ExchangeMove → List Note
  | .interrupt => [came]
  | _ => []

/-! ### What interrupts are owed for -/

/-- The interrupts that evaluations may still end with, given whether an interrupt has been
requested, and for each running code whether its evaluation has heard of one, the innermost first.
Only the innermost evaluation can hear of the one that has been requested. -/
def owed (interrupted : Bool) : List (Option Bool) → Nat
  | [] => 0
  | none :: ps => owed interrupted ps
  | some heard :: ps => (heard || interrupted).toNat + ps.count (some true)

variable {interrupted : Bool} {p : Option Bool} {ps : List (Option Bool)}

theorem owed_false : owed false ps = ps.count (some true) := by
  induction ps with
  | nil => rfl
  | cons p ps ih =>
    cases p with
    | none => simpa [owed] using ih
    | some heard => cases heard <;> simp [owed, Nat.add_comm]

theorem count_le_owed : ps.count (some true) ≤ owed interrupted ps := by
  induction ps with
  | nil => exact Nat.le_refl 0
  | cons p ps ih =>
    cases p with
    | none => simpa [owed] using ih
    | some heard => cases heard <;> simp [owed, Nat.add_comm]

theorem owed_le_add_count : owed interrupted ps ≤ interrupted.toNat + ps.count (some true) := by
  induction ps with
  | nil => exact Nat.zero_le _
  | cons p ps ih =>
    cases p with
    | none => simpa [owed] using ih
    | some heard => cases heard <;> cases interrupted <;> simp [owed, Nat.add_comm]

/-- What was owed to code that is over is owed to none, or to the code around it. -/
theorem owed_tail_le : owed interrupted ps ≤ owed interrupted (p :: ps) := by
  cases p with
  | none => exact Nat.le_refl _
  | some heard =>
    refine Nat.le_trans owed_le_add_count (Nat.add_le_add_right ?_ _)
    cases heard <;> cases interrupted <;> decide

/-! ### What can happen to evaluations -/

/-- What can happen to the running code: what becomes of the flag and of its latest evaluation, and
what is noted at a place in the log. -/
inductive Occurrence (outermost interrupted : Bool) (place : Nat) (e : Option Evaluation) :
    Bool → Option Evaluation → List Note → Prop
  /-- An evaluation begins, and the interrupts before it are forgotten. -/
  | begins : Occurrence outermost interrupted place e false (some ⟨place, false⟩) [.began]
  /-- The evaluation ends with an interrupt, which is forgotten unless no evaluation is left. -/
  | ends {later : Bool} {f : Evaluation} : e = some f → f.heard = true →
    later = false ∨ outermost = true ∧ later = interrupted →
    Occurrence outermost interrupted place e later none [.interrupted (some f.began)]
  /-- An interrupt comes. -/
  | comes : Occurrence outermost interrupted place e true e [.came]
  /-- The evaluation hears of an interrupt. -/
  | hears {f : Evaluation} : e = some f → interrupted = true →
    Occurrence outermost interrupted place e interrupted (some { f with heard := true })
      [.heard f.began]
  /-- Nothing, but an interrupt may be forgotten. -/
  | nothing {later : Bool} : later = false ∨ later = interrupted →
    Occurrence outermost interrupted place e later e []
  /-- The code is over. -/
  | finishes : Occurrence outermost interrupted place e interrupted none []

theorem occurrence_of_request {outermost : Bool} {place : Nat} {e : Option Evaluation}
    {r : TaskRequest ι × Option Mark} {reply : r.1.Reply}
    (allowed : (Marked.discipline outermost).allowed (e.map (·.heard)) r)
    (tells : r.1.Tells interrupted reply) :
    Occurrence outermost interrupted place e (r.1.flag interrupted)
      (Evaluation.after place e r reply) (Note.ofRequest e r reply) := by
  match r with
  | (r, some .begins) =>
    cases r with
    | clearInterrupt => exact .begins
    | _ => cases allowed
  | (r, some .interrupted) =>
    cases r with
    | clearInterrupt =>
      obtain ⟨f, rfl, heard⟩ := Option.map_eq_some_iff.mp allowed
      exact .ends rfl heard (.inl rfl)
    | tell item =>
      obtain ⟨f, rfl, heard⟩ := Option.map_eq_some_iff.mp allowed.2
      exact .ends rfl heard (.inr ⟨allowed.1, rfl⟩)
    | _ => cases allowed
  | (r, none) =>
    cases r with
    | code q =>
      cases q with
      | isInterrupted =>
        obtain rfl : interrupted = reply := Eq.symm tells
        -- Code without an evaluation may look for an interrupt as well, and nothing is noted.
        rcases e with - | ⟨began, heard⟩
        · cases interrupted <;> exact .nothing (.inr rfl)
        · cases interrupted with
          | false => cases heard <;> exact .nothing (.inr rfl)
          | true => cases heard <;> exact .hears rfl rfl
      | interrupt => exact .comes
      | _ => exact .nothing (.inr rfl)
    | clearInterrupt => exact .nothing (.inl rfl)
    | console => exact .finishes
    | _ => exact .nothing (.inr rfl)

theorem occurrence_of_move {outermost : Bool} {place : Nat} {e : Option Evaluation}
    (move : ExchangeMove) :
    Occurrence outermost interrupted place e (move.flag interrupted) e (Note.ofMove move) := by
  cases move with
  | interrupt => exact .comes
  | clearInterrupt => exact .nothing (.inl rfl)
  | _ => exact .nothing (.inr rfl)

/-- Whether the latest evaluation has heard of an interrupt is what the rules for marks follow. -/
theorem heard_after (outermost : Bool) {place : Nat} {e : Option Evaluation}
    {r : TaskRequest ι × Option Mark} {reply : r.1.Reply} :
    (Evaluation.after place e r reply).map (·.heard) =
      (Marked.discipline outermost).after (e.map (·.heard)) r reply := by
  match r with
  | (_, some .begins) | (_, some .interrupted) => rfl
  | (r, none) =>
    cases r with
    | code q =>
      cases q with
      | isInterrupted => cases e <;> rfl
      | _ => rfl
    | _ => rfl

/-- Evaluations end with an interrupt only if one is owed to them. -/
theorem Occurrence.owed_le {place : Nat} {e f : Option Evaluation} {later : Bool}
    {notes : List Note} (h : Occurrence ps.isEmpty interrupted place e later f notes) :
    notes.countP Note.isInterrupted + owed later (f.map (·.heard) :: ps) ≤
      notes.count .came + owed interrupted (e.map (·.heard) :: ps) := by
  cases h with
  | begins =>
    -- The one that has been requested is forgotten; only those that were heard of stay.
    change 0 + (0 + ps.count (some true)) ≤ 0 + owed interrupted (e.map (·.heard) :: ps)
    rw [Nat.zero_add, Nat.zero_add, Nat.zero_add]
    exact Nat.le_trans count_le_owed owed_tail_le
  | @ends _ f began heard forgets =>
    -- The interrupt that the evaluation has heard of is the one that it ends with, and no other may
    -- hear of it: it is forgotten, or there is no other.
    have paid : owed later ps ≤ ps.count (some true) := by
      rcases forgets with rfl | ⟨alone, -⟩
      · exact Nat.le_of_eq owed_false
      · rw [List.isEmpty_iff.mp alone]
        exact Nat.le_refl 0
    rw [began, Option.map_some, heard]
    change 1 + owed later ps ≤ 0 + ((true || interrupted).toNat + ps.count (some true))
    rw [Nat.zero_add, Bool.true_or]
    exact Nat.add_le_add_left paid 1
  | comes =>
    change 0 + owed true (e.map (·.heard) :: ps) ≤ 1 + owed interrupted (e.map (·.heard) :: ps)
    rw [Nat.zero_add]
    exact Nat.le_trans owed_le_add_count (Nat.add_le_add_left count_le_owed 1)
  | @hears f began requested =>
    rw [began, requested]
    change 0 + ((true || true).toNat + _) ≤ 0 + ((f.heard || true).toNat + _)
    rw [Bool.or_true f.heard]
    exact Nat.le_refl _
  | nothing less =>
    refine Nat.add_le_add_left ?_ 0
    rcases less with rfl | rfl
    · rw [owed_false]
      exact count_le_owed
    · exact Nat.le_refl _
  | finishes =>
    change 0 + owed interrupted ps ≤ 0 + owed interrupted (e.map (·.heard) :: ps)
    exact Nat.add_le_add_left owed_tail_le 0

/-! ### The log accounts for interrupts -/

section Log

variable {log notes : List Note} {place : Nat} {n : Note}

theorem noted_append (h : log[place]? = some n) : (log ++ notes)[place]? = some n :=
  (List.getElem?_append_left (List.getElem?_eq_some_iff.mp h).1).trans h

theorem noted_last : (log ++ [n])[log.length]? = some n := by
  simp

/-- An interrupt has come since the place at which an evaluation began. -/
def CameSince (log : List Note) (began : Nat) : Prop :=
  ∃ place, began < place ∧ log[place]? = some .came

/-- An evaluation has heard of an interrupt before a place, and one had come since it began. -/
def HeardBefore (log : List Note) (began place : Nat) : Prop :=
  ∃ came heard, began < came ∧ came < heard ∧ heard < place ∧
    log[came]? = some .came ∧ log[heard]? = some (.heard began)

/-- What the log shows about an evaluation that has not ended with an interrupt. -/
structure Evaluation.Grounded (log : List Note) (interrupted : Bool) (e : Evaluation) : Prop where
  began : log[e.began]? = some .began
  warned : interrupted = true → CameSince log e.began
  heard : e.heard = true → HeardBefore log e.began log.length

/-- An evaluation that has ended with an interrupt at a place has heard of one before, which had
come since it began. -/
def Cancelled (log : List Note) (place : Nat) (began : Option Nat) : Prop :=
  ∃ start, began = some start ∧ log[start]? = some .began ∧ HeardBefore log start place

theorem CameSince.append {began : Nat} (h : CameSince log began) :
    CameSince (log ++ notes) began := by
  obtain ⟨place, after, came⟩ := h
  exact ⟨place, after, noted_append came⟩

theorem HeardBefore.append {began : Nat} (h : HeardBefore log began place) :
    HeardBefore (log ++ notes) began place := by
  obtain ⟨came, heard, since, later, before, noted, told⟩ := h
  exact ⟨came, heard, since, later, before, noted_append noted, noted_append told⟩

theorem HeardBefore.mono {began later : Nat} (h : HeardBefore log began place)
    (le : place ≤ later) : HeardBefore log began later := by
  obtain ⟨came, heard, since, after, before, noted, told⟩ := h
  exact ⟨came, heard, since, after, Nat.lt_of_lt_of_le before le, noted, told⟩

/-- What is grounded stays so while the log grows, if a new interrupt is noted. -/
theorem Evaluation.Grounded.append {e : Evaluation} {later : Bool}
    (h : e.Grounded log interrupted)
    (warned : later = true → interrupted = true ∨ notes = [.came]) :
    e.Grounded (log ++ notes) later := by
  refine ⟨noted_append h.began, fun requested => ?_, fun heard => ?_⟩
  · rcases warned requested with before | rfl
    · exact (h.warned before).append
    · exact ⟨log.length, (List.getElem?_eq_some_iff.mp h.began).1, noted_last⟩
  · exact (h.heard heard).append.mono (by simp)

section Occurrences

variable {outermost later : Bool} {e f : Option Evaluation}

theorem Occurrence.grounded {g : Evaluation}
    (h : Occurrence outermost interrupted log.length e later f notes)
    (before : g.Grounded log interrupted) : g.Grounded (log ++ notes) later := by
  refine before.append fun requested => ?_
  cases h with
  | begins => cases requested
  | comes => exact .inr rfl
  | hears began noted => exact .inl noted
  | finishes => exact .inl requested
  | ends _ _ less =>
    rcases less with rfl | ⟨-, rfl⟩
    · cases requested
    · exact .inl requested
  | nothing less =>
    rcases less with rfl | rfl
    · cases requested
    · exact .inl requested

/-- The latest evaluation is grounded after each occurrence. -/
theorem Occurrence.latest {g : Evaluation}
    (h : Occurrence outermost interrupted log.length e later f notes)
    (before : ∀ g, e = some g → g.Grounded log interrupted) (latest : f = some g) :
    g.Grounded (log ++ notes) later := by
  have kept (known : g.Grounded log interrupted) := h.grounded known
  cases h with
  | begins =>
    cases latest
    exact ⟨noted_last, nofun, nofun⟩
  | ends | finishes => cases latest
  | comes | nothing => exact kept (before g latest)
  | @hears f began requested =>
    cases latest
    have known := before f began
    have grown : f.Grounded (log ++ [.heard f.began]) interrupted := known.append .inl
    refine ⟨grown.began, grown.warned, fun _ => ?_⟩
    obtain ⟨place, since, came⟩ := known.warned requested
    have earlier : place < log.length := (List.getElem?_eq_some_iff.mp came).1
    exact ⟨place, log.length, since, earlier, by simp, noted_append came, noted_last⟩

/-- What ends with an interrupt is accounted for. -/
theorem Occurrence.cancelled {began : Option Nat}
    (h : Occurrence outermost interrupted log.length e later f notes)
    (before : ∀ g, e = some g → g.Grounded log interrupted)
    (known : ∀ place began, log[place]? = some (.interrupted began) → Cancelled log place began)
    (ended : (log ++ notes)[place]? = some (.interrupted began)) :
    Cancelled (log ++ notes) place began := by
  by_cases old : place < log.length
  · rw [List.getElem?_append_left old] at ended
    obtain ⟨start, rfl, noted, heard⟩ := known place began ended
    exact ⟨start, rfl, noted_append noted, heard.append⟩
  · rw [List.getElem?_append_right (Nat.le_of_not_lt old)] at ended
    have member := List.mem_of_getElem? ended
    cases h with
    | @ends _ f latest heard _ =>
      obtain ⟨⟩ := List.mem_singleton.mp member
      have told := before f latest
      exact ⟨f.began, rfl, noted_append told.began,
        (told.heard heard).append.mono (Nat.le_of_not_lt old)⟩
    | _ => simp at member

end Occurrences

end Log

end EngineLink
