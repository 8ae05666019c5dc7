import EngineLink.Proofs.Exchange.Service

/-!
# Courses of an exchange

A session can be stopped at any time, while events are under way. The coordinator then serves none
of the events behind, and whatever is posted later is refused. A course of an exchange is made of
moves, of turns of the coordinator, and of attempts to stop.

## Main definitions

* `Exchange.Deed`, `Exchange.deed?` — what can happen to an exchange
* `Exchange.Course` — what happens one after another
* `Exchange.Invariant` — what deeds keep

## Main results

* `Exchange.coordinate_induction` — a turn receives events one by one, and then hands out
* `Exchange.Invariant.course` — what deeds keep holds along every course
-/

namespace EngineLink

namespace Coordinator

theorem running_answerFrom (answer : Item) (ps : List Pending) (c : Coordinator) :
    (c.answerFrom answer ps).running = c.running := by
  induction ps generalizing c answer with
  | nil => rfl
  | cons top rest ih =>
    rw [answerFrom]
    split
    · rfl
    · split
      · exact ih _ _
      · split
        · exact ih _ _
        · rfl

theorem running_refuse (c : Coordinator) (e : Event) : (c.refuse e).running = c.running :=
  congrArg EngineSide.running (engineSide_refuse c e)

/-- Handing out does not stop the coordinator. -/
theorem running_pump (gone : CallId → Bool) (c : Coordinator) :
    (c.pump gone).running = c.running := by
  have delivered : (c.pump gone).running = c.forward.retryIfRequested.running :=
    congrArg EngineSide.running (engineSide_pump gone c)
  have forwarded : c.forward.running = c.running := by
    rcases c.forward_cases with same | ⟨-, s, item, forwarded⟩
    · rw [same]
    · exact congrArg EngineSide.running forwarded
  rw [delivered, ← forwarded, retryIfRequested]
  split
  · rw [retry]
    split
    · rfl
    · split
      · rfl
      · split
        · rfl
        · split
          · exact running_answerFrom ..
          · rfl
  · rfl

/-- Only the event that asks for it stops the coordinator. -/
theorem running_act {c : Coordinator} (labelled : c.StashLabelled) (running : c.running = true)
    {a : Act} (stays : a ≠ .receive .shutdown) : (c.act a).running = true := by
  cases a with
  | receive e =>
    have served : c.act (.receive e) = c.serve e := if_pos running
    have lasts : e ≠ .shutdown := fun stops => stays (congrArg Act.receive stops)
    rw [served, (answers_serve labelled lasts).running, Exchange.running_opened, running]
  | pump gone =>
    have pumped : c.act (.pump gone) = c.pump gone := if_pos running
    rw [pumped, running_pump, running]

/-- After the end, the coordinator does not run again. -/
theorem running_act_of_stopped {c : Coordinator} (stopped : c.running = false) (a : Act) :
    (c.act a).running = false := by
  cases a with
  | receive e =>
    have refused : c.act (.receive e) = c.refuse e := if_neg (Bool.eq_false_iff.mp stopped)
    rw [refused, running_refuse, stopped]
  | pump gone =>
    have still : c.act (.pump gone) = c := if_neg (Bool.eq_false_iff.mp stopped)
    rw [still, stopped]

/-- The coordinator does not run after the event that asks it to stop. -/
theorem running_handle_shutdown (c : Coordinator) : (c.handle .shutdown).running = false := by
  rw [handle]
  split
  · exact congrArg EngineSide.running (engineSide_stop c)
  · next stopped =>
    rw [running_refuse]
    exact Bool.eq_false_iff.mpr stopped

end Coordinator

namespace Exchange

variable {κ : Type} {x y z : Exchange κ}

/-! ### Turns -/

/-- A turn over no events hands out. -/
theorem coordinate_zero (running : x.isRunning = true) : x.coordinate 0 = x.pump := by
  have turned : x.coordinator.turn x.abandoned.contains (x.events.take 0) =
      x.coordinator.pump x.abandoned.contains := if_pos running
  have still : (x.coordinator.pump x.abandoned.contains).running = true :=
    (Coordinator.running_pump ..).trans running
  rw [coordinate_eq turned]
  exact if_pos still

/-- A coordinator that has stopped refuses the events that are under way one by one. -/
theorem coordinate_zero_of_stopped (stopped : x.isRunning = false) {e : Event} {later : List Event}
    (first : x.events = e :: later) : x.coordinate 0 = x.coordinate 1 := by
  have not : ¬x.coordinator.running = true := Bool.eq_false_iff.mp stopped
  have none : x.coordinator.turn x.abandoned.contains (x.events.take 0) = x.coordinator :=
    if_neg not
  have still : ¬(x.coordinator.refuse e).running = true := by
    rwa [Coordinator.running_refuse]
  have refused : x.coordinator.handle e = x.coordinator.refuse e := if_neg not
  have one : x.coordinator.turn x.abandoned.contains (x.events.take 1) = x.coordinator.refuse e := by
    rw [first, List.take_succ_cons, List.take_zero, Coordinator.turn, List.foldl_cons,
      List.foldl_nil, refused, if_neg still]
  rw [coordinate_eq none, coordinate_eq one, if_neg not, if_neg still, first]
  rfl

theorem receive?_cons {e : Event} {later : List Event} (first : x.events = e :: later) :
    x.receive? = some { x with coordinator := x.coordinator.handle e, events := later }.collect := by
  rw [receive?, first]

/-- A turn receives events one by one. A coordinator that runs hands out then, and one that has
stopped receives all. -/
theorem coordinate_induction {P : Exchange κ → Prop}
    (receive : ∀ {x y}, P x → x.receive? = some y → P y)
    (pump : ∀ {x}, P x → x.isRunning = true → P x.pump)
    (close : ∀ {x}, P x → x.isRunning = false → x.events = [] → P (x.coordinate 0)) (h : P x)
    (group : Nat) : P (x.coordinate group) := by
  have ends {x : Exchange κ} (h : P x) (stopped : x.isRunning = false) : P (x.coordinate 0) := by
    generalize left : x.events = events
    induction events generalizing x with
    | nil => exact close h stopped left
    | cons e later ih =>
      have refused : x.coordinator.handle e = x.coordinator.refuse e :=
        if_neg (Bool.eq_false_iff.mp stopped)
      have received := receive?_cons left
      rw [coordinate_zero_of_stopped stopped left, coordinate_succ received]
      refine ih (receive h received) ?_ rfl
      rw [refused]
      exact (Coordinator.running_refuse ..).trans stopped
  induction group generalizing x with
  | zero =>
    cases running : x.isRunning with
    | true =>
      rw [coordinate_zero running]
      exact pump h running
    | false => exact ends h running
  | succ group ih =>
    cases events : x.events with
    | nil =>
      have same : x.coordinate (group + 1) = x.coordinate group := by
        rw [coordinate, coordinate, events, List.take_nil, List.take_nil, List.drop_nil,
          List.drop_nil]
      rw [same]
      exact ih h
    | cons e later =>
      have received := receive?_cons events
      rw [coordinate_succ received]
      exact ih (receive h received)

/-! ### Courses -/

/-- What can happen to an exchange. -/
inductive Deed (κ : Type) where
  | move (move : Move κ)
  /-- A question is asked on a stopped session. -/
  | askStopped (item : Item)
  /-- The coordinator takes a turn over some events. -/
  | coordinate (group : Nat)
  | shutdown

/-- The state after a deed, if it is possible. A coordinator that has stopped hands out nothing. -/
def deed? (x : Exchange κ) : Deed κ → Option (Exchange κ)
  | .move .pump => if x.isRunning then some x.pump else none
  | .move move => x.move? move
  | .askStopped item => some (x.askStopped item).2
  | .coordinate group => some (x.coordinate group)
  | .shutdown => some x.shutdown

/-- Deeds one after another. The moves among them follow a law. -/
inductive Course (lawful : Exchange κ → Move κ → Prop) :
    Exchange κ → List (Deed κ) → Exchange κ → Prop
  | nil {x : Exchange κ} : Course lawful x [] x
  | cons {x y z : Exchange κ} {deed : Deed κ} {deeds : List (Deed κ)}
      (law : ∀ move, deed = .move move → lawful x move) (done : x.deed? deed = some y)
      (later : Course lawful y deeds z) : Course lawful x (deed :: deeds) z

theorem Course.append {lawful : Exchange κ → Move κ → Prop} {deeds more : List (Deed κ)}
    (first : Course lawful x deeds y) (later : Course lawful y more z) :
    Course lawful x (deeds ++ more) z := by
  induction first with
  | nil => exact later
  | cons law done _ ih => exact .cons law done (ih later)

/-- A course follows every weaker law. -/
theorem Course.mono {lawful weaker : Exchange κ → Move κ → Prop}
    (weaken : ∀ x move, lawful x move → weaker x move) {deeds : List (Deed κ)}
    (course : Course lawful x deeds y) : Course weaker x deeds y := by
  induction course with
  | nil => exact .nil
  | cons law done _ ih => exact .cons (fun move isMove => weaken _ move (law move isMove)) done ih

/-- Moves one after another are a course, as long as the coordinator runs. -/
theorem course_of_visited {lawful : Exchange κ → Move κ → Prop} {moves : List (Move κ)}
    {states : List (Exchange κ)} (run : x.visited? moves = some states)
    (law : ∀ p ∈ states.zip moves, lawful p.1 p.2) (running : ∀ z ∈ states, z.isRunning = true)
    (last : states.getLast? = some y) : Course lawful x (moves.map .move) y := by
  induction moves generalizing x states with
  | nil =>
    obtain rfl := Option.some.inj run
    obtain rfl := Option.some.inj last
    exact .nil
  | cons move moves ih =>
    obtain ⟨z, later, moved, onward, rfl⟩ := visited?_cons run
    rw [List.zip_cons_cons, List.forall_mem_cons] at law
    rw [List.forall_mem_cons] at running
    have goesOn : later.getLast? = some y := by
      obtain ⟨first, rest, rfl⟩ := List.exists_cons_of_ne_nil (List.ne_nil_of_mem (mem_visited onward))
      rwa [List.getLast?_cons_cons] at last
    refine .cons ?_ ?_ (ih onward law.2 running.2 goesOn)
    · rintro _ ⟨⟩
      exact law.1
    · cases move with
      | pump => exact (if_pos running.1).trans moved
      | _ => exact moved

/-- What the moves among some deeds bring, one after another. -/
def gathered {α : Type} (of : Move κ → List α) (deeds : List (Deed κ)) : List α :=
  deeds.flatMap fun
    | .move move => of move
    | _ => []

/-- What deeds keep, of a state and of what moves have brought. The coordinator brings nothing. -/
structure Invariant {α : Type} (lawful : Exchange κ → Move κ → Prop) (of : Move κ → List α)
    (P : List α → Exchange κ → Prop) : Prop where
  receives : (∀ x, lawful x .receive) ∧ of .receive = []
  pumps : (∀ x, lawful x .pump) ∧ of .pump = []
  moves : ∀ {brought x move y}, P brought x → lawful x move →
    (move = .pump → x.isRunning = true) → x.move? move = some y → P (brought ++ of move) y
  asks : ∀ {brought x} (item : Item), P brought x → P brought (x.askStopped item).2
  closes : ∀ {brought x}, P brought x → x.isRunning = false → x.events = [] →
    P brought (x.coordinate 0)
  stops : ∀ {brought x}, P brought x → P brought x.shutdown

namespace Invariant

variable {α : Type} {lawful : Exchange κ → Move κ → Prop} {of : Move κ → List α}
  {P : List α → Exchange κ → Prop}

theorem receive (inv : Invariant lawful of P) (brought : List α) (h : P brought x)
    (received : x.receive? = some y) : P brought y := by
  have moved : P (brought ++ of .receive) y := inv.moves h (inv.receives.1 x) nofun received
  rwa [inv.receives.2, List.append_nil] at moved

theorem pump (inv : Invariant lawful of P) (brought : List α) (h : P brought x)
    (running : x.isRunning = true) : P brought x.pump := by
  have moved : P (brought ++ of .pump) x.pump :=
    inv.moves h (inv.pumps.1 x) (fun _ => running) rfl
  rwa [inv.pumps.2, List.append_nil] at moved

theorem coordinate (inv : Invariant lawful of P) (brought : List α) (h : P brought x)
    (group : Nat) : P brought (x.coordinate group) :=
  coordinate_induction (inv.receive brought) (inv.pump brought) inv.closes h group

/-- What deeds keep holds along every course. -/
theorem course (inv : Invariant lawful of P) {deeds : List (Deed κ)}
    (course : Course lawful x deeds y) (brought : List α) (h : P brought x) :
    P (brought ++ gathered of deeds) y := by
  induction course generalizing brought with
  | nil =>
    rw [gathered, List.flatMap_nil, List.append_nil]
    exact h
  | @cons x y z deed deeds law done _ ih =>
    rw [gathered, List.flatMap_cons, ← List.append_assoc]
    refine ih _ ?_
    cases deed with
    | move move =>
      by_cases pumps : move = .pump
      · subst pumps
        obtain ⟨running, same⟩ := Option.ite_none_right_eq_some.mp done
        exact inv.moves h (law _ rfl) (fun _ => running) same
      · have moved : x.move? move = some y := by
          cases move with
          | pump => exact absurd rfl pumps
          | _ => exact done
        exact inv.moves h (law _ rfl) (fun isPump => absurd isPump pumps) moved
    | askStopped item =>
      obtain rfl := Option.some.inj done
      rw [List.append_nil]
      exact inv.asks item h
    | coordinate group =>
      obtain rfl := Option.some.inj done
      rw [List.append_nil]
      exact inv.coordinate brought h group
    | shutdown =>
      obtain rfl := Option.some.inj done
      rw [List.append_nil]
      exact inv.stops h

end Invariant

end Exchange

end EngineLink
