import EngineLink.Proofs.Wire.Reads

/-!
# Readers that do not look ahead

A reader takes bytes one after another, but each check for room looks at everything that is left. So
what it finds in an input may depend on the bytes behind those that it takes, and only in one way:
an input that is too short is refused for that. Any other outcome, a result as well as a fault, is
the same with further bytes behind the input, which are then left over.

The property goes through composed readers, so that it is found for each reader by the way in which
the reader is put together. It is a class for that reason.

## Main definitions

* `Reader.extend` — an outcome with further bytes behind those that are left
* `Reader.EndsEarly` — an outcome that tells that the input is too short
* `Reader.Stable` — any other outcome does not depend on what follows the input

## Main results

* `Reader.Stable.all_prefix` — what is read as a whole is refused as too short without its last
  bytes
* `Reader.Stable.all_append` — with further bytes behind it, it is refused for their number
-/

namespace EngineLink

namespace Reader

variable {α β : Type}

/-- The outcome with further bytes behind those that are left. -/
def extend (more : Bytes) : Except Refusal (α × Bytes) → Except Refusal (α × Bytes)
  | .ok (x, rest) => .ok (x, rest ++ more)
  | .error refusal => .error { refusal with rest := refusal.rest ++ more }

/-- The outcome tells that the input is too short. -/
def EndsEarly (outcome : Except Refusal (α × Bytes)) : Prop :=
  ∃ needed remaining rest, outcome = .error ⟨.endOfInput needed remaining, rest⟩

/-- The reader finds the input too short, or does not depend on what follows it. -/
class Stable (r : Reader α) : Prop where
  early_or_extend : ∀ input more, EndsEarly (r input) ∨ r (input ++ more) = extend more (r input)

theorem not_endsEarly_ok {x : α} {rest : Bytes} :
    ¬ EndsEarly (.ok (x, rest) : Except Refusal (α × Bytes)) := by
  rintro ⟨_, _, _, h⟩
  cases h

namespace Stable

variable {r r' : Reader α} {f : α → Reader β}

/-- A result stays the same with further bytes behind the input. -/
theorem append [r.Stable] {input rest : Bytes} {x : α} (h : r input = .ok (x, rest))
    (more : Bytes) : r (input ++ more) = .ok (x, rest ++ more) := by
  have outcome := early_or_extend (r := r) input more
  rw [h] at outcome
  exact outcome.resolve_left not_endsEarly_ok

/-! ### Composed readers -/

instance of_pure (x : α) : (pure x : Reader α).Stable where
  early_or_extend _ _ := .inr rfl

instance of_fail (fault : WireFault) : (fail fault : Reader α).Stable where
  early_or_extend _ _ := .inr rfl

/-- If the first part finds the input too short, both do; a result of the first part stays the same,
and then the second part decides. -/
instance bind [r.Stable] [∀ x, (f x).Stable] : (r >>= f).Stable where
  early_or_extend := by
    intro input more
    rcases first : r input with refusal | ⟨x, rest⟩
    · have both : (r >>= f) input = .error refusal := by
        show (r input >>= fun p => f p.1 p.2) = _
        rw [first]
        rfl
      rcases early_or_extend (r := r) input more with ⟨needed, remaining, left, early⟩ | same
      · left
        rw [first] at early
        cases early
        exact ⟨needed, remaining, left, both⟩
      · right
        rw [both]
        show (r (input ++ more) >>= fun p => f p.1 p.2) = _
        rw [same, first]
        rfl
    · have second : (r >>= f) input = f x rest := by
        show (r input >>= fun p => f p.1 p.2) = _
        rw [first]
        rfl
      have further : (r >>= f) (input ++ more) = f x (rest ++ more) := by
        show (r (input ++ more) >>= fun p => f p.1 p.2) = _
        rw [append first more]
        rfl
      rw [second, further]
      exact early_or_extend rest more

/-- The part that comes after a stable one, with what that has read at hand. -/
theorem andThen [r.Stable] (h : ∀ x, (f x).Stable) : (r >>= f).Stable := bind

instance map [r.Stable] (g : α → β) : (g <$> r).Stable := by
  rw [map_eq_pure_bind]
  infer_instance

instance ite (p : Prop) [Decidable p] [r.Stable] [r'.Stable] : (if p then r else r').Stable := by
  split <;> infer_instance

instance onlyIf (present : Bool) [r.Stable] : (r.onlyIf present).Stable := by
  unfold Reader.onlyIf
  infer_instance

instance times (n : Nat) [r.Stable] : (r.times n).Stable := by
  induction n with
  | zero => exact of_pure []
  | succ n ih => exact bind

/-! ### Checks for room -/

instance need (n : Nat) : (need n).Stable where
  early_or_extend := by
    intro input more
    by_cases short : input.length < n
    · left
      exact ⟨n, input.length, input, if_pos short⟩
    · right
      have room : ¬ (input ++ more).length < n := by
        rw [List.length_append]
        omega
      simp only [Reader.need, if_neg short, if_neg room, extend]

instance take (n : Nat) : (take n).Stable where
  early_or_extend := by
    intro input more
    by_cases short : input.length < n
    · left
      exact ⟨n, input.length, input, if_pos short⟩
    · right
      have enough : n ≤ input.length := Nat.le_of_not_lt short
      have room : ¬ (input ++ more).length < n := by
        rw [List.length_append]
        omega
      -- The cut lies in the input itself, so that the further bytes are all left.
      simp only [Reader.take, if_neg short, if_neg room, extend,
        List.take_append_of_le_length enough, List.drop_append_of_le_length enough]

/-! ### Whole inputs -/

theorem ok_of_all {input : Bytes} {x : α} (h : r.all input = .ok x) : r input = .ok (x, []) := by
  unfold Reader.all at h
  split at h
  · cases h
  · next read =>
    cases h
    exact read
  · cases h

/-- Without some of its last bytes, what is read as a whole is refused as too short. -/
theorem all_prefix [r.Stable] {input start : Bytes} {x : α} (h : r.all input = .ok x)
    (begins : start <+: input) (shorter : start ≠ input) :
    ∃ needed remaining, r.all start = .error (.endOfInput needed remaining) := by
  obtain ⟨more, rfl⟩ := begins
  have cut : more ≠ [] := by
    rintro rfl
    exact shorter (List.append_nil start).symm
  rcases early_or_extend (r := r) start more with ⟨needed, remaining, rest, early⟩ | same
  · refine ⟨needed, remaining, ?_⟩
    rw [Reader.all, early]
  · -- Any other outcome would leave the bytes that were cut off, while nothing was left of all.
    rw [ok_of_all h] at same
    rcases outcome : r start with refusal | ⟨y, rest⟩
    · rw [outcome] at same
      cases same
    · rw [outcome, extend, Except.ok.injEq, Prod.mk.injEq] at same
      have nothing := List.append_eq_nil_iff.mp same.2.symm
      exact absurd nothing.2 cut

/-- With further bytes behind it, what is read as a whole is refused for their number. -/
theorem all_append [r.Stable] {input : Bytes} {x : α} (h : r.all input = .ok x) {more : Bytes}
    (further : more ≠ []) : r.all (input ++ more) = .error (.trailingBytes more.length) := by
  have read := append (ok_of_all h) more
  rw [List.nil_append] at read
  unfold Reader.all
  rw [read]
  cases more with
  | nil => exact absurd rfl further
  | cons => rfl

end Stable

end Reader

namespace Wire

open Reader

/-! ### Primitive fields -/

instance stable_getU8 : getU8.Stable where
  early_or_extend := by
    intro input more
    cases input with
    | nil => exact .inl ⟨_, _, _, rfl⟩
    | cons => exact .inr rfl

instance stable_getTag {α : Type} (what : String) (ofTag? : UInt8 → Option α) :
    (getTag what ofTag?).Stable := by
  unfold getTag
  apply Stable.andThen
  intro t
  split <;> infer_instance

instance stable_getBool : getBool.Stable := Stable.map _

instance stable_getU32 : getU32.Stable where
  early_or_extend := by
    intro input more
    -- With fewer than four bytes the word is asked for in vain.
    rcases input with _ | ⟨a, _ | ⟨b, _ | ⟨c, _ | ⟨d, rest⟩⟩⟩⟩
    case cons.cons.cons.cons => exact .inr rfl
    all_goals exact .inl ⟨_, _, _, rfl⟩

instance stable_getU64 : getU64.Stable where
  early_or_extend := by
    intro input more
    rcases input with
      _ | ⟨a, _ | ⟨b, _ | ⟨c, _ | ⟨d, _ | ⟨e, _ | ⟨f, _ | ⟨g, _ | ⟨h, rest⟩⟩⟩⟩⟩⟩⟩⟩
    case cons.cons.cons.cons.cons.cons.cons.cons => exact .inr rfl
    all_goals exact .inl ⟨_, _, _, rfl⟩

instance stable_getI32 : getI32.Stable := Stable.map _

instance stable_getI64 : getI64.Stable := Stable.map _

instance stable_checkCount (what : String) (size : Nat) (n : Int32) :
    (checkCount what size n).Stable := by
  unfold checkCount
  infer_instance

instance stable_getCount (what : String) (size : Nat) : (getCount what size).Stable := by
  unfold getCount
  infer_instance

instance stable_getCount? (what : String) (size : Nat) : (getCount? what size).Stable := by
  unfold getCount?
  infer_instance

instance stable_getBytes : getBytes.Stable := by
  unfold getBytes
  infer_instance

instance stable_getTextOf (n : Nat) : (getTextOf n).Stable := by
  unfold getTextOf
  apply Stable.andThen
  intro bytes
  split <;> infer_instance

instance stable_getText? : getText?.Stable := by
  unfold getText?
  apply Stable.andThen
  intro n
  split <;> infer_instance

instance stable_getText : getText.Stable := by
  unfold getText
  apply Stable.andThen
  intro s
  split <;> infer_instance

instance stable_getTexts : getTexts.Stable := by
  unfold getTexts
  infer_instance

instance stable_getTexts? : getTexts?.Stable := by
  unfold getTexts?
  apply Stable.andThen
  intro n
  split <;> infer_instance

instance stable_getInts : getInts.Stable := by
  unfold getInts
  infer_instance

end Wire

end EngineLink
