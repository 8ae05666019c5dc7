import Mathlib.Data.List.Basic
import EngineLink.Debug.SourceRef

/-!
# Relative source references

A reference that is taken relative to the begin of another one can be taken back. What does not come
back is what the relative reference cannot tell: lines that are not positive, and columns and bytes
on other lines than the one on which the base begins. All computations stay within 32 bits.

## Main definitions

* `SourcePoint.IsBefore` — a point lies before another, as far as both are known
* `SourcePoint.knownFrom`, `SourceRef.knownFrom` — what a relative reference keeps
* `SourceRef.diffChecked`, `SourceRef.addChecked` — the computations in words, each step checked

## Main results

* `SourceRef.diff?_eq_none_iff` — a reference that begins or ends before the base has none
* `SourceRef.add_of_diff?`, `SourceRef.diff?_add_of_diff?` — relative references and back
* `SourceRef.relative_inverts` — all of this, and that no step overflows
-/

namespace EngineLink

namespace SourcePoint

variable {base x d : Int32} {b p q : SourcePoint}

/-! ### Coordinates -/

/-- A coordinate as far as it is known beside the one of the base. -/
def knownCoord (base x : Int32) : Int32 := if 0 < base ∧ 0 < x then x else unknownCoord

theorem positive?_of_pos (h : 0 < x) : positive? x = some x.toInt := if_pos h

theorem positive?_of_not_pos (h : ¬0 < x) : positive? x = none := if_neg h

theorem toInt_pos (h : 0 < x) : 0 < x.toInt := by
  rwa [Int32.lt_iff_toInt_lt, Int32.toInt_zero] at h

theorem not_pos_unknownCoord : ¬0 < unknownCoord := by decide

theorem toInt_gap (knownBase : 0 < base) (known : 0 < x) :
    (Int32.ofInt (x.toInt - base.toInt)).toInt = x.toInt - base.toInt := by
  have lowBase := toInt_pos knownBase
  have highBase := Int32.toInt_lt base
  have low := toInt_pos known
  have high := Int32.toInt_lt x
  exact Int32.toInt_ofInt_of_le (by omega) (by omega)

/-- Between positive coordinates the distance counted from 1 is a word, too. -/
theorem toInt_distance (knownBase : 0 < base) (known : 0 < x) :
    (Int32.ofInt (x.toInt - base.toInt + 1)).toInt = x.toInt - base.toInt + 1 := by
  have lowBase := toInt_pos knownBase
  have highBase := Int32.toInt_lt base
  have low := toInt_pos known
  have high := Int32.toInt_lt x
  exact Int32.toInt_ofInt_of_le (by omega) (by omega)

theorem relative?_of_known (knownBase : 0 < base) (known : 0 < x) :
    relative? base x =
      if base ≤ x then some (Int32.ofInt (x.toInt - base.toInt + 1)) else none := by
  rw [relative?, positive?_of_pos knownBase, positive?_of_pos known]
  simp only [Int32.le_iff_toInt_le]

theorem relative?_of_unknown (unknown : ¬(0 < base ∧ 0 < x)) :
    relative? base x = some unknownCoord := by
  rw [relative?]
  by_cases knownBase : 0 < base
  · rw [positive?_of_not_pos fun known => unknown ⟨knownBase, known⟩]
    cases positive? base <;> rfl
  · rw [positive?_of_not_pos knownBase]

theorem relative?_eq_none_iff : relative? base x = none ↔ 0 < base ∧ 0 < x ∧ x < base := by
  by_cases known : 0 < base ∧ 0 < x
  · rw [relative?_of_known known.1 known.2]
    simp [known, Int32.not_le]
  · rw [relative?_of_unknown known]
    simp only [reduceCtorEq, false_iff]
    exact fun before => known ⟨before.1, before.2.1⟩

/-- A relative coordinate is unknown, or it counts the distance from 1. -/
theorem relative?_cases (h : relative? base x = some d) :
    (¬(0 < base ∧ 0 < x) ∧ d = unknownCoord) ∨
      ((0 < base ∧ 0 < x) ∧ 0 < d ∧ d.toInt = x.toInt - base.toInt + 1) := by
  by_cases known : 0 < base ∧ 0 < x
  · rw [relative?_of_known known.1 known.2] at h
    split_ifs at h with notBefore
    obtain rfl := Option.some.inj h
    have value := toInt_distance known.1 known.2
    refine .inr ⟨known, ?_, value⟩
    rw [Int32.le_iff_toInt_le] at notBefore
    rw [Int32.lt_iff_toInt_lt, value, Int32.toInt_zero]
    omega
  · rw [relative?_of_unknown known] at h
    exact .inl ⟨known, (Option.some.inj h).symm⟩

/-- The first place of a count is the base itself. -/
theorem relative?_eq_one_iff (h : relative? base x = some d) : d = 1 ↔ 0 < base ∧ x = base := by
  obtain ⟨unknown, rfl⟩ | ⟨known, -, value⟩ := relative?_cases h
  · refine ⟨fun one => absurd one (by decide), ?_⟩
    rintro ⟨known, rfl⟩
    exact absurd ⟨known, known⟩ unknown
  · rw [← Int32.toInt_inj, ← Int32.toInt_inj, value, Int32.toInt_one]
    exact ⟨fun one => ⟨known.1, by omega⟩, fun same => by omega⟩

/-- Counting back from the base gives the coordinate again, as far as it is known. -/
theorem absolute_of_relative? (h : relative? base x = some d) :
    absolute base d = knownCoord base x := by
  obtain ⟨unknown, rfl⟩ | ⟨known, positive, value⟩ := relative?_cases h
  · rw [absolute, positive?_of_not_pos not_pos_unknownCoord, knownCoord, if_neg unknown]
    cases positive? base <;> rfl
  · have high := Int32.toInt_lt x
    have place : base.toInt + d.toInt - 1 = x.toInt := by omega
    rw [absolute, positive?_of_pos known.1, positive?_of_pos positive, knownCoord, if_pos known]
    dsimp only
    rw [place, if_pos (by omega), Int32.ofInt_toInt]

/-- What is not known does not matter. -/
theorem relative?_knownCoord (base x : Int32) :
    relative? base (knownCoord base x) = relative? base x := by
  rw [knownCoord]
  split_ifs with known
  · rfl
  · rw [relative?_of_unknown known,
      relative?_of_unknown fun both => not_pos_unknownCoord both.2]

/-! ### Points -/

/-- The point `p` lies before `base` by its line, or on the same line by its column or byte. What is
not known does not count. -/
def IsBefore (p base : SourcePoint) : Prop :=
  (0 < base.line ∧ 0 < p.line ∧ p.line < base.line) ∨
    (0 < base.line ∧ p.line = base.line ∧
      ((0 < base.column ∧ 0 < p.column ∧ p.column < base.column) ∨
        (0 < base.byte ∧ 0 < p.byte ∧ p.byte < base.byte)))

instance (p base : SourcePoint) : Decidable (p.IsBefore base) :=
  inferInstanceAs (Decidable (_ ∨ _))

/-- What a relative point keeps of `p`: the line if it and the one of `base` are known, and what is
known of column and byte on the line of `base`. -/
def knownFrom (base p : SourcePoint) : SourcePoint where
  line := if 0 < base.line ∧ 0 < p.line then p.line else unknownCoord
  column :=
    if 0 < p.line ∧ p.line = base.line ∧ 0 < base.column ∧ 0 < p.column then p.column
    else unknownCoord
  byte :=
    if 0 < p.line ∧ p.line = base.line ∧ 0 < base.byte ∧ 0 < p.byte then p.byte else unknownCoord

theorem knownFrom_of_sameLine (known : 0 < b.line) (same : p.line = b.line) :
    b.knownFrom p = ⟨p.line, knownCoord b.column p.column, knownCoord b.byte p.byte⟩ := by
  simp [knownFrom, knownCoord, known, same]

theorem knownFrom_of_otherLine (other : ¬(0 < b.line ∧ p.line = b.line)) :
    b.knownFrom p = ⟨knownCoord b.line p.line, unknownCoord, unknownCoord⟩ := by
  have apart : ¬(0 < p.line ∧ p.line = b.line) := fun ⟨known, same⟩ => other ⟨same ▸ known, same⟩
  simp only [knownFrom, knownCoord, ← and_assoc, apart, false_and, if_false]

theorem relative?_line_of_sameLine (known : 0 < b.line) (same : p.line = b.line) :
    relative? b.line p.line = some 1 := by
  rw [same, relative?_of_known known known, if_pos (Int32.le_refl _)]
  simp

/-- On the line of the base, columns and bytes are relative as well. -/
theorem diff?_of_sameLine (known : 0 < b.line) (same : p.line = b.line) :
    b.diff? p =
      (do some ⟨1, ← relative? b.column p.column, ← relative? b.byte p.byte⟩) := by
  rw [diff?, relative?_line_of_sameLine known same]
  rfl

/-- On other lines only the line is relative. -/
theorem diff?_of_otherLine (other : ¬(0 < b.line ∧ p.line = b.line)) :
    b.diff? p = (relative? b.line p.line).map fun line => ⟨line, unknownCoord, unknownCoord⟩ := by
  rw [diff?]
  cases h : relative? b.line p.line with
  | none => rfl
  | some line => exact if_neg (mt (relative?_eq_one_iff h).mp other)

theorem diff?_eq_none_iff : b.diff? p = none ↔ p.IsBefore b := by
  by_cases here : 0 < b.line ∧ p.line = b.line
  · obtain ⟨known, same⟩ := here
    rw [diff?_of_sameLine known same, IsBefore, ← relative?_eq_none_iff (x := p.column),
      ← relative?_eq_none_iff (x := p.byte), same]
    cases relative? b.column p.column <;> cases relative? b.byte p.byte <;> simp [known]
  · rw [diff?_of_otherLine here, Option.map_eq_none_iff, relative?_eq_none_iff, IsBefore]
    simp only [← and_assoc, here, false_and, or_false]

theorem add_of_diff? (h : b.diff? p = some q) : b.add q = b.knownFrom p := by
  by_cases here : 0 < b.line ∧ p.line = b.line
  · obtain ⟨known, same⟩ := here
    have line := absolute_of_relative? (relative?_line_of_sameLine known same)
    rw [diff?_of_sameLine known same] at h
    cases column : relative? b.column p.column <;> cases byte : relative? b.byte p.byte <;>
      rw [column, byte] at h <;> cases h
    rw [add, knownFrom_of_sameLine known same, if_pos rfl, line,
      absolute_of_relative? column, absolute_of_relative? byte, knownCoord,
      if_pos ⟨known, same ▸ known⟩]
  · rw [diff?_of_otherLine here, Option.map_eq_some_iff] at h
    obtain ⟨line, relative, rfl⟩ := h
    have elsewhere : ¬line = 1 := mt (relative?_eq_one_iff relative).mp here
    rw [add, knownFrom_of_otherLine here, if_neg elsewhere, absolute_of_relative? relative]

theorem diff?_knownFrom (b p : SourcePoint) : b.diff? (b.knownFrom p) = b.diff? p := by
  by_cases here : 0 < b.line ∧ p.line = b.line
  · obtain ⟨known, same⟩ := here
    have kept : (b.knownFrom p).line = b.line := by rw [knownFrom_of_sameLine known same, same]
    rw [diff?_of_sameLine known kept, diff?_of_sameLine known same,
      knownFrom_of_sameLine known same, relative?_knownCoord, relative?_knownCoord]
  · have elsewhere : ¬(0 < b.line ∧ (b.knownFrom p).line = b.line) := by
      rw [knownFrom_of_otherLine here, knownCoord]
      dsimp only
      -- A line that is not known is not the one of the base.
      rintro ⟨known, same⟩
      split_ifs at same with both
      · exact here ⟨known, same⟩
      · exact not_pos_unknownCoord (same ▸ known)
    rw [diff?_of_otherLine elsewhere, diff?_of_otherLine here, knownFrom_of_otherLine here,
      relative?_knownCoord]

/-! ### Steps in words -/

/-- Subtraction of words, unless it overflows. -/
def wordSub? (x y : Int32) : Option Int32 :=
  if x.toBitVec.ssubOverflow y.toBitVec then none else some (x - y)

/-- Addition of words, unless it overflows. -/
def wordAdd? (x y : Int32) : Option Int32 :=
  if x.toBitVec.saddOverflow y.toBitVec then none else some (x + y)

/-- `relative?` in words. There is no outcome at all if a step overflows. -/
def relativeChecked (base x : Int32) : OptionT Option Int32 :=
  if 0 < base ∧ 0 < x then do
    let place ← OptionT.lift (do wordAdd? (← wordSub? x base) 1)
    if 0 < place then pure place else failure
  else pure unknownCoord

/-- `absolute` in words. There is no outcome if a step overflows. -/
def absoluteChecked (base d : Int32) : Option Int32 :=
  if 0 < base ∧ 0 < d then do wordAdd? base (← wordSub? d 1) else some unknownCoord

/-- `diff?` in words. There is no outcome at all if a step overflows. -/
def diffChecked (base p : SourcePoint) : OptionT Option SourcePoint := do
  let line ← relativeChecked base.line p.line
  if line = 1 then
    return ⟨line, ← relativeChecked base.column p.column, ← relativeChecked base.byte p.byte⟩
  else return ⟨line, unknownCoord, unknownCoord⟩

/-- `add` in words. There is no outcome if a step overflows. -/
def addChecked (base d : SourcePoint) : Option SourcePoint := do
  let line ← absoluteChecked base.line d.line
  if d.line = 1 then
    return ⟨line, ← absoluteChecked base.column d.column, ← absoluteChecked base.byte d.byte⟩
  else return ⟨line, unknownCoord, unknownCoord⟩

theorem wordSub?_of_fits {x y : Int32} (low : -0x80000000 ≤ x.toInt - y.toInt)
    (high : x.toInt - y.toInt < 0x80000000) :
    wordSub? x y = some (Int32.ofInt (x.toInt - y.toInt)) := by
  have fits : x.toBitVec.ssubOverflow y.toBitVec = false := by
    simp only [BitVec.ssubOverflow, Int32.toInt_toBitVec, Bool.or_eq_false_iff,
      decide_eq_false_iff_not]
    omega
  rw [wordSub?, fits, Int32.ofInt_sub, Int32.ofInt_toInt, Int32.ofInt_toInt]
  rfl

theorem wordAdd?_of_fits {x y : Int32} (low : -0x80000000 ≤ x.toInt + y.toInt)
    (high : x.toInt + y.toInt < 0x80000000) :
    wordAdd? x y = some (Int32.ofInt (x.toInt + y.toInt)) := by
  have fits : x.toBitVec.saddOverflow y.toBitVec = false := by
    simp only [BitVec.saddOverflow, Int32.toInt_toBitVec, Bool.or_eq_false_iff,
      decide_eq_false_iff_not]
    omega
  rw [wordAdd?, fits, Int32.ofInt_add, Int32.ofInt_toInt, Int32.ofInt_toInt]
  rfl

/-- The distance of positive coordinates and the count from 1 fit into words. -/
theorem run_relativeChecked (base x : Int32) :
    (relativeChecked base x).run = some (relative? base x) := by
  rw [relativeChecked]
  split_ifs with known
  · have lowBase := toInt_pos known.1
    have highBase := Int32.toInt_lt base
    have low := toInt_pos known.2
    have high := Int32.toInt_lt x
    have gap := toInt_gap known.1 known.2
    have counts : wordAdd? (Int32.ofInt (x.toInt - base.toInt)) 1 =
        some (Int32.ofInt (x.toInt - base.toInt + 1)) := by
      rw [wordAdd?_of_fits, gap, Int32.toInt_one] <;> rw [gap, Int32.toInt_one] <;> omega
    have inFront : 0 < Int32.ofInt (x.toInt - base.toInt + 1) ↔ base ≤ x := by
      rw [Int32.lt_iff_toInt_lt, toInt_distance known.1 known.2, Int32.toInt_zero,
        Int32.le_iff_toInt_le]
      omega
    rw [wordSub?_of_fits (by omega) (by omega), Option.bind_eq_bind, Option.bind_some, counts,
      relative?_of_known known.1 known.2]
    simp only [← inFront]
    change (if _ then pure _ else failure : OptionT Option Int32).run = _
    split_ifs <;> rfl
  · rw [relative?_of_unknown known]
    rfl

/-- Counting back from the base stays within words. -/
theorem absoluteChecked_of_relative? (h : relative? base x = some d) :
    absoluteChecked base d = some (absolute base d) := by
  rw [absolute_of_relative? h, absoluteChecked, knownCoord]
  obtain ⟨unknown, rfl⟩ | ⟨known, positive, value⟩ := relative?_cases h
  · rw [if_neg unknown, if_neg fun both => not_pos_unknownCoord both.2]
  · have low := toInt_pos known.1
    have high := Int32.toInt_lt x
    have place := toInt_pos positive
    have steps : wordSub? d 1 = some (Int32.ofInt (x.toInt - base.toInt)) := by
      rw [wordSub?_of_fits, Int32.toInt_one, value, Int.add_sub_cancel] <;>
        rw [Int32.toInt_one] <;> omega
    have gap := toInt_gap known.1 known.2
    have back : wordAdd? base (Int32.ofInt (x.toInt - base.toInt)) = some x := by
      rw [wordAdd?_of_fits, gap, Int.add_comm, Int.sub_add_cancel, Int32.ofInt_toInt] <;>
        rw [gap] <;> omega
    rw [if_pos ⟨known.1, positive⟩, if_pos known, steps]
    exact back

/-- No step of `diff?` overflows. -/
theorem run_diffChecked (b p : SourcePoint) : (b.diffChecked p).run = some (b.diff? p) := by
  rw [diffChecked, diff?, OptionT.run_bind, run_relativeChecked]
  cases relative? b.line p.line with
  | none => rfl
  | some line =>
    by_cases first : line = 1
    · simp only [first, if_true, Option.elimM, Option.bind_eq_bind, Option.bind_some,
        OptionT.run_bind, run_relativeChecked, Option.elim]
      cases relative? b.column p.column <;> cases relative? b.byte p.byte <;> rfl
    · simp [first, Option.elimM]

/-- No step of `add` overflows where a relative point is taken back. -/
theorem addChecked_of_diff? (h : b.diff? p = some q) : b.addChecked q = some (b.add q) := by
  by_cases here : 0 < b.line ∧ p.line = b.line
  · obtain ⟨known, same⟩ := here
    have line := absoluteChecked_of_relative? (relative?_line_of_sameLine known same)
    rw [diff?_of_sameLine known same] at h
    cases column : relative? b.column p.column <;> cases byte : relative? b.byte p.byte <;>
      rw [column, byte] at h <;> cases h
    rw [addChecked, add, line]
    simp [absoluteChecked_of_relative? column, absoluteChecked_of_relative? byte]
  · rw [diff?_of_otherLine here, Option.map_eq_some_iff] at h
    obtain ⟨line, relative, rfl⟩ := h
    have elsewhere : ¬line = 1 := mt (relative?_eq_one_iff relative).mp here
    rw [addChecked, add, absoluteChecked_of_relative? relative]
    simp [elsewhere]

end SourcePoint

namespace SourceRef

variable {base rel d : SourceRef}

/-- The reference begins or ends before the begin of `base`. -/
def IsBefore (rel base : SourceRef) : Prop :=
  rel.start.IsBefore base.start ∨ rel.stop.IsBefore base.start

instance (rel base : SourceRef) : Decidable (rel.IsBefore base) :=
  inferInstanceAs (Decidable (_ ∨ _))

/-- What a reference relative to `base` keeps of `rel`. -/
def knownFrom (base rel : SourceRef) : SourceRef :=
  ⟨base.start.knownFrom rel.start, base.start.knownFrom rel.stop⟩

/-- `diff?` in words. There is no outcome at all if a step overflows. -/
def diffChecked (base rel : SourceRef) : OptionT Option SourceRef := do
  return ⟨← base.start.diffChecked rel.start, ← base.start.diffChecked rel.stop⟩

/-- `add` in words. There is no outcome if a step overflows. -/
def addChecked (base rel : SourceRef) : Option SourceRef := do
  return ⟨← base.start.addChecked rel.start, ← base.start.addChecked rel.stop⟩

theorem diff?_eq_some_iff :
    base.diff? rel = some d ↔
      base.start.diff? rel.start = some d.start ∧ base.start.diff? rel.stop = some d.stop := by
  obtain ⟨start, stop⟩ := d
  rw [diff?]
  cases base.start.diff? rel.start <;> cases base.start.diff? rel.stop <;> simp

theorem diff?_eq_none_iff : base.diff? rel = none ↔ rel.IsBefore base := by
  rw [IsBefore, ← SourcePoint.diff?_eq_none_iff, ← SourcePoint.diff?_eq_none_iff, diff?]
  cases base.start.diff? rel.start <;> cases base.start.diff? rel.stop <;> simp

theorem add_of_diff? (h : base.diff? rel = some d) : base.add d = base.knownFrom rel := by
  obtain ⟨start, stop⟩ := diff?_eq_some_iff.mp h
  rw [add, knownFrom, SourcePoint.add_of_diff? start, SourcePoint.add_of_diff? stop]

/-- What has been taken back has the same relative reference. -/
theorem diff?_add_of_diff? (h : base.diff? rel = some d) : base.diff? (base.add d) = some d := by
  rw [add_of_diff? h, diff?_eq_some_iff, knownFrom, SourcePoint.diff?_knownFrom,
    SourcePoint.diff?_knownFrom]
  exact diff?_eq_some_iff.mp h

theorem run_diffChecked (base rel : SourceRef) :
    (base.diffChecked rel).run = some (base.diff? rel) := by
  rw [diffChecked, diff?]
  simp only [OptionT.run_bind, SourcePoint.run_diffChecked, Option.elimM, Option.bind_eq_bind,
    Option.bind_some]
  cases base.start.diff? rel.start <;> cases base.start.diff? rel.stop <;> rfl

theorem addChecked_of_diff? (h : base.diff? rel = some d) :
    base.addChecked d = some (base.add d) := by
  obtain ⟨start, stop⟩ := diff?_eq_some_iff.mp h
  rw [addChecked, add, SourcePoint.addChecked_of_diff? start, SourcePoint.addChecked_of_diff? stop]
  rfl

/-- A reference has a relative one unless it begins or ends before the base. Taken back, it is the
same as far as it is known from the base, and has the same relative reference. No step on the way
overflows. -/
theorem relative_inverts (base rel : SourceRef) :
    (base.diff? rel = none ↔ rel.IsBefore base) ∧
      (base.diffChecked rel).run = some (base.diff? rel) ∧
      (¬rel.IsBefore base → ∃ d, base.diff? rel = some d ∧
        base.add d = base.knownFrom rel ∧ base.addChecked d = some (base.add d) ∧
        base.diff? (base.add d) = some d ∧
        (base.diffChecked (base.add d)).run = some (some d)) := by
  refine ⟨diff?_eq_none_iff, run_diffChecked base rel, fun within => ?_⟩
  obtain ⟨d, relative⟩ := Option.ne_none_iff_exists'.mp (mt diff?_eq_none_iff.mp within)
  have again := diff?_add_of_diff? relative
  exact ⟨d, relative, add_of_diff? relative, addChecked_of_diff? relative, again,
    again ▸ run_diffChecked base (base.add d)⟩

/-- A reference that ends on another line than the base begins, at the last line there is. -/
def farEnd : SourceRef := ⟨⟨3, 7, -5⟩, ⟨0x7fffffff, 9, 9⟩⟩

/-- The end on another line comes back without column and byte. -/
theorem relative_inverts_farEnd :
    ¬farEnd.IsBefore (span 3 1 8 2) ∧
      ∃ d, (span 3 1 8 2).diff? farEnd = some d ∧
        (span 3 1 8 2).add d =
          ⟨⟨3, 7, unknownCoord⟩, ⟨0x7fffffff, unknownCoord, unknownCoord⟩⟩ := by
  have within : ¬farEnd.IsBefore (span 3 1 8 2) := by decide
  obtain ⟨d, relative, back, -⟩ := (relative_inverts (span 3 1 8 2) farEnd).2.2 within
  exact ⟨within, d, relative, back.trans (by decide)⟩

end SourceRef

end EngineLink
