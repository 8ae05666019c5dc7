import EngineLink.Wire.Primitive

/-!
# Reading back what was written

A reader reads a byte string as a value if it consumes exactly these bytes and gives the value,
whatever follows. Readers that are composed read what the writers of their parts have put one behind
the other. A count is checked against the bytes that are left, so that a counted field is read back
only together with the elements behind its count.

## Main definitions

* `Reader.Reads` — a reader reads bytes as a value
* `Reader.ReadsBack` — a reader reads what a writer has written
* `Wire.Fits` — lengths that a signed 32-bit count holds

## Main results

* `Reader.Reads.bind`, `Reader.Reads.times` — composed readers
* `Wire.reads_getU32`, `Wire.reads_getText` and the like — each primitive field is read back
* `Wire.reads_counted` — so is a counted sequence whose elements are read back
-/

namespace EngineLink

/-- A sequence of two steps succeeds if both do. -/
theorem bind_eq_ok {ε α β : Type} {x : Except ε α} {f : α → Except ε β} {y : β} :
    (x >>= f) = .ok y ↔ ∃ a, x = .ok a ∧ f a = .ok y := by
  cases x <;> simp [bind, Except.bind]

namespace Reader

variable {α β : Type} {r : Reader α} {f : α → Reader β} {a b : Bytes} {x : α} {y : β}

/-- The reader consumes exactly the given bytes and gives the value, whatever follows. -/
def Reads (r : Reader α) (bytes : Bytes) (x : α) : Prop :=
  ∀ rest, r (bytes ++ rest) = .ok (x, rest)

namespace Reads

theorem of_pure (x : α) : (pure x : Reader α).Reads [] x := fun _ => rfl

theorem bind (h : r.Reads a x) (h' : (f x).Reads b y) : (r >>= f).Reads (a ++ b) y := by
  intro rest
  show (do let p ← r (a ++ b ++ rest); f p.1 p.2) = _
  rw [List.append_assoc, h (b ++ rest)]
  exact h' rest

/-- What comes after a value that is read starts behind its bytes, whatever comes of it. -/
theorem bind_apply (h : r.Reads a x) (f : α → Reader β) (rest : Bytes) :
    (r >>= f) (a ++ rest) = f x rest := by
  show (do let p ← r (a ++ rest); f p.1 p.2) = _
  rw [h rest]
  rfl

/-- What consumes nothing more only changes the value. -/
theorem bind_nil (h : r.Reads a x) (h' : (f x).Reads [] y) : (r >>= f).Reads a y := by
  rw [← List.append_nil a]
  exact h.bind h'

/-- The last part of a record. -/
theorem bind_pure (h : r.Reads a x) (g : α → β) : (r >>= fun x => pure (g x)).Reads a (g x) :=
  h.bind_nil (.of_pure (g x))

theorem map (h : r.Reads a x) (g : α → β) : (g <$> r).Reads a (g x) := by
  intro rest
  show (do let p ← r (a ++ rest); pure (g p.1, p.2)) = _
  rw [h rest]
  rfl

/-- What is read back with anything behind it is read back as a whole. -/
theorem all (h : r.Reads a x) : r.all a = .ok x := by
  have whole := h []
  rw [List.append_nil] at whole
  simp only [Reader.all, whole]

theorem times {put : α → Bytes} {xs : List α} (h : ∀ x ∈ xs, r.Reads (put x) x) :
    (r.times xs.length).Reads (xs.flatMap put) xs := by
  induction xs with
  | nil => exact .of_pure []
  | cons x xs ih =>
    rw [List.forall_mem_cons] at h
    exact h.1.bind ((ih h.2).bind_pure _)

/-- A sequence of what is always read back. -/
theorem times_of {put : α → Bytes} (xs : List α) (h : ∀ x, r.Reads (put x) x) :
    (r.times xs.length).Reads (xs.flatMap put) xs :=
  times fun x _ => h x

theorem onlyIf {put : α → Bytes} {o : Option α} (h : ∀ x ∈ o, r.Reads (put x) x) :
    (r.onlyIf o.isSome).Reads ((o.map put).getD []) o := by
  cases o with
  | none => exact .of_pure none
  | some x => exact (h x rfl).map some

end Reads

/-- What is refused at the end of the input takes at least one byte. -/
theorem length_pos_of_reads {refusal : Refusal} (h : r.Reads a x) (empty : r [] = .error refusal) :
    0 < a.length := by
  cases a with
  | cons => exact Nat.succ_pos _
  | nil =>
    have nothing := h []
    rw [List.append_nil, empty] at nothing
    cases nothing

/-- Writing succeeds, and what is written is read as the value. -/
def ReadsBack (r : Reader α) (written : Except WireFault Bytes) (x : α) : Prop :=
  ∃ bytes, written = .ok bytes ∧ r.Reads bytes x

/-- A check for bytes passes if what is read next takes that many. -/
theorem reads_need_bind {f : Unit → Reader β} {n : Nat} (enough : n ≤ b.length)
    (h : (f ()).Reads b y) : (need n >>= f).Reads b y := by
  intro rest
  have held : ¬ (b ++ rest).length < n := by
    rw [List.length_append]
    omega
  show (do let p ← need n (b ++ rest); f p.1 p.2) = _
  rw [need, if_neg held]
  exact h rest

theorem reads_take (bytes : Bytes) : (take bytes.length).Reads bytes bytes := by
  intro rest
  have enough : ¬ (bytes ++ rest).length < bytes.length := by simp
  rw [take, if_neg enough, List.take_left, List.drop_left]

end Reader

namespace Wire

open Reader

/-! ### Fixed-width numbers -/

theorem joinU32_shiftRight (x : UInt32) :
    joinU32 (x >>> 24).toUInt8 (x >>> 16).toUInt8 (x >>> 8).toUInt8 x.toUInt8 = x := by
  apply UInt32.toBitVec_inj.mp
  apply BitVec.eq_of_getLsbD_eq
  intro i inside
  -- Bit `i` is in the byte that is shifted to it, and beyond the ends of the other ones.
  simp only [joinU32, UInt32.toBitVec_or, UInt32.toBitVec_shiftLeft, UInt32.toBitVec_shiftRight,
    UInt8.toBitVec_toUInt32, UInt32.toBitVec_toUInt8, BitVec.getLsbD_or]
  simp [BitVec.getLsbD_setWidth]
  grind

theorem putU32_joinU32 (a b c d : UInt8) : putU32 (joinU32 a b c d) = [a, b, c, d] := by
  have bytes : ∀ x y : UInt8, (∀ i < 8, x.toBitVec.getLsbD i = y.toBitVec.getLsbD i) → x = y :=
    fun x y h => UInt8.toBitVec_inj.mp (BitVec.eq_of_getLsbD_eq h)
  simp only [putU32, List.cons.injEq, and_true]
  -- Bit `i` of each byte is a bit of the word, and there the other bytes have been shifted away.
  refine ⟨bytes _ _ ?_, bytes _ _ ?_, bytes _ _ ?_, bytes _ _ ?_⟩
  all_goals
    intro i inside
    simp only [joinU32, UInt32.toBitVec_or, UInt32.toBitVec_shiftLeft, UInt32.toBitVec_shiftRight,
      UInt8.toBitVec_toUInt32, UInt32.toBitVec_toUInt8]
    simp [BitVec.getLsbD_setWidth, inside]
  all_goals grind

/-- The low word of a double word. -/
theorem joinU32_low (x : UInt64) :
    joinU32 (x >>> 24).toUInt8 (x >>> 16).toUInt8 (x >>> 8).toUInt8 x.toUInt8 = x.toUInt32 := by
  apply UInt32.toBitVec_inj.mp
  apply BitVec.eq_of_getLsbD_eq
  intro i inside
  simp only [joinU32, UInt32.toBitVec_or, UInt32.toBitVec_shiftLeft, UInt8.toBitVec_toUInt32,
    UInt64.toBitVec_toUInt8, UInt64.toBitVec_shiftRight, UInt64.toBitVec_toUInt32,
    BitVec.getLsbD_or]
  simp [BitVec.getLsbD_setWidth]
  grind

theorem shiftRight_32_shiftRight (x : UInt64) {n : UInt64} (small : n < 32) :
    x >>> 32 >>> n = x >>> (32 + n) := by
  have bound : n.toNat < 32 := UInt64.lt_iff_toNat_lt.mp small
  have sum : (32 + n).toNat = 32 + n.toNat := by
    rw [UInt64.toNat_add]
    exact Nat.mod_eq_of_lt (by simp; omega)
  apply UInt64.toNat_inj.mp
  rw [UInt64.toNat_shiftRight, UInt64.toNat_shiftRight, UInt64.toNat_shiftRight, sum,
    Nat.mod_eq_of_lt (by omega : n.toNat < 64), Nat.mod_eq_of_lt (by omega : 32 + n.toNat < 64)]
  exact (Nat.shiftRight_add ..).symm

/-- The high word of a double word is the low word of what is shifted down. -/
theorem joinU32_high (x : UInt64) :
    joinU32 (x >>> 56).toUInt8 (x >>> 48).toUInt8 (x >>> 40).toUInt8 (x >>> 32).toUInt8 =
      (x >>> 32).toUInt32 := by
  have low := joinU32_low (x >>> 32)
  rw [shiftRight_32_shiftRight x (n := 24) (by decide),
    shiftRight_32_shiftRight x (n := 16) (by decide),
    shiftRight_32_shiftRight x (n := 8) (by decide)] at low
  exact low

/-- A double word consists of its high and its low word. -/
theorem high_or_low (x : UInt64) :
    (x >>> 32).toUInt32.toUInt64 <<< 32 ||| x.toUInt32.toUInt64 = x := by
  apply UInt64.toBitVec_inj.mp
  apply BitVec.eq_of_getLsbD_eq
  intro i inside
  simp [BitVec.getLsbD_setWidth, -UInt64.toUInt64_toUInt32]
  grind

theorem reads_getU8 (x : UInt8) : getU8.Reads (putU8 x) x := fun _ => rfl

theorem reads_getTag {α : Type} (what : String) {ofTag? : UInt8 → Option α} {t : UInt8} {x : α}
    (h : ofTag? t = some x) : (getTag what ofTag?).Reads [t] x := by
  refine (reads_getU8 t).bind_nil ?_
  rw [h]
  exact .of_pure x

theorem reads_getBool (b : Bool) : getBool.Reads (putBool b) b := by
  cases b <;> exact (reads_getU8 _).map _

theorem reads_getU32 (x : UInt32) : getU32.Reads (putU32 x) x := by
  intro rest
  show Except.ok (joinU32 _ _ _ _, rest) = _
  rw [joinU32_shiftRight]

theorem putU32_injective : Function.Injective putU32 := by
  intro x y same
  have read := reads_getU32 x []
  rw [same, reads_getU32 y []] at read
  injection read with read
  injection read with read
  exact read.symm

theorem reads_getU64 (x : UInt64) : getU64.Reads (putU64 x) x := by
  intro rest
  show Except.ok ((joinU32 _ _ _ _).toUInt64 <<< 32 ||| (joinU32 _ _ _ _).toUInt64, rest) = _
  rw [joinU32_high, joinU32_low, high_or_low]

theorem reads_getI32 (x : Int32) : getI32.Reads (putI32 x) x := (reads_getU32 _).map _

theorem reads_getI64 (x : Int64) : getI64.Reads (putI64 x) x := (reads_getU64 _).map _

@[simp] theorem length_putU32 (x : UInt32) : (putU32 x).length = 4 := rfl

@[simp] theorem length_putU64 (x : UInt64) : (putU64 x).length = 8 := rfl

@[simp] theorem length_putI32 (x : Int32) : (putI32 x).length = 4 := rfl

@[simp] theorem length_putI64 (x : Int64) : (putI64 x).length = 8 := rfl

@[simp] theorem length_putCount (n : Nat) : (putCount n).length = 4 := rfl

/-! ### Counts -/

theorem putCount_toNat_joinU32 (a b c d : UInt8) :
    putCount (joinU32 a b c d).toNat = [a, b, c, d] := by
  rw [putCount, UInt32.ofNat_toNat, putU32_joinU32]

theorem putCount_inj {n m : Nat} (hn : n < UInt32.size) (hm : m < UInt32.size)
    (same : putCount n = putCount m) : n = m := by
  have words := congrArg UInt32.toNat (putU32_injective same)
  rwa [UInt32.toNat_ofNat', UInt32.toNat_ofNat', Nat.mod_eq_of_lt hn, Nat.mod_eq_of_lt hm] at words

/-- Counts below this bound are read as they were written. -/
def countBound : Nat := 0x80000000

/-- All of the given lengths are counts that are read as they were written. -/
def Fits (lengths : List Nat) : Prop := ∀ n ∈ lengths, n < countBound

instance (lengths : List Nat) : Decidable (Fits lengths) := by
  unfold Fits
  infer_instance

@[simp] theorem fits_nil : Fits [] := by simp [Fits]

@[simp] theorem fits_cons {n : Nat} {ns : List Nat} :
    Fits (n :: ns) ↔ n < countBound ∧ Fits ns := List.forall_mem_cons

@[simp] theorem fits_append {ns ms : List Nat} : Fits (ns ++ ms) ↔ Fits ns ∧ Fits ms :=
  List.forall_mem_append

@[simp] theorem fits_flatMap {α : Type} {xs : List α} {f : α → List Nat} :
    Fits (xs.flatMap f) ↔ ∀ x ∈ xs, Fits (f x) := by
  simp only [Fits, List.mem_flatMap]
  exact ⟨fun h x hx n hn => h n ⟨x, hx, hn⟩, fun h n ⟨x, hx, hn⟩ => h x hx n hn⟩

variable {α β : Type} {r : Reader α} {f : Nat → Reader β} {b : Bytes} {y : β} {n size : Nat}

theorem toInt_ofNat (h : n < countBound) : (UInt32.ofNat n).toInt32.toInt = n := by
  unfold countBound at h
  have small : n % 4294967296 = n := Nat.mod_eq_of_lt (by omega)
  show (UInt32.ofNat n).toBitVec.toInt = n
  rw [BitVec.toInt_eq_toNat_of_lt] <;> simp <;> omega

/-- A count that is read as it was written is checked against the bytes that are left. -/
theorem checkCount_ofNat (what : String) (size : Nat) (h : n < countBound) :
    checkCount what size (UInt32.ofNat n).toInt32 =
      need (min (n * size) maxNeed) >>= fun _ => pure n := by
  have value := toInt_ofNat h
  have natural : ¬ (UInt32.ofNat n).toInt32 < 0 := by
    rw [Int32.lt_iff_toInt_lt, value]
    simp
  have clamp : (UInt32.ofNat n).toInt32.toNatClampNeg = n := by
    show (UInt32.ofNat n).toInt32.toInt.toNat = n
    rw [value, Int.toNat_natCast]
  rw [checkCount, if_neg natural, clamp]

/-- A count is accepted if the bytes behind it hold its elements. -/
theorem reads_checkCount_bind (what : String) (h : n < countBound) (room : n * size ≤ b.length)
    (h' : (f n).Reads b y) :
    (checkCount what size (UInt32.ofNat n).toInt32 >>= f).Reads b y := by
  -- The check never asks for more than the elements take.
  rw [checkCount_ofNat what size h, bind_assoc]
  exact reads_need_bind (Nat.le_trans (Nat.min_le_left ..) room) h'

theorem reads_getCount_bind (what : String) (h : n < countBound) (room : n * size ≤ b.length)
    (h' : (f n).Reads b y) : (getCount what size >>= f).Reads (putCount n ++ b) y := by
  rw [getCount, bind_assoc]
  exact (reads_getI32 (UInt32.ofNat n).toInt32).bind (reads_checkCount_bind what h room h')

/-- A count is not taken for the mark of what is absent. -/
theorem ne_absentCount (h : n < countBound) :
    ((UInt32.ofNat n).toInt32 == absentCount) = false := by
  apply beq_false_of_ne
  intro absent
  have value := toInt_ofNat h
  rw [absent] at value
  have negative : absentCount.toInt = -1 := by decide
  omega

theorem reads_getCount?_some_bind {f : Option Nat → Reader β} (what : String) (h : n < countBound)
    (room : n * size ≤ b.length) (h' : (f (some n)).Reads b y) :
    (getCount? what size >>= f).Reads (putCount n ++ b) y := by
  rw [getCount?, bind_assoc]
  refine (reads_getI32 (UInt32.ofNat n).toInt32).bind ?_
  rw [ne_absentCount h]
  show ((some <$> checkCount what size _) >>= f).Reads b y
  rw [bind_map_left]
  exact reads_checkCount_bind what h room h'

theorem reads_getCount?_none_bind {f : Option Nat → Reader β} (what : String)
    (h' : (f none).Reads b y) :
    (getCount? what size >>= f).Reads (putI32 absentCount ++ b) y := by
  rw [getCount?, bind_assoc]
  refine (reads_getI32 absentCount).bind ?_
  rw [beq_self_eq_true, if_pos rfl, pure_bind]
  exact h'

/-- A sequence of elements that take `size` bytes or more each takes enough bytes for its count. -/
theorem room_flatMap {put : α → Bytes} {xs : List α} (h : ∀ x ∈ xs, size ≤ (put x).length) :
    xs.length * size ≤ (xs.flatMap put).length := by
  induction xs with
  | nil => simp
  | cons x xs ih =>
    rw [List.forall_mem_cons] at h
    rw [List.length_cons, List.flatMap_cons, List.length_append, Nat.succ_mul]
    have := ih h.2
    omega

/-- A counted sequence is read back if its elements are, and if none of them is smaller than the
reader takes them to be. -/
theorem reads_counted {put : α → Bytes} (what : String) {xs : List α} (h : xs.length < countBound)
    (room : ∀ x ∈ xs, size ≤ (put x).length) (elements : ∀ x ∈ xs, r.Reads (put x) x) :
    (getCount what size >>= r.times).Reads (putCount xs.length ++ xs.flatMap put) xs :=
  reads_getCount_bind what h (room_flatMap room) (.times elements)

/-! ### Byte strings and texts -/

theorem reads_getBytes {bytes : Bytes} (h : bytes.length < countBound) :
    getBytes.Reads (putBytes bytes) bytes :=
  reads_getCount_bind "bytes" h (by simp) (reads_take bytes)

@[simp] theorem length_textBytes (s : String) : (textBytes s).length = s.utf8ByteSize := by
  simp [textBytes]

@[simp] theorem textOfBytes?_textBytes (s : String) : textOfBytes? (textBytes s) = some s := by
  simp [textOfBytes?, textBytes, String.fromUTF8?, s.isValidUTF8, String.fromUTF8]

theorem reads_getTextOf (s : String) : (getTextOf s.utf8ByteSize).Reads (textBytes s) s := by
  rw [getTextOf, ← length_textBytes]
  refine (reads_take (textBytes s)).bind_nil ?_
  rw [textOfBytes?_textBytes]
  exact .of_pure s

theorem reads_getText?_some {s : String} (h : s.utf8ByteSize < countBound) :
    getText?.Reads (putText s) (some s) := by
  rw [putText, putBytes, length_textBytes]
  refine reads_getCount?_some_bind "string" h (by simp) ?_
  exact (reads_getTextOf s).map some

/-- The lengths that are written for an optional text. -/
def textLengths? (s : Option String) : List Nat := s.toList.map String.utf8ByteSize

@[simp] theorem textLengths?_some (s : String) : textLengths? (some s) = [s.utf8ByteSize] := rfl

theorem reads_getText? {s : Option String} (h : Fits (textLengths? s)) :
    getText?.Reads (putText? s) s := by
  cases s with
  | some s => exact reads_getText?_some (by simpa using h)
  | none =>
    rw [putText?, ← List.append_nil (putI32 absentCount)]
    exact reads_getCount?_none_bind "string" (.of_pure none)

theorem reads_getText {s : String} (h : s.utf8ByteSize < countBound) :
    getText.Reads (putText s) s := by
  rw [getText]
  exact (reads_getText?_some h).bind_nil (.of_pure s)

theorem le_length_putText (s : String) : 4 ≤ (putText s).length := by simp [putText, putBytes]

theorem le_length_putText? (s : Option String) : 4 ≤ (putText? s).length := by
  cases s with
  | some s => exact le_length_putText s
  | none => exact Nat.le_refl 4

/-! ### Sequences -/

/-- The lengths that are written for a sequence of optional texts. -/
def textsLengths (ss : List (Option String)) : List Nat := ss.length :: ss.flatMap textLengths?

/-- The lengths that are written for an optional sequence of optional texts. -/
def textsLengths? (ss : Option (List (Option String))) : List Nat :=
  (ss.map textsLengths).getD []

@[simp] theorem textsLengths?_some (ss : List (Option String)) :
    textsLengths? (some ss) = textsLengths ss := rfl

theorem reads_times_getText? {ss : List (Option String)} (h : Fits (ss.flatMap textLengths?)) :
    (getText?.times ss.length).Reads (ss.flatMap putText?) ss :=
  .times fun s hs => reads_getText? (fits_flatMap.mp h s hs)

theorem reads_getTexts {ss : List (Option String)} (h : Fits (textsLengths ss)) :
    getTexts.Reads (putTexts ss) ss := by
  rw [textsLengths, fits_cons, fits_flatMap] at h
  exact reads_counted "string array" h.1 (fun s _ => le_length_putText? s)
    fun s hs => reads_getText? (h.2 s hs)

theorem reads_getTexts? {ss : Option (List (Option String))} (h : Fits (textsLengths? ss)) :
    getTexts?.Reads (putTexts? ss) ss := by
  cases ss with
  | some ss =>
    rw [textsLengths?_some, textsLengths, fits_cons] at h
    exact reads_getCount?_some_bind "string array" h.1
      (room_flatMap fun s _ => le_length_putText? s) ((reads_times_getText? h.2).map some)
  | none =>
    rw [putTexts?, ← List.append_nil (putI32 absentCount)]
    exact reads_getCount?_none_bind "string array" (.of_pure none)

theorem le_length_putTexts? (ss : Option (List (Option String))) :
    4 ≤ (putTexts? ss).length := by
  cases ss with
  | some ss => simp [putTexts?, putTexts]
  | none => exact Nat.le_refl 4

theorem reads_getInts {xs : List Int32} (h : xs.length < countBound) :
    getInts.Reads (putInts xs) xs :=
  reads_counted "int array" h (fun x _ => Nat.le_of_eq (length_putI32 x).symm)
    fun x _ => reads_getI32 x

end Wire

end EngineLink
