import EngineLink.Wire.Fault

/-!
# Reading bytes

A reader takes the bytes that are left and gives a result with the bytes that follow it, or refuses
them with a fault at the place that it has reached. Readers never look past what they consume,
except for the check that a counted field can still fit into the input.

## Main definitions

* `Bytes` — a sequence of bytes
* `Refusal` — a fault and the bytes that were left when it was met
* `Reader` — a reader of one result
* `Reader.times` — the same reader a number of times in a row
* `Reader.all` — a reader that has to use up its input
-/

namespace EngineLink

/-- A sequence of bytes. -/
abbrev Bytes := List UInt8

/-- A fault and the bytes that were left when it was met. -/
structure Refusal where
  fault : WireFault
  rest : Bytes
  deriving DecidableEq, Repr

/-- A reader consumes some bytes from the front of the input, or refuses them. -/
abbrev Reader (α : Type) := StateT Bytes (Except Refusal) α

namespace Reader

/-- Refuse the input with a fault. -/
def fail {α : Type} (fault : WireFault) : Reader α := fun input => .error ⟨fault, input⟩

/-- The number of bytes that are left. -/
def remaining : Reader Nat := fun input => .ok (input.length, input)

/-- Check that `needed` bytes are left, without consuming any. -/
def need (needed : Nat) : Reader Unit := fun input =>
  if input.length < needed then .error ⟨.endOfInput needed input.length, input⟩
  else .ok ((), input)

/-- Take exactly `n` bytes. -/
def take (n : Nat) : Reader Bytes := fun input =>
  if input.length < n then .error ⟨.endOfInput n input.length, input⟩
  else .ok (input.take n, input.drop n)

/-- Run a reader `n` times and collect its results in order. -/
def times {α : Type} (r : Reader α) : Nat → Reader (List α)
  | 0 => pure []
  | n + 1 => do
    let x ← r
    let xs ← times r n
    pure (x :: xs)

/-- Run a reader only when `present` holds. -/
def onlyIf {α : Type} (present : Bool) (r : Reader α) : Reader (Option α) :=
  if present then some <$> r else pure none

/-- Check that nothing is left. -/
def finish : Reader Unit := fun input =>
  match input with
  | [] => .ok ((), [])
  | rest => .error ⟨.trailingBytes rest.length, rest⟩

/-- The result of a reader that has to use up the whole input. -/
def all {α : Type} (r : Reader α) (input : Bytes) : Except WireFault α :=
  match r input with
  | .error refusal => .error refusal.fault
  | .ok (x, []) => .ok x
  | .ok (_, rest) => .error (.trailingBytes rest.length)

end Reader

end EngineLink
