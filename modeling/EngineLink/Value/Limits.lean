import EngineLink.Json.Basic

/-!
# Limits and modes of the value format

## Main definitions

* `Limits` — bounds on depth and size of one value on the wire
* `Coding` — whether stores travel with their payload
-/

namespace EngineLink

/-- Bounds on one encoded or decoded value. -/
structure Limits where
  /-- The deepest level at which a value may nest others; the outermost value is at level 0. -/
  maxDepth : Nat := 128
  /-- The most entries of a list, a data frame, a set of slots or of attributes. -/
  maxList : Nat := 10000
  /-- The most bindings of an environment. -/
  maxEnv : Nat := 10000
  deriving DecidableEq, Repr, Inhabited

instance : JsonForm Limits where
  toJson l := .obj [("max_depth", toJson l.maxDepth), ("max_list_length", toJson l.maxList),
    ("max_env_length", toJson l.maxEnv)]
  ofInput? x := do
    let fields ← x.record? ["max_depth", "max_list_length", "max_env_length"]
    some ⟨← fields.get? "max_depth", ← fields.get? "max_list_length",
      ← fields.get? "max_env_length"⟩

/-- Whether stores travel with their payload. -/
inductive Coding where
  /-- Stores travel with all their elements. -/
  | full
  /-- Only the shape of each store travels. -/
  | shape
  deriving DecidableEq, Repr, Inhabited

namespace Coding

/-- The first byte of a value in the given mode. -/
def tag : Coding → UInt8
  | full => 0
  | shape => 1

/-- The mode that a byte stands for. -/
def ofTag? (tag : UInt8) : Option Coding := [full, shape].find? (·.tag == tag)

@[simp] theorem ofTag?_tag (c : Coding) : ofTag? c.tag = some c := by cases c <;> decide

instance : JsonForm Coding :=
  .ofWords (fun | full => "full" | shape => "struct_only") [full, shape]

end Coding

end EngineLink
