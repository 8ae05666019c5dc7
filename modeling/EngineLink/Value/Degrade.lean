import EngineLink.Value.Basic
import EngineLink.Value.Limits

/-!
# Values within the limits

A value that nests too deep, or an environment that is too large, is sent as a reference in its
place.

## Main definitions

* `Value.degrade` — the value with references for everything beyond the limits
-/

namespace EngineLink.Value

mutual

/-- The value, met at depth `depth`, with a reference in place of every value that could nest
others below the deepest level and of every environment with too many bindings. -/
def degradeAt (L : Limits) (depth : Nat) : Value → Value
  | v@(vector cls store names attrs) =>
    if L.maxDepth < depth then v.placeholder
    else vector cls store names (degradeAttrs L (depth + 1) attrs)
  | v@(array cls store dim dimnames attrs) =>
    if L.maxDepth < depth then v.placeholder
    else array cls store dim dimnames (degradeAttrs L (depth + 1) attrs)
  | v@(list cls elements names attrs) =>
    if L.maxDepth < depth then v.placeholder
    else list cls (degradeList L (depth + 1) elements) names (degradeAttrs L (depth + 1) attrs)
  | v@(dataFrame cls columns columnNames rowCount rowNames attrs) =>
    if L.maxDepth < depth then v.placeholder
    else dataFrame cls (degradeList L (depth + 1) columns) columnNames rowCount rowNames
      (degradeAttrs L (depth + 1) attrs)
  | v@(environment name handle bindings) =>
    if L.maxDepth < depth ∨ L.maxEnv < bindings.length then v.placeholder
    else environment name handle (degradePairs L (depth + 1) bindings)
  | v@(object cls slots) =>
    if L.maxDepth < depth then v.placeholder
    else object cls (degradePairs L (depth + 1) slots)
  | null => null
  | missing => missing
  | function header => function header
  | reference handle cls => reference handle cls
  | other cls => other cls

/-- `degradeAt` of each value. -/
def degradeList (L : Limits) (depth : Nat) : List Value → List Value
  | [] => []
  | v :: vs => v.degradeAt L depth :: degradeList L depth vs

/-- `degradeAt` of each named value. -/
def degradePairs (L : Limits) (depth : Nat) : List (String × Value) → List (String × Value)
  | [] => []
  | (n, v) :: rest => (n, v.degradeAt L depth) :: degradePairs L depth rest

/-- `degradeAt` of each attribute. -/
def degradeAttrs (L : Limits) (depth : Nat) :
    Option (List (String × Value)) → Option (List (String × Value))
  | none => none
  | some as => some (degradePairs L depth as)

end

/-- The value with references for everything beyond the limits. -/
def degrade (L : Limits) (v : Value) : Value := v.degradeAt L 0

end EngineLink.Value
