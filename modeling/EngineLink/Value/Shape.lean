import EngineLink.Value.Basic

/-!
# The shape of a value

A value is previewed by its shape: the same tree with every store replaced by its outline.

## Main definitions

* `Value.toShape` — every store replaced by its shape, recursively
* `Value.hasShape` — whether some store in the tree is a shape
* `Value.isShape` — whether no store among the values nested as elements carries payload
-/

namespace EngineLink.Value

mutual

/-- The value with every store replaced by its shape. -/
def toShape : Value → Value
  | vector cls store names attrs => vector cls store.toShape names (toShapeAttrs attrs)
  | array cls store dim dimnames attrs =>
    array cls store.toShape dim dimnames (toShapeAttrs attrs)
  | list cls elements names attrs => list cls (toShapeList elements) names (toShapeAttrs attrs)
  | dataFrame cls columns columnNames rowCount rowNames attrs =>
    dataFrame cls (toShapeList columns) columnNames rowCount rowNames (toShapeAttrs attrs)
  | environment name handle bindings => environment name handle (toShapePairs bindings)
  | object cls slots => object cls (toShapePairs slots)
  | null => null
  | missing => missing
  | function header => function header
  | reference handle cls => reference handle cls
  | other cls => other cls

/-- `toShape` of each value. -/
def toShapeList : List Value → List Value
  | [] => []
  | v :: vs => v.toShape :: toShapeList vs

/-- `toShape` of each named value. -/
def toShapePairs : List (String × Value) → List (String × Value)
  | [] => []
  | (n, v) :: rest => (n, v.toShape) :: toShapePairs rest

/-- `toShape` of each attribute. -/
def toShapeAttrs : Option (List (String × Value)) → Option (List (String × Value))
  | none => none
  | some as => some (toShapePairs as)

end

mutual

/-- Whether any store in the tree, attributes included, is a shape. -/
def hasShape : Value → Bool
  | vector _ store _ attrs => store.isShape || hasShapeAttrs attrs
  | array _ store _ _ attrs => store.isShape || hasShapeAttrs attrs
  | list _ elements _ attrs => hasShapeList elements || hasShapeAttrs attrs
  | dataFrame _ columns _ _ _ attrs => hasShapeList columns || hasShapeAttrs attrs
  | environment _ _ bindings => hasShapePairs bindings
  | object _ slots => hasShapePairs slots
  | null | missing | function _ | reference _ _ | other _ => false

/-- `hasShape` of some value. -/
def hasShapeList : List Value → Bool
  | [] => false
  | v :: vs => v.hasShape || hasShapeList vs

/-- `hasShape` of some named value. -/
def hasShapePairs : List (String × Value) → Bool
  | [] => false
  | (_, v) :: rest => v.hasShape || hasShapePairs rest

/-- `hasShape` of some attribute. -/
def hasShapeAttrs : Option (List (String × Value)) → Bool
  | none => false
  | some as => hasShapePairs as

end

mutual

/-- Whether the store of the value, or those of all values nested in it as elements, columns,
bindings or slots, are shapes. Attributes are not looked at. -/
def isShape : Value → Bool
  | vector _ store _ _ => store.isShape
  | array _ store _ _ _ => store.isShape
  | list _ elements _ _ => isShapeList elements
  | dataFrame _ columns _ _ _ _ => isShapeList columns
  | environment _ _ bindings => isShapePairs bindings
  | object _ slots => isShapePairs slots
  | null | missing | function _ | reference _ _ | other _ => true

/-- `isShape` of every value. -/
def isShapeList : List Value → Bool
  | [] => true
  | v :: vs => v.isShape && isShapeList vs

/-- `isShape` of every named value. -/
def isShapePairs : List (String × Value) → Bool
  | [] => true
  | (_, v) :: rest => v.isShape && isShapePairs rest

end

end EngineLink.Value
