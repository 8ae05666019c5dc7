import EngineLink.Value.Basic
import EngineLink.Value.StoreForm

/-!
# Values on the wire

A value is written as a mode byte and a tree. Each node starts with the tag of its kind. Nodes with
optional parts have a word of option bits, and a class name where the first bit is set. The
writer puts references in place of everything beyond the limits; the reader refuses it.

## Main definitions

* `ValueKind` — the kinds of nodes and their tags
* `Value.putNode`, `Value.getNode` — a tree in a given mode
* `Value.put`, `Value.get` — a value with its mode byte, under limits
* `Value.encode`, `Value.decode` — a value that makes up all of the bytes
-/

namespace EngineLink

open Wire

/-- The kinds of nodes in a tree of values. -/
inductive ValueKind where
  | null | missing | vector | array | list | dataFrame | environment | function | object
  | reference | other
  deriving DecidableEq, Repr

namespace ValueKind

/-- All kinds. -/
def all : List ValueKind :=
  [null, missing, vector, array, list, dataFrame, environment, function, object, reference, other]

/-- The byte that stands for a kind. -/
def tag : ValueKind → UInt8
  | null => 0x01
  | missing => 0x02
  | vector => 0x10
  | array => 0x11
  | list => 0x12
  | dataFrame => 0x13
  | environment => 0x14
  | function => 0x15
  | object => 0x16
  | reference => 0x17
  | other => 0x18

/-- The kind that a byte stands for. -/
def ofTag? (tag : UInt8) : Option ValueKind := all.find? (·.tag == tag)

@[simp] theorem ofTag?_tag (k : ValueKind) : ofTag? k.tag = some k := by cases k <;> decide

/-- Whether nodes of this kind never nest others. -/
def isLeaf : ValueKind → Bool
  | null | missing | function | reference | other => true
  | _ => false

end ValueKind

/-! ### Option bits -/

namespace OptionBit

/-- A class name follows. -/
def cls : UInt32 := 1
/-- Names of the elements are given. -/
def names : UInt32 := 2
/-- Attributes are given. -/
def attrs : UInt32 := 4
/-- Names of the dimensions are given. -/
def dimnames : UInt32 := 8
/-- Names of the rows are given. -/
def rowNames : UInt32 := 16

/-- The bit, or nothing if it is not set. -/
def when (set : Bool) (bit : UInt32) : UInt32 := if set then bit else 0

/-- Whether a bit is set. -/
def isSet (options bit : UInt32) : Bool := options &&& bit != 0

end OptionBit

namespace Value

/-- The option bits with the one of the class name, and the class name. -/
def putOptions (cls : Option String) (options : UInt32) : Bytes :=
  putU32 (options ||| OptionBit.when cls.isSome OptionBit.cls) ++ (cls.map putText).getD []

/-- The option bits, and the class name if there is one. -/
def getOptions : Reader (UInt32 × Option String) := do
  let options ← getU32
  let cls ← Reader.onlyIf (OptionBit.isSet options OptionBit.cls) getText
  pure (options, cls)

/-- Names that are written only if they are there. -/
def putNames (names : Option Names) : Bytes := (names.map putTexts).getD []

/-- The names of each dimension, written only if they are there. -/
def putDimnames (dimnames : Option (List (Option Names))) : Bytes :=
  (dimnames.map fun ns => putCount ns.length ++ ns.flatMap putTexts?).getD []

/-! ### Trees -/

/-- A reference behind its tag. -/
def putReference (handle : UInt64) (cls : Option String) : Bytes :=
  ValueKind.reference.tag :: (putU64 handle ++ putText? cls)

/-- The reference that is written in place of a value. -/
def putPlaceholder (v : Value) : Bytes := putReference v.placeholderHandle (some v.className)

mutual

/-- The tree of a value that is met at depth `depth`, in a given mode. References are written in
place of values that could nest others below the deepest level, and of environments with too many
bindings. -/
def putNode (L : Limits) (mode : Coding) (depth : Nat) (v : Value) : Except WireFault Bytes :=
  if L.maxDepth < depth && !v.isLeaf then .ok v.putPlaceholder
  else match v with
  | null => .ok [ValueKind.null.tag]
  | missing => .ok [ValueKind.missing.tag]
  | vector cls store names attrs => do
    let options := OptionBit.when names.isSome OptionBit.names |||
      OptionBit.when attrs.isSome OptionBit.attrs
    let store ← store.put mode
    let attrs ← putAttrs L mode (depth + 1) attrs
    .ok (ValueKind.vector.tag :: (putOptions cls options ++ store ++ putNames names ++ attrs))
  | array cls store dim dimnames attrs => do
    let options := OptionBit.when dimnames.isSome OptionBit.dimnames |||
      OptionBit.when attrs.isSome OptionBit.attrs
    let store ← store.put mode
    let attrs ← putAttrs L mode (depth + 1) attrs
    .ok (ValueKind.array.tag ::
      (putOptions cls options ++ putInts dim ++ store ++ putDimnames dimnames ++ attrs))
  | list cls elements names attrs => do
    let options := OptionBit.when names.isSome OptionBit.names |||
      OptionBit.when attrs.isSome OptionBit.attrs
    let body ← putNodes L mode (depth + 1) elements
    let attrs ← putAttrs L mode (depth + 1) attrs
    .ok (ValueKind.list.tag ::
      (putOptions cls options ++ putCount elements.length ++ body ++ putNames names ++ attrs))
  | dataFrame cls columns columnNames rowCount rowNames attrs => do
    let options := OptionBit.when rowNames.isSome OptionBit.rowNames |||
      OptionBit.when attrs.isSome OptionBit.attrs
    let body ← putNodes L mode (depth + 1) columns
    let attrs ← putAttrs L mode (depth + 1) attrs
    .ok (ValueKind.dataFrame.tag ::
      (putOptions cls options ++ putCount columns.length ++ putCount rowCount ++
        putTexts columnNames ++ putNames rowNames ++ body ++ attrs))
  | environment name handle bindings =>
    if L.maxEnv < bindings.length then .ok v.putPlaceholder
    else do
      let body ← putPairs L mode (depth + 1) bindings
      .ok (ValueKind.environment.tag ::
        (putU64 handle ++ putText name ++ putCount bindings.length ++ body))
  | function header => .ok (ValueKind.function.tag :: putText header)
  | object cls slots => do
    let body ← putPairs L mode (depth + 1) slots
    .ok (ValueKind.object.tag :: (putText cls ++ putCount slots.length ++ body))
  | reference handle cls => .ok (putReference handle cls)
  | other cls => .ok (ValueKind.other.tag :: putText cls)

/-- One tree after another. -/
def putNodes (L : Limits) (mode : Coding) (depth : Nat) : List Value → Except WireFault Bytes
  | [] => .ok []
  | v :: vs => do
    let v ← putNode L mode depth v
    let vs ← putNodes L mode depth vs
    .ok (v ++ vs)

/-- One named tree after another. -/
def putPairs (L : Limits) (mode : Coding) (depth : Nat) :
    List (String × Value) → Except WireFault Bytes
  | [] => .ok []
  | (n, v) :: rest => do
    let v ← putNode L mode depth v
    let rest ← putPairs L mode depth rest
    .ok (putText n ++ v ++ rest)

/-- The attributes behind their number, or nothing if there are none. -/
def putAttrs (L : Limits) (mode : Coding) (depth : Nat) :
    Option (List (String × Value)) → Except WireFault Bytes
  | none => .ok []
  | some as => do
    let body ← putPairs L mode depth as
    .ok (putCount as.length ++ body)

end

/-! ### Reading trees -/

/-- A number of entries, which must be within a limit. -/
def getEntries (what : String) (limit : Nat) : Reader Nat := do
  let n ← getCount what 1
  if limit < n then Reader.fail (.overLimit what n limit) else pure n

/-- A number of named values, given the reader of a value. -/
def getPairs (child : Reader Value) (what : String) (limit : Nat) :
    Reader (List (String × Value)) := do
  let n ← getEntries what limit
  Reader.times (do return (← getText, ← child)) n

/-- The attributes, if their option bit is set. -/
def getAttrs (L : Limits) (child : Reader Value) (options : UInt32) :
    Reader (Option (List (String × Value))) :=
  Reader.onlyIf (OptionBit.isSet options OptionBit.attrs) (getPairs child "attributes" L.maxList)

/-- A node of the given kind, given the reader of the values in it. -/
def getNode (L : Limits) (mode : Coding) (child : Reader Value) : ValueKind → Reader Value
  | .null => pure null
  | .missing => pure missing
  | .vector => do
    let (options, cls) ← getOptions
    let store ← Store.get mode
    let names ← Reader.onlyIf (OptionBit.isSet options OptionBit.names) getTexts
    let attrs ← getAttrs L child options
    pure (vector cls store names attrs)
  | .array => do
    let (options, cls) ← getOptions
    let dim ← getInts
    let store ← Store.get mode
    let dimnames ← Reader.onlyIf (OptionBit.isSet options OptionBit.dimnames) do
      getTexts?.times (← getCount "dimnames" 4)
    let attrs ← getAttrs L child options
    pure (array cls store dim dimnames attrs)
  | .list => do
    let (options, cls) ← getOptions
    let elements ← child.times (← getEntries "list length" L.maxList)
    let names ← Reader.onlyIf (OptionBit.isSet options OptionBit.names) getTexts
    let attrs ← getAttrs L child options
    pure (list cls elements names attrs)
  | .dataFrame => do
    let (options, cls) ← getOptions
    let n ← getEntries "data frame columns" L.maxList
    let rowCount ← getLength "row count"
    let columnNames ← getTexts
    let rowNames ← Reader.onlyIf (OptionBit.isSet options OptionBit.rowNames) getTexts
    let columns ← child.times n
    let attrs ← getAttrs L child options
    pure (dataFrame cls columns columnNames rowCount rowNames attrs)
  | .environment => do
    let handle ← getU64
    let name ← getText
    let bindings ← getPairs child "environment length" L.maxEnv
    pure (environment name handle bindings)
  | .function => function <$> getText
  | .object => do
    let cls ← getText
    let slots ← getPairs child "S4 slots" L.maxList
    pure (object cls slots)
  | .reference => do
    let handle ← getU64
    let cls ← getText?
    pure (reference handle cls)
  | .other => other <$> getText

/-- A tree that may nest `levels` values in each other. Below the last level only leaves are
accepted. -/
def getTree (L : Limits) (mode : Coding) : Nat → Reader Value
  | 0 => do
    let t ← getU8
    match ValueKind.ofTag? t with
    | some kind =>
      if kind.isLeaf then getNode L mode (pure null) kind
      else Reader.fail (.overLimit "nesting depth" (L.maxDepth + 1) L.maxDepth)
    | none => Reader.fail (.overLimit "nesting depth" (L.maxDepth + 1) L.maxDepth)
  | levels + 1 => do
    getNode L mode (getTree L mode levels) (← getTag "value" ValueKind.ofTag?)

/-! ### Values -/

/-- A value in a given mode, with references for what is beyond the limits. -/
def put (L : Limits) (mode : Coding) (v : Value) : Except WireFault Bytes :=
  (mode.tag :: ·) <$> putNode L mode 0 v

/-- A value within the limits, in the mode that its first byte tells. -/
def get (L : Limits) : Reader Value := do
  let mode ← getTag "codec mode" Coding.ofTag?
  getTree L mode (L.maxDepth + 1)

/-- The bytes of a value. -/
def encode (L : Limits) (mode : Coding) (v : Value) : Except WireFault Bytes := v.put L mode

/-- The value that all of the bytes make up. -/
def decode (L : Limits) (bytes : Bytes) : Except WireFault Value := (get L).all bytes

end Value

end EngineLink
