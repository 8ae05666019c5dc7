import EngineLink.Message.Item
import EngineLink.Value.Form

/-!
# Messages on the wire

The values in a message are bounded by limits, so that all of its parts are written and read under
given limits. Values in requests travel in full; a value in an answer travels as a shape if it has
a shape anywhere.

## Main definitions

* `DataRequest.put`, `DataRequest.get` and the like for kinds, answers and items
* `Message.put`, `Message.get` — a message
* `Message.decode` — the message that makes up all of the bytes
-/

namespace EngineLink

open Wire

namespace DataRequest

/-- A request behind the byte of its operation. -/
def put (L : Limits) : DataRequest → Except WireFault Bytes
  | evalVoid expr => .ok (0x01 :: putText expr)
  | evalData expr => .ok (0x02 :: putText expr)
  | evalShape expr => .ok (0x03 :: putText expr)
  | resolveData handle => .ok (0x04 :: putU64 handle)
  | resolveShape handle => .ok (0x05 :: putU64 handle)
  | assign target value => do .ok (0x06 :: (putText target ++ (← value.put L .full)))

/-- A request behind the byte of its operation. -/
def get (L : Limits) : Reader DataRequest := do
  match ← getU8 with
  | 0x01 => evalVoid <$> getText
  | 0x02 => evalData <$> getText
  | 0x03 => evalShape <$> getText
  | 0x04 => resolveData <$> getU64
  | 0x05 => resolveShape <$> getU64
  | 0x06 => do
    let target ← getText
    let value ← Value.get L
    pure (assign target value)
  | t => Reader.fail (.unknownByte "data op" t)

end DataRequest

namespace ItemKind

/-- A kind behind its tag. -/
def put (L : Limits) : ItemKind → Except WireFault Bytes
  | consoleRead prompt addToHistory => .ok (0x01 :: (putText prompt ++ putBool addToHistory))
  | writeOut text => .ok (0x02 :: putText text)
  | writeErr text => .ok (0x03 :: putText text)
  | notice text => .ok (0x04 :: putText text)
  | data request => do .ok (0x10 :: (← request.put L))
  | extUi name arg wait => do
    let arg ← match arg with
      | some v => do .ok (putBool true ++ (← v.put L .full))
      | none => .ok (putBool false)
    .ok (0x20 :: (putText name ++ putBool wait ++ arg))
  | debug command => .ok (0x30 :: WireForm.put command)

/-- A kind behind its tag. -/
def get (L : Limits) : Reader ItemKind := do
  match ← getU8 with
  | 0x01 => do
    let prompt ← getText
    let addToHistory ← getBool
    pure (consoleRead prompt addToHistory)
  | 0x02 => writeOut <$> getText
  | 0x03 => writeErr <$> getText
  | 0x04 => notice <$> getText
  | 0x10 => data <$> DataRequest.get L
  | 0x20 => do
    let name ← getText
    let wait ← getBool
    let arg ← Reader.onlyIf (← getBool) (Value.get L)
    pure (extUi name arg wait)
  | 0x30 => debug <$> WireForm.get
  | t => Reader.fail (.unknownByte "command kind" t)

end ItemKind

namespace Answer

/-- The mode in which a value travels in an answer. -/
def coding (v : Value) : Coding := if v.hasShape then .shape else .full

/-- An answer behind its tag, or the tag of none. -/
def put? (L : Limits) : Option Answer → Except WireFault Bytes
  | none => .ok [0x00]
  | some done => .ok [0x01]
  | some (value v) => do .ok (0x02 :: (← v.put L (coding v)))
  | some (text s) => .ok (0x03 :: putText s)
  | some (debug reply) => .ok (0x04 :: WireForm.put reply)
  | some (status s) => .ok (0x05 :: WireForm.put s)

/-- An answer behind its tag, or nothing behind the tag of none. -/
def get? (L : Limits) : Reader (Option Answer) := do
  match ← getU8 with
  | 0x00 => pure none
  | 0x01 => pure (some done)
  | 0x02 => (fun v => some (value v)) <$> Value.get L
  | 0x03 => (fun s => some (text s)) <$> getText
  | 0x04 => (fun r => some (debug r)) <$> WireForm.get
  | 0x05 => (fun s => some (status s)) <$> WireForm.get
  | t => Reader.fail (.unknownByte "answer" t)

end Answer

namespace Item

/-- The number of a request as a signed word; -1 stands for none. -/
def putId (id : Option RequestId) : Bytes := putU32 (id.getD 0xFFFFFFFF)

/-- The number of a request, which must not be negative. -/
def getId : Reader (Option RequestId) := do
  let n ← getI32
  if n = -1 then pure none
  else if 0 ≤ n then pure (some n.toUInt32)
  else Reader.fail (.badLength "request id" n.toInt)

/-- An item: slot, number, kind, answer. -/
def put (L : Limits) (item : Item) : Except WireFault Bytes := do
  let kind ← item.kind.put L
  let answer ← Answer.put? L item.answer
  .ok (putU32 item.slot ++ putId item.id ++ kind ++ answer)

/-- An item: slot, number, kind, answer. -/
def get (L : Limits) : Reader Item := do
  let slot ← getU32
  let id ← getId
  let kind ← ItemKind.get L
  let answer ← Answer.get? L
  pure ⟨slot, id, kind, answer⟩

/-- One item after another. -/
def putAll (L : Limits) : List Item → Except WireFault Bytes
  | [] => .ok []
  | item :: rest => do
    let head ← item.put L
    let tail ← putAll L rest
    .ok (head ++ tail)

end Item

namespace Message

/-- A message behind its tag. -/
def put (L : Limits) : Message → Except WireFault Bytes
  | ping => .ok [0x01]
  | status s => .ok (0x02 :: WireForm.put s)
  | batch b => do
    let items ← Item.putAll L b.items
    .ok (0x03 :: (putBool b.busy ++ putCount b.items.length ++ items))
  | file name data => .ok (0x04 :: (putText name ++ putBytes data))

/-- A message behind its tag. -/
def get (L : Limits) : Reader Message := do
  match ← getU8 with
  | 0x01 => pure ping
  | 0x02 => status <$> WireForm.get
  | 0x03 => do
    let busy ← getBool
    let items ← (Item.get L).times (← getCount "command batch" 10)
    pure (batch ⟨busy, items⟩)
  | 0x04 => do
    let name ← getText
    let data ← getBytes
    pure (file name data)
  | t => Reader.fail (.unknownByte "message" t)

/-- The message that all of the bytes make up. -/
def decode (L : Limits) (payload : Bytes) : Except WireFault Message := (get L).all payload

end Message

end EngineLink
