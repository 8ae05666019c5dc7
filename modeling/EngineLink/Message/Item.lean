import EngineLink.Debug.Command
import EngineLink.Value.Degrade
import EngineLink.Value.Shape
import EngineLink.Status

/-!
# Command items and messages

Clients send requests to the engine, the engine sends output and questions to clients, and each
answered item goes back with the request that it answers.

## Main definitions

* `SlotId`, `RequestId` — channels of clients, and numbers of requests
* `DataRequest`, `ItemKind`, `Answer` — what is asked and what is answered
* `Item` — a request or a notice, with its answer once it has one
* `Batch`, `Message` — what travels in one frame
* `Message.normalize` — a message as it is after sending it
-/

namespace EngineLink

/-! ### Slots and requests -/

/-- A channel for clients. -/
abbrev SlotId := UInt32

namespace SlotId

/-- The slot of the console. -/
def primary : SlotId := 0

/-- Whether the slot is the one of the console. -/
def isPrimary (s : SlotId) : Bool := s == primary

/-- A slot as it is shown. -/
def text (s : SlotId) : String := "slot-" ++ toString s.toNat

end SlotId

/-- The number that pairs an answer with its request. -/
abbrev RequestId := UInt32

/-- A request number as it is shown. -/
def RequestId.text (id : RequestId) : String := "#" ++ toString id.toNat

/-! ### Requests -/

/-- A request for data of the engine. -/
inductive DataRequest where
  /-- Evaluate for the effects alone. -/
  | evalVoid (expr : String)
  /-- Evaluate and send the value. -/
  | evalData (expr : String)
  /-- Evaluate and send the shape of the value. -/
  | evalShape (expr : String)
  /-- Send the value of a live object. -/
  | resolveData (handle : UInt64)
  /-- Send the shape of a live object. -/
  | resolveShape (handle : UInt64)
  /-- Assign a value to the target of an assignment. -/
  | assign (target : String) (value : Value)

/-- What an item is about. -/
inductive ItemKind where
  /-- The engine asks for a line of input. -/
  | consoleRead (prompt : String) (addToHistory : Bool)
  /-- The engine writes output. -/
  | writeOut (text : String)
  /-- The engine writes errors. -/
  | writeErr (text : String)
  /-- The engine tells the user something. -/
  | notice (text : String)
  /-- A client asks for data. -/
  | data (request : DataRequest)
  /-- The engine calls the user interface of a client. -/
  | extUi (name : String) (arg : Option Value) (wait : Bool)
  /-- A debug command. -/
  | debug (command : DebugCommand)

/-- The name of a kind. -/
def ItemKind.name : ItemKind → String
  | consoleRead .. => "console_read"
  | writeOut _ => "console_write_out"
  | writeErr _ => "console_write_err"
  | notice _ => "console_message"
  | data _ => "data"
  | extUi .. => "ext_ui"
  | debug _ => "debug"

/-! ### Answers and items -/

/-- What comes back for a request. -/
inductive Answer where
  | done
  /-- A value, or the shape of one. -/
  | value (value : Value)
  | text (text : String)
  | debug (reply : DebugReply)
  | status (status : Status)

/-- A request or a notice. -/
structure Item where
  slot : SlotId
  /-- The number of the request; a notice has none. -/
  id : Option RequestId
  kind : ItemKind
  /-- The answer, once there is one. -/
  answer : Option Answer

namespace Item

/-- An item without number and answer. -/
def new (slot : SlotId) (kind : ItemKind) : Item := ⟨slot, none, kind, none⟩

/-- The item with an answer. -/
def answered (item : Item) (answer : Answer) : Item := { item with answer := some answer }

/-- Whether the item has an answer. -/
def isAnswered (item : Item) : Bool := item.answer.isSome

end Item

/-! ### Messages -/

/-- Items for one slot, and whether the engine was busy when they were sent. -/
structure Batch where
  busy : Bool
  items : List Item

/-- What travels in one frame. -/
inductive Message where
  | ping
  | status (status : Status)
  | batch (batch : Batch)
  /-- A file, which the receiver acknowledges by sending it back. -/
  | file (name : String) (data : List UInt8)

/-! ### Messages as they are after sending them -/

/-- A value with references for everything beyond the limits; a value that has a shape anywhere is
reduced to its shape. -/
def Value.normalize (L : Limits) (v : Value) : Value :=
  if v.hasShape then (v.degrade L).toShape else v.degrade L

/-- The request as it is after sending it. -/
def DataRequest.normalize (L : Limits) : DataRequest → DataRequest
  | assign target value => assign target (value.degrade L)
  | r => r

/-- The kind as it is after sending it. -/
def ItemKind.normalize (L : Limits) : ItemKind → ItemKind
  | data request => data (request.normalize L)
  | extUi name arg wait => extUi name (arg.map (·.degrade L)) wait
  | debug command => debug command.normalize
  | k => k

/-- The answer as it is after sending it. -/
def Answer.normalize (L : Limits) : Answer → Answer
  | value v => value (v.normalize L)
  | a => a

/-- The item as it is after sending it. -/
def Item.normalize (L : Limits) (item : Item) : Item :=
  { item with kind := item.kind.normalize L, answer := item.answer.map (·.normalize L) }

/-- The message as it is after sending it. -/
def Message.normalize (L : Limits) : Message → Message
  | batch b => batch { b with items := b.items.map (·.normalize L) }
  | m => m

end EngineLink
