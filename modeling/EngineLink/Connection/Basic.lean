import EngineLink.ClientId
import EngineLink.Message.Stream

/-!
# Connections

A connection carries the messages of one client over a stream of bytes. Every frame gets exactly
one message back, in order, except for statuses, which get none: an acknowledgement, the result of
a call of the exchange, or the fault that made the frame unreadable.

## Main definitions

* `Reaction`, `Reaction.ofPayload` — what a frame asks for
* `Connection` — the two directions of a stream and what the connection is doing
* `Connection.transmit` — how a message is sent
* `Connection.attached`, `Connection.returned`, `Connection.read` — how it goes on
-/

namespace EngineLink

/-- What a frame asks for. -/
inductive Reaction where
  /-- A message back, without the exchange. -/
  | reply (message : Message)
  /-- A call of the exchange. -/
  | call (items : List Item)
  | ignore

/-- What a frame with some payload asks for. -/
def Reaction.ofPayload (L : Limits) (payload : Bytes) : Reaction :=
  match Message.decode L payload with
  | .error fault => reply (.status fault.status)
  | .ok .ping => reply (.status .ok)
  | .ok (.file name data) => reply (.file name data)
  | .ok (.batch b) => call b.items
  | .ok (.status _) => ignore

/-- The message that gives the result of a call. -/
def Message.ofResult : Except Status Batch → Message
  | .ok b => .batch b
  | .error s => .status s

/-- What can go wrong when a message is sent. -/
inductive SendFault where
  /-- The message has no frame. -/
  | frame (fault : StreamFault)
  /-- The stream could not be written, for the reason in the text. -/
  | write (text : String)
  deriving DecidableEq, Repr

/-- The text of a fault. -/
def SendFault.message : SendFault → String
  | frame fault => fault.message
  | write text => text

/-- Why a connection failed. -/
inductive ConnectionFault where
  /-- The announced frame is too long. -/
  | longFrame
  /-- The stream ended within a frame. -/
  | partialFrame
  /-- The stream could not be read, for the reason in the text. -/
  | read (text : String)
  /-- A message could not be sent. -/
  | send (fault : SendFault)
  /-- That the slot cannot be had could not be sent. -/
  | refuse (fault : SendFault)
  deriving DecidableEq, Repr

/-- The text of a failure of the connection to a slot. -/
def ConnectionFault.message (slot : SlotId) : ConnectionFault → String
  | longFrame => s!"failed to read from {slot.text}: {StreamFault.longFrame.message}"
  | partialFrame => s!"failed to read from {slot.text}: bytes remaining on stream"
  | read text => s!"failed to read from {slot.text}: {text}"
  | send fault => s!"failed to write to {slot.text}: {fault.message}"
  | refuse fault => fault.message

/-- How writing fails. -/
structure WriteFault where
  /-- The number of bytes that the stream still takes. -/
  room : Nat
  text : String
  deriving DecidableEq, Repr

/-- What a connection is doing. -/
inductive ConnectionPhase where
  /-- It waits to be attached to its slot. -/
  | attaching
  | reading (client : ClientId)
  /-- It waits for the result of a call. -/
  | calling (client : ClientId)
  | ended (fault : Option ConnectionFault)
  deriving DecidableEq, Repr

/-- What a connection wants of the exchange. -/
inductive ConnectionRequest where
  | call (client : ClientId) (items : List Item)
  | disconnect (client : ClientId)

/-- The two directions of a stream and what the connection is doing. -/
structure Connection where
  slot : SlotId
  limits : Limits
  phase : ConnectionPhase := .attaching
  input : FrameBuffer := {}
  /-- Whether the client has closed its direction. -/
  inputEnded : Bool := false
  /-- Why nothing more can be read. -/
  inputFault : Option String := none
  /-- All bytes that have been sent to the client. -/
  output : Bytes := []
  /-- How the next message fails to be written. -/
  outputFault : Option WriteFault := none
  deriving DecidableEq, Repr

namespace Connection

/-- Let bytes of the client arrive. -/
def receive (c : Connection) (bytes : Bytes) : Connection :=
  { c with input := { c.input with bytes := c.input.bytes ++ bytes } }

/-- End the connection of a client. -/
def stop (c : Connection) (client : ClientId) (fault : Option ConnectionFault) :
    Connection × Option ConnectionRequest :=
  ({ c with phase := .ended fault }, some (.disconnect client))

/-- Whether a message tells that the session has been stopped. -/
def tellsStop : Message → Bool
  | .status status => status.code == Status.Code.stopped
  | _ => false

/-- Send a message. It is encoded to a buffer, and the buffer is written to the stream. -/
def transmit (c : Connection) (m : Message) : Except SendFault Unit × Connection :=
  match (m.encode c.limits).run.run [], c.outputFault with
  | (.error fault, _), _ => (.error (.frame fault), c)
  | (.ok (), bytes), none => (.ok (), { c with output := c.output ++ bytes })
  | (.ok (), bytes), some fault =>
    (.error (.write fault.text), { c with output := c.output ++ bytes.take fault.room })

/-- Send a message and read on. After telling that the session has been stopped, the connection
ends. -/
def send (c : Connection) (client : ClientId) (m : Message) :
    Connection × Option ConnectionRequest :=
  match c.transmit m with
  | (.error fault, c) => c.stop client (some (.send fault))
  | (.ok (), c) =>
    if tellsStop m then c.stop client none else ({ c with phase := .reading client }, none)

/-- Go on once it is known whether the slot can be had. -/
def attached (c : Connection) : Except Status ClientId → Connection
  | .ok client => { c with phase := .reading client }
  | .error status =>
    match c.transmit (.status status) with
    | (.error fault, c) => { c with phase := .ended (some (.refuse fault)) }
    | (.ok (), c) => { c with phase := .ended none }

/-- React to a frame. -/
def react (c : Connection) (client : ClientId) (payload : Bytes) :
    Connection × Option ConnectionRequest :=
  match Reaction.ofPayload c.limits payload with
  | .reply m => c.send client m
  | .call items => ({ c with phase := .calling client }, some (.call client items))
  | .ignore => (c, none)

/-- Go on with the result of a call. -/
def returned (c : Connection) (result : Except Status Batch) :
    Connection × Option ConnectionRequest :=
  match c.phase with
  | .calling client => c.send client (.ofResult result)
  | _ => (c, none)

/-- Read the next frame, if there is one and the connection is free to. -/
def read (c : Connection) : Option (Connection × Option ConnectionRequest) :=
  match c.phase with
  | .reading client =>
    match c.input.next with
    | .payload payload input => some ({ c with input }.react client payload)
    | .tooLong => some (c.stop client (some .longFrame))
    | .wait input =>
      match c.inputFault with
      | some text => some ({ c with input }.stop client (some (.read text)))
      | none =>
        if !c.inputEnded then none
        else some ({ c with input }.stop client
          (if input.bytes.isEmpty then none else some .partialFrame))
  | _ => none

end Connection

end EngineLink
