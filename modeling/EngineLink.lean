import EngineLink.ClientId
import EngineLink.Connection.Basic
import EngineLink.Connection.Service
import EngineLink.Debug.CallStack
import EngineLink.Debug.Command
import EngineLink.Debug.Control
import EngineLink.Debug.Debugger
import EngineLink.Debug.FrameContext
import EngineLink.Debug.Installation
import EngineLink.Debug.Registry
import EngineLink.Debug.Shown
import EngineLink.Debug.SourceRef
import EngineLink.Debug.Switch
import EngineLink.Debug.Tracepoint
import EngineLink.Engine.Fault
import EngineLink.Engine.Interpreter
import EngineLink.Engine.Job
import EngineLink.Engine.Object
import EngineLink.Exchange.Basic
import EngineLink.Exchange.Coordinator
import EngineLink.Exchange.OutputBuffer
import EngineLink.Exchange.SlotTable
import EngineLink.Json.Basic
import EngineLink.Json.Number
import EngineLink.Json.Parts
import EngineLink.Json.Text
import EngineLink.Message.Document
import EngineLink.Message.Form
import EngineLink.Message.Item
import EngineLink.Message.Shown
import EngineLink.Message.Stream
import EngineLink.Number.Numeral
import EngineLink.Number.Real
import EngineLink.Number.Rounding
import EngineLink.Proofs.Connection.Conversation
import EngineLink.Proofs.Connection.Course
import EngineLink.Proofs.Connection.Ledger
import EngineLink.Proofs.Debug.Classification
import EngineLink.Proofs.Debug.Conversation
import EngineLink.Proofs.Debug.Forms
import EngineLink.Proofs.Debug.Hits
import EngineLink.Proofs.Debug.Installations
import EngineLink.Proofs.Debug.Orders
import EngineLink.Proofs.Debug.Orphans
import EngineLink.Proofs.Debug.RelativeRefs
import EngineLink.Proofs.Debug.StepControl
import EngineLink.Proofs.Debug.StepTargets
import EngineLink.Proofs.Debug.TracepointForms
import EngineLink.Proofs.Debug.Updates
import EngineLink.Proofs.Debug.Wrappers
import EngineLink.Proofs.Engine.Preview
import EngineLink.Proofs.Engine.ReadRoundTrip
import EngineLink.Proofs.Engine.Unfolding
import EngineLink.Proofs.Exchange.Accounts
import EngineLink.Proofs.Exchange.Acts
import EngineLink.Proofs.Exchange.Attendance
import EngineLink.Proofs.Exchange.Calls
import EngineLink.Proofs.Exchange.Clients
import EngineLink.Proofs.Exchange.Course
import EngineLink.Proofs.Exchange.Deals
import EngineLink.Proofs.Exchange.Deliveries
import EngineLink.Proofs.Exchange.Departure
import EngineLink.Proofs.Exchange.Ending
import EngineLink.Proofs.Exchange.EngineSide
import EngineLink.Proofs.Exchange.Mail
import EngineLink.Proofs.Exchange.Numbers
import EngineLink.Proofs.Exchange.Origins
import EngineLink.Proofs.Exchange.OutputChunks
import EngineLink.Proofs.Exchange.PrimaryOrder
import EngineLink.Proofs.Exchange.Reattach
import EngineLink.Proofs.Exchange.Renewal
import EngineLink.Proofs.Exchange.RequestOrder
import EngineLink.Proofs.Exchange.Requests
import EngineLink.Proofs.Exchange.Retries
import EngineLink.Proofs.Exchange.Run
import EngineLink.Proofs.Exchange.Sending
import EngineLink.Proofs.Exchange.Service
import EngineLink.Proofs.Exchange.Settling
import EngineLink.Proofs.Exchange.Shutdown
import EngineLink.Proofs.Exchange.Stock
import EngineLink.Proofs.Exchange.Track
import EngineLink.Proofs.Exchange.Views
import EngineLink.Proofs.Exchange.Wakeups
import EngineLink.Proofs.Message.Framing
import EngineLink.Proofs.Message.InstallationRoom
import EngineLink.Proofs.Message.RoundTrip
import EngineLink.Proofs.Message.Truncation
import EngineLink.Proofs.Session.ConsoleEnd
import EngineLink.Proofs.Session.Course
import EngineLink.Proofs.Session.Evaluations
import EngineLink.Proofs.Session.InterruptLog
import EngineLink.Proofs.Session.Interrupts
import EngineLink.Proofs.Session.Marks
import EngineLink.Proofs.Session.Outlook
import EngineLink.Proofs.Session.Preview
import EngineLink.Proofs.Session.Replies
import EngineLink.Proofs.Session.Rules
import EngineLink.Proofs.Value.Acceptance
import EngineLink.Proofs.Value.Arithmetic
import EngineLink.Proofs.Value.Decoded
import EngineLink.Proofs.Value.ListLimit
import EngineLink.Proofs.Value.Nodes
import EngineLink.Proofs.Value.Reencoding
import EngineLink.Proofs.Value.References
import EngineLink.Proofs.Value.RoundTrip
import EngineLink.Proofs.Value.ShapeOnly
import EngineLink.Proofs.Value.ShapeRoundTrip
import EngineLink.Proofs.Value.StoreRoundTrip
import EngineLink.Proofs.Value.Sums
import EngineLink.Proofs.Wire.Reads
import EngineLink.Proofs.Wire.Stable
import EngineLink.Script.Basic
import EngineLink.Script.Document
import EngineLink.Script.Evaluation
import EngineLink.Script.Interpreter
import EngineLink.Session.Basic
import EngineLink.Session.Console
import EngineLink.Session.Dispatch
import EngineLink.Session.Scenario
import EngineLink.Session.Task
import EngineLink.Settings
import EngineLink.Status
import EngineLink.Text.Affix
import EngineLink.Text.Blank
import EngineLink.Text.Decimal
import EngineLink.Text.Hex
import EngineLink.Text.Quoted
import EngineLink.Text.Shown
import EngineLink.Text.Visible
import EngineLink.Value.Arithmetic
import EngineLink.Value.Basic
import EngineLink.Value.Degrade
import EngineLink.Value.Document
import EngineLink.Value.Form
import EngineLink.Value.Limits
import EngineLink.Value.Shape
import EngineLink.Value.Shown
import EngineLink.Value.Store
import EngineLink.Value.StoreForm
import EngineLink.Wire.Fault
import EngineLink.Wire.Primitive
import EngineLink.Wire.Reader
