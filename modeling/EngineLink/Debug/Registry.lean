import EngineLink.Debug.Installation
import EngineLink.Engine.Fault

/-!
# The tracepoint registry

The engine keeps the states of all tracepoints and the numbers of those that are installed in each
element. A tracepoint fires where it is installed, as long as its state is there and enabled and
breakpoints are not switched off.

## Main definitions

* `Registry` — states, installations and switches
* `Registry.update`, `Registry.install`, `Registry.installFlags` — what a client can change
* `Registry.candidate?`, `Registry.fire` — a tracepoint that may fire, and firing it
-/

namespace EngineLink

/-- What the engine knows about tracepoints. -/
structure Registry where
  /-- The states in the order of their files and numbers, one for each. -/
  states : List TracepointState := []
  /-- The numbers that are installed in each element of a file. -/
  installed : List ((String × String) × List Int64) := []
  /-- The flags of the exception breakpoint, if it is installed. -/
  exceptionFlags : Option UInt32 := none
  breakpointsEnabled : Bool := true
  deriving DecidableEq, Repr

namespace Registry

/-- Whether a state is the one of a file and a number. -/
def isAt (path : String) (id : Int64) (s : TracepointState) : Bool :=
  s.filePath == path && s.id == id

/-- The state of a tracepoint. -/
def state? (r : Registry) (path : String) (id : Int64) : Option TracepointState :=
  r.states.find? (isAt path id)

/-- Whether one state comes before another by file and number. -/
def precedes (a b : TracepointState) : Bool :=
  a.filePath < b.filePath || (a.filePath == b.filePath && a.id < b.id)

/-- Put a state into the ordered list, in place of the one with the same file and number. -/
def insertState (s : TracepointState) : List TracepointState → List TracepointState
  | [] => [s]
  | t :: rest =>
    if isAt s.filePath s.id t then s :: rest
    else if precedes s t then s :: t :: rest
    else t :: insertState s rest

/-- Forget the state of a tracepoint and all its installations in its file. -/
def remove (r : Registry) (path : String) (id : Int64) : Registry :=
  { r with
    states := r.states.filter (!isAt path id ·)
    installed := r.installed.map fun (key, ids) =>
      (key, if key.1 == path then ids.filter (· != id) else ids) }

/-- Apply one entry of an update. -/
def updateState (r : Registry) (s : TracepointState) : Registry :=
  if s.type = .deleted then r.remove s.filePath s.id
  else { r with states := insertState s r.states }

/-- Apply an update. A reset forgets the states but not the installations. -/
def update (r : Registry) (u : TracepointUpdate) : Registry :=
  u.states.foldl updateState (if u.reset then { r with states := [] } else r)

/-- The numbers that are installed in an element. -/
def installedIn (r : Registry) (path elementId : String) : List Int64 :=
  (r.installed.lookup (path, elementId)).getD []

/-- Whether a tracepoint is installed in an element. -/
def isInstalled (r : Registry) (path elementId : String) (id : Int64) : Bool :=
  (r.installedIn path elementId).contains id

/-- Whether a tracepoint of a file is there and enabled. -/
def isEnabled (r : Registry) (path : String) (id : Int64) : Bool :=
  (r.state? path id).any TracepointState.isEnabled

/-- Set the numbers that are installed in an element. -/
def setInstalled (r : Registry) (path elementId : String) (ids : List Int64) : Registry :=
  { r with
    installed := ((path, elementId), ids) :: r.installed.filter (·.1 != (path, elementId)) }

/-- Install what was found of the wanted positions in one element. -/
def installElement (r : Registry) (e : LocatedElement) : List InstallationResult × Registry :=
  let (results, ids) :=
    resolvePositions (r.installedIn e.path e.elementId) e.found (r.isEnabled e.path)
  (results, r.setInstalled e.path e.elementId ids)

/-- Install what was found of the wanted positions, element by element. -/
def install (r : Registry) : List LocatedElement → List InstallationResult × Registry
  | [] => ([], r)
  | e :: rest =>
    let (results, r) := r.installElement e
    let (more, r) := r.install rest
    (results ++ more, r)

/-- Install one tracepoint without a position. Only exception breakpoints exist. -/
def installFlag (r : Registry) (t : FlagTracepoint) : InstallationResult × Registry :=
  if t.type ≠ .exceptionBreakpoint then (.notFound, r)
  else if !TracepointFlag.isSet t.flags TracepointFlag.enabled then
    (.foundButUnset, { r with exceptionFlags := none })
  else
    (if r.exceptionFlags = some t.flags then .foundUnchanged else .foundAndSet,
      { r with exceptionFlags := some t.flags })

/-- Install tracepoints without a position. -/
def installFlags (r : Registry) : List FlagTracepoint → List InstallationResult × Registry
  | [] => ([], r)
  | t :: rest =>
    let (result, r) := r.installFlag t
    let (more, r) := r.installFlags rest
    (result :: more, r)

/-! ### Hits -/

/-- The state of a tracepoint that may fire at a place in an element. -/
def candidate? (r : Registry) (path elementId : String) (id : Int64) : Option TracepointState := do
  if !r.isInstalled path elementId id then none
  let s ← r.state? path id
  if !s.isEnabled || (s.type.isBreakpoint && !r.breakpointsEnabled) then none
  some s

/-- The flag that records why a condition could not be decided. -/
def failureFlag : EvalFault → UInt32
  | .parse _ => TracepointFlag.conditionInvalid
  | _ => TracepointFlag.conditionFailed

/-- Fire a tracepoint. A condition that could not be decided is recorded in the flags of the state
and in the event. A temporary tracepoint is removed. -/
def fire (r : Registry) (s : TracepointState) (failure : Option EvalFault) :
    TracepointEvent × Registry :=
  let s := match failure with
    | some fault => { s with flags := s.flags ||| failureFlag fault }
    | none => s
  let r := { r with states := insertState s r.states }
  let event : TracepointEvent :=
    ⟨.aboutToHit, s.type, some s.filePath, s.id, s.elementLabel, s.flags,
      failure.map EvalFault.message⟩
  (event, if s.isTemporary then r.remove s.filePath s.id else r)

end Registry

end EngineLink
