import EngineLink.Debug.Tracepoint

/-!
# Installation of tracepoints

A client names positions at which tracepoints should be set, grouped by the elements of files, and
gets one result per position.

## Main definitions

* `SourceFile` — a file as the client knows it
* `ElementPositions`, `InstallationRequest` — the positions
* `FlagTracepoint`, `FlagInstallationRequest` — tracepoints without a position
* `InstallationResult`, `InstallationReport` — the results
* `resolvePositions` — the results for one element
-/

namespace EngineLink

/-- A file as the client saw it last. -/
structure SourceFile where
  path : Option String
  name : Option String
  /-- The time of the last change in seconds, 0 if it is not known. -/
  timestamp : Int64
  deriving DecidableEq, Repr

namespace SourceFile

/-- The text by which tracepoints are grouped: the path, else the name. -/
def key (f : SourceFile) : String := (f.path <|> f.name).getD ""

instance : WireForm SourceFile where
  put f := Wire.putText? f.path ++ Wire.putText? f.name ++ Wire.putI64 f.timestamp
  get := do
    let path ← Wire.getText?
    let name ← Wire.getText?
    let timestamp ← Wire.getI64
    pure ⟨path, name, timestamp⟩

instance : JsonForm SourceFile where
  toJson f := .obj [("path", toJson f.path), ("name", toJson f.name),
    ("timestamp", toJson f.timestamp)]
  ofInput? x := do
    let fields ← x.record? ["path", "name", "timestamp"]
    some ⟨← fields.get? "path", ← fields.get? "name",
      ← fields.get? "timestamp"⟩

end SourceFile

/-- The positions that are wanted in one element of a file. -/
structure ElementPositions where
  file : SourceFile
  elementId : String
  srcref : Option SourceRef
  positions : List TracepointPosition
  deriving DecidableEq, Repr

namespace ElementPositions

instance : WireForm ElementPositions where
  put e := WireForm.put e.file ++ Wire.putText e.elementId ++ WireForm.put e.srcref ++
    Wire.putCount e.positions.length ++ e.positions.flatMap WireForm.put
  get := do
    let file ← WireForm.get
    let elementId ← Wire.getText
    let srcref ← WireForm.get
    let n ← Wire.getCount "tracepoint positions" 20
    let positions ← Reader.times WireForm.get n
    pure ⟨file, elementId, srcref, positions⟩

instance : JsonForm ElementPositions where
  toJson e := .obj [("srcfile", toJson e.file), ("element_id", toJson e.elementId),
    ("element_srcref", toJson e.srcref), ("positions", toJson e.positions)]
  ofInput? x := do
    let fields ← x.record? ["srcfile", "element_id", "element_srcref", "positions"]
    some ⟨← fields.get? "srcfile", ← fields.get? "element_id",
      ← fields.get? "element_srcref", ← fields.get? "positions"⟩

end ElementPositions

/-- All positions that are wanted. -/
structure InstallationRequest where
  elements : List ElementPositions
  deriving DecidableEq, Repr

namespace InstallationRequest

instance : WireForm InstallationRequest where
  put r := Wire.putCount r.elements.length ++ r.elements.flatMap WireForm.put
  get := do
    let n ← Wire.getCount "installation elements" 21
    InstallationRequest.mk <$> Reader.times WireForm.get n

instance : JsonForm InstallationRequest where
  toJson r := .obj [("elements", toJson r.elements)]
  ofInput? x := do
    let fields ← x.record? ["elements"]
    some ⟨← fields.get? "elements"⟩

end InstallationRequest

/-- What became of a wanted position. -/
inductive InstallationResult where
  /-- The position does not exist in the element as it is now. -/
  | notFound
  | foundUnchanged
  /-- The position exists, but its tracepoint is disabled or unknown. -/
  | foundButUnset
  | foundAndSet
  deriving DecidableEq, Repr

namespace InstallationResult

/-- All results. -/
def all : List InstallationResult := [notFound, foundUnchanged, foundButUnset, foundAndSet]

/-- The byte that stands for a result. -/
def tag : InstallationResult → UInt8
  | notFound => 1
  | foundUnchanged => 2
  | foundButUnset => 3
  | foundAndSet => 4

/-- The result that a byte stands for. -/
def ofTag? (tag : UInt8) : Option InstallationResult := all.find? (·.tag == tag)

@[simp] theorem ofTag?_tag (r : InstallationResult) : ofTag? r.tag = some r := by
  cases r <;> decide

instance : JsonForm InstallationResult :=
  .ofWords
    (fun
      | notFound => "not_found"
      | foundUnchanged => "found_unchanged"
      | foundButUnset => "found_but_was_unset"
      | foundAndSet => "found_and_set")
    all

end InstallationResult

/-- One result per wanted position, in the order of the request. -/
structure InstallationReport where
  results : List InstallationResult
  deriving DecidableEq, Repr

namespace InstallationReport

instance : WireForm InstallationReport where
  put r := Wire.putCount r.results.length ++ r.results.map InstallationResult.tag
  get := do
    let n ← Wire.getCount "installation results" 1
    InstallationReport.mk <$>
      Reader.times (Wire.getTag "installation result" InstallationResult.ofTag?) n

instance : JsonForm InstallationReport where
  toJson r := .obj [("results", toJson r.results)]
  ofInput? x := do
    let fields ← x.record? ["results"]
    some ⟨← fields.get? "results"⟩

end InstallationReport

/-- A tracepoint without a position, such as one for exceptions. -/
structure FlagTracepoint where
  type : TracepointType
  flags : UInt32
  deriving DecidableEq, Repr

namespace FlagTracepoint

instance : WireForm FlagTracepoint where
  put t := WireForm.put t.type ++ Wire.putU32 t.flags
  get := do
    let type ← WireForm.get
    let flags ← Wire.getU32
    pure ⟨type, flags⟩

instance : JsonForm FlagTracepoint where
  toJson t := .obj [("tp_type", toJson t.type), ("flags", toJson t.flags)]
  ofInput? x := do
    let fields ← x.record? ["tp_type", "flags"]
    some ⟨← fields.get? "tp_type", ← fields.get? "flags"⟩

end FlagTracepoint

/-- The tracepoints without a position that are wanted. -/
structure FlagInstallationRequest where
  tracepoints : List FlagTracepoint
  deriving DecidableEq, Repr

namespace FlagInstallationRequest

instance : WireForm FlagInstallationRequest where
  put r := Wire.putCount r.tracepoints.length ++ r.tracepoints.flatMap WireForm.put
  get := do
    let n ← Wire.getCount "flag tracepoints" 8
    FlagInstallationRequest.mk <$> Reader.times WireForm.get n

instance : JsonForm FlagInstallationRequest where
  toJson r := .obj [("tracepoints", toJson r.tracepoints)]
  ofInput? x := do
    let fields ← x.record? ["tracepoints"]
    some ⟨← fields.get? "tracepoints"⟩

end FlagInstallationRequest

/-! ### Resolving positions -/

/-- Whether each wanted position of an element exists in the element as it is now. -/
structure LocatedElement where
  path : String
  elementId : String
  /-- The number of each wanted tracepoint, and whether its position exists. -/
  found : List (Int64 × Bool)
  deriving DecidableEq, Repr

/-- Look up the wanted positions one after another. -/
def InstallationRequest.locate {m : Type → Type} [Monad m]
    (locate : String → String → TracepointPosition → m Bool) (r : InstallationRequest) :
    m (List LocatedElement) :=
  r.elements.mapM fun e => do
    let found ← e.positions.mapM fun p => do
      return (p.id, ← locate e.file.key e.elementId p)
    return ⟨e.file.key, e.elementId, found⟩

/-- Add a number to an ascending list, unless it is there. -/
def insertId (id : Int64) : List Int64 → List Int64
  | [] => [id]
  | x :: rest =>
    if id < x then id :: x :: rest else if id = x then x :: rest else x :: insertId id rest

/-- The result for one position, given the numbers that were set before. -/
def InstallationResult.ofFound (installed : List Int64) (isEnabled : Int64 → Bool) :
    Int64 × Bool → InstallationResult
  | (_, false) => notFound
  | (id, true) =>
    if !isEnabled id then foundButUnset
    else if installed.contains id then foundUnchanged
    else foundAndSet

/-- The results for the positions of one element, and the numbers that are set afterwards: those
that were found and are enabled. -/
def resolvePositions (installed : List Int64) (found : List (Int64 × Bool))
    (isEnabled : Int64 → Bool) : List InstallationResult × List Int64 :=
  (found.map (InstallationResult.ofFound installed isEnabled),
    found.foldl (fun set (id, here) => if here && isEnabled id then insertId id set else set) [])

end EngineLink
