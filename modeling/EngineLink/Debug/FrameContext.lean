import EngineLink.Debug.SourceRef

/-!
# Details of a frame

## Main definitions

* `FrameContextRequest` — the question for the details of a frame
* `SourceType` — where the shown source text of a frame comes from
* `FrameContext` — the details of a frame
-/

namespace EngineLink

/-- The question for the details of the frame at a position. -/
structure FrameContextRequest where
  position : Int32
  deriving DecidableEq, Repr

namespace FrameContextRequest

instance : WireForm FrameContextRequest where
  put r := Wire.putI32 r.position
  get := FrameContextRequest.mk <$> Wire.getI32

instance : JsonForm FrameContextRequest where
  toJson r := .obj [("position", toJson r.position)]
  ofInput? x := do
    let fields ← x.record? ["position"]
    some ⟨← fields.get? "position"⟩

end FrameContextRequest

/-- Where the shown source text of a frame comes from. -/
inductive SourceType where
  | lines | file | srcfileLines | deparse
  deriving DecidableEq, Repr

namespace SourceType

/-- All source types. -/
def all : List SourceType := [lines, file, srcfileLines, deparse]

/-- The number that stands for a source type. -/
def code : SourceType → Int32
  | lines => 1
  | file => 2
  | srcfileLines => 3
  | deparse => 4

/-- The source type that a number stands for. -/
def ofCode? (code : Int32) : Option SourceType := all.find? (·.code == code)

@[simp] theorem ofCode?_code (t : SourceType) : ofCode? t.code = some t := by cases t <;> decide

instance : JsonForm SourceType :=
  .ofWords
    (fun
      | lines => "lines"
      | file => "file"
      | srcfileLines => "srcfile_lines"
      | deparse => "deparse")
    all

/-- The source type, or 0 if it is unknown. -/
def put? (t : Option SourceType) : Bytes := Wire.putI32 ((t.map code).getD 0)

/-- A source type, or nothing for the number 0. -/
def get? : Reader (Option SourceType) := do
  let c ← Wire.getI32
  if c = 0 then pure none
  else match ofCode? c with
    | some t => pure (some t)
    | none => Reader.fail (.unknownTag "source type" c)

end SourceType

/-- The details of a frame. -/
structure FrameContext where
  position : Int32
  call : Option String
  fileName : Option String
  fileTimestamp : Int64
  fileEncoding : Option String
  filePath : Option String
  sourceType : Option SourceType
  sourceCode : Option String
  sourceSrcref : Option SourceRef
  firstSrcref : Option SourceRef
  lastSrcref : Option SourceRef
  exprSrcref : Option SourceRef
  deriving DecidableEq, Repr

namespace FrameContext

instance : WireForm FrameContext where
  put c := Wire.putI32 c.position ++ Wire.putText? c.call ++ Wire.putText? c.fileName ++
    Wire.putI64 c.fileTimestamp ++ Wire.putText? c.fileEncoding ++ Wire.putText? c.filePath ++
    SourceType.put? c.sourceType ++ Wire.putText? c.sourceCode ++ WireForm.put c.sourceSrcref ++
    WireForm.put c.firstSrcref ++ WireForm.put c.lastSrcref ++ WireForm.put c.exprSrcref
  get := do
    let position ← Wire.getI32
    let call ← Wire.getText?
    let fileName ← Wire.getText?
    let fileTimestamp ← Wire.getI64
    let fileEncoding ← Wire.getText?
    let filePath ← Wire.getText?
    let sourceType ← SourceType.get?
    let sourceCode ← Wire.getText?
    let sourceSrcref ← WireForm.get
    let firstSrcref ← WireForm.get
    let lastSrcref ← WireForm.get
    let exprSrcref ← WireForm.get
    pure ⟨position, call, fileName, fileTimestamp, fileEncoding, filePath, sourceType, sourceCode,
      sourceSrcref, firstSrcref, lastSrcref, exprSrcref⟩

instance : JsonForm FrameContext where
  toJson c := .obj [("position", toJson c.position), ("call", toJson c.call),
    ("file_name", toJson c.fileName), ("file_timestamp", toJson c.fileTimestamp),
    ("file_encoding", toJson c.fileEncoding), ("file_path", toJson c.filePath),
    ("source_type", toJson c.sourceType), ("source_code", toJson c.sourceCode),
    ("source_srcref", toJson c.sourceSrcref), ("first_srcref", toJson c.firstSrcref),
    ("last_srcref", toJson c.lastSrcref), ("expr_srcref", toJson c.exprSrcref)]
  ofInput? x := do
    let fields ← x.record? ["position", "call", "file_name", "file_timestamp", "file_encoding",
      "file_path", "source_type", "source_code", "source_srcref", "first_srcref", "last_srcref",
      "expr_srcref"]
    some ⟨← fields.get? "position", ← fields.get? "call",
      ← fields.get? "file_name", ← fields.get? "file_timestamp",
      ← fields.get? "file_encoding", ← fields.get? "file_path",
      ← fields.get? "source_type", ← fields.get? "source_code",
      ← fields.get? "source_srcref", ← fields.get? "first_srcref",
      ← fields.get? "last_srcref", ← fields.get? "expr_srcref"⟩

end FrameContext

end EngineLink
