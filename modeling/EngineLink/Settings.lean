import EngineLink.Text.Blank
import EngineLink.Text.Decimal
import EngineLink.Value.Limits

/-!
# Settings of a session

## Main definitions

* `Interval` — a span of time
* `Settings` — the settings, with their defaults
* `Settings.ofEnvironment` — the settings that environment variables give
-/

namespace EngineLink

/-- A span of time. -/
structure Interval where
  seconds : Nat
  /-- The rest in billionths of a second, less than one second. -/
  nanos : Nat
  deriving DecidableEq, Repr

namespace Interval

/-- Billionths of a second in a second. -/
def nanosPerSecond : Nat := 1000000000

/-- A number of thousandths of a second. -/
def ofMillis (ms : Nat) : Interval := ⟨ms / 1000, ms % 1000 * 1000000⟩

/-- The names of the parts in documents. -/
def names : List String := ["secs", "nanos"]

/-- Only documents that name nothing but the two parts are accepted. A rest of a second or more is
carried over, as long as the seconds fit into 64 bits. -/
instance : JsonForm Interval where
  toJson i := .obj [("secs", toJson i.seconds), ("nanos", toJson i.nanos)]
  ofInput? x := do
    let fields ← x.record? names
    if !fields.all (fun (name, _) => names.contains name) then none
    let seconds : UInt64 ← fields.get? "secs"
    let nanos : UInt32 ← fields.get? "nanos"
    let total := seconds.toNat + nanos.toNat / nanosPerSecond
    if total < 0x10000000000000000 then some ⟨total, nanos.toNat % nanosPerSecond⟩ else none

end Interval

/-- The settings of a session. -/
structure Settings where
  /-- How many bytes of console output are kept back before they are sent. -/
  stdoutBuffer : Nat := 8192
  /-- How often plugins run while the engine waits for a client. -/
  idleInterval : Interval := .ofMillis 50
  limits : Limits := {}
  deriving DecidableEq, Repr

namespace Settings

/-- The size that a text stands for: a natural number of at most 64 bits. -/
def parseSize? (s : String) : Option Nat := (Text.natural? s).filter (· < 0x10000000000000000)

/-- The size in a variable, or the default if it is not set or stands for none. -/
def sizeOr (lookup : String → Option String) (key : String) (default : Nat) : Nat :=
  ((lookup key).bind fun s => parseSize? (Text.trim s)).getD default

/-- The settings that environment variables give. -/
def ofEnvironment (lookup : String → Option String) : Settings :=
  let d : Settings := {}
  { stdoutBuffer := sizeOr lookup "RJ_STDOUT_BUFFER" d.stdoutBuffer
    idleInterval := .ofMillis (sizeOr lookup "RJ_IDLE_INTERVAL_MS" 50)
    limits :=
      { maxDepth := sizeOr lookup "RJ_MAX_DEPTH" d.limits.maxDepth
        maxList := sizeOr lookup "RJ_MAX_LIST_LENGTH" d.limits.maxList
        maxEnv := sizeOr lookup "RJ_MAX_ENV_LENGTH" d.limits.maxEnv } }

instance : JsonForm Settings where
  toJson s := .obj [("stdout_buffer_size", toJson s.stdoutBuffer),
    ("idle_interval", toJson s.idleInterval), ("limits", toJson s.limits)]
  ofInput? x := do
    let fields ← x.record? ["stdout_buffer_size", "idle_interval", "limits"]
    some ⟨← fields.get? "stdout_buffer_size", ← fields.get? "idle_interval",
      ← fields.get? "limits"⟩

end Settings

end EngineLink
