/-!
# Buffered console output

Console output is collected until it would grow beyond the capacity of the buffer or something else
has to be sent.

## Main definitions

* `OutputBuffer` — collected text and its bound
* `OutputBuffer.push` — add a text, giving the chunks that have to be sent now
* `OutputBuffer.take` — take out what has been collected
-/

namespace EngineLink

/-- Collected console output. Sizes are counted in bytes. -/
structure OutputBuffer where
  text : String := ""
  /-- The largest size of the collected text, at least one byte. -/
  capacity : Nat
  deriving DecidableEq, Repr

namespace OutputBuffer

/-- An empty buffer for at least one byte. -/
def ofCapacity (capacity : Nat) : OutputBuffer := ⟨"", max capacity 1⟩

/-- Whether nothing has been collected. -/
def isEmpty (b : OutputBuffer) : Bool := b.text.isEmpty

/-- Take out what has been collected, if it is anything. -/
def take (b : OutputBuffer) : Option String × OutputBuffer :=
  if b.isEmpty then (none, b) else (some b.text, { b with text := "" })

/-- Add a text. What has been collected goes out first if there is no room for the text behind it.
A text that is larger than the whole buffer is a chunk of its own. -/
def push (b : OutputBuffer) (text : String) : List String × OutputBuffer :=
  let (flushed, b) :=
    if b.capacity < b.text.utf8ByteSize + text.utf8ByteSize then b.take else (none, b)
  if b.capacity < text.utf8ByteSize then (flushed.toList ++ [text], b)
  else (flushed.toList, { b with text := b.text ++ text })

end OutputBuffer

end EngineLink
