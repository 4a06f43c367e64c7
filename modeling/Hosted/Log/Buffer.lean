import Hosted.Log.Emitter

/-!
# Buffers

A buffer is an output in memory that one emitter writes entries to, while anything at
all may be written past the emitter.
-/

namespace Hosted.Log

/-- A part of what is written to a buffer. -/
inductive Part where
  /-- An entry, written by the emitter. -/
  | entry (entry : Entry)
  /-- Bytes written past the emitter. -/
  | raw (bytes : List UInt8)

/-- An emitter and its output. -/
structure Buffer where
  emitter : Emitter
  output : Output

namespace Buffer

/-- An empty buffer for a run. -/
def empty (runId : String) : Buffer := ⟨{ output := 0, runId }, { kind := .memory }⟩

/-- Writes one part. -/
def write (b : Buffer) : Part → Buffer
  | .entry entry =>
    let (emitter, outputs, _) := b.emitter.emit [b.output] entry
    ⟨emitter, outputs.headD b.output⟩
  | .raw bytes => { b with output := (b.output.write bytes).1 }

/-- The output after all parts have been written in order. -/
def ofParts (runId : String) (parts : List Part) : Output :=
  (parts.foldl write (empty runId)).output

end Buffer

end Hosted.Log
