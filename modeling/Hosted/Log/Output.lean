import Hosted.Text.Utf8
import Hosted.Text.Lines
import Hosted.Log.Reader

/-!
# Outputs

Where log lines go. An output in memory may have room for a limited number of
bytes; it keeps what still fits of a write and refuses the rest.
-/

namespace Hosted.Log

/-- The kinds of output. -/
inductive OutputKind where
  | memory
  | standardError
  | file (name : String)
  /-- A device that keeps nothing of what is written to it. -/
  | device
  deriving DecidableEq, Repr

/-- An output with what was written to it and, if it is bounded, the room left. -/
structure Output where
  kind : OutputKind
  /-- The bytes that each write added, the newest first. -/
  writes : List (List UInt8) := []
  room : Option Nat := none
  deriving DecidableEq, Repr

namespace Output

/-- Writes bytes. Answers whether all of them were accepted. -/
def write (o : Output) (bytes : List UInt8) : Output × Bool :=
  match o.room with
  | none => ({ o with writes := bytes :: o.writes }, true)
  | some n =>
    ({ o with writes := bytes.take n :: o.writes, room := some (n - bytes.length) },
      bytes.length ≤ n)

/-- An output can be flushed while it has room. -/
def canFlush (o : Output) : Bool := o.room ≠ some 0

/-- All bytes written, in order. -/
def bytes (o : Output) : List UInt8 := o.writes.reverse.flatten

/-- The bytes added by the writes after the first `n`. -/
def bytesAfter (o : Output) (n : Nat) : List UInt8 :=
  (o.writes.take (o.writes.length - n)).reverse.flatten

/-- What was written, as text. -/
def text (o : Output) : List Char := Utf8.decodeLossy o.bytes

/-- The lines written. -/
def lines (o : Output) : List (List Char) := Hosted.lines o.text

/-- The entries among the lines; other lines are passed over. -/
def entries (o : Output) : List Entry :=
  o.lines.filterMap fun line => (Entry.ofLine line).toOption

end Output

end Hosted.Log
