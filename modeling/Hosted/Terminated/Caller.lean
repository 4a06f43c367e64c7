import Hosted.Terminated.Narrow
import Hosted.Terminated.Wide

/-!
# C callers

A C caller passes addresses. What an address makes readable is given here as the
list of units from there on; each entry point measures the source itself, cuts
both buffers to exactly the extent it needs and copies between those. It answers
with the whole destination buffer.
-/

namespace Hosted.Caller

variable {α : Type} [DecidableEq α] [OfNat α 0]

/-- The greatest bound a scan can have. -/
def unbounded : Nat := UInt64.size - 1

/-- The number of units before the first zero, looking at no more than `bound`. -/
def scan (bound : Nat) : List α → Nat
  | [] => 0
  | u :: rest => if bound = 0 ∨ u = 0 then 0 else scan (bound - 1) rest + 1

/-- The length of the byte string at an address. -/
def length (source : List UInt8) : Nat := scan unbounded source

/-- The length of the wide string at an address. -/
def wideLength (source : List UInt16) : Nat := scan unbounded source

/-- Copies the byte string at an address, with its terminator. -/
def copy (dest source : List UInt8) : Except Narrow.StringTooLong (List UInt8) :=
  let extent := scan unbounded source + 1
  (Narrow.copy (dest.take extent) (source.take extent)).map fun answer =>
    answer.2 ++ dest.drop extent

/-- Fills `count` bytes from the byte string at an address. -/
def boundedCopy (dest source : List UInt8) (count : Nat) : Except CountTooLarge (List UInt8) :=
  (Narrow.boundedCopy (dest.take count) (source.take (scan count source)) count).map
    (· ++ dest.drop count)

/-- Fills `count` units from the wide string at an address. -/
def wideBoundedCopy (dest source : List UInt16) (count : Nat) :
    Except CountTooLarge (List UInt16) :=
  (Wide.boundedCopy (dest.take count) (source.take (scan count source)) count).map
    (· ++ dest.drop count)

/-- The offset of the last `u` in the wide string at an address, the terminator
included. -/
def wideLastOccurrence? (source : List UInt16) (u : UInt16) : Option Nat :=
  Wide.lastOccurrence? (source.take (scan unbounded source + 1)) u

end Hosted.Caller
