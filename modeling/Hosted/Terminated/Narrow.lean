import Hosted.Terminated.Basic

/-!
# Narrow strings

Byte strings that a zero byte terminates. A copy answers with the whole
destination after it.
-/

namespace Hosted.Narrow

/-- The bytes before the first zero. -/
def length (s : List UInt8) : Nat := terminatedLength s

/-- The bytes before the first zero among the first `bound`. -/
def boundedLength (s : List UInt8) (bound : Nat) : Nat := length (s.take bound)

/-- A copy is refused when the string and its terminator exceed the buffer. -/
structure StringTooLong where
  length : Nat
  room : Nat
  deriving DecidableEq, Repr

/-- Copies the content of `source` and a terminator. Also answers how many bytes
that was. -/
def copy (dest source : List UInt8) : Except StringTooLong (Nat × List UInt8) :=
  let n := length source
  if n < dest.length then .ok (n + 1, source.take n ++ 0 :: dest.drop (n + 1))
  else .error ⟨n, dest.length⟩

/-- Fills the first `count` bytes with the content of `source`, cut at `count`,
and then zeros. -/
def boundedCopy (dest source : List UInt8) (count : Nat) : Except CountTooLarge (List UInt8) :=
  if count ≤ dest.length then
    let n := boundedLength source count
    .ok (source.take n ++ List.replicate (count - n) 0 ++ dest.drop count)
  else .error ⟨count, dest.length⟩

/-- The wording of a refused copy. -/
def StringTooLong.message (e : StringTooLong) : String :=
  "strcpy: " ++ toString e.length ++ "-byte string does not fit a " ++ toString e.room ++
    "-byte buffer"

/-- The wording of a refused bounded copy of bytes. -/
def countMessage (e : CountTooLarge) : String :=
  "strncpy: count " ++ toString e.count ++ " exceeds " ++ toString e.room ++ "-byte buffer"

end Hosted.Narrow
