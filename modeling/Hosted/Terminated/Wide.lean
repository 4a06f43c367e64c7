import Hosted.Terminated.Basic

/-!
# Wide strings

Strings of 16-bit units that a zero unit terminates.
-/

namespace Hosted.Wide

/-- The units before the first zero. -/
def length (s : List UInt16) : Nat := terminatedLength s

/-- Fills the first `count` units with the content of `source`, cut at `count`,
and then zeros. -/
def boundedCopy (dest source : List UInt16) (count : Nat) : Except CountTooLarge (List UInt16) :=
  if count ≤ dest.length then
    let n := min (length source) count
    .ok (source.take n ++ (List.replicate (count - n) 0 ++ dest.drop count))
  else .error ⟨count, dest.length⟩

/-- The index of the last `u` in `s`, if it occurs. -/
def lastIndex? (u : UInt16) : List UInt16 → Option Nat
  | [] => none
  | v :: rest =>
    match lastIndex? u rest with
    | some i => some (i + 1)
    | none => if v = u then some 0 else none

/-- The index of the last `u` in the content of `s`. The zero is found at the
terminator, if `s` has one. -/
def lastOccurrence? (s : List UInt16) (u : UInt16) : Option Nat :=
  let n := length s
  if u = 0 then if n < s.length then some n else none
  else lastIndex? u (s.take n)

/-- The lexicographic order of the contents of two strings. -/
def order (s t : List UInt16) : Ordering := compare (content s) (content t)

/-- The wording of a refused bounded copy of units. -/
def countMessage (e : CountTooLarge) : String :=
  "wcsncpy: count " ++ toString e.count ++ " exceeds " ++ toString e.room ++ "-unit buffer"

end Hosted.Wide
