/-!
# NUL-terminated text

The content of a buffer is what stands before its first zero, or all of it if
there is none. The definitions hold for every unit type, so bytes and 16-bit
units share them.
-/

namespace Hosted

variable {α : Type} [DecidableEq α] [OfNat α 0]

/-- The number of units before the first zero. -/
def terminatedLength : List α → Nat
  | [] => 0
  | u :: rest => if u = 0 then 0 else terminatedLength rest + 1

@[simp] theorem terminatedLength_nil : terminatedLength ([] : List α) = 0 := rfl

theorem terminatedLength_le (s : List α) : terminatedLength s ≤ s.length := by
  induction s with
  | nil => simp [terminatedLength]
  | cons u rest ih =>
    simp only [terminatedLength, List.length_cons]
    split <;> omega

/-- The units before the first zero. -/
def content (s : List α) : List α := s.take (terminatedLength s)

/-- A bounded copy is refused when the count exceeds the room in the buffer. -/
structure CountTooLarge where
  count : Nat
  room : Nat
  deriving DecidableEq, Repr

end Hosted
