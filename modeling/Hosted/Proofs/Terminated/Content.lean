import Hosted.Terminated.Basic
import Mathlib.Data.List.TakeWhile

/-!
# The content of a buffer

What stands before the first zero, seen from the ways a buffer is cut, extended and recoded.
What follows a zero does not belong to the content, and a cut of the buffer cuts the content.
-/

namespace Hosted

variable {α : Type} [DecidableEq α] [OfNat α 0]

theorem terminatedLength_cons (u : α) (rest : List α) :
    terminatedLength (u :: rest) = if u = 0 then 0 else terminatedLength rest + 1 := rfl

theorem content_eq_takeWhile (s : List α) : content s = s.takeWhile (· ≠ 0) := by
  induction s with
  | nil => rfl
  | cons u rest ih =>
      by_cases hu : u = 0
      · simp [content, terminatedLength, hu]
      · simpa [content, terminatedLength, hu] using ih

theorem length_content (s : List α) : (content s).length = terminatedLength s :=
  List.length_take_of_le (terminatedLength_le s)

/-- A cut buffer has the content of the whole, as far as it goes. -/
theorem terminatedLength_take (s : List α) (n : Nat) :
    terminatedLength (s.take n) = min (terminatedLength s) n := by
  induction s generalizing n with
  | nil => simp
  | cons u rest ih =>
      cases n with
      | zero => simp
      | succ n =>
          rw [List.take_succ_cons, terminatedLength_cons, terminatedLength_cons, ih]
          split <;> omega

/-- Nothing after a zero counts. -/
theorem terminatedLength_append_zero (s rest : List α) :
    terminatedLength (s ++ 0 :: rest) = terminatedLength s := by
  induction s with
  | nil => simp [terminatedLength]
  | cons u s ih => rw [List.cons_append, terminatedLength_cons, terminatedLength_cons, ih]

theorem terminatedLength_of_zero_not_mem {s : List α} (h : 0 ∉ s) :
    terminatedLength s = s.length := by
  induction s with
  | nil => rfl
  | cons u s ih =>
      rw [List.mem_cons, not_or] at h
      rw [terminatedLength_cons, if_neg (Ne.symm h.1), ih h.2, List.length_cons]

theorem content_of_zero_not_mem {s : List α} (h : 0 ∉ s) : content s = s := by
  rw [content, terminatedLength_of_zero_not_mem h, List.take_length]

theorem content_append_zero (s rest : List α) : content (s ++ 0 :: rest) = content s := by
  rw [content, terminatedLength_append_zero, List.take_append_of_le_length (terminatedLength_le s),
    content]

end Hosted
