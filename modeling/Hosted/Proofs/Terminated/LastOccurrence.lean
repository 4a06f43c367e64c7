import Hosted.Proofs.Terminated.Content
import Hosted.Terminated.Wide
import Mathlib.Order.Bounds.Basic

/-!
# The last occurrence of a unit

The index found in a wide string is the greatest one at which the unit stands before the
terminator. The zero is found at the terminator itself.
-/

namespace Hosted.Wide

variable {u : UInt16} {s text : List UInt16}

theorem lastIndex?_eq_none_iff : lastIndex? u s = none ↔ u ∉ s := by
  induction s with
  | nil => simp [lastIndex?]
  | cons v rest ih =>
      rw [lastIndex?, List.mem_cons, not_or, ← ih]
      cases lastIndex? u rest with
      | some i => simp
      | none => simp [eq_comm]

theorem isGreatest_of_lastIndex? {i : Nat} (h : lastIndex? u s = some i) :
    IsGreatest {i | s[i]? = some u} i := by
  induction s generalizing i with
  | nil => cases h
  | cons v rest ih =>
      rw [lastIndex?] at h
      cases hrest : lastIndex? u rest with
      | some k =>
          obtain ⟨hk, hgreatest⟩ := ih hrest
          rw [hrest] at h
          cases h
          refine ⟨hk, ?_⟩
          intro j hj
          obtain _ | j := j
          · exact Nat.zero_le _
          · exact Nat.succ_le_succ (hgreatest hj)
      | none =>
          rw [hrest] at h
          obtain ⟨hv, rfl⟩ : v = u ∧ 0 = i := by simpa using h
          refine ⟨congrArg some hv, ?_⟩
          intro j hj
          obtain _ | j := j
          · exact Nat.le_refl _
          · have hlater : rest[j]? = some u := hj
            exact absurd (List.mem_of_getElem? hlater) (lastIndex?_eq_none_iff.1 hrest)

/-- The index found is that of the last occurrence. -/
theorem lastIndex?_eq_some_iff {i : Nat} :
    lastIndex? u s = some i ↔ IsGreatest {i | s[i]? = some u} i := by
  refine ⟨isGreatest_of_lastIndex?, fun h => ?_⟩
  cases hfound : lastIndex? u s with
  | some k => rw [(isGreatest_of_lastIndex? hfound).unique h]
  | none => exact absurd (List.mem_of_getElem? h.1) (lastIndex?_eq_none_iff.1 hfound)

/-- In a terminated string the zero is found at its end, and any other unit before. -/
theorem lastOccurrence?_concat_zero (h : 0 ∉ text) :
    lastOccurrence? (text ++ [0]) u = if u = 0 then some text.length else lastIndex? u text := by
  have hlength : length (text ++ [0]) = text.length := by
    rw [length, terminatedLength_append_zero, terminatedLength_of_zero_not_mem h]
  have hroom : text.length < (text ++ [0]).length := by simp
  rw [lastOccurrence?, hlength, List.take_left, if_pos hroom]

end Hosted.Wide
