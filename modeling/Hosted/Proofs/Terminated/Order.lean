import Hosted.Proofs.Terminated.Content
import Hosted.Terminated.Wide
import Mathlib.Data.List.GetD

/-!
# The order of wide strings

Two wide strings are compared by their contents, lexicographically. Reading both buffers unit by
unit up to the first difference or the end of both strings comes to the same, since the zero at
the end of a string is below every unit that another string may have in its place. The order is
total on contents.
-/

namespace Hosted.Wide

/-- The unit at an index. The end of the buffer reads as zero. -/
def unitAt (s : List UInt16) (i : Nat) : UInt16 := s.getD i 0

theorem unitAt_of_ge {s : List UInt16} {i : Nat} (h : s.length ≤ i) : unitAt s i = 0 :=
  List.getD_eq_default _ _ h

theorem unitAt_drop (s : List UInt16) (i : Nat) : unitAt (s.drop i) 0 = unitAt s i := by
  simp [unitAt, List.getD_eq_getElem?_getD]

/-- The comparison that reads both strings from an index on: the first units that differ decide,
and a common zero ends it. -/
def orderFrom (s t : List UInt16) (i : Nat) : Ordering :=
  if unitAt s i = unitAt t i ∧ unitAt s i ≠ 0 then orderFrom s t (i + 1)
  else compare (unitAt s i) (unitAt t i)
termination_by s.length - i
decreasing_by
  rename_i h
  have hlt : i < s.length := Nat.lt_of_not_le fun hge => h.2 (unitAt_of_ge hge)
  omega

/-! ## Unit by unit -/

theorem content_cons_zero (s : List UInt16) : content (0 :: s) = [] := rfl

theorem content_cons {u : UInt16} (hu : u ≠ 0) (s : List UInt16) :
    content (u :: s) = u :: content s := by
  rw [content, terminatedLength_cons, if_neg hu, List.take_succ_cons, content]

/-- Before the first difference the units do not count, and the first difference decides. The
end of a string is a difference like any other. -/
theorem order_eq_ite (s t : List UInt16) :
    order s t = if unitAt s 0 = unitAt t 0 ∧ unitAt s 0 ≠ 0 then order s.tail t.tail
      else compare (unitAt s 0) (unitAt t 0) := by
  have hends (s : List UInt16) : unitAt s 0 = 0 ∧ content s = [] ∨
      unitAt s 0 ≠ 0 ∧ content s = unitAt s 0 :: content s.tail := by
    cases s with
    | nil => exact .inl ⟨rfl, rfl⟩
    | cons u s =>
        by_cases hu : u = 0
        · exact .inl ⟨hu, by rw [hu, content_cons_zero]⟩
        · exact .inr ⟨hu, content_cons hu s⟩
  unfold order
  rcases hends s with ⟨hs, hcontent⟩ | ⟨hs, hcontent⟩ <;>
    rcases hends t with ⟨ht, hcontent'⟩ | ⟨ht, hcontent'⟩ <;>
    rw [hcontent, hcontent']
  · rw [if_neg fun h => h.2 hs, hs, ht]
    rfl
  · rw [if_neg fun h => h.2 hs, hs, List.compare_nil_cons]
    exact (Std.compare_eq_lt.2 (UInt16.pos_iff_ne_zero.2 ht)).symm
  · rw [if_neg fun h => hs (h.1.trans ht), ht, List.compare_cons_nil]
    exact (Std.compare_eq_gt.2 (UInt16.pos_iff_ne_zero.2 hs)).symm
  · rw [List.compare_cons_cons]
    split_ifs with h
    · rw [Std.compare_eq_iff_eq.2 h.1]
      rfl
    · cases hcompare : compare (unitAt s 0) (unitAt t 0) with
      | lt => rfl
      | eq => exact absurd ⟨Std.compare_eq_iff_eq.1 hcompare, hs⟩ h
      | gt => rfl

theorem order_drop (s t : List UInt16) (i : Nat) :
    order (s.drop i) (t.drop i) = orderFrom s t i := by
  fun_induction orderFrom s t i with
  | case1 i h ih =>
      rw [order_eq_ite, unitAt_drop, unitAt_drop, if_pos h, List.tail_drop, List.tail_drop, ih]
  | case2 i h => rw [order_eq_ite, unitAt_drop, unitAt_drop, if_neg h]

/-- The order is the comparison unit by unit. It is total on contents, and what follows the first
zero of a string does not count. -/
theorem order_total (s t : List UInt16) :
    order s t = orderFrom s t 0 ∧
      (order s t = .eq ↔ s.takeWhile (· ≠ 0) = t.takeWhile (· ≠ 0)) ∧
      order t s = (order s t).swap ∧
      (∀ u, (order s t).isLE → (order t u).isLE → (order s u).isLE) ∧
      ∀ rest, order (s ++ 0 :: rest) t = order s t ∧ order s (t ++ 0 :: rest) = order s t := by
  unfold order
  refine ⟨order_drop s t 0, ?_, Std.OrientedOrd.eq_swap, ?_, ?_⟩
  · rw [Std.compare_eq_iff_eq, content_eq_takeWhile, content_eq_takeWhile]
  · exact fun u => Std.TransOrd.isLE_trans
  · intro rest
    rw [content_append_zero, content_append_zero]
    exact ⟨rfl, rfl⟩

theorem order_total_shorter :
    order [0x61, 0] [0x61, 0x62] = .lt ∧ order [0x61, 0x62] [0x62] = .lt ∧
      (order [0x61, 0] [0x62]).isLE := by
  refine ⟨by decide, by decide, ?_⟩
  exact (order_total [0x61, 0] [0x61, 0x62]).2.2.2.1 [0x62] (by decide) (by decide)

end Hosted.Wide
