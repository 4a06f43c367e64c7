import Hosted.World.State

/-!
# Facet indices

No two keys have one index, and a key keeps its index once it has one. Facets are put
into a row at their indices; what stands at the other indices stays.
-/

namespace Hosted

namespace FacetIndices

variable {s : FacetIndices} {key key' : Indexed} {i : Nat}

/-- Indices are given out one after the other, and each to one key. -/
structure Sound (s : FacetIndices) : Prop where
  lt : ∀ {key i}, s.find? key = some i → i < s.next
  inj : ∀ {key key' i}, s.find? key = some i → s.find? key' = some i → key = key'

theorem sound_empty : Sound {} where
  lt h := by simp [find?] at h
  inj h := by simp [find?] at h

theorem find?_assign_self (s : FacetIndices) (key : Indexed) :
    (s.assign key).1.find? key = some (s.assign key).2 := by
  unfold assign
  cases hkey : s.find? key with
  | some i => exact hkey
  | none =>
      unfold find? at hkey ⊢
      rw [Option.map_eq_none_iff] at hkey
      simp [List.find?_append, hkey]

theorem find?_assign_of_ne (s : FacetIndices) (hne : key ≠ key') :
    (s.assign key').1.find? key = s.find? key := by
  unfold assign
  cases hkey : s.find? key' with
  | some i => rfl
  | none =>
      have hne' : ¬key' = key := fun h => hne h.symm
      simp [find?, List.find?_append, hne']

/-- A key keeps its index. -/
theorem find?_assign (h : s.find? key = some i) : (s.assign key').1.find? key = some i := by
  by_cases hkey : key = key'
  · subst hkey
    rw [assign, h]
    exact h
  · rw [find?_assign_of_ne s hkey, h]

theorem assign_of_some (h : s.find? key = some i) : s.assign key = (s, i) := by
  rw [assign, h]

theorem Sound.assign (h : s.Sound) (key : Indexed) : (s.assign key).1.Sound := by
  cases hkey : s.find? key with
  | some i =>
      rw [assign_of_some hkey]
      exact h
  | none =>
      have hself := s.find?_assign_self key
      have hassign : s.assign key =
          ({ assigned := s.assigned ++ [(key, s.next)], next := s.next + 1 }, s.next) := by
        rw [FacetIndices.assign, hkey]
      have hnext : (s.assign key).1.next = s.next + 1 := by rw [hassign]
      have hsnd : (s.assign key).2 = s.next := by rw [hassign]
      rw [hsnd] at hself
      have hcases : ∀ {key' i}, (s.assign key).1.find? key' = some i →
          (key' = key ∧ i = s.next) ∨ (key' ≠ key ∧ s.find? key' = some i) := by
        intro key' i hi
        by_cases heq : key' = key
        · rw [heq, hself, Option.some.injEq] at hi
          exact Or.inl ⟨heq, hi.symm⟩
        · exact Or.inr ⟨heq, (find?_assign_of_ne s heq).symm.trans hi⟩
      refine ⟨?_, ?_⟩
      · intro key' i hi
        rw [hnext]
        rcases hcases hi with ⟨-, rfl⟩ | ⟨-, hold⟩
        · exact Nat.lt_succ_self _
        · exact Nat.lt_succ_of_lt (h.lt hold)
      · intro k k' i hi hi'
        rcases hcases hi with ⟨rfl, rfl⟩ | ⟨-, hold⟩
        · rcases hcases hi' with ⟨rfl, -⟩ | ⟨-, hold'⟩
          · rfl
          · exact absurd (h.lt hold') (Nat.lt_irrefl _)
        · rcases hcases hi' with ⟨rfl, rfl⟩ | ⟨-, hold'⟩
          · exact absurd (h.lt hold) (Nat.lt_irrefl _)
          · exact h.inj hold hold'

theorem find?_forget (s : FacetIndices) (key key' : Indexed) :
    (s.forget key').find? key = if key = key' then none else s.find? key := by
  unfold forget find?
  rw [List.find?_filter]
  by_cases hkey : key = key'
  · subst hkey
    rw [if_pos rfl, Option.map_eq_none_iff, List.find?_eq_none]
    simp
  · rw [if_neg hkey]
    congr 2
    funext p
    by_cases hp : p.1 = key <;> simp [hp, hkey]

theorem Sound.forget (h : s.Sound) (key : Indexed) : (s.forget key).Sound where
  lt hi := by
    rw [find?_forget] at hi
    split at hi
    · cases hi
    · exact h.lt hi
  inj hi hi' := by
    rw [find?_forget] at hi hi'
    split at hi
    · cases hi
    · split at hi'
      · cases hi'
      · exact h.inj hi hi'

end FacetIndices

namespace Locale

variable {facets : List (Option FacetId)}

theorem getElem?_place (facets : List (Option FacetId)) (index : Nat) (f : FacetId) (j : Nat) :
    (place facets index f)[j]?.join = if j = index then some f else facets[j]?.join := by
  unfold place
  split
  · next hlt =>
      by_cases hj : j = index
      · subst hj
        simp [hlt]
      · simp [hj, Ne.symm hj]
  · next hge =>
      rw [Nat.not_lt] at hge
      have hlen : (facets ++ List.replicate (index - facets.length) none).length = index := by
        simp [hge]
      rcases Nat.lt_trichotomy j index with hlt | heq | hgt
      · rw [List.getElem?_append_left (by rw [hlen]; exact hlt), if_neg (Nat.ne_of_lt hlt)]
        rcases Nat.lt_or_ge j facets.length with hj | hj
        · rw [List.getElem?_append_left hj]
        · rw [List.getElem?_append_right hj, List.getElem?_eq_none hj, List.getElem?_replicate]
          split <;> rfl
      · rw [List.getElem?_append_right (by rw [hlen]; exact Nat.le_of_eq heq.symm), hlen,
          heq, if_pos rfl]
        simp
      · have hnone : facets[j]? = none :=
          List.getElem?_eq_none (Nat.le_of_lt (Nat.lt_of_le_of_lt hge hgt))
        have hout : (facets ++ List.replicate (index - facets.length) none ++ [some f])[j]? =
            none := by
          rw [List.getElem?_eq_none]
          rw [List.length_append, hlen]
          exact hgt
        rw [hout, if_neg (Nat.ne_of_gt hgt), hnone]

/-- Putting a facet in a row adds it to the row and takes away what stood at its index. -/
theorem count_place (facets : List (Option FacetId)) (index : Nat) (f x : FacetId) :
    ((place facets index f).filterMap id).count x +
        (facets[index]?.join).toList.count x =
      (facets.filterMap id).count x + [f].count x := by
  unfold place
  split
  · next hlt =>
      induction facets generalizing index with
      | nil => exact absurd hlt (Nat.not_lt_zero _)
      | cons o facets ih =>
          cases index with
          | zero => cases o <;> simp [List.count_cons]; omega
          | succ index =>
              have hrest := ih index (Nat.lt_of_succ_lt_succ hlt)
              cases o with
              | none => simpa using hrest
              | some f' =>
                  have hcons : ∀ row : List (Option FacetId),
                      (some f' :: row).filterMap id = f' :: row.filterMap id := fun _ => rfl
                  simp only [List.set_cons_succ, hcons, List.count_cons,
                    List.getElem?_cons_succ] at hrest ⊢
                  omega
  · next hge =>
      rw [Nat.not_lt] at hge
      have hnil : (List.replicate (index - facets.length) (none : Option FacetId)).filterMap id =
          [] := by
        rw [List.filterMap_eq_nil_iff]
        intro o ho
        exact List.eq_of_mem_replicate ho
      rw [List.getElem?_eq_none hge, List.filterMap_append, List.filterMap_append, hnil]
      simp

end Locale

end Hosted
