import Hosted.Names
import Mathlib.Data.List.Count
import Mathlib.Data.Multiset.AddSub

/-!
# Names in order

The operations on names keep the names in order, and so each name stands once. What the
named things hold together changes with what one name stands for.
-/

namespace Hosted

/-- Among keys that stand once each, one entry at most is for a given key. -/
theorem perm_find?_filter {κ α : Type} [DecidableEq κ] {es : List (κ × α)}
    (hnd : (es.map (·.1)).Nodup) (key : κ) :
    ((es.find? (·.1 = key)).toList ++ es.filter (·.1 ≠ key)).Perm es := by
  induction es with
  | nil => exact List.Perm.refl _
  | cons p es ih =>
      obtain ⟨hp, hnd⟩ := List.nodup_cons.1 hnd
      by_cases hkey : p.1 = key
      · have hsame : es.filter (·.1 ≠ key) = es := by
          rw [List.filter_eq_self]
          intro q hq
          have hne : q.1 ≠ key := by
            intro heq
            exact hp (List.mem_map.2 ⟨q, hq, heq.trans hkey.symm⟩)
          simp [hne]
        rw [List.find?_cons_of_pos (by simp [hkey]), List.filter_cons_of_neg (by simp [hkey]),
          hsame]
        exact List.Perm.refl _
      · rw [List.find?_cons_of_neg (by simp [hkey]), List.filter_cons_of_pos (by simp [hkey])]
        exact List.perm_middle.trans ((ih hnd).cons p)

namespace Names

variable {α β : Type} {m : Names α} {name : String} {a : α}

/-- The names are in order. -/
def Sorted (m : Names α) : Prop := m.entries.Pairwise (·.1 < ·.1)

theorem Sorted.nodup (h : m.Sorted) : (m.entries.map (·.1)).Nodup := by
  rw [List.Nodup, List.pairwise_map]
  exact h.imp fun hlt => String.ne_of_lt hlt

theorem mem_insertInto {es : List (String × α)} {p : String × α}
    (h : p ∈ insertInto name a es) : p = (name, a) ∨ p ∈ es := by
  induction es with
  | nil => exact Or.inl (List.mem_singleton.1 h)
  | cons q es ih =>
      unfold insertInto at h
      split at h
      · exact List.mem_cons.1 h
      · split at h
        · rcases List.mem_cons.1 h with h | h
          · exact Or.inl h
          · exact Or.inr (List.mem_cons_of_mem _ h)
        · rcases List.mem_cons.1 h with h | h
          · exact Or.inr (h ▸ List.mem_cons_self)
          · rcases ih h with h | h
            · exact Or.inl h
            · exact Or.inr (List.mem_cons_of_mem _ h)

theorem sorted_empty : ({} : Names α).Sorted := List.Pairwise.nil

theorem Sorted.put (h : m.Sorted) (name : String) (a : α) : (m.put name a).Sorted := by
  unfold Sorted Names.put at *
  simp only
  generalize m.entries = es at h ⊢
  induction es with
  | nil => exact List.pairwise_singleton _ _
  | cons p es ih =>
      obtain ⟨hp, hes⟩ := List.pairwise_cons.1 h
      simp only [insertInto]
      split
      · next hlt =>
          refine List.pairwise_cons.2 ⟨?_, h⟩
          intro q hq
          rcases List.mem_cons.1 hq with rfl | hq
          · exact hlt
          · exact String.lt_trans hlt (hp q hq)
      · next hlt =>
          split
          · next heq => exact List.pairwise_cons.2 ⟨fun q hq => heq ▸ hp q hq, hes⟩
          · next hne =>
              refine List.pairwise_cons.2 ⟨?_, ih hes⟩
              intro q hq
              rcases mem_insertInto hq with rfl | hq
              · refine String.not_le.1 fun hle => ?_
                exact hne (String.le_antisymm hle (String.not_lt.1 hlt))
              · exact hp q hq

theorem Sorted.erase (h : m.Sorted) (name : String) : (m.erase name).Sorted := h.filter _

/-- A name that is put stands for what it is put for, and what it stood for is gone. -/
theorem Sorted.perm_put (h : m.Sorted) (name : String) (a : α) :
    (m.put name a).entries.Perm ((name, a) :: (m.erase name).entries) := by
  have hnd := (h.put name a).nodup
  have hself : (m.put name a).entries.find? (·.1 = name) = some (name, a) ∧
      (m.put name a).entries.filter (·.1 ≠ name) = m.entries.filter (·.1 ≠ name) := by
    clear hnd
    unfold Sorted at h
    simp only [Names.put]
    generalize m.entries = es at h ⊢
    induction es with
    | nil => simp [insertInto]
    | cons p es ih =>
        obtain ⟨hp, hes⟩ := List.pairwise_cons.1 h
        obtain ⟨hfind, hfilter⟩ := ih hes
        simp only [insertInto]
        split
        · simp
        · next hlt =>
            split
            · next heq => simp [heq]
            · next hne =>
                have hne' : p.1 ≠ name := Ne.symm hne
                rw [List.find?_cons_of_neg (by simp [hne']), hfind,
                  List.filter_cons_of_pos (by simp [hne']), hfilter,
                  List.filter_cons_of_pos (by simp [hne'])]
                exact ⟨rfl, rfl⟩
  have hperm := perm_find?_filter hnd name
  rw [hself.1, hself.2] at hperm
  exact hperm.symm

theorem mem_values_of_find? (h : m.find? name = some a) : a ∈ m.values := by
  obtain ⟨p, hp, rfl⟩ := Option.map_eq_some_iff.1 h
  exact List.mem_map_of_mem (List.mem_of_find?_eq_some hp)

theorem mem_values_put {b : α} (h : b ∈ (m.put name a).values) : b = a ∨ b ∈ m.values := by
  obtain ⟨p, hp, rfl⟩ := List.mem_map.1 h
  rcases mem_insertInto hp with rfl | hp
  · exact Or.inl rfl
  · exact Or.inr (List.mem_map_of_mem hp)

theorem mem_values_erase {b : α} (h : b ∈ (m.erase name).values) : b ∈ m.values := by
  obtain ⟨p, hp, rfl⟩ := List.mem_map.1 h
  exact List.mem_map_of_mem (List.mem_of_mem_filter hp)

/-- A name stands for what it was last put for. -/
theorem find?_put (m : Names α) (name : String) (a : α) (other : String) :
    (m.put name a).find? other = if other = name then some a else m.find? other := by
  unfold find? Names.put
  simp only
  generalize m.entries = es
  induction es with
  | nil =>
      by_cases hother : other = name
      · simp [insertInto, hother]
      · simp [insertInto, hother, Ne.symm hother]
  | cons p es ih =>
      simp only [insertInto]
      by_cases hother : other = name
      · subst hother
        split
        · simp
        · split
          · simp
          · next hne => simp [List.find?_cons_of_neg, Ne.symm hne, ih]
      · rw [if_neg hother] at ih ⊢
        split
        · simp [Ne.symm hother]
        · split
          · next heq => simp [Ne.symm hother, ← heq]
          · by_cases hp : p.1 = other
            · simp [hp]
            · simpa [hp] using ih

/-! ## What named things hold -/

/-- What the named things hold, if each holds `what`. -/
def hold (what : α → List β) (m : Names α) : Multiset β := m.values.flatMap what

theorem Sorted.hold_erase (h : m.Sorted) (what : α → List β) (name : String) :
    hold what m =
      (((m.find? name).elim [] what : List β) : Multiset β) + hold what (m.erase name) := by
  have hperm := ((perm_find?_filter h.nodup name).map (·.2)).flatMap_right what
  unfold hold values find?
  rw [Multiset.coe_add]
  refine Multiset.coe_eq_coe.2 (hperm.symm.trans (List.Perm.of_eq ?_))
  rw [List.map_append, List.flatMap_append]
  cases m.entries.find? (·.1 = name) with
  | none => rfl
  | some p =>
      rw [Option.toList_some, List.map_singleton, List.flatMap_singleton]
      rfl

/-- What comes with a name is exchanged for what the name stood for. -/
theorem Sorted.hold_put (h : m.Sorted) (what : α → List β) (name : String) (a : α) :
    (what a : Multiset β) + hold what m =
      (((m.find? name).elim [] what : List β) : Multiset β) + hold what (m.put name a) := by
  have hput : hold what (m.put name a) = (what a : Multiset β) + hold what (m.erase name) := by
    unfold hold values
    rw [Multiset.coe_add]
    exact Multiset.coe_eq_coe.2 (((h.perm_put name a).map (·.2)).flatMap_right what)
  rw [hput, h.hold_erase what name, ← Multiset.add_assoc, ← Multiset.add_assoc]
  congr 1
  exact Multiset.add_comm _ _

theorem mem_hold_of_find? {what : α → List β} {x : β} (h : m.find? name = some a)
    (hx : x ∈ what a) : x ∈ hold what m :=
  List.mem_flatMap.2 ⟨a, mem_values_of_find? h, hx⟩

end Names

end Hosted
