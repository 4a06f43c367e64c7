import Hosted.Shared
import Mathlib.Algebra.BigOperators.Group.List.Basic
import Mathlib.Algebra.GroupWithZero.Nat
import Mathlib.Data.List.Count

/-!
# Counts of shared objects

What the operations on a store of shared objects do to the counts and to the objects
themselves. `s.Ages s'` says that `s'` comes after `s`: an object stays what it is, and
once it has been destroyed it stays so.

Counts over all objects, like the references that live objects hold, are counts in a
`List.flatMap`. They change with one object at a time, by `count_flatMap_set`.
-/

namespace Hosted

/-- Replacing one element replaces its share of a sum. -/
theorem sum_map_set {α : Type} {xs : List α} {i : Nat} {a : α} (h : xs[i]? = some a)
    (g : α → Nat) (b : α) : ((xs.set i b).map g).sum + g a = (xs.map g).sum + g b := by
  induction xs generalizing i with
  | nil => simp at h
  | cons x xs ih =>
      cases i with
      | zero =>
          rw [List.getElem?_cons_zero, Option.some.injEq] at h
          subst h
          simp only [List.set_cons_zero, List.map_cons, List.sum_cons]
          omega
      | succ i =>
          rw [List.getElem?_cons_succ] at h
          have hxs := ih h
          simp only [List.set_cons_succ, List.map_cons, List.sum_cons]
          omega

/-- Replacing one element replaces what it contributes. -/
theorem count_flatMap_set {α β : Type} [BEq β] {xs : List α} {i : Nat} {a : α}
    (h : xs[i]? = some a) (g : α → List β) (b : α) (x : β) :
    ((xs.set i b).flatMap g).count x + (g a).count x =
      (xs.flatMap g).count x + (g b).count x := by
  rw [List.count_flatMap, List.count_flatMap]
  exact sum_map_set h (fun a => (g a).count x) b

theorem modify_eq_set_of_getElem? {α : Type} {xs : List α} {i : Nat} {a : α}
    (h : xs[i]? = some a) (f : α → α) : xs.modify i f = xs.set i (f a) := by
  rw [List.modify_eq_set_getElem?, h]
  rfl

namespace Shared

variable {α : Type} {s s' s'' : Shared α} {id : Nat}

theorem refs_eq_zero_of_ge (h : s.objects.length ≤ id) : s.refs id = 0 := by
  simp [refs, List.getElem?_eq_none h]

theorem lt_of_refs_pos (h : 0 < s.refs id) : id < s.objects.length := by
  rcases Nat.lt_or_ge id s.objects.length with hlt | hge
  · exact hlt
  · rw [refs_eq_zero_of_ge hge] at h
    exact absurd h (Nat.lt_irrefl 0)

theorem refs_of_getElem? {o : Counted α} (h : s.objects[id]? = some o) : s.refs id = o.refs := by
  simp [refs, h]

theorem exists_of_refs_pos (h : 0 < s.refs id) :
    ∃ o, s.objects[id]? = some o ∧ o.refs = s.refs id ∧ s.get? id = some o.body := by
  have hlt := lt_of_refs_pos h
  refine ⟨s.objects[id], List.getElem?_eq_getElem hlt, ?_, ?_⟩
  · simp [refs, hlt]
  · have hne : s.objects[id].refs ≠ 0 := by
      simp only [refs, List.getElem?_eq_getElem hlt] at h
      omega
    simp [get?, hlt, hne]

theorem get?_eq_some_iff {body : α} :
    s.get? id = some body ↔ ∃ o, s.objects[id]? = some o ∧ o.refs ≠ 0 ∧ o.body = body := by
  unfold get?
  cases h : s.objects[id]? with
  | none => simp
  | some o => by_cases hz : o.refs = 0 <;> simp [hz]

theorem mem_live_iff {body : α} : body ∈ s.live ↔ ∃ id, s.get? id = some body := by
  rw [live, List.mem_filterMap]
  simp only [List.mem_iff_getElem?, get?_eq_some_iff]
  constructor
  · rintro ⟨o, ⟨id, ho⟩, hbody⟩
    by_cases hz : o.refs = 0 <;> simp only [hz, if_true, if_false] at hbody
    · cases hbody
    · exact ⟨id, o, ho, hz, Option.some.inj hbody⟩
  · rintro ⟨id, o, ho, hne, rfl⟩
    exact ⟨o, ⟨id, ho⟩, if_neg hne⟩

theorem refs_pos_of_get? {body : α} (h : s.get? id = some body) : 0 < s.refs id := by
  obtain ⟨o, ho, hne, -⟩ := get?_eq_some_iff.1 h
  rw [refs_of_getElem? ho]
  omega

/-! ## Operations -/

theorem refs_insert (s : Shared α) (body : α) (id : Nat) :
    (s.insert body).1.refs id = s.refs id + if id = s.objects.length then 1 else 0 := by
  unfold insert refs
  rcases Nat.lt_trichotomy id s.objects.length with hlt | heq | hgt
  · simp [List.getElem?_append_left hlt, Nat.ne_of_lt hlt]
  · subst heq
    simp
  · have hne : id ≠ s.objects.length := Nat.ne_of_gt hgt
    have hge : s.objects.length ≤ id := Nat.le_of_lt hgt
    have hge' : (s.objects ++ [(⟨1, body⟩ : Counted α)]).length ≤ id := by
      rw [List.length_append]
      exact hgt
    simp [List.getElem?_eq_none hge, List.getElem?_eq_none hge', hne]

theorem refs_retain (h : 0 < s.refs id) (id' : Nat) :
    (s.retain id).refs id' = s.refs id' + if id' = id then 1 else 0 := by
  unfold retain refs
  rw [List.getElem?_modify]
  by_cases hid : id' = id
  · subst hid
    obtain ⟨o, ho, -, -⟩ := exists_of_refs_pos h
    simp [ho]
  · have hid' : ¬id = id' := fun h => hid h.symm
    simp only [hid', if_false, hid]
    cases s.objects[id']? <;> rfl

theorem release_of_refs_pos (h : 0 < s.refs id) :
    ∃ o, s.objects[id]? = some o ∧ o.refs = s.refs id ∧
      s.release id = (⟨s.objects.set id { o with refs := o.refs - 1 }⟩,
        if o.refs = 1 then some o.body else none) := by
  obtain ⟨o, ho, hrefs, -⟩ := exists_of_refs_pos h
  refine ⟨o, ho, hrefs, ?_⟩
  simp [release, ho]

theorem refs_release (h : 0 < s.refs id) (id' : Nat) :
    (s.release id).1.refs id' + (if id' = id then 1 else 0) = s.refs id' := by
  obtain ⟨o, ho, hrefs, hrel⟩ := release_of_refs_pos h
  have hlt := lt_of_refs_pos h
  rw [hrel]
  by_cases hid : id' = id
  · subst hid
    have hset : (s.objects.set id' { o with refs := o.refs - 1 })[id']? =
        some { o with refs := o.refs - 1 } := List.getElem?_set_self hlt
    rw [refs_of_getElem? hset, if_pos rfl]
    simp only
    omega
  · have hset : (s.objects.set id { o with refs := o.refs - 1 })[id']? = s.objects[id']? :=
      List.getElem?_set_ne fun h => hid h.symm
    simp only [refs, hset, hid, if_false, Nat.add_zero]

/-- Taking a reference changes no object. -/
theorem body_of_mem_retain {o : Counted α} (ho : o ∈ (s.retain id).objects) :
    ∃ o₀ ∈ s.objects, o₀.body = o.body := by
  obtain ⟨i, hi⟩ := List.mem_iff_getElem?.1 ho
  unfold retain at hi
  rw [List.getElem?_modify, Option.map_eq_map, Option.map_eq_some_iff] at hi
  obtain ⟨o₀, ho₀, rfl⟩ := hi
  refine ⟨o₀, List.mem_of_getElem? ho₀, ?_⟩
  split <;> rfl

/-- Giving up a reference changes no object. -/
theorem body_of_mem_release {o : Counted α} (ho : o ∈ (s.release id).1.objects) :
    ∃ o₀ ∈ s.objects, o₀.body = o.body := by
  unfold release at ho
  cases hid : s.objects[id]? with
  | none =>
      rw [hid] at ho
      exact ⟨o, ho, rfl⟩
  | some o₀ =>
      rw [hid] at ho
      rcases List.mem_or_eq_of_mem_set ho with hmem | rfl
      · exact ⟨o, hmem, rfl⟩
      · exact ⟨o₀, List.mem_of_getElem? hid, rfl⟩

/-! ## Ageing -/

/-- Objects have been added, and destroyed ones stay destroyed. -/
def Ages (s s' : Shared α) : Prop :=
  ∀ {id : Nat} {o : Counted α}, s.objects[id]? = some o →
    ∃ o' : Counted α, s'.objects[id]? = some o' ∧ o'.body = o.body ∧ (o.refs = 0 → o'.refs = 0)

theorem Ages.refl (s : Shared α) : s.Ages s := fun ho => ⟨_, ho, rfl, fun h => h⟩

theorem Ages.trans (h : s.Ages s') (h' : s'.Ages s'') : s.Ages s'' := by
  intro id o ho
  obtain ⟨o', ho', hbody, hzero⟩ := h ho
  obtain ⟨o'', ho'', hbody', hzero'⟩ := h' ho'
  exact ⟨o'', ho'', hbody'.trans hbody, fun hz => hzero' (hzero hz)⟩

theorem Ages.length_le (h : s.Ages s') : s.objects.length ≤ s'.objects.length := by
  rcases Nat.eq_zero_or_pos s.objects.length with hz | hpos
  · omega
  · have hlt : s.objects.length - 1 < s.objects.length := by omega
    obtain ⟨o', ho', -, -⟩ := h (List.getElem?_eq_getElem hlt)
    have hlt' := (List.getElem?_eq_some_iff.1 ho').1
    omega

/-- An object that was there and has not been destroyed since is what it was. -/
theorem Ages.get? (h : s.Ages s') {body : α} (hb : s.get? id = some body)
    (hpos : 0 < s'.refs id) : s'.get? id = some body := by
  obtain ⟨o, ho, hne, rfl⟩ := get?_eq_some_iff.1 hb
  obtain ⟨o', ho', hbody, -⟩ := h ho
  refine get?_eq_some_iff.2 ⟨o', ho', ?_, hbody⟩
  rw [refs_of_getElem? ho'] at hpos
  omega

theorem Ages.refs_eq_zero (h : s.Ages s') (hlt : id < s.objects.length)
    (hz : s.refs id = 0) : s'.refs id = 0 := by
  have ho := List.getElem?_eq_getElem hlt
  obtain ⟨o', ho', -, hzero⟩ := h ho
  rw [refs_of_getElem? ho']
  exact hzero ((refs_of_getElem? ho).symm.trans hz)

theorem ages_insert (s : Shared α) (body : α) : s.Ages (s.insert body).1 := by
  intro id o ho
  have hlt := (List.getElem?_eq_some_iff.1 ho).1
  exact ⟨o, (List.getElem?_append_left hlt).trans ho, rfl, fun h => h⟩

theorem ages_retain (h : 0 < s.refs id) : s.Ages (s.retain id) := by
  intro id' o ho
  refine ⟨if id = id' then { o with refs := o.refs + 1 } else o, ?_, ?_, ?_⟩
  · unfold retain
    rw [List.getElem?_modify, ho]
    by_cases hid : id = id' <;> simp [hid]
  · split <;> rfl
  · intro hz
    by_cases hid : id = id'
    · subst hid
      rw [refs_of_getElem? ho] at h
      omega
    · simp [hid, hz]

theorem ages_release (s : Shared α) (id : Nat) : s.Ages (s.release id).1 := by
  intro id' o ho
  unfold release
  cases hid : s.objects[id]? with
  | none => exact ⟨o, ho, rfl, fun h => h⟩
  | some p =>
      by_cases heq : id = id'
      · subst heq
        rw [hid, Option.some.injEq] at ho
        subst ho
        have hlt := (List.getElem?_eq_some_iff.1 hid).1
        refine ⟨_, List.getElem?_set_self hlt, rfl, ?_⟩
        simp only
        omega
      · exact ⟨o, (List.getElem?_set_ne heq).trans ho, rfl, fun h => h⟩

end Shared

end Hosted
