import Hosted.Proofs.World.Frame
import Hosted.World.Exits

/-!
# Publication

What publishing does to registries and exit tables: the record of one registry is filled
in, and its teardown comes to its exit table unless it is there or the table has run. All
of it is said in `Published`, on which everything about first uses rests.
-/

namespace Hosted.World

variable {w w' : World} {r : RegistryId} {g : Registry} {c : LocaleId}

theorem registry?_modifyRegistry (w : World) (r : RegistryId) (f : Registry → Registry)
    (r' : RegistryId) :
    World.registry? (w.modifyRegistry r f) r' =
      if r' = r then (w.registry? r').map f else w.registry? r' := by
  unfold World.registry? modifyRegistry
  rw [List.getElem?_modify]
  by_cases hr : r' = r
  · simp [hr]
  · have hr' : ¬r = r' := fun h => hr h.symm
    simp [hr, hr']

/-- A new exit table is empty, as are tables that there are not. -/
theorem exitTable_addExitTable (w : World) (t : TableId) :
    w.addExitTable.1.exitTable t = w.exitTable t := by
  unfold addExitTable exitTable
  simp only
  rcases Nat.lt_trichotomy t w.exits.length with hlt | rfl | hgt
  · rw [List.getElem?_append_left hlt]
  · simp
  · rw [List.getElem?_eq_none (by simp; omega), List.getElem?_eq_none (Nat.le_of_lt hgt)]

/-! ## The parts -/

theorem publishClassic_of_some (hg : w.registry? r = some g) (hc : g.classic = some c) :
    w.publishClassic r = (w, c) := by
  unfold publishClassic
  rw [hg, Option.bind_some, hc]

theorem publishClassic_of_none (hg : w.registry? r = some g) (hc : g.classic = none) :
    w.publishClassic r =
      ((w.addClassic.1.modifyRegistry r ({ · with classic := some w.addClassic.2 })).log
        .classicPublished, w.addClassic.2) := by
  unfold publishClassic
  rw [hg, Option.bind_some, hc]

theorem publishClassic_snd (hg : w.registry? r = some g) :
    (w.publishClassic r).2 = g.classic.getD w.locales.objects.length := by
  cases hc : g.classic with
  | some c => rw [publishClassic_of_some hg hc]; rfl
  | none => rw [publishClassic_of_none hg hc]; rfl

theorem registry?_publishClassic (hg : w.registry? r = some g) (r' : RegistryId) :
    World.registry? (w.publishClassic r).1 r' =
      if r' = r then some { g with classic := some (w.publishClassic r).2 }
      else w.registry? r' := by
  cases hc : g.classic with
  | some c =>
      rw [publishClassic_of_some hg hc]
      by_cases hr : r' = r
      · rw [if_pos hr, hr, hg, ← hc]
      · rw [if_neg hr]
  | none =>
      rw [publishClassic_of_none hg hc]
      refine (registry?_modifyRegistry _ r _ r').trans ?_
      rw [w.unmoved_addClassic.registry?]
      by_cases hr : r' = r
      · rw [if_pos hr, if_pos hr, hr, hg]
        rfl
      · rw [if_neg hr, if_neg hr]

theorem publishClassic_frame (hg : w.registry? r = some g) :
    (w.publishClassic r).1.exits = w.exits ∧ (w.publishClassic r).1.locals = w.locals := by
  cases hc : g.classic with
  | some c => rw [publishClassic_of_some hg hc]; exact ⟨rfl, rfl⟩
  | none => rw [publishClassic_of_none hg hc]; exact ⟨rfl, rfl⟩

theorem publishGlobal_of_some {l : LocaleId} (hg : w.registry? r = some g)
    (hl : g.global = some l) (c : LocaleId) : w.publishGlobal r c = (w, l) := by
  unfold publishGlobal
  rw [hg, Option.bind_some, hl]

theorem publishGlobal_of_none (hg : w.registry? r = some g) (hl : g.global = none)
    (c : LocaleId) :
    w.publishGlobal r c =
      ((w.retainLocale c).modifyRegistry r ({ · with global := some c }), c) := by
  unfold publishGlobal
  rw [hg, Option.bind_some, hl]

theorem publishGlobal_snd (hg : w.registry? r = some g) (c : LocaleId) :
    (w.publishGlobal r c).2 = g.global.getD c := by
  cases hl : g.global with
  | some l => rw [publishGlobal_of_some hg hl]; rfl
  | none => rw [publishGlobal_of_none hg hl]; rfl

theorem registry?_publishGlobal (hg : w.registry? r = some g) (c : LocaleId)
    (r' : RegistryId) :
    World.registry? (w.publishGlobal r c).1 r' =
      if r' = r then some { g with global := some (w.publishGlobal r c).2 }
      else w.registry? r' := by
  cases hl : g.global with
  | some l =>
      rw [publishGlobal_of_some hg hl]
      by_cases hr : r' = r
      · rw [if_pos hr, hr, hg, ← hl]
      · rw [if_neg hr]
  | none =>
      rw [publishGlobal_of_none hg hl]
      refine (registry?_modifyRegistry _ r _ r').trans ?_
      rw [Unmoved.registry? (w.unmoved_retainLocale c)]
      by_cases hr : r' = r
      · rw [if_pos hr, if_pos hr, hr, hg]
        rfl
      · rw [if_neg hr, if_neg hr]

theorem publishGlobal_frame (hg : w.registry? r = some g) (c : LocaleId) :
    (w.publishGlobal r c).1.exits = w.exits ∧ (w.publishGlobal r c).1.locals = w.locals := by
  cases hl : g.global with
  | some l => rw [publishGlobal_of_some hg hl]; exact ⟨rfl, rfl⟩
  | none => rw [publishGlobal_of_none hg hl]; exact ⟨rfl, rfl⟩

/-- The exit table of a registry with its teardown queued at the end, unless that has been
done or the table has run. -/
def queued (g : Registry) (r : RegistryId) (table : ExitTable Handler) : ExitTable Handler :=
  if g.teardownQueued || table.ran then table
  else { table with handlers := table.handlers ++ [.teardown r] }

theorem queueTeardown_of_queued (hg : w.registry? r = some g) (hq : g.teardownQueued = true) :
    w.queueTeardown r = w := by
  unfold queueTeardown
  rw [hg]
  exact if_pos hq

theorem queueTeardown_of_not_queued (hg : w.registry? r = some g)
    (hq : g.teardownQueued = false) :
    w.queueTeardown r =
      if (w.exitTable g.exits).ran then
        ((w.modifyRegistry r ({ · with teardownQueued := true })).notify
          (.discarded (.teardown r))).log (.teardownRefused .exitTableClosed)
      else
        (w.modifyRegistry r ({ · with teardownQueued := true })).setExitTable g.exits
          (queued g r (w.exitTable g.exits)) := by
  have htable : (w.modifyRegistry r ({ · with teardownQueued := true })).exitTable g.exits =
      w.exitTable g.exits := rfl
  unfold queueTeardown queued
  rw [hg]
  simp only [hq, Bool.false_eq_true, if_false, Bool.false_or]
  generalize w.modifyRegistry r _ = w₁ at htable ⊢
  rw [← htable]
  cases hran : (w₁.exitTable g.exits).ran with
  | true => rw [register_of_ran hran, if_pos rfl]
  | false => rw [register_of_not_ran hran, if_neg Bool.false_ne_true, if_neg Bool.false_ne_true]

theorem registry?_queueTeardown (hg : w.registry? r = some g) (r' : RegistryId) :
    World.registry? (w.queueTeardown r) r' =
      if r' = r then some { g with teardownQueued := true } else w.registry? r' := by
  cases hq : g.teardownQueued with
  | true =>
      rw [queueTeardown_of_queued hg hq]
      by_cases hr : r' = r
      · rw [if_pos hr, hr, hg, ← hq]
      · rw [if_neg hr]
  | false =>
      have hmod : World.registry? (w.modifyRegistry r ({ · with teardownQueued := true })) r' =
          if r' = r then some { g with teardownQueued := true } else w.registry? r' := by
        rw [registry?_modifyRegistry]
        by_cases hr : r' = r
        · rw [if_pos hr, if_pos hr, hr, hg]
          rfl
        · rw [if_neg hr, if_neg hr]
      rw [queueTeardown_of_not_queued hg hq]
      split
      · exact hmod
      · exact hmod

theorem exitTable_queueTeardown (hg : w.registry? r = some g) (hexits : g.exits < w.exits.length)
    (t : TableId) :
    (w.queueTeardown r).exitTable t =
      if t = g.exits then queued g r (w.exitTable t) else w.exitTable t := by
  cases hq : g.teardownQueued with
  | true =>
      rw [queueTeardown_of_queued hg hq]
      simp [queued, hq]
  | false =>
      rw [queueTeardown_of_not_queued hg hq]
      by_cases hran : (w.exitTable g.exits).ran = true
      · rw [if_pos hran]
        by_cases ht : t = g.exits
        · subst ht
          rw [if_pos rfl, queued, hran, Bool.or_true, if_pos rfl]
          rfl
        · rw [if_neg ht]
          rfl
      · rw [if_neg hran]
        apply (exitTable_setExitTable _ hexits _ t).trans
        by_cases ht : t = g.exits
        · rw [if_pos ht, if_pos ht, ht]
        · rw [if_neg ht, if_neg ht]

theorem queueTeardown_frame (hg : w.registry? r = some g) :
    (w.queueTeardown r).locals = w.locals ∧
      (w.queueTeardown r).exits.length = w.exits.length := by
  cases hq : g.teardownQueued with
  | true =>
      rw [queueTeardown_of_queued hg hq]
      exact ⟨rfl, rfl⟩
  | false =>
      rw [queueTeardown_of_not_queued hg hq]
      split
      · exact ⟨rfl, rfl⟩
      · exact ⟨rfl, List.length_set ..⟩

/-! ## The whole -/

/-- `w'` is `w` after registry `r` has published `classic` and `global`. -/
structure Published (w : World) (r : RegistryId) (g : Registry) (w' : World)
    (classic global : LocaleId) : Prop where
  classic_eq : classic = g.classic.getD w.locales.objects.length
  global_eq : global = g.global.getD classic
  registry? : ∀ r', w'.registry? r' =
    if r' = r then
      some { g with classic := some classic, global := some global, teardownQueued := true }
    else w.registry? r'
  exits_length : w'.exits.length = w.exits.length
  exitTable : g.exits < w.exits.length → ∀ t, w'.exitTable t =
    if t = g.exits then queued g r (w.exitTable t) else w.exitTable t
  locals : w'.locals = w.locals

theorem published_publish (hg : w.registry? r = some g) :
    w.Published r g (w.publish r).1 (w.publish r).2.1 (w.publish r).2.2 := by
  have hclassic := w.publishClassic_snd hg
  have hregistry₁ := registry?_publishClassic hg
  have hframe₁ := publishClassic_frame hg
  unfold publish
  generalize w.publishClassic r = p₁ at hclassic hregistry₁ hframe₁ ⊢
  obtain ⟨w₁, c⟩ := p₁
  simp only at hclassic hregistry₁ hframe₁ ⊢
  have hg₁ : w₁.registry? r = some { g with classic := some c } := by
    rw [hregistry₁, if_pos rfl]
  have hglobal := publishGlobal_snd hg₁ c
  have hregistry₂ := registry?_publishGlobal hg₁ c
  have hframe₂ := publishGlobal_frame hg₁ c
  generalize w₁.publishGlobal r c = p₂ at hglobal hregistry₂ hframe₂ ⊢
  obtain ⟨w₂, l⟩ := p₂
  simp only at hglobal hregistry₂ hframe₂ ⊢
  have hg₂ : w₂.registry? r = some { g with classic := some c, global := some l } := by
    rw [hregistry₂, if_pos rfl]
  have hexits : w₂.exits = w.exits := hframe₂.1.trans hframe₁.1
  have htable : ∀ t, w₂.exitTable t = w.exitTable t := by
    intro t
    rw [World.exitTable, hexits, World.exitTable]
  have hqueue := queueTeardown_frame hg₂
  refine ⟨hclassic, hglobal, ?_, ?_, ?_, ?_⟩
  · intro r'
    rw [registry?_queueTeardown hg₂, hregistry₂, hregistry₁]
    by_cases hr : r' = r <;> simp [hr]
  · rw [hqueue.2, hexits]
  · intro hlt t
    rw [exitTable_queueTeardown hg₂ (by rw [hexits]; exact hlt), htable]
    rfl
  · rw [hqueue.1, hframe₂.2, hframe₁.2]

end Hosted.World
