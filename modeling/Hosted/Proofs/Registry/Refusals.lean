import Hosted.Proofs.Registry.Publication
import Hosted.Proofs.World.Mild

/-!
# Refused teardowns

Only publication queues a teardown, and only there is a refusal reported: one, if the exit
table has run and the registry does not take its teardown for queued. Teardowns themselves
are mild, and so is a run of an exit table once it has started.
-/

namespace Hosted.World

/-- Why a teardown is refused, if it has been queued or not and the exit table has run or
not. -/
def refusals (queued ran : Bool) : List Fault :=
  if queued || !ran then [] else [.exitTableClosed]

/-- On the way from `w` to `w'` teardowns are reported as refused for the reasons `faults`. -/
structure Warns (w : World) (faults : List Fault) (w' : World) : Prop where
  bare : w.Bare → w'.Bare
  notices : ∃ new, w'.notices = w.notices ++ new ∧ new.filterMap Notice.refusal? = faults

variable {w w' w'' : World} {r : RegistryId} {g : Registry} {faults faults' : List Fault}

theorem Mild.warns (h : w.Mild w') : w.Warns [] w' where
  bare := h.bare
  notices := by
    obtain ⟨new, hnew, hall⟩ := h.hushed
    exact ⟨new, hnew, List.filterMap_eq_nil_iff.2 hall⟩

theorem Warns.trans (h : w.Warns faults w') (h' : w'.Warns faults' w'') :
    w.Warns (faults ++ faults') w'' where
  bare hw := h'.bare (h.bare hw)
  notices := by
    obtain ⟨new, hnew, hfaults⟩ := h.notices
    obtain ⟨new', hnew', hfaults'⟩ := h'.notices
    refine ⟨new ++ new', by rw [hnew', hnew, List.append_assoc], ?_⟩
    rw [List.filterMap_append, hfaults, hfaults']

theorem Warns.mild (h : w.Warns faults w') (h' : w'.Mild w'') : w.Warns faults w'' :=
  List.append_nil faults ▸ h.trans h'.warns

theorem Warns.of_mild (h : w.Mild w') (h' : w'.Warns faults w'') : w.Warns faults w'' :=
  h.warns.trans h'

/-! ## Publication -/

theorem mild_modifyRegistry (w : World) (r : RegistryId) (change : Registry → Registry) :
    w.Mild (w.modifyRegistry r change) := .of_eq rfl rfl rfl

theorem mild_publishClassic (w : World) (r : RegistryId) : w.Mild (w.publishClassic r).1 := by
  have hclassic := w.mild_addClassic
  unfold publishClassic
  split
  · exact .refl w
  · generalize w.addClassic = added at hclassic ⊢
    obtain ⟨w₁, c⟩ := added
    exact (hclassic.trans (mild_modifyRegistry _ _ _)).trans (mild_notify rfl _)

theorem mild_publishGlobal (w : World) (r : RegistryId) (classic : LocaleId) :
    w.Mild (w.publishGlobal r classic).1 := by
  unfold publishGlobal
  split
  · exact .refl w
  · exact (w.mild_retainLocale classic).trans (mild_modifyRegistry _ _ _)

theorem warns_queueTeardown (hg : w.registry? r = some g) :
    w.Warns (refusals g.teardownQueued (w.exitTable g.exits).ran) (w.queueTeardown r) := by
  cases hq : g.teardownQueued with
  | true =>
      rw [queueTeardown_of_queued hg hq]
      exact (Mild.refl w).warns
  | false =>
      rw [queueTeardown_of_not_queued hg hq]
      cases (w.exitTable g.exits).ran with
      | true =>
          refine ⟨id, [.discarded (.teardown r), .logged (.teardownRefused .exitTableClosed)], ?_,
            rfl⟩
          exact List.append_assoc ..
      | false => exact ⟨id, [], (List.append_nil _).symm, rfl⟩

theorem warns_publish (hg : w.registry? r = some g) :
    w.Warns (refusals g.teardownQueued (w.exitTable g.exits).ran) (w.publish r).1 := by
  have hclassic := w.mild_publishClassic r
  have hg₁ := registry?_publishClassic hg r
  unfold publish
  generalize w.publishClassic r = p₁ at hclassic hg₁ ⊢
  obtain ⟨w₁, c⟩ := p₁
  simp only [if_true] at hclassic hg₁ ⊢
  have hglobal := hclassic.trans (w₁.mild_publishGlobal r c)
  have hg₂ := registry?_publishGlobal hg₁ c r
  generalize w₁.publishGlobal r c = p₂ at hglobal hg₂ ⊢
  obtain ⟨w₂, l⟩ := p₂
  simp only [if_true] at hglobal hg₂ ⊢
  have hwarns := warns_queueTeardown hg₂
  rw [hglobal.ran] at hwarns
  exact .of_mild hglobal hwarns

/-! ## Teardowns -/

theorem mild_teardown (w : World) (r : RegistryId) : w.Mild (w.teardown r).1 :=
  teardown_induction Mild.refl Mild.trans mild_modifyRegistry (fun _ _ => .of_eq rfl rfl rfl)
    mild_releaseLocale mild_releaseFacet (fun w n => w.mild_count _ n)
    (fun w _ => mild_notify rfl w) (fun w _ => mild_notify rfl w) w r

/-! ## Runs of exit tables -/

variable {t : TableId}

/-- While table `t` has run, a sequence of steps is mild if each is. -/
theorem Mild.foldl_of_ran {β : Type} {f : World → β → World}
    (hf : ∀ {w} b, (w.exitTable t).ran = true → Mild w (f w b)) (bs : List β)
    (hran : (w.exitTable t).ran = true) : w.Mild (bs.foldl f w) := by
  induction bs generalizing w with
  | nil => exact .refl w
  | cons b bs ih => exact (hf b hran).trans (ih (((hf b hran).ran t).trans hran))

theorem mild_perform (hran : (w.exitTable t).ran = true) (depth : Nat)
    (action : HandlerAction) : w.Mild (perform (runTableWithin depth) t w action) := by
  cases action with
  | look => exact mild_notify rfl w
  | run =>
      simp only [perform, runTableWithin_of_ran hran]
      exact mild_notify rfl w
  | register tag =>
      simp only [perform, register_of_ran hran]
      exact (mild_notify rfl w).trans (mild_notify rfl _)

theorem mild_handle (hran : (w.exitTable t).ran = true) (depth : Nat) (h : Handler) :
    w.Mild (w.handle depth t h) := by
  refine Mild.trans ?_ (mild_tally _ _)
  cases h with
  | report tag actions =>
      have hnotify : w.Mild (w.notify (.handlerRan tag)) := mild_notify rfl w
      exact hnotify.trans (.foldl_of_ran (fun action hran => mild_perform hran depth action) actions
        hran)
  | teardown r => exact w.mild_teardown r

/-- Beyond the start of a table, its run is mild. -/
theorem mild_runTable (ht : t < w.exits.length) (hran : (w.exitTable t).ran = false) :
    (w.setExitTable t { handlers := [], ran := true }).Mild (w.runTable t).1 := by
  obtain ⟨depth, heq⟩ := runTable_eq ht hran
  have hran' := ran_setExitTable ht
  rw [heq]
  have hhandlers := Mild.foldl_of_ran (fun h hran => mild_handle hran depth h)
    (w.exitTable t).handlers.reverse hran'
  exact hhandlers.trans (mild_notify rfl _)

theorem mild_runTable_of_ge (ht : w.exits.length ≤ t) : w.Mild (w.runTable t).1 := by
  have hnone : w.exitTable t = {} := by simp [exitTable, List.getElem?_eq_none ht]
  unfold runTable
  cases w.exits.length with
  | zero => exact .refl w
  | succ depth =>
      rw [runTableWithin, hnone]
      simp only [ExitTable.start, Bool.false_eq_true, if_false, List.reverse_nil, List.foldl_nil,
        setExitTable_of_ge ht]
      exact mild_notify rfl w

end Hosted.World
