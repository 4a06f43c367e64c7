import Hosted.Proofs.Session.Answers

/-!
# Steps on registries and exit tables

Each step of a session is a run of calls whose references end in names or are given up,
so the accounts are kept from the first call to the last.
-/

namespace Hosted.Session

open World

variable {s : Session} {extra : Multiset Holding}

/-! ## Registries -/

/-- The reference in the setting comes from the step, that in the setting before goes to the
answer. -/
theorem Valid.setThreadStep (h : s.Valid extra) (t : ThreadId) {r : RegistryId}
    (hr : (s.world.registry? r).isSome) {l : Option LocaleId}
    (hl : ∀ id, l = some id → .locale id ∈ extra + s.hand) (keep : Option String) :
    s.Leads extra (s.setThreadStep t r l keep).1 extra := by
  have hretain : s.Leads extra (l.elim s fun l => s.onWorld (·.retainLocale l))
      (handed .locale l + extra) := by
    cases l with
    | none => exact h.refl.of_eq (Multiset.zero_add _).symm
    | some l => exact h.retainLocale (hl l rfl)
  have hr' : ((l.elim s fun l => s.onWorld (·.retainLocale l)).world.registry? r).isSome := by
    cases l <;> exact hr
  unfold Session.setThreadStep
  simp only
  generalize l.elim s (fun l => s.onWorld (·.retainLocale l)) = s₁ at hretain hr' ⊢
  have hstep : World.Step s₁.world (handed .locale l + (extra + s₁.hand)) _ _ _ :=
    .setThread t l hr'
  rw [← Multiset.add_assoc, ← Multiset.add_assoc] at hstep
  have hset := hretain.valid.onStep hstep
  simp only [Session.perform]
  generalize s₁.world.setThreadLocale r t l = set at hset ⊢
  obtain ⟨w, result⟩ := set
  cases result with
  | error fault => exact hretain.trans (hset.of_eq (Multiset.zero_add _))
  | ok before => exact (hretain.trans hset).trans (hset.valid.answerLocale? keep)

theorem Valid.registryStep (h : s.Valid 0) (t : ThreadId) (step : RegistryStep) :
    s.Leads 0 (s.registryStep t step).1 0 := by
  cases step with
  | make registry table =>
      refine h.withTable fun exits hexits => ?_
      have hmade := h.onStep (.registered t exits hexits)
      have hsome : ∀ r, (s.world.addRegistry t exits).2 = .ok r → _ :=
        fun r => isSome_registry?_addRegistry
      simp only [Session.perform]
      generalize s.world.addRegistry t exits = made at hmade hsome ⊢
      obtain ⟨w, result⟩ := made
      cases result with
      | error f => exact hmade
      | ok r =>
          refine hmade.trans (hmade.valid.rehold rfl rfl fun hkept =>
            { hmade.valid with registries := ?_, kept := hkept })
          intro r' hr'
          rcases Names.mem_values_put hr' with rfl | hr'
          · exact hsome _ rfl
          · exact hmade.valid.registries r' hr'
  | classic registry keep =>
      exact h.withRegistry fun w r hw hr => hw.answerLocaleOf (·.classicLocale r) (.classic hr) keep
  | «global» registry keep =>
      exact h.withRegistry fun w r hw hr => hw.answerLocaleOf (·.globalLocale r) (.global hr) keep
  | empty registry keep =>
      exact h.withRegistry fun w r hw hr => hw.answerLocaleOf (·.emptyLocale r) (.empty hr) keep
  | ofThread registry keep =>
      refine h.withRegistry fun w r hw hr => ?_
      obtain ⟨g, hg⟩ := Option.isSome_iff_exists.1 hr
      exact hw.answerLocaleOf (·.threadLocale r t) (.ofThread t hg) keep
  | global? registry keep =>
      exact h.withRegistry fun w r hw hr =>
        hw.answerLocaleOf? (·.globalLocale? r) (.global? hr) keep
  | ensure registry =>
      exact h.withRegistry fun w r hw hr => hw.onStep (.ensured hr)
  | isReady registry => exact h.withRegistry fun w r hw hr => hw.refl
  | replaceGlobal registry locale keep =>
      refine h.withRegistry fun w r hw hr => hw.withNamed fun l hl => ?_
      exact hw.answerLocaleOf (·.replaceGlobal r l) (.replaced hr (hw.mem_of_locale hl)) keep
  | setThread registry locale keep =>
      cases locale with
      | none =>
          refine h.withRegistry fun w r hw hr => hw.setThreadStep t hr (l := none) ?_ keep
          intro l hl
          cases hl
      | some locale =>
          refine h.withRegistry fun w r hw hr => hw.withNamed fun l hl => ?_
          refine hw.setThreadStep t hr (l := some l) ?_ keep
          intro l' hl'
          cases hl'
          exact hw.mem_of_locale hl
  | findFacet registry locale kind keep =>
      refine h.withRegistry fun w r hw hr => hw.withNamed fun l hl => ?_
      exact hw.answerFacetOf? (·.findFacet r l kind) (.found kind hr (hw.mem_of_locale hl)) keep
  | useFacet registry locale kind keep =>
      refine h.withRegistry fun w r hw hr => hw.withNamed fun l hl => ?_
      exact hw.answerFacetOf (·.useFacet r l kind) (.used kind hr (hw.mem_of_locale hl)) keep
  | recordFacet registry facet =>
      refine h.withRegistry fun w r hw hr => hw.withNamed fun f hf => ?_
      have hretain := hw.retainFacet (hw.mem_of_facet hf)
      exact hretain.trans (hretain.valid.spend (.recorded none hr))
  | releaseRecorded registry =>
      exact h.withRegistry fun w r hw hr => hw.onStep (.releasedRecorded hr)
  | teardown registry =>
      exact h.withRegistry fun w r hw hr => hw.onStep (.toreDown hr)
  | inspect registry => exact h.withRegistry fun w r hw hr => hw.refl

/-! ## Exit tables -/

theorem Valid.exitStep (h : s.Valid 0) (step : ExitStep) :
    s.Leads 0 (s.exitStep step).1 0 := by
  cases step with
  | make table =>
      have hmade := h.onStep .tableMade
      refine hmade.trans (hmade.valid.rehold rfl rfl fun hkept =>
        { hmade.valid with tables := ?_, kept := hkept })
      intro t ht
      rcases Names.mem_values_put ht with rfl | ht
      · change s.world.exits.length < (s.world.exits ++ [({} : ExitTable Handler)]).length
        simp
      · exact hmade.valid.tables t ht
  | register table tag actions =>
      refine h.withTable fun t _ => ?_
      have hadded := h.onStep (.handlerAdded t tag actions)
      simp only [Session.perform]
      generalize s.world.register t (.report tag actions) = registered at hadded ⊢
      obtain ⟨w, result⟩ := registered
      cases result <;> exact hadded
  | run table => exact h.withTable fun t _ => h.onStep (.tableRun t)
  | inspect table => exact h.withTable fun _ _ => h.refl

end Hosted.Session
