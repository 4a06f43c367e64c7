import Hosted.Proofs.Session.Hands

/-!
# Answers and the references that go with them

An answer comes with references, which its name takes over or which are given up at
once. What is taken out of a name and what goes on with a registry or a table find what
they need there.
-/

namespace Hosted.Session

open World

variable {s : Session} {extra : Multiset Holding} {e : Event} {w : World} {l : LocaleId}
  {f : FacetId}

/-! ## Names -/

theorem Valid.withNamed {α : Type} {names : Names α} {name : String}
    {go : α → Session × Outcome} (h : s.Valid extra)
    (hgo : ∀ a, names.find? name = some a → s.Leads extra (go a).1 extra) :
    s.Leads extra (s.withNamed names name go).1 extra := by
  unfold Session.withNamed
  cases hfind : names.find? name with
  | none => exact h.refl
  | some a => exact hgo a hfind

theorem Valid.withTable {t : Ref} {go : TableId → Session × Outcome} (h : s.Valid extra)
    (hgo : ∀ id, id < s.world.exits.length → s.Leads extra (go id).1 extra) :
    s.Leads extra (s.withTable t go).1 extra := by
  cases t with
  | own => exact hgo _ h.processTable
  | named name =>
      exact h.withNamed fun id hid => hgo id (h.tables id (Names.mem_values_of_find? hid))

theorem Valid.withRegistry {t : ThreadId} {r : Ref}
    {go : Session → RegistryId → Session × Outcome} (h : s.Valid extra)
    (hgo : ∀ w r, ({ s with world := w } : Session).Valid extra → (w.registry? r).isSome →
      ({ s with world := w } : Session).Leads extra (go { s with world := w } r).1 extra) :
    s.Leads extra (s.withRegistry t r go).1 extra := by
  cases r with
  | named name =>
      exact h.withNamed fun r hr => hgo s.world r h (h.registries r (Names.mem_values_of_find? hr))
  | own =>
      have hmade := h.onStep (.owned t)
      have hsome : ∀ r, _ → _ := fun r => isSome_registry?_ownRegistry (r := r) (t := t) h.owns
      simp only [Session.withRegistry, Session.perform]
      generalize s.world.ownRegistry t = made at hmade hsome ⊢
      obtain ⟨w, result⟩ := made
      cases result with
      | error fault => exact hmade
      | ok r => exact hmade.trans (hgo w r hmade.valid (hsome r rfl))

/-- A thread that starts has nothing to access. -/
theorem Valid.threadOf (h : s.Valid extra) (on : Option String) :
    s.Leads extra (s.threadOf on).1 extra := by
  cases on with
  | none => exact h.refl
  | some name =>
      simp only [Session.threadOf]
      cases s.threads.find? name with
      | some run => exact h.refl
      | none =>
          refine h.rehold rfl rfl fun hkept => { h with locals := ?_, kept := hkept }
          intro id hid
          refine h.locals id (mem_localIds.2 ?_)
          rcases mem_localIds.1 hid with hid | ⟨run, hrun, a, ha, htarget⟩
          · exact Or.inl hid
          · refine Or.inr ⟨run, ?_, a, ha, htarget⟩
            rcases hrun with hrun | hrun
            · exact Or.inl hrun
            · rcases Names.mem_values_put hrun with rfl | hrun
              · exact absurd ha List.not_mem_nil
              · exact Or.inr hrun

/-! ## References on their way -/

theorem Valid.gain (h : s.Valid extra) {x : Holding}
    (hstep : World.Step s.world (extra + s.hand) e w (x ::ₘ (extra + s.hand))) :
    s.Leads extra { s with world := w } (x ::ₘ extra) :=
  h.onStep (by rwa [Multiset.cons_add])

theorem Valid.gain? (h : s.Valid extra) {xs : Multiset Holding}
    (hstep : World.Step s.world (extra + s.hand) e w (xs + (extra + s.hand))) :
    s.Leads extra { s with world := w } (xs + extra) :=
  h.onStep (by rwa [Multiset.add_assoc])

theorem Valid.spend {x : Holding} (h : s.Valid (x ::ₘ extra))
    (hstep : World.Step s.world (x ::ₘ (extra + s.hand)) e w (extra + s.hand)) :
    s.Leads (x ::ₘ extra) { s with world := w } extra :=
  h.onStep (by rwa [Multiset.cons_add])

theorem Valid.releaseLocale (h : s.Valid (.locale l ::ₘ extra)) :
    s.Leads (.locale l ::ₘ extra) (s.onWorld (·.releaseLocale l)) extra := h.spend .releasedLocale

theorem Valid.retainLocale (h : s.Valid extra) (hl : .locale l ∈ extra + s.hand) :
    s.Leads extra (s.onWorld (·.retainLocale l)) (.locale l ::ₘ extra) :=
  h.gain (.retainedLocale hl)

theorem Valid.releaseFacet (h : s.Valid (.facet f ::ₘ extra)) :
    s.Leads (.facet f ::ₘ extra) (s.onWorld (·.releaseFacet f)) extra := h.spend .releasedFacet

theorem Valid.retainFacet (h : s.Valid extra) (hf : .facet f ∈ extra + s.hand) :
    s.Leads extra (s.onWorld (·.retainFacet f)) (.facet f ::ₘ extra) := h.gain (.retainedFacet hf)

theorem Valid.releaseLocale? {answer : Option LocaleId}
    (h : s.Valid (handed .locale answer + extra)) :
    s.Leads (handed .locale answer + extra)
      (answer.elim s fun l => s.onWorld (·.releaseLocale l)) extra := by
  cases answer with
  | none => exact h.refl.of_eq (Multiset.zero_add _)
  | some l => exact Valid.releaseLocale h

theorem Valid.releaseFacet? {answer : Option FacetId}
    (h : s.Valid (handed .facet answer + extra)) :
    s.Leads (handed .facet answer + extra)
      (answer.elim s fun f => s.onWorld (·.releaseFacet f)) extra := by
  cases answer with
  | none => exact h.refl.of_eq (Multiset.zero_add _)
  | some f => exact Valid.releaseFacet h

theorem Valid.releaseLocales {ls : List LocaleId}
    (h : s.Valid ((ls.map Holding.locale : List Holding) + extra)) :
    s.Leads ((ls.map Holding.locale : List Holding) + extra)
      (s.onWorld (·.releaseLocales ls)) extra := by
  induction ls generalizing s with
  | nil => exact h.refl.of_eq (Multiset.zero_add _)
  | cons l ls ih =>
      rw [List.map_cons, ← Multiset.cons_coe, Multiset.cons_add] at h ⊢
      exact h.releaseLocale.trans (ih h.releaseLocale.valid)

theorem Valid.releaseFacets {fs : List FacetId}
    (h : s.Valid ((fs.map Holding.facet : List Holding) + extra)) :
    s.Leads ((fs.map Holding.facet : List Holding) + extra)
      (s.onWorld (·.releaseFacets fs)) extra := by
  induction fs generalizing s with
  | nil => exact h.refl.of_eq (Multiset.zero_add _)
  | cons f fs ih =>
      rw [List.map_cons, ← Multiset.cons_coe, Multiset.cons_add] at h ⊢
      exact h.releaseFacet.trans (ih h.releaseFacet.valid)

/-! ## Answers -/

theorem Valid.keepLocale (h : s.Valid (.locale l ::ₘ extra)) (keep : Option String) :
    s.Leads (.locale l ::ₘ extra) (s.keepLocale keep l) extra := by
  cases keep with
  | none => exact h.releaseLocale
  | some name =>
      have hput := h.putLocale name
      exact hput.trans hput.valid.releaseLocale?

theorem Valid.answerLocale (h : s.Valid (.locale l ::ₘ extra)) (keep : Option String) :
    s.Leads (.locale l ::ₘ extra) (s.answerLocale keep l).1 extra := h.keepLocale keep

theorem Valid.answerLocale? {answer : Option LocaleId}
    (h : s.Valid (handed .locale answer + extra)) (keep : Option String) :
    s.Leads (handed .locale answer + extra) (s.answerLocale? keep answer).1 extra := by
  cases answer with
  | none => exact h.refl.of_eq (Multiset.zero_add _)
  | some l => exact Valid.answerLocale h keep

theorem Valid.keepFacet (h : s.Valid (.facet f ::ₘ extra)) (keep : Option String) :
    s.Leads (.facet f ::ₘ extra) (s.keepFacet keep f) extra := by
  cases keep with
  | none => exact h.releaseFacet
  | some name =>
      have hput := h.putFacet name
      exact hput.trans hput.valid.releaseFacet?

/-- A facet on its way is live. -/
theorem Valid.answerFacet (h : s.Valid (.facet f ::ₘ extra)) (keep : Option String) :
    s.Leads (.facet f ::ₘ extra) (s.answerFacet keep f).1 extra := by
  have hmem : Holding.facet f ∈ (.facet f ::ₘ extra) + s.hand :=
    Multiset.mem_add.2 (Or.inl (Multiset.mem_cons_self _ _))
  obtain ⟨o, -, -, hget⟩ := Shared.exists_of_refs_pos (h.kept.refs_pos_of_mem hmem)
  unfold Session.answerFacet
  rw [hget]
  exact h.keepFacet keep

theorem Valid.answerFacet? {answer : Option FacetId}
    (h : s.Valid (handed .facet answer + extra)) (keep : Option String) :
    s.Leads (handed .facet answer + extra) (s.answerFacet? keep answer).1 extra := by
  cases answer with
  | none => exact h.refl.of_eq (Multiset.zero_add _)
  | some f => exact Valid.answerFacet h keep

/-! ## Calls that answer with a reference -/

theorem Valid.answerLocaleOf (h : s.Valid extra) (op : World → World × LocaleId)
    (hstep : World.Step s.world (extra + s.hand) e (op s.world).1
      (.locale (op s.world).2 ::ₘ (extra + s.hand))) (keep : Option String) :
    s.Leads extra ((s.perform op).1.answerLocale keep (s.perform op).2).1 extra := by
  have hgain := h.gain hstep
  exact hgain.trans (hgain.valid.answerLocale keep)

theorem Valid.answerFacetOf (h : s.Valid extra) (op : World → World × FacetId)
    (hstep : World.Step s.world (extra + s.hand) e (op s.world).1
      (.facet (op s.world).2 ::ₘ (extra + s.hand))) (keep : Option String) :
    s.Leads extra ((s.perform op).1.answerFacet keep (s.perform op).2).1 extra := by
  have hgain := h.gain hstep
  exact hgain.trans (hgain.valid.answerFacet keep)

theorem Valid.answerLocaleOf? (h : s.Valid extra) (op : World → World × Option LocaleId)
    (hstep : World.Step s.world (extra + s.hand) e (op s.world).1
      (handed .locale (op s.world).2 + (extra + s.hand))) (keep : Option String) :
    s.Leads extra ((s.perform op).1.answerLocale? keep (s.perform op).2).1 extra := by
  have hgain := h.gain? hstep
  exact hgain.trans (hgain.valid.answerLocale? keep)

theorem Valid.answerFacetOf? (h : s.Valid extra) (op : World → World × Option FacetId)
    (hstep : World.Step s.world (extra + s.hand) e (op s.world).1
      (handed .facet (op s.world).2 + (extra + s.hand))) (keep : Option String) :
    s.Leads extra ((s.perform op).1.answerFacet? keep (s.perform op).2).1 extra := by
  have hgain := h.gain? hstep
  exact hgain.trans (hgain.valid.answerFacet? keep)

end Hosted.Session
