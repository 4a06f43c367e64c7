import Hosted.Proofs.Session.Answers

/-!
# Steps on locales, facets and lists of recorded facets
-/

namespace Hosted.Session

open World

variable {s : Session} {extra : Multiset Holding} {l : LocaleId} {f : FacetId}

theorem Valid.aside (h : s.Valid extra) {w : World} (ha : s.world.Aside w) :
    s.Leads extra { s with world := w } extra := h.onStep (.aside ha)

theorem Valid.index (h : s.Valid extra) (key : Indexed) :
    s.Leads extra (s.indexStep key).1 extra := h.onStep (.indexed key)

/-! ## Locales -/

theorem Valid.withLocale {name : String} {go : LocaleId → Locale → Session × Outcome}
    (h : s.Valid extra) (hgo : ∀ l body, s.Leads extra (go l body).1 extra) :
    s.Leads extra (s.withLocale name go).1 extra := by
  refine h.withNamed fun l _ => ?_
  cases s.world.locale? l with
  | none => exact h.refl
  | some body => exact hgo l body

theorem Valid.takeFacet (h : s.Valid extra) (kind : FacetKind) (source : FacetSource) :
    s.Leads extra (s.takeFacet kind source).1
      (handed .facet (s.takeFacet kind source).2 + extra) := by
  cases source with
  | fresh facet => exact h.gain (.madeFacet facet)
  | stored name =>
      simp only [Session.takeFacet]
      cases hf : s.facets.find? name with
      | none => exact h.refl.of_eq (Multiset.zero_add _).symm
      | some f =>
          simp only
          split
          · exact h.retainFacet (h.mem_of_facet hf)
          · exact h.refl.of_eq (Multiset.zero_add _).symm

theorem hand_takeFacet (s : Session) (kind : FacetKind) (source : FacetSource) :
    (s.takeFacet kind source).1.hand = s.hand := by
  cases source with
  | fresh facet => rfl
  | stored name =>
      simp only [Session.takeFacet]
      cases s.facets.find? name with
      | none => rfl
      | some f =>
          simp only
          split <;> rfl

theorem Valid.localeStep (h : s.Valid 0) (step : LocaleStep) :
    s.Leads 0 (s.localeStep step).1 0 := by
  cases step with
  | inspect locale => exact h.withLocale fun _ _ => h.refl
  | texts locale => exact h.withLocale fun _ _ => h.refl
  | holdsIndex locale kind =>
      exact h.withNamed fun l _ => h.index (.kind kind.indexOwner)
  | facet locale kind keep =>
      refine h.withNamed fun l _ => ?_
      have hlook := h.gain? (.lookedUp l kind)
      simp only [Session.perform]
      generalize s.world.ownFacet l kind = found at hlook ⊢
      obtain ⟨w, answer⟩ := found
      cases answer with
      | none => exact hlook.trans (hlook.valid.answerFacet? keep)
      | some f => exact hlook.trans (hlook.valid.answerFacet? keep)
  | clone locale keep =>
      refine h.withNamed fun l hl => ?_
      have hretain := h.retainLocale (h.mem_of_locale hl)
      exact hretain.trans (hretain.valid.answerLocale keep)
  | drop locale =>
      refine h.withNamed fun l hl => ?_
      have herase := h.eraseLocale hl
      exact herase.trans herase.valid.releaseLocale
  | withFacet locale kind source keep =>
      refine h.withNamed fun l hl => ?_
      have htake := h.takeFacet kind source
      have hhand := s.hand_takeFacet kind source
      simp only
      generalize s.takeFacet kind source = taken at htake hhand ⊢
      obtain ⟨s₁, answer⟩ := taken
      cases answer with
      | none => exact htake.of_eq (Multiset.zero_add _)
      | some f =>
          have hmem : Holding.locale l ∈ 0 + s₁.hand := hhand ▸ h.mem_of_locale hl
          have hmade : s₁.Leads (.facet f ::ₘ 0) (s₁.perform (·.withFacet l kind f)).1
              (.locale (s₁.world.withFacet l kind f).2 ::ₘ 0) := by
            refine htake.valid.onStep (e := .elsewhere) ?_
            rw [Multiset.cons_add]
            exact .derived kind hmem
          exact (htake.trans hmade).trans (hmade.valid.answerLocale keep)
  | compare first second =>
      exact h.withNamed fun _ _ => h.withNamed fun _ _ => h.refl
  | covers locale categories => exact h.withLocale fun _ _ => h.refl

/-! ## Facets -/

theorem Valid.recordedIndex (h : s.Valid extra) (kind : Option FacetKind) :
    s.Leads extra (s.perform (·.recordedIndex kind)).1 extra := by
  cases kind with
  | none => exact h.refl
  | some kind => exact h.index (.kind kind.indexOwner)

/-- The newest facet is released first. -/
theorem Valid.releaseEntries {fs : List FacetId}
    (h : s.Valid ((fs.map Holding.facet : List Holding) + extra)) :
    s.Leads ((fs.map Holding.facet : List Holding) + extra)
      (s.onWorld (·.releaseEntries fs)) extra := by
  have hperm : (fs.map Holding.facet : Multiset Holding) = fs.reverse.map Holding.facet :=
    Multiset.coe_eq_coe.2 ((List.reverse_perm fs).symm.map _)
  rw [hperm] at h ⊢
  have hrelease := h.releaseFacets
  exact hrelease.trans (hrelease.valid.aside ((World.aside_count _ _ _).trans (aside_notify _ rfl)))

/-- The list is emptied, and its references are on their way. -/
theorem Valid.emptyList (h : s.Valid extra) (list : String) :
    s.Leads extra (s.putList list [])
      ((((s.facetLists.find? list).getD []).map Holding.facet : List Holding) + extra) := by
  rw [← Multiset.zero_add extra] at h
  have hput : s.Leads (0 + extra) (s.putList list []) (_ + extra) :=
    h.putList (Multiset.add_comm 0 _)
  rwa [Multiset.zero_add] at hput

/-- The list takes over a reference. -/
theorem Valid.extendList (h : s.Valid (.facet f ::ₘ extra)) {list : String} {fs : List FacetId}
    (hlist : s.facetLists.find? list = some fs) :
    s.Leads (.facet f ::ₘ extra) (s.putList list (fs ++ [f])) extra := by
  rw [← Multiset.singleton_add] at h ⊢
  have hnew : {Holding.facet f} + ((((s.facetLists.find? list).getD []).map Holding.facet :
      List Holding) : Multiset Holding) = 0 + ((fs ++ [f]).map Holding.facet : List Holding) := by
    rw [hlist, Option.getD_some, Multiset.zero_add, Multiset.singleton_add, List.map_append]
    exact Multiset.coe_eq_coe.2 (List.perm_append_singleton _ _).symm
  exact (h.putList hnew).of_eq (Multiset.zero_add _)

theorem Valid.facetStep (h : s.Valid 0) (step : FacetStep) :
    s.Leads 0 (s.facetStep step).1 0 := by
  cases step with
  | make facet keep => exact h.answerFacetOf (·.addFacet facet) (.madeFacet facet) keep
  | inspect facet =>
      refine h.withNamed fun f _ => ?_
      cases s.world.facets.get? f <;> exact h.refl
  | drop facet =>
      refine h.withNamed fun f hf => ?_
      have herase := h.eraseFacet hf
      exact herase.trans herase.valid.releaseFacet
  | indexOfKind kind => exact h.index _
  | inspectKind kind => exact h.refl
  | newIdentity identity => exact h.onStep (.forgot identity)
  | indexOfIdentity identity => exact h.index _
  | inspectIdentity identity => exact h.refl
  | newList list =>
      have hempty := h.emptyList list
      exact hempty.trans hempty.valid.releaseFacets
  | record list facet kind =>
      refine h.withNamed fun facets hlist => h.withNamed fun f hf => ?_
      have hretain := h.retainFacet (h.mem_of_facet hf)
      have hindex := hretain.valid.recordedIndex kind
      have hextend := hindex.valid.extendList hlist
      refine ((hretain.trans hindex).trans hextend).trans (hextend.valid.aside ?_)
      exact World.aside_reportRecorded _ _ _
  | teardownList list =>
      refine h.withNamed fun facets hlist => ?_
      have hempty := h.emptyList list
      rw [hlist] at hempty
      exact hempty.trans hempty.valid.releaseEntries
  | inspectList list => exact h.withNamed fun _ _ => h.refl

end Hosted.Session
