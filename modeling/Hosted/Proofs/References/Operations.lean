import Hosted.Proofs.Names
import Hosted.Proofs.References.Values

/-!
# References in the operations on locales and registries

What each operation takes from callers and hands to them. An operation that answers with
a locale or a facet hands out one reference to it.
-/

namespace Hosted.World

variable {w w' : World} {hand hand' : Multiset Holding} {r : RegistryId} {g : Registry}
  {l : LocaleId} {f : FacetId}

/-- What a row of facets holds. -/
def row (facets : List (Option FacetId)) : Multiset Holding :=
  (facets.filterMap id).map Holding.facet

/-! ## Rows of facets -/

/-- A facet comes to a row, and what stood at its index leaves the row. -/
theorem row_place (facets : List (Option FacetId)) (index : Nat) (f : FacetId) :
    handed .facet facets[index]?.join + row (Locale.place facets index f) =
      .facet f ::ₘ row facets := by
  have hperm : (facets[index]?.join.toList ++
      (Locale.place facets index f).filterMap id).Perm (f :: facets.filterMap id) := by
    rw [List.perm_iff_count]
    intro x
    have hcount := Locale.count_place facets index f x
    simp only [List.count_append, List.count_cons, List.count_nil] at hcount ⊢
    omega
  have hmap := hperm.map Holding.facet
  rw [List.map_append, List.map_cons] at hmap
  rw [handed, row, row, Multiset.coe_add, Multiset.cons_coe]
  exact Multiset.coe_eq_coe.2 hmap

theorem Kept.retainFacet? (h : w.Kept hand) (answer : Option FacetId)
    (hpos : ∀ f, answer = some f → 0 < w.refsOf (.facet f)) :
    w.Keeps (answer.elim w w.retainFacet) (handed .facet answer + hand) := by
  cases answer with
  | none => exact (h.of_eq (Multiset.zero_add _).symm).refl
  | some f => exact (h.retainFacet (hpos f rfl)).of_eq (Multiset.singleton_add _ _).symm

theorem Kept.releaseFacet? {answer : Option FacetId}
    (h : w.Kept (handed .facet answer + hand)) :
    w.Keeps (answer.elim w w.releaseFacet) hand := by
  cases answer with
  | none => exact (h.of_eq (Multiset.zero_add _)).refl
  | some f => exact (h.of_eq (Multiset.singleton_add _ _)).releaseFacet

/-- One more reference is taken to each facet of a row. -/
theorem Kept.retainRow (h : w.Kept hand) (facets : List (Option FacetId))
    (hpos : ∀ f, some f ∈ facets → 0 < w.refsOf (.facet f)) :
    w.Keeps (facets.foldl (fun w o => o.elim w w.retainFacet) w) (row facets + hand) := by
  induction facets generalizing w hand with
  | nil => exact (h.of_eq (Multiset.zero_add _).symm).refl
  | cons o facets ih =>
      have hstep := h.retainFacet? o fun f ho => hpos f (ho ▸ List.mem_cons_self)
      have hpos' : ∀ f, some f ∈ facets → 0 < (o.elim w w.retainFacet).refsOf (.facet f) := by
        intro f hf
        have hf' := hpos f (List.mem_cons_of_mem _ hf)
        cases o with
        | none => exact hf'
        | some f' =>
            have hrefs := Shared.refs_retain (hpos f' List.mem_cons_self) f
            change 0 < (w.facets.retain f').refs f
            change 0 < w.facets.refs f at hf'
            omega
      apply (hstep.trans (ih hstep.kept hpos')).of_eq
      rw [← Multiset.add_assoc]
      congr 1
      rw [Multiset.add_comm, row, handed, row, Multiset.coe_add, ← List.map_append]
      cases o <;> rfl

theorem Kept.placeNew {facets : List (Option FacetId)} {body : Facet}
    (h : w.Kept (row facets + hand))
    (hfree : facets[(w.indexOf body.kind).2]?.join = none) :
    w.Keeps (w.placeNew facets body).1 (row (w.placeNew facets body).2 + hand) := by
  have hindex := h.indexOf body.kind
  have hadd := hindex.trans (hindex.kept.addFacet body)
  apply hadd.of_eq
  have hrow := row_place facets (w.indexOf body.kind).2
    ((w.indexOf body.kind).1.addFacet body).2
  rw [hfree, handed, Option.toList_none, List.map_nil, Multiset.coe_nil,
    Multiset.zero_add] at hrow
  rw [← Multiset.cons_add, ← hrow]
  rfl

/-! ## Locales -/

/-- A row holds one facet of each of the kinds at its index, and nothing else. -/
structure Furnished (w : World) (facets : List (Option FacetId)) (kinds : List FacetKind) :
    Prop where
  carries : ∀ kind ∈ kinds, w.Carries facets kind
  only : ∀ {i}, facets[i]?.join ≠ none →
    ∃ kind ∈ kinds, w.indices.find? (.kind kind.indexOwner) = some i

theorem Furnished.free {facets : List (Option FacetId)} {kinds : List FacetKind}
    (h : w.Furnished facets kinds) (hsound : w.indices.Sound) {body : Facet}
    (hnew : ∀ kind ∈ kinds, kind.indexOwner ≠ body.kind.indexOwner) :
    facets[(w.indexOf body.kind).2]?.join = none := by
  by_contra hfull
  obtain ⟨kind, hkind, hi⟩ := h.only hfull
  have hself := FacetIndices.find?_assign_self w.indices (.kind body.kind.indexOwner)
  have hkeep : (w.indices.assign (.kind body.kind.indexOwner)).1.find? _ = _ :=
    FacetIndices.find?_assign hi
  exact hnew kind hkind (Indexed.kind.inj ((hsound.assign _).inj hkeep hself))

theorem Furnished.placeNew {facets : List (Option FacetId)} {kinds : List FacetKind}
    (h : w.Furnished facets kinds) (hsound : w.indices.Sound) {body : Facet}
    (hnew : ∀ kind ∈ kinds, kind.indexOwner ≠ body.kind.indexOwner) :
    (w.placeNew facets body).1.Furnished (w.placeNew facets body).2 (kinds ++ [body.kind]) := by
  have hself : (w.placeNew facets body).1.indices.find? (.kind body.kind.indexOwner) =
      some (w.indexOf body.kind).2 :=
    FacetIndices.find?_assign_self w.indices (.kind body.kind.indexOwner)
  have hplace : ∀ j, (w.placeNew facets body).2[j]?.join = if j = (w.indexOf body.kind).2 then
      some w.facets.objects.length else facets[j]?.join := Locale.getElem?_place facets _ _
  have hfree := h.free hsound hnew
  refine ⟨?_, ?_⟩
  · intro kind hkind
    rcases List.mem_append.1 hkind with hold | hlast
    · have hcarries : (w.placeNew facets body).1.Carries facets kind :=
        (h.carries kind hold).mono (Shared.ages_insert w.facets body) FacetIndices.find?_assign
      obtain ⟨i, f, p, hi, hf, hp, hbody⟩ := hcarries
      refine ⟨i, f, p, hi, ?_, hp, hbody⟩
      rw [hplace, if_neg, hf]
      rintro rfl
      rw [hf] at hfree
      cases hfree
    · rw [List.mem_singleton] at hlast
      subst hlast
      refine ⟨_, w.facets.objects.length, ⟨1, body⟩, hself, ?_, ?_, rfl⟩
      · rw [hplace, if_pos rfl]
      · exact List.getElem?_concat_length
  · intro i hi
    rw [hplace] at hi
    split at hi
    · next heq =>
        rw [heq]
        exact ⟨body.kind, List.mem_append_right _ (List.mem_singleton.2 rfl), hself⟩
    · obtain ⟨kind, hkind, hfind⟩ := h.only hi
      exact ⟨kind, List.mem_append_left _ hkind, FacetIndices.find?_assign hfind⟩

/-- A new classic locale holds three facets at the indices of their kinds. -/
theorem Kept.addClassic (h : w.Kept hand) :
    w.Keeps w.addClassic.1 (.locale w.addClassic.2 ::ₘ hand) ∧
      w.addClassic.1.IsClassic w.addClassic.2 := by
  let p₁ := w.placeNew [] .charClass
  let p₂ := p₁.1.placeNew p₁.2 (.numPunct .classic)
  let p₃ := p₂.1.placeNew p₂.2 .collation
  have hrow : w.Furnished [] [] :=
    ⟨fun _ hkind => absurd hkind List.not_mem_nil, fun hi => absurd rfl hi⟩
  have h₁ : w.Keeps p₁.1 (row p₁.2 + hand) :=
    (h.of_eq (Multiset.zero_add _).symm).placeNew rfl
  have hrow₁ : p₁.1.Furnished p₁.2 [.charClass] := hrow.placeNew h.indexed (by decide)
  have h₂ : p₁.1.Keeps p₂.1 (row p₂.2 + hand) :=
    h₁.kept.placeNew (hrow₁.free h₁.kept.indexed (by decide))
  have hrow₂ : p₂.1.Furnished p₂.2 [.charClass, .numPunct] :=
    hrow₁.placeNew h₁.kept.indexed (by decide)
  have h₃ : p₂.1.Keeps p₃.1 (row p₃.2 + hand) :=
    h₂.kept.placeNew (hrow₂.free h₂.kept.indexed (by decide))
  have hrow₃ : p₃.1.Furnished p₃.2 FacetKind.standard :=
    hrow₂.placeNew h₂.kept.indexed (by decide)
  have h₄ : p₃.1.Keeps w.addClassic.1 (.locale w.addClassic.2 ::ₘ hand) :=
    Kept.addLocale h₃.kept ⟨fun h => absurd h Bool.false_ne_true, rfl⟩
  refine ⟨((h₁.trans h₂).trans h₃).trans h₄, ?_⟩
  exact ⟨_, List.getElem?_concat_length, rfl, hrow₃.carries⟩

theorem Kept.addTransparent (h : w.Kept hand) :
    w.Keeps w.addTransparent.1 (.locale w.addTransparent.2 ::ₘ hand) :=
  Kept.addLocale (h.of_eq (Multiset.zero_add _).symm) ⟨fun _ => ⟨rfl, rfl⟩, rfl⟩

theorem Kept.exists_body (h : w.Kept hand) (hl : .locale l ∈ hand) :
    ∃ body, w.locales.get? l = some body ∧ ∀ f, some f ∈ body.facets → .facet f ∈ w.held := by
  obtain ⟨o, -, -, hget⟩ := Shared.exists_of_refs_pos (h.refs_pos_of_mem hl)
  refine ⟨o.body, hget, ?_⟩
  intro f hf
  apply mem_held_of_locale hget
  exact List.mem_map_of_mem (List.mem_filterMap.2 ⟨some f, hf, rfl⟩)

theorem mem_facets_of_facetAt? {body : Locale} {i : Nat} (hf : body.facetAt? i = some f) :
    some f ∈ body.facets :=
  List.mem_of_getElem? (Option.join_eq_some_iff.1 hf)

/-- A derived locale has one reference to each of its facets; that to the new one was the
caller's. -/
theorem Kept.withFacet (h : w.Kept (.facet f ::ₘ hand)) (hl : .locale l ∈ hand)
    (kind : FacetKind) :
    w.Keeps (w.withFacet l kind f).1 (.locale (w.withFacet l kind f).2 ::ₘ hand) := by
  obtain ⟨body, hbody, hfacets⟩ := h.exists_body (Multiset.mem_cons_of_mem hl)
  unfold World.withFacet
  rw [World.locale?, hbody, Option.getD_some]
  have h₁ := h.retainRow body.facets fun f hf => h.refs_pos_of_held (hfacets f hf)
  have h₂ := h₁.trans (h₁.kept.indexOf kind)
  simp only
  generalize World.indexOf _ kind = p at h₂ ⊢
  obtain ⟨w₂, index⟩ := p
  simp only at h₂ ⊢
  have hrow : row body.facets + (.facet f ::ₘ hand) =
      handed .facet (body.facetAt? index) +
        (row (Locale.place body.facets index f) + hand) := by
    rw [← Multiset.add_assoc, Locale.facetAt?, row_place, Multiset.add_cons,
      Multiset.cons_add]
  have h₃ := Kept.releaseFacet? (h₂.kept.of_eq hrow)
  exact (h₂.trans h₃).trans
    (Kept.addLocale h₃.kept ⟨fun h => absurd h Bool.false_ne_true, rfl⟩)

theorem pos_of_filtered {answer : Option FacetId} {kind : FacetKind}
    (hf : answer.filter (fun f => (w.facets.get? f).any (·.kind = kind)) = some f) :
    0 < w.refsOf (.facet f) := by
  obtain ⟨body, hbody, -⟩ := (Option.any_eq_true _ _).1 (Option.filter_eq_some_iff.1 hf).2
  exact Shared.refs_pos_of_get? hbody

theorem Kept.lookUp (h : w.Kept hand) (l : LocaleId) (kind : FacetKind) :
    w.Keeps ((w.ownFacet l kind).2.elim (w.ownFacet l kind).1 (w.ownFacet l kind).1.retainFacet)
      (handed .facet (w.ownFacet l kind).2 + hand) := by
  have h₁ : w.Keeps (w.ownFacet l kind).1 hand := h.indexOf kind
  refine h₁.trans (h₁.kept.retainFacet? _ ?_)
  exact fun f hf => pos_of_filtered hf

/-! ## Publication -/

theorem held_of_global (hg : w.registry? r = some g) (hl : g.global = some l) :
    Holding.locale l ∈ w.held := by
  refine mem_held_of_registry hg (List.mem_append_left _ (List.mem_map_of_mem ?_))
  rw [hl]
  exact List.mem_append_right _ List.mem_cons_self

theorem held_of_classic (hg : w.registry? r = some g) (hl : g.classic = some l) :
    Holding.locale l ∈ w.held := by
  refine mem_held_of_registry hg (List.mem_append_left _ (List.mem_map_of_mem ?_))
  rw [hl]
  exact List.mem_append_left _ List.mem_cons_self

theorem Kept.publishClassic (h : w.Kept hand) (hg : w.registry? r = some g) :
    w.Keeps (w.publishClassic r).1 hand := by
  cases hc : g.classic with
  | some c =>
      rw [publishClassic_of_some hg hc]
      exact h.refl
  | none =>
      rw [publishClassic_of_none hg hc]
      obtain ⟨h₁, hclassic⟩ := h.addClassic
      have hg₁ : World.registry? w.addClassic.1 r = some g :=
        (w.unmoved_addClassic.registry? r).trans hg
      have h₂ : w.addClassic.1.Keeps _ hand := h₁.kept.modifyRegistry hg₁
        (f := ({ · with classic := some w.addClassic.2 })) rfl rfl id
        (fun c hgc => Or.inr (Option.some.inj hgc ▸ hclassic)) (by
          intro x
          simp only [Registry.holdings, hc, Option.toList_none, Option.toList_some,
            List.nil_append, List.cons_append, List.map_cons, List.count_append,
            List.count_cons, Multiset.count_cons, beq_iff_eq, eq_comm (a := x)]
          omega)
      exact (h₁.trans h₂).trans (h₂.kept.log rfl)

theorem Kept.publishGlobal (h : w.Kept hand) (hg : w.registry? r = some g) {c : LocaleId}
    (hc : 0 < w.refsOf (.locale c)) : w.Keeps (w.publishGlobal r c).1 hand := by
  cases hl : g.global with
  | some l =>
      rw [publishGlobal_of_some hg hl]
      exact h.refl
  | none =>
      rw [publishGlobal_of_none hg hl]
      have h₁ := h.retainLocale hc
      have hg₁ : World.registry? (w.retainLocale c) r = some g :=
        (Unmoved.registry? (w.unmoved_retainLocale c) r).trans hg
      have h₂ : (w.retainLocale c).Keeps _ hand := h₁.kept.modifyRegistry hg₁
        (f := ({ · with global := some c })) rfl rfl id (fun _ => Or.inl) (by
          intro x
          simp only [Registry.holdings, hl, Option.toList_none, Option.toList_some,
            List.append_nil, List.map_append, List.map_cons, List.map_nil, List.count_append,
            List.count_cons, List.count_nil, Multiset.count_cons, beq_iff_eq, eq_comm (a := x)]
          omega)
      exact h₁.trans h₂

theorem Kept.queueTeardown (h : w.Kept hand) (hg : w.registry? r = some g) :
    w.Keeps (w.queueTeardown r) hand := by
  cases hq : g.teardownQueued with
  | true =>
      rw [queueTeardown_of_queued hg hq]
      exact h.refl
  | false =>
      rw [queueTeardown_of_not_queued hg hq]
      have h₁ : w.Keeps _ hand := h.modifyRegistry hg
        (f := ({ · with teardownQueued := true })) rfl rfl id (fun _ => Or.inl) fun x => rfl
      split
      · have h₂ := h₁.trans (h₁.kept.notify (n := .discarded (.teardown r)) rfl)
        exact h₂.trans (h₂.kept.log rfl)
      · exact h₁.trans (h₁.kept.setExitTable _ _)

theorem Kept.publish (h : w.Kept hand) (hg : w.registry? r = some g) :
    w.Keeps (w.publish r).1 hand := by
  have h₁ := h.publishClassic hg
  have hregistry₁ := registry?_publishClassic hg r
  unfold World.publish
  generalize w.publishClassic r = p₁ at h₁ hregistry₁ ⊢
  obtain ⟨w₁, c⟩ := p₁
  simp only [if_true] at h₁ hregistry₁ ⊢
  have hc : 0 < w₁.refsOf (.locale c) :=
    h₁.kept.refs_pos_of_held (held_of_classic hregistry₁ rfl)
  have h₂ := h₁.trans (h₁.kept.publishGlobal hregistry₁ hc)
  have hregistry₂ := registry?_publishGlobal hregistry₁ c r
  generalize w₁.publishGlobal r c = p₂ at h₂ hregistry₂ ⊢
  obtain ⟨w₂, l⟩ := p₂
  simp only [if_true] at h₂ hregistry₂ ⊢
  exact h₂.trans (h₂.kept.queueTeardown hregistry₂)

theorem Kept.ensureLocales (h : w.Kept hand) (hg : w.registry? r = some g) :
    w.Keeps (w.ensureLocales r) hand := by
  unfold World.ensureLocales
  split
  · exact h.refl
  · exact h.publish hg

theorem Kept.globalLocale? (h : w.Kept hand) (hg : w.registry? r = some g) :
    w.Keeps (w.globalLocale? r).1 (handed .locale (w.globalLocale? r).2 + hand) := by
  unfold World.globalLocale?
  rw [hg, Option.bind_some]
  cases hl : g.global with
  | none => exact (h.of_eq (Multiset.zero_add _).symm).refl
  | some l =>
      exact (h.retainLocale (h.refs_pos_of_held (held_of_global hg hl))).of_eq
        (Multiset.singleton_add _ _).symm

theorem Kept.globalLocale (h : w.Kept hand) (hg : w.registry? r = some g) :
    w.Keeps (w.globalLocale r).1 (.locale (w.globalLocale r).2 ::ₘ hand) := by
  unfold World.globalLocale World.globalLocale?
  rw [hg, Option.bind_some]
  cases hl : g.global with
  | some l => exact h.retainLocale (h.refs_pos_of_held (held_of_global hg hl))
  | none =>
      have h₁ := h.publish hg
      have hp := Published.registry? (published_publish hg) r
      rw [if_pos rfl] at hp
      exact h₁.trans (h₁.kept.retainLocale (h₁.kept.refs_pos_of_held (held_of_global hp rfl)))

theorem Kept.classicLocale (h : w.Kept hand) (hg : w.registry? r = some g) :
    w.Keeps (w.classicLocale r).1 (.locale (w.classicLocale r).2 ::ₘ hand) := by
  unfold World.classicLocale
  rw [hg, Option.bind_some]
  cases hc : g.classic with
  | some c => exact h.retainLocale (h.refs_pos_of_held (held_of_classic hg hc))
  | none =>
      have h₁ := h.publish hg
      have hp := Published.registry? (published_publish hg) r
      rw [if_pos rfl] at hp
      exact h₁.trans (h₁.kept.retainLocale (h₁.kept.refs_pos_of_held (held_of_classic hp rfl)))

theorem Kept.emptyLocale (h : w.Kept hand) (hg : w.registry? r = some g) :
    w.Keeps (w.emptyLocale r).1 (.locale (w.emptyLocale r).2 ::ₘ hand) :=
  (h.ensureLocales hg).trans (h.ensureLocales hg).kept.addTransparent

/-- The global locale before is handed over. -/
theorem Kept.replaceGlobal (h : w.Kept hand) (hg : w.registry? r = some g)
    (hl : .locale l ∈ hand) :
    w.Keeps (w.replaceGlobal r l).1 (.locale (w.replaceGlobal r l).2 ::ₘ hand) := by
  have h₁ := h.publish hg
  have hp := Published.registry? (published_publish hg) r
  rw [if_pos rfl] at hp
  have h₂ := h₁.trans (h₁.kept.retainLocale (h₁.kept.refs_pos_of_mem hl))
  have hg₂ : World.registry? ((w.publish r).1.retainLocale l) r = _ :=
    (Unmoved.registry? (unmoved_retainLocale _ l) r).trans hp
  have h₃ : World.Keeps _ _ (.locale (w.publish r).2.2 ::ₘ hand) := h₂.kept.modifyRegistry hg₂
    (f := ({ · with global := some l })) rfl rfl id (fun _ => Or.inl) (by
      intro x
      simp only [Registry.holdings, Option.toList_some, List.map_append, List.map_cons,
        List.map_nil, List.count_append, List.count_cons, List.count_nil, Multiset.count_cons,
        beq_iff_eq, eq_comm (a := x)]
      omega)
  exact (h₂.trans h₃).trans (h₃.kept.log rfl)

/-! ## Facets -/

theorem Kept.findFacet (h : w.Kept hand) (hg : w.registry? r = some g) (l : LocaleId)
    (kind : FacetKind) :
    w.Keeps (w.findFacet r l kind).1 (handed .facet (w.findFacet r l kind).2 + hand) := by
  have hown := h.lookUp l kind
  have h₁ : w.Keeps (w.ownFacet l kind).1 hand := h.indexOf kind
  have hg₁ : World.registry? (w.ownFacet l kind).1 r = some g :=
    (Unmoved.registry? (w.unmoved_ownFacet l kind) r).trans hg
  unfold World.findFacet
  generalize w.ownFacet l kind = own at hown h₁ hg₁ ⊢
  obtain ⟨w₁, found⟩ := own
  cases found with
  | some f => exact hown
  | none =>
      simp only at h₁ hg₁ ⊢
      split
      · have h₂ := h₁.kept.globalLocale hg₁
        generalize w₁.globalLocale r = global at h₂ ⊢
        obtain ⟨w₂, l'⟩ := global
        have h₃ := h₂.kept.lookUp l' kind
        generalize w₂.ownFacet l' kind = own at h₃ ⊢
        obtain ⟨w₃, found⟩ := own
        simp only at h₂ h₃ ⊢
        rw [Multiset.add_cons] at h₃
        exact ((h₁.trans h₂).trans h₃).trans h₃.kept.releaseLocale
      · exact h₁.of_eq (Multiset.zero_add _).symm

theorem Kept.recordFacet (h : w.Kept (.facet f ::ₘ hand)) (hg : w.registry? r = some g)
    (kind : Option FacetKind) : w.Keeps (w.recordFacet r kind f) hand := by
  have h₁ : w.Keeps (w.recordedIndex kind).1 (.facet f ::ₘ hand) := by
    cases kind with
    | none => exact h.refl
    | some kind => exact h.indexOf kind
  have hg₁ : World.registry? (w.recordedIndex kind).1 r = some g := by
    cases kind with
    | none => exact hg
    | some kind => exact (Unmoved.registry? (w.unmoved_indexOf kind) r).trans hg
  unfold World.recordFacet
  generalize w.recordedIndex kind = recorded at h₁ hg₁ ⊢
  obtain ⟨w₁, index⟩ := recorded
  have h₂ : w₁.Keeps _ hand := h₁.kept.modifyRegistry hg₁
    (f := fun g => { g with entries := g.entries ++ [f] }) rfl rfl id (fun _ => Or.inl) (by
      intro x
      simp only [Registry.holdings, List.map_append, List.map_cons, List.map_nil,
        List.count_append, List.count_cons, List.count_nil, Multiset.count_cons, beq_iff_eq,
        eq_comm (a := x)]
      omega)
  have h₃ := h₂.trans (h₂.kept.tally .facetsRegistered)
  exact (h₁.trans h₃).trans (h₃.kept.log rfl)

theorem Kept.cacheFacet (h : w.Kept (.facet f ::ₘ hand)) (hg : w.registry? r = some g)
    (index : Nat) : w.Keeps (w.cacheFacet r index f) hand := by
  have hnd := h.cached g (List.mem_of_getElem? hg)
  unfold World.cacheFacet
  rw [hg, Option.bind_some]
  have h₁ : w.Keeps _
      (handed .facet ((g.lazy.find? (·.1 = index)).map (·.2)) + hand) := h.modifyRegistry hg
    (f := fun g => { g with lazy := g.lazy.filter (·.1 ≠ index) ++ [(index, f)] }) rfl rfl
    (by
      intro hnd
      simp only [List.map_append, List.map_cons, List.map_nil]
      refine List.nodup_append.2 ⟨hnd.sublist (List.filter_sublist.map _),
        List.nodup_singleton _, ?_⟩
      intro a ha b hb heq
      obtain ⟨p, hp, rfl⟩ := List.mem_map.1 ha
      rw [List.mem_singleton] at hb
      simp [heq, hb] at hp)
    (fun _ => Or.inl) (by
      intro x
      have hperm := (((perm_find?_filter hnd index).map (·.2)).map Holding.facet).count_eq x
      have hfound : handed .facet ((g.lazy.find? (·.1 = index)).map (·.2)) =
          (((g.lazy.find? (·.1 = index)).toList.map (·.2)).map Holding.facet :
            Multiset Holding) := by
        cases g.lazy.find? (·.1 = index) <;> rfl
      rw [hfound, Multiset.count_add, Multiset.coe_count]
      simp only [Registry.holdings, List.map_append, List.map_cons, List.map_nil,
        List.count_append, List.count_cons, List.count_nil, Multiset.count_cons, beq_iff_eq,
        eq_comm (a := x)] at hperm ⊢
      omega)
  exact h₁.trans (Kept.releaseFacet? h₁.kept)

theorem Kept.createFacet (h : w.Kept hand) (hg : w.registry? r = some g) (l : LocaleId)
    (index : Nat) (kind : FacetKind) :
    w.Keeps (w.createFacet r l index kind).1
      (.facet (w.createFacet r l index kind).2 ::ₘ hand) := by
  unfold World.createFacet
  simp only
  have h₁ : w.Keeps (if kind.isProbe = true then
      w.notify (.created kind (w.localeName l)) else w) hand := by
    split
    · exact h.notify rfl
    · exact h.refl
  have hg₁ : World.registry? (if kind.isProbe = true then
      w.notify (.created kind (w.localeName l)) else w) r = some g := by
    split
    · exact hg
    · exact hg
  generalize (if kind.isProbe = true then w.notify (.created kind (w.localeName l)) else w) =
    w₁ at h₁ hg₁ ⊢
  have h₂ := h₁.trans (h₁.kept.addFacet (.createFor kind (w.localeName l)))
  have hg₂ :=
    (Unmoved.registry? (w₁.unmoved_addFacet (.createFor kind (w.localeName l))) r).trans hg₁
  generalize w₁.addFacet (.createFor kind (w.localeName l)) = added at h₂ hg₂ ⊢
  obtain ⟨w₂, f⟩ := added
  simp only at h₂ hg₂ ⊢
  have h₃ := h₂.trans (h₂.kept.retainFacet (h₂.kept.refs_pos_of_mem (Multiset.mem_cons_self _ _)))
  have hg₃ := (Unmoved.registry? (w₂.unmoved_retainFacet f) r).trans hg₂
  have h₄ := h₃.trans (h₃.kept.cacheFacet hg₃ index)
  obtain ⟨g₄, hg₄, -, -⟩ := (h₃.kept.cacheFacet hg₃ index).extended.registry hg₃
  have h₅ := h₄.trans (h₄.kept.retainFacet (h₄.kept.refs_pos_of_mem (Multiset.mem_cons_self _ _)))
  have hg₅ := (Unmoved.registry? (unmoved_retainFacet _ f) r).trans hg₄
  have h₆ := h₅.trans (h₅.kept.recordFacet hg₅ (some kind))
  have h₇ := h₆.trans (h₆.kept.tally .lazyFacetsCreated)
  exact h₇.trans (h₇.kept.log rfl)

theorem Kept.useFacet (h : w.Kept hand) (hg : w.registry? r = some g) (l : LocaleId)
    (kind : FacetKind) :
    w.Keeps (w.useFacet r l kind).1 (.facet (w.useFacet r l kind).2 ::ₘ hand) := by
  have h₁ := h.findFacet hg l kind
  obtain ⟨g₁, hg₁, -, -⟩ := h₁.extended.registry hg
  unfold World.useFacet
  generalize w.findFacet r l kind = found at h₁ hg₁ ⊢
  obtain ⟨w₁, answer⟩ := found
  cases answer with
  | some f => exact h₁.of_eq (Multiset.singleton_add _ _)
  | none =>
      simp only at h₁ hg₁ ⊢
      have h₂ := (h₁.of_eq (Multiset.zero_add _)).trans
        ((h₁.kept.of_eq (Multiset.zero_add _)).indexOf kind)
      have hg₂ := (Unmoved.registry? (w₁.unmoved_indexOf kind) r).trans hg₁
      generalize w₁.indexOf kind = indexed at h₂ hg₂ ⊢
      obtain ⟨w₂, index⟩ := indexed
      simp only at h₂ hg₂ ⊢
      split
      · next f hf => exact h₂.trans (h₂.kept.retainFacet (pos_of_filtered hf))
      · exact h₂.trans (h₂.kept.createFacet hg₂ l index kind)

/-! ## Settings of threads -/

theorem getOr_of_some {t : ThreadId} {id : LocalId} {v : Payload}
    (hv : w.locals.get? t id = some v) (init : World → World × Payload) :
    w.getOr t id init = ((w.getLocal t id).1, .ok v) := by
  rw [getOr, tryGetOr_of_some hv]

/-- A thread without a setting gets an empty one, unless its bindings are gone. -/
theorem Kept.getOr_setting (h : w.Kept hand) (hg : w.registry? r = some g) (t : ThreadId) :
    (∃ w' before, w.getOr t g.threadLocale (fun w => (w, .setting none)) = (w', .ok before) ∧
        w.Keeps w' hand ∧ w'.locals.get? t g.threadLocale = some before ∧
        w.Admits g.threadLocale before) ∨
      ∃ w' fault, w.getOr t g.threadLocale (fun w => (w, .setting none)) = (w', .error fault) ∧
        w.Keeps w' hand := by
  have hhome : w.IsHome g.threadLocale := ⟨r, g, hg, rfl⟩
  have h₁ := h.getLocal t g.threadLocale
  obtain ⟨m, hm⟩ := h₁.kept.housed
  have hget : ∀ id, (w.getLocal t g.threadLocale).1.locals.get? t id = w.locals.get? t id :=
    fun id => Locals.get?_touch ..
  cases hv : w.locals.get? t g.threadLocale with
  | some v =>
      have hadm : (w.getLocal t g.threadLocale).1.Admits g.threadLocale v :=
        hm.admits (hm.describes.exact.toSound.mem_valuesOf_of_get? ((hget _).trans hv))
      exact Or.inl ⟨_, v, getOr_of_some hv _, h₁, (hget _).trans hv, hadm.congr Iff.rfl⟩
  | none =>
      have hadm : w.Admits g.threadLocale (.setting none) :=
        ⟨fun _ => ⟨none, rfl⟩, fun hid => absurd hhome hid⟩
      have hun := (hget g.threadLocale).trans hv
      have hlive : g.threadLocale ∈ m.live := hm.home_live hg
      have h₂ := h₁.trans (h₁.kept.bindValue (hadm.congr Iff.rfl) rfl fun _ => hun)
      have hbound := hm.describes.bindValue hlive
        (fun _ => (hm.describes.get? _ _).symm.trans hun)
        (.setting none)
      have heq := tryGetOr_of_none hv fun w => (w, .setting none)
      unfold getOr
      rw [heq]
      simp only
      generalize World.bindValue _ t g.threadLocale (.setting none) = bound at h₂ hbound ⊢
      obtain ⟨w₂, result⟩ := bound
      rcases hbound with ⟨-, hok, hdesc⟩ | ⟨-, index, herr, -⟩
      · simp only at hok hdesc
        subst hok
        refine Or.inl ⟨w₂, .setting none, rfl, h₂, ?_, hadm⟩
        rw [hdesc.get?]
        exact if_pos ⟨rfl, rfl⟩
      · simp only at herr
        subst herr
        refine Or.inr ⟨_, .bindFailed index, rfl, h₂.trans ?_⟩
        exact (calm_raise _ _).keeps_of_locals_eq h₂.kept rfl

theorem handed_locale (l : Option LocaleId) :
    handed .locale l = ((Payload.setting l).holdings : Multiset Holding) := by
  cases l <;> rfl

/-- The setting before is handed over; a setting that is refused is given up. -/
theorem Kept.setThreadLocale {l : Option LocaleId} (h : w.Kept (handed .locale l + hand))
    (hg : w.registry? r = some g) (t : ThreadId) :
    w.Keeps (w.setThreadLocale r t l).1
      ((w.setThreadLocale r t l).2.toOption.elim 0 (handed .locale) + hand) := by
  unfold World.setThreadLocale
  rw [hg]
  simp only
  rcases h.getOr_setting hg t with ⟨w₁, before, hgot, h₁, hget, hadm⟩ | ⟨w₁, fault, hgot, h₁⟩
  · rw [hgot]
    simp only
    obtain ⟨setting, rfl⟩ := hadm.setting ⟨r, g, hg, rfl⟩
    obtain ⟨c, hc, hcell⟩ := Option.bind_eq_some_iff.1 hget
    rw [hc]
    have hhome : w₁.IsHome g.threadLocale := by
      obtain ⟨g₁, hg₁, hlocal, -⟩ := h₁.extended.registry hg
      exact ⟨r, g₁, hg₁, hlocal⟩
    rw [handed_locale] at h₁
    have h₂ := h₁.kept.setCell hc hcell ⟨fun _ => ⟨l, rfl⟩, fun hid => absurd hhome hid⟩
    apply (h₁.trans h₂).of_eq
    rw [← handed_locale]
    rfl
  · rw [hgot]
    simp only
    have h₂ : w₁.Keeps (l.elim w₁ w₁.releaseLocale) hand := by
      cases l with
      | none => exact (h₁.kept.of_eq (Multiset.zero_add _)).refl
      | some l => exact (h₁.kept.of_eq (Multiset.singleton_add _ _)).releaseLocale
    exact (h₁.trans h₂).of_eq (Multiset.zero_add _).symm

theorem Kept.threadLocale (h : w.Kept hand) (hg : w.registry? r = some g) (t : ThreadId) :
    w.Keeps (w.threadLocale r t).1 (.locale (w.threadLocale r t).2 ::ₘ hand) := by
  have h₁ := h.getLocal t g.threadLocale
  have hg₁ : World.registry? (w.getLocal t g.threadLocale).1 r = some g := hg
  have hv : (w.getLocal t g.threadLocale).2 = w.locals.get? t g.threadLocale := rfl
  have hpos : ∀ {l}, w.locals.get? t g.threadLocale = some (.setting (some l)) →
      0 < (w.getLocal t g.threadLocale).1.refsOf (.locale l) := by
    intro l hl
    obtain ⟨c, -, hcell⟩ := Option.bind_eq_some_iff.1 hl
    exact h.refs_pos_of_held (mem_held_of_cell hcell List.mem_cons_self)
  unfold World.threadLocale
  rw [hg]
  simp only
  generalize w.getLocal t g.threadLocale = got at h₁ hg₁ hv hpos ⊢
  obtain ⟨w₁, v⟩ := got
  have hglobal := h₁.trans (h₁.kept.globalLocale hg₁)
  rcases v with _ | ⟨text⟩ | ⟨_ | l⟩
  · exact hglobal
  · exact hglobal
  · exact hglobal
  · exact h₁.trans (h₁.kept.retainLocale (hpos hv.symm))

/-! ## Teardown -/

theorem Kept.releaseEntries {entries : List FacetId}
    (h : w.Kept ((entries.map Holding.facet : Multiset Holding) + hand)) :
    w.Keeps (w.releaseEntries entries) hand := by
  have hreverse : (entries.map Holding.facet : Multiset Holding) =
      (entries.reverse.map Holding.facet : Multiset Holding) := by
    rw [List.map_reverse, Multiset.coe_reverse]
  have h₁ : w.Keeps (w.releaseFacets entries.reverse) hand :=
    Kept.releaseFacets (h.of_eq (congrArg (· + hand) hreverse))
  have h₂ := h₁.trans (h₁.kept.count .facetsReleased entries.length)
  unfold World.releaseEntries
  exact h₂.trans (h₂.kept.log rfl)

/-- The facets that a registry has recorded are in hand once they are taken out of it. -/
theorem Kept.takeEntries (h : w.Kept hand) (hg : w.registry? r = some g) :
    w.Keeps (w.modifyRegistry r ({ · with entries := [] }))
      ((g.entries.map Holding.facet : Multiset Holding) + hand) := by
  refine h.modifyRegistry hg rfl rfl id (fun _ => Or.inl) fun x => ?_
  simp only [Registry.holdings, List.append_nil, List.map_append, List.count_append,
    Multiset.count_add, Multiset.coe_count]
  omega

theorem Kept.releaseRecorded (h : w.Kept hand) (hg : w.registry? r = some g) :
    w.Keeps (w.releaseRecorded r).1 hand := by
  have htaken := h.takeEntries hg
  rw [releaseRecorded_eq hg]
  exact htaken.trans (Kept.releaseEntries htaken.kept)

/-- A teardown up to where the recorded facets are taken out of the registry: all else has been
released, the settings of threads and the facets created on demand in the given orders. -/
def stripped (w : World) (r : RegistryId) (g : Registry) (settings : List LocaleId)
    (lazy : List FacetId) : World :=
  let w := w.modifyRegistry r fun g₀ =>
    { g₀ with
      teardownQueued := g.teardownQueued && !(w.exitTable g.exits).ran
      classic := none, global := none, lazy := [] }
  let w := (w.takeSettings g.threadLocale).1
  ((w.releaseLocales settings).releaseLocales (g.global.toList ++ g.classic.toList)).releaseFacets
    lazy

/-- The recorded facets have been taken out, and are to be released. -/
def drained (w : World) (r : RegistryId) (g : Registry) (settings : List LocaleId)
    (lazy : List FacetId) : World :=
  (w.stripped r g settings lazy).modifyRegistry r ({ · with entries := [] })

theorem registry?_stripped (hg : w.registry? r = some g) (settings : List LocaleId)
    (lazy : List FacetId) (r' : RegistryId) :
    World.registry? (w.stripped r g settings lazy) r' =
      if r' = r then
        some { g with
          teardownQueued := g.teardownQueued && !(w.exitTable g.exits).ran
          classic := none, global := none, lazy := [] }
      else w.registry? r' := by
  unfold stripped
  rw [Unmoved.registry? (unmoved_releaseFacets _ lazy),
    Unmoved.registry? (unmoved_releaseLocales _ _),
    Unmoved.registry? (unmoved_releaseLocales _ settings)]
  change World.registry? (w.modifyRegistry r _) r' = _
  rw [registry?_modifyRegistry]
  by_cases hr : r' = r
  · rw [if_pos hr, if_pos hr, hr, hg, Option.map_some]
  · rw [if_neg hr, if_neg hr]

theorem entries_stripped (hg : w.registry? r = some g) (settings : List LocaleId)
    (lazy : List FacetId) :
    ((World.registry? (w.stripped r g settings lazy) r).map Registry.entries).getD [] =
      g.entries := by
  rw [registry?_stripped hg, if_pos rfl]
  rfl

/-- A teardown is one that goes by the orders in which things were put into the registry. -/
theorem teardown_fst (hg : w.registry? r = some g) :
    (w.teardown r).1 =
      ((w.drained r g (w.takeSettings g.threadLocale).2 (g.lazy.map (·.2))).releaseEntries
        g.entries).log (.tornDown (w.teardown r).2) := by
  have heq : (w.teardown r).1 = (World.releaseEntries (w.drained r g
      (w.takeSettings g.threadLocale).2 (g.lazy.map (·.2))) (((World.registry?
        (w.stripped r g (w.takeSettings g.threadLocale).2 (g.lazy.map (·.2))) r).map
          Registry.entries).getD [])).log (.tornDown (w.teardown r).2) := by
    unfold World.teardown
    rw [hg]
    rfl
  rw [heq, entries_stripped hg]

/-- A teardown gives up all that the registry holds, in whatever order, and then has the recorded
facets in hand. -/
theorem Kept.drained (h : w.Kept hand) (hg : w.registry? r = some g) {settings : List LocaleId}
    {lazy : List FacetId} (hsettings : settings.Perm (w.takeSettings g.threadLocale).2)
    (hlazy : lazy.Perm (g.lazy.map (·.2))) :
    w.Keeps (w.drained r g settings lazy)
      ((g.entries.map Holding.facet : Multiset Holding) + hand) := by
  have hregistry := registry?_stripped hg settings lazy r
  rw [if_pos rfl] at hregistry
  unfold World.drained World.stripped at *
  let f : Registry → Registry := fun g₀ =>
    { g₀ with
      teardownQueued := g.teardownQueued && !(w.exitTable g.exits).ran
      classic := none, global := none, lazy := [] }
  let hand₁ : Multiset Holding :=
    (((g.global.toList ++ g.classic.toList).map Holding.locale : Multiset Holding) +
      ((lazy.map Holding.facet : Multiset Holding) + hand))
  have h₁ : w.Keeps (w.modifyRegistry r f) hand₁ := h.modifyRegistry hg rfl rfl
    (fun _ => List.nodup_nil) (fun _ hc => nomatch hc) (by
      intro x
      have hcount := (hlazy.map Holding.facet).count_eq x
      simp only [Registry.holdings, f, hand₁, Option.toList_none, List.append_nil,
        List.nil_append, List.map_nil, List.map_append, List.count_append, Multiset.count_add,
        Multiset.coe_count] at hcount ⊢
      omega)
  have hg₁ : World.registry? (w.modifyRegistry r f) r = some (f g) := by
    rw [registry?_modifyRegistry, if_pos rfl, hg]
    rfl
  have h₂ := h₁.trans (h₁.kept.takeSettings ⟨r, f g, hg₁, rfl⟩)
  have htaken : (((w.modifyRegistry r f).takeSettings g.threadLocale).2.map Holding.locale :
      Multiset Holding) = (settings.map Holding.locale : Multiset Holding) :=
    Multiset.coe_eq_coe.2 (hsettings.symm.map _)
  have h₃ := h₂.trans (Kept.releaseLocales (h₂.kept.of_eq (congrArg (· + hand₁) htaken)))
  have h₄ := h₃.trans (Kept.releaseLocales h₃.kept)
  have h₅ := h₄.trans (Kept.releaseFacets h₄.kept)
  exact h₅.trans (Kept.takeEntries (g := f g) h₅.kept hregistry)

theorem Kept.teardown (h : w.Kept hand) (hg : w.registry? r = some g) :
    w.Keeps (w.teardown r).1 hand := by
  have h₁ := h.drained hg (.refl _) (.refl _)
  have h₂ := h₁.trans (Kept.releaseEntries h₁.kept)
  rw [teardown_fst hg]
  exact h₂.trans (h₂.kept.log rfl)

end Hosted.World
