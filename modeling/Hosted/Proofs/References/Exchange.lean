import Hosted.Proofs.References.Holders
import Hosted.Proofs.Registry.Publication

/-!
# Taking, giving up and handing over references

One lemma for each of the steps that all operations consist of: a reference is taken
from somebody who has one, or given up, a new object comes with one, and a registry
exchanges what it holds for something in the hands of callers.
-/

namespace Hosted.World

variable {w w' w'' : World} {hand hand' : Multiset Holding}

/-! ## Steps that move no reference -/

/-- No reference is moved between `w` and `w'`, and nothing is destroyed. -/
structure Calm (w w' : World) : Prop where
  locales : w'.locales = w.locales
  facets : w'.facets = w.facets
  registries : w'.registries = w.registries
  process : w'.processRegistry = w.processRegistry
  indices : ∀ {kind i}, w.indices.find? (.kind kind) = some i →
    w'.indices.find? (.kind kind) = some i
  indexed : w.indices.Sound → w'.indices.Sound
  cells : ∀ x, (w'.locals.cells.flatMap cellHoldings).count x =
    (w.locals.cells.flatMap cellHoldings).count x
  locals_le : w.locals.locals.length ≤ w'.locals.locals.length
  exits_le : w.exits.length ≤ w'.exits.length
  notices : ∃ new, w'.notices = w.notices ++ new ∧ new.filterMap Notice.remains? = []

namespace Calm

theorem refl (w : World) : w.Calm w where
  locales := rfl
  facets := rfl
  registries := rfl
  process := rfl
  indices h := h
  indexed h := h
  cells _ := rfl
  locals_le := Nat.le_refl _
  exits_le := Nat.le_refl _
  notices := ⟨[], (List.append_nil _).symm, rfl⟩

theorem trans (h : w.Calm w') (h' : w'.Calm w'') : w.Calm w'' where
  locales := h'.locales.trans h.locales
  facets := h'.facets.trans h.facets
  registries := h'.registries.trans h.registries
  process := h'.process.trans h.process
  indices hi := h'.indices (h.indices hi)
  indexed hi := h'.indexed (h.indexed hi)
  cells x := (h'.cells x).trans (h.cells x)
  locals_le := Nat.le_trans h.locals_le h'.locals_le
  exits_le := Nat.le_trans h.exits_le h'.exits_le
  notices := by
    obtain ⟨new, hnew, hnone⟩ := h.notices
    obtain ⟨new', hnew', hnone'⟩ := h'.notices
    refine ⟨new ++ new', by rw [hnew', hnew, List.append_assoc], ?_⟩
    rw [List.filterMap_append, hnone, hnone', List.append_nil]

theorem registry? (h : w.Calm w') (r : RegistryId) : w'.registry? r = w.registry? r := by
  simp [World.registry?, h.registries]

theorem ages (h : w.Calm w') : w.Ages w' where
  locales := h.locales ▸ Shared.Ages.refl _
  facets := h.facets ▸ Shared.Ages.refl _
  indices hi := h.indices hi
  notices := by
    obtain ⟨new, hnew, hnone⟩ := h.notices
    refine ⟨new, hnew, ?_⟩
    intro x
    simp [hnone, remains, h.locales, h.facets]

/-- Where the thread locals go is left to be said. -/
theorem keeps (hc : w.Calm w') (h : w.Kept hand) {m : BindingMap} (hm : w'.Housed m) :
    w.Keeps w' hand := by
  have hclassic : ∀ g ∈ w'.registries, ∀ c, g.classic = some c → w'.IsClassic c :=
    fun g hg c hgc => (h.classic g (hc.registries ▸ hg) c hgc).ages hc.ages
  refine ⟨⟨⟨m, hm⟩, hc.indexed h.indexed,
    hc.registries ▸ h.cached, hc.locales ▸ h.made, hclassic, ?_⟩, hc.ages,
    Extends.of_homes hc.process hc.locals_le hc.exits_le fun r => by rw [hc.registry?]⟩
  intro x
  have hb := h.balanced x
  have hrefs : w'.refsOf x = w.refsOf x := by
    cases x with
    | locale l => exact congrArg (·.refs l) hc.locales
    | facet f => exact congrArg (·.refs f) hc.facets
  have hcells := hc.cells x
  simp only [held, List.count_append] at hb
  rw [hrefs]
  simp only [held, hc.registries, hc.locales, List.count_append]
  omega

/-- The thread locals stay as they are. -/
theorem keeps_of_locals_eq (hc : w.Calm w') (h : w.Kept hand) (hlocals : w'.locals = w.locals) :
    w.Keeps w' hand := by
  obtain ⟨m, hm⟩ := h.housed
  exact hc.keeps h (hm.of_locals_eq hlocals fun r => by rw [hc.registry?])

end Calm

theorem calm_notify (w : World) {n : Notice} (hn : n.remains? = none) : w.Calm (w.notify n) :=
  { Calm.refl w with notices := ⟨[n], rfl, by simp [hn]⟩ }

theorem calm_log (w : World) {o : Occurrence} (ho : (Notice.logged o).remains? = none) :
    w.Calm (w.log o) := w.calm_notify ho

theorem calm_count (w : World) (which : Counter) (n : Nat) : w.Calm (w.count which n) :=
  { Calm.refl w with }

theorem calm_tally (w : World) (which : Counter) : w.Calm (w.tally which) :=
  { Calm.refl w with }

theorem calm_raise (w : World) (f : Fault) : w.Calm (w.raise f) :=
  (w.calm_tally .fatalErrors).trans (calm_log _ rfl)

theorem calm_indexOf (w : World) (kind : FacetKind) : w.Calm (w.indexOf kind).1 :=
  { Calm.refl w with
    indices := FacetIndices.find?_assign
    indexed := fun h => h.assign _ }

theorem calm_setExitTable (w : World) (t : TableId) (table : ExitTable Handler) :
    w.Calm (w.setExitTable t table) :=
  { Calm.refl w with exits_le := Nat.le_of_eq (List.length_set ..).symm }

theorem calm_register (w : World) (t : TableId) (handler : Handler) :
    w.Calm (w.register t handler).1 :=
  register_induction calm_setExitTable (fun w _ => w.calm_notify rfl) w t handler

theorem calm_addExitTable (w : World) : w.Calm w.addExitTable.1 :=
  { Calm.refl w with
    exits_le := by
      simp only [World.addExitTable, List.length_append]
      exact Nat.le_add_right _ _ }

theorem Kept.notify (h : w.Kept hand) {n : Notice} (hn : n.remains? = none) :
    w.Keeps (w.notify n) hand := (w.calm_notify hn).keeps_of_locals_eq h rfl

theorem Kept.log (h : w.Kept hand) {o : Occurrence} (ho : (Notice.logged o).remains? = none) :
    w.Keeps (w.log o) hand := (w.calm_log ho).keeps_of_locals_eq h rfl

theorem Kept.setExitTable (h : w.Kept hand) (t : TableId) (table : ExitTable Handler) :
    w.Keeps (w.setExitTable t table) hand :=
  (w.calm_setExitTable t table).keeps_of_locals_eq h rfl

theorem Kept.register (h : w.Kept hand) (t : TableId) (handler : Handler) :
    w.Keeps (w.register t handler).1 hand :=
  (w.calm_register t handler).keeps_of_locals_eq h (w.locals_register t handler)

theorem Kept.count (h : w.Kept hand) (which : Counter) (n : Nat) :
    w.Keeps (w.count which n) hand := (w.calm_count which n).keeps_of_locals_eq h rfl

theorem Kept.tally (h : w.Kept hand) (which : Counter) : w.Keeps (w.tally which) hand :=
  (w.calm_tally which).keeps_of_locals_eq h rfl

theorem Kept.indexOf (h : w.Kept hand) (kind : FacetKind) :
    w.Keeps (w.indexOf kind).1 hand := (w.calm_indexOf kind).keeps_of_locals_eq h rfl

/-! ## Facets -/

theorem Kept.addFacet (h : w.Kept hand) (f : Facet) :
    w.Keeps (w.addFacet f).1 (.facet (w.addFacet f).2 ::ₘ hand) where
  kept := by
    obtain ⟨m, hm⟩ := h.housed
    refine ⟨⟨m, hm.of_locals_eq rfl fun r => rfl⟩, h.indexed, h.cached, h.made,
      fun g hg c hgc => (h.classic g hg c hgc).mono (Shared.Ages.refl _)
        (Shared.ages_insert w.facets f) id, ?_⟩
    intro x
    have hb := h.balanced x
    rw [Multiset.count_cons]
    cases x with
    | locale l =>
        simp only [reduceCtorEq, if_false]
        exact hb
    | facet f' =>
        have hrefs := w.facets.refs_insert f f'
        simp only [Holding.facet.injEq]
        change (w.facets.insert f).1.refs f' =
          w.held.count _ + (hand.count _ + if f' = w.facets.objects.length then 1 else 0)
        change w.facets.refs f' = _ at hb
        omega
  ages :=
    { Ages.refl w with
      facets := Shared.ages_insert _ _
      notices := by
        refine ⟨[], (List.append_nil _).symm, ?_⟩
        intro x
        simp [World.addFacet, Shared.insert, remains, Counted.remains] }
  extended := (w.unmoved_addFacet f).extends

theorem Kept.retainFacet (h : w.Kept hand) {f : FacetId} (hf : 0 < w.refsOf (.facet f)) :
    w.Keeps (w.retainFacet f) (.facet f ::ₘ hand) where
  kept := by
    obtain ⟨m, hm⟩ := h.housed
    refine ⟨⟨m, hm.of_locals_eq rfl fun r => rfl⟩, h.indexed, h.cached, h.made,
      fun g hg c hgc => (h.classic g hg c hgc).mono (Shared.Ages.refl _)
        (Shared.ages_retain hf) id, ?_⟩
    intro x
    have hb := h.balanced x
    rw [Multiset.count_cons]
    cases x with
    | locale l =>
        simp only [reduceCtorEq, if_false]
        exact hb
    | facet f' =>
        have hrefs := Shared.refs_retain hf f'
        simp only [Holding.facet.injEq]
        change (w.facets.retain f).refs f' =
          w.held.count _ + (hand.count _ + if f' = f then 1 else 0)
        change w.facets.refs f' = _ at hb
        omega
  ages := by
    obtain ⟨o, ho, hrefs, -⟩ := Shared.exists_of_refs_pos hf
    have hne : o.refs ≠ 0 := by
      rw [hrefs]
      exact Nat.ne_of_gt hf
    refine { Ages.refl w with facets := Shared.ages_retain hf, notices := ?_ }
    refine ⟨[], (List.append_nil _).symm, ?_⟩
    intro x
    simp only [remains, List.count_append, List.filterMap_nil, List.count_nil, Nat.add_zero]
    exact congrArg _ (Counted.count_remains_retain ho hne _ x)
  extended := (w.unmoved_retainFacet f).extends

theorem releaseFacet_eq {f : FacetId} {o : Counted Facet} (ho : w.facets.objects[f]? = some o) :
    w.releaseFacet f =
      { w with
        facets := ⟨w.facets.objects.set f { o with refs := o.refs - 1 }⟩
        notices := w.notices ++ if o.refs = 1 then o.body.farewell else [] } := by
  unfold World.releaseFacet Shared.release
  rw [ho]
  simp only
  by_cases hone : o.refs = 1
  · rw [if_pos hone, if_pos hone]
    cases o.body <;> simp [World.notify, Facet.farewell]
  · rw [if_neg hone, if_neg hone, List.append_nil]

/-- The reference given up may have been the last one. -/
theorem Kept.releaseFacet {f : FacetId} (h : w.Kept (.facet f ::ₘ hand)) :
    w.Keeps (w.releaseFacet f) hand := by
  have hpos : 0 < w.facets.refs f := h.refs_pos_of_mem (Multiset.mem_cons_self _ _)
  obtain ⟨o, ho, hrefs, -⟩ := Shared.exists_of_refs_pos hpos
  have hne : o.refs ≠ 0 := by omega
  have hfacets : (w.facets.release f).1 =
      ⟨w.facets.objects.set f { o with refs := o.refs - 1 }⟩ := by
    rw [Shared.release, ho]
  refine ⟨?_, ?_, (w.unmoved_releaseFacet f).extends⟩
  · obtain ⟨m, hm⟩ := h.housed
    rw [releaseFacet_eq ho, ← hfacets]
    refine ⟨⟨m, hm.of_locals_eq rfl fun r => rfl⟩, h.indexed, h.cached, h.made,
      fun g hg c hgc => (h.classic g hg c hgc).mono (Shared.Ages.refl _)
        (Shared.ages_release w.facets f) id, ?_⟩
    intro x
    have hb := h.balanced x
    rw [Multiset.count_cons] at hb
    cases x with
    | locale l =>
        simp only [reduceCtorEq, if_false] at hb
        exact hb
    | facet f' =>
        have hrefs := Shared.refs_release hpos f'
        simp only [Holding.facet.injEq] at hb
        change (w.facets.release f).1.refs f' = w.held.count _ + hand.count _
        change w.facets.refs f' = _ at hb
        omega
  · rw [releaseFacet_eq ho]
    refine { Ages.refl w with
      facets := hfacets ▸ Shared.ages_release w.facets f
      notices := ⟨_, rfl, ?_⟩ }
    intro x
    have hcount := Counted.count_remains_release ho hne
      (fun f => f.farewell.filterMap Notice.remains?) x
    simp only [remains, List.count_append, hcount]
    by_cases hone : o.refs = 1
    · simp only [hone, if_true]
      omega
    · simp only [hone, if_false, List.filterMap_nil]
      omega

theorem Kept.releaseFacets {fs : List FacetId}
    (h : w.Kept ((fs.map Holding.facet : Multiset Holding) + hand)) :
    w.Keeps (w.releaseFacets fs) hand := by
  induction fs generalizing w with
  | nil => exact (h.of_eq (Multiset.zero_add _)).refl
  | cons f fs ih =>
      have hf : w.Kept (.facet f ::ₘ ((fs.map Holding.facet : Multiset Holding) + hand)) := by
        rw [← Multiset.cons_add, Multiset.cons_coe]
        exact h
      exact hf.releaseFacet.trans (ih hf.releaseFacet.kept)

/-! ## Locales -/

theorem Kept.retainLocale (h : w.Kept hand) {l : LocaleId} (hl : 0 < w.refsOf (.locale l)) :
    w.Keeps (w.retainLocale l) (.locale l ::ₘ hand) := by
  obtain ⟨o, ho, hrefs, -⟩ := Shared.exists_of_refs_pos hl
  have hne : o.refs ≠ 0 := by
    rw [hrefs]
    exact Nat.ne_of_gt hl
  refine ⟨?_, ?_, (w.unmoved_retainLocale l).extends⟩
  · obtain ⟨m, hm⟩ := h.housed
    refine ⟨⟨m, hm.of_locals_eq rfl fun r => rfl⟩, h.indexed, h.cached, ?_, ?_, ?_⟩
    · intro o' ho'
      obtain ⟨o₀, ho₀, hbody⟩ := Shared.body_of_mem_retain ho'
      exact hbody ▸ h.made o₀ ho₀
    · intro g hg c hgc
      exact (h.classic g hg c hgc).mono (Shared.ages_retain hl) (Shared.Ages.refl _) id
    · intro x
      have hb := h.balanced x
      have hheld : (w.retainLocale l).held.count x = w.held.count x := by
        simp only [held, List.count_append]
        exact congrArg _ (Counted.count_holdings_retain ho hne x)
      rw [Multiset.count_cons, hheld]
      cases x with
      | facet f =>
          simp only [reduceCtorEq, if_false]
          exact hb
      | locale l' =>
          have hrefs := Shared.refs_retain hl l'
          simp only [Holding.locale.injEq]
          change (w.locales.retain l).refs l' =
            w.held.count _ + (hand.count _ + if l' = l then 1 else 0)
          change w.locales.refs l' = _ at hb
          omega
  · refine { Ages.refl w with locales := Shared.ages_retain hl, notices := ?_ }
    refine ⟨[], (List.append_nil _).symm, ?_⟩
    intro x
    simp only [remains, List.count_append, List.filterMap_nil, List.count_nil, Nat.add_zero]
    exact congrArg (· + _) (Counted.count_remains_retain ho hne _ x)

/-- A new locale takes over the references to its facets. -/
theorem Kept.addLocale {body : Locale} (h : w.Kept ((body.holdings : Multiset Holding) + hand))
    (hbody : body.WellMade) :
    w.Keeps (w.addLocale body).1 (.locale (w.addLocale body).2 ::ₘ hand) := by
  let w₁ := (w.tally .localesConstructed).log (.localeBuilt body.name)
  have h₁ : w.Keeps w₁ ((body.holdings : Multiset Holding) + hand) :=
    (h.tally .localesConstructed).trans ((h.tally .localesConstructed).kept.log rfl)
  refine h₁.trans ⟨?_, ?_, Unmoved.extends ⟨rfl, rfl, rfl, rfl, rfl, rfl⟩⟩
  · obtain ⟨m, hm⟩ := h₁.kept.housed
    refine ⟨⟨m, hm.of_locals_eq rfl fun r => rfl⟩, h.indexed, h.cached, ?_, ?_, ?_⟩
    · intro o ho
      rcases List.mem_append.1 ho with ho | ho
      · exact h.made o ho
      · rw [List.mem_singleton] at ho
        rw [ho]
        exact hbody
    · intro g hg c hgc
      exact (h.classic g hg c hgc).mono (Shared.ages_insert _ _) (Shared.Ages.refl _) id
    · intro x
      have hb := h₁.kept.balanced x
      rw [Multiset.count_add, Multiset.coe_count] at hb
      have hheld : (w.addLocale body).1.held.count x = w.held.count x + body.holdings.count x := by
        simp only [held, World.addLocale, Shared.insert, List.count_append, List.flatMap_append,
          List.flatMap_singleton, Counted.holdings, Nat.one_ne_zero, if_false]
        exact (Nat.add_assoc _ _ _).symm
      rw [Multiset.count_cons, hheld]
      change w₁.refsOf x = w.held.count x + _ at hb
      cases x with
      | facet f =>
          simp only [reduceCtorEq, if_false]
          exact hb.trans (by omega)
      | locale l =>
          have hrefs := w₁.locales.refs_insert body l
          simp only [Holding.locale.injEq]
          change (w₁.locales.insert body).1.refs l = w.held.count _ + body.holdings.count _ +
            (hand.count _ + if l = w₁.locales.objects.length then 1 else 0)
          change w₁.locales.refs l = _ at hb
          omega
  · refine { Ages.refl w₁ with locales := Shared.ages_insert _ _, notices := ?_ }
    refine ⟨[], (List.append_nil _).symm, ?_⟩
    intro x
    simp [World.addLocale, Shared.insert, remains, Counted.remains, w₁]

/-- What is noticed when a locale is destroyed. -/
def farewell (l : Locale) : List Notice := [.logged (.localeDestroyed l.name)]

theorem releaseLocale_eq {l : LocaleId} {o : Counted Locale} (ho : w.locales.objects[l]? = some o) :
    w.releaseLocale l =
      if o.refs = 1 then
        World.releaseFacets
          { w with
            locales := ⟨w.locales.objects.set l { o with refs := o.refs - 1 }⟩
            counters := w.counters.increment .localesDestroyed
            notices := w.notices ++ farewell o.body }
          (o.body.facets.filterMap id)
      else { w with locales := ⟨w.locales.objects.set l { o with refs := o.refs - 1 }⟩ } := by
  unfold World.releaseLocale Shared.release
  rw [ho]
  simp only
  by_cases hone : o.refs = 1
  · rw [if_pos hone, if_pos hone]
    rfl
  · rw [if_neg hone, if_neg hone]

/-- A locale that loses its last reference gives up the references to its facets. -/
theorem Kept.release_locale {w' : World} {l : LocaleId} {o : Counted Locale}
    (h : w.Kept (.locale l ::ₘ hand)) (ho : w.locales.objects[l]? = some o) (hne : o.refs ≠ 0)
    (hu : w.Unmoved w') (hfacets : w'.facets = w.facets) (hindices : w'.indices = w.indices)
    (hlocales : w'.locales = (w.locales.release l).1) :
    w'.Kept ((if o.refs = 1 then o.body.holdings else [] : List Holding) + hand) := by
  have hpos : 0 < w.locales.refs l := h.refs_pos_of_mem (Multiset.mem_cons_self _ _)
  have hset : (w.locales.release l).1 =
      ⟨w.locales.objects.set l { o with refs := o.refs - 1 }⟩ := by
    rw [Shared.release, ho]
  obtain ⟨m, hm⟩ := h.housed
  refine ⟨⟨m, hm.of_locals_eq hu.locals fun r => by rw [hu.registry?]⟩,
    hindices ▸ h.indexed, hu.registries ▸ h.cached, ?_, ?_, ?_⟩
  · intro o' ho'
    rw [hlocales] at ho'
    obtain ⟨o₀, ho₀, hbody⟩ := Shared.body_of_mem_release ho'
    exact hbody ▸ h.made o₀ ho₀
  · intro g hg c hgc
    exact (h.classic g (hu.registries ▸ hg) c hgc).mono
      (hlocales ▸ Shared.ages_release w.locales l) (hfacets ▸ Shared.Ages.refl _)
      (hindices ▸ id)
  · intro x
    have hb := h.balanced x
    rw [Multiset.count_cons] at hb
    have hheld : w'.held.count x + (if o.refs = 1 then o.body.holdings else []).count x =
        w.held.count x := by
      have hcount := Counted.count_holdings_release ho hne x
      simp only [held, hu.registries, hu.locals, hlocales, hset, List.count_append]
      omega
    rw [Multiset.count_add, Multiset.coe_count]
    cases x with
    | facet f =>
        simp only [reduceCtorEq, if_false] at hb
        have hrefs : w'.refsOf (.facet f) = w.refsOf (.facet f) := congrArg (·.refs f) hfacets
        omega
    | locale l' =>
        have hrefs := Shared.refs_release hpos l'
        simp only [Holding.locale.injEq] at hb
        change w.locales.refs l' = _ at hb
        have hrefs' : w'.refsOf (.locale l') = (w.locales.release l).1.refs l' :=
          congrArg (·.refs l') hlocales
        omega

/-- The one notice of a locale's destruction comes with the last reference to it. -/
theorem Ages.release_locale {w' : World} {l : LocaleId} {o : Counted Locale}
    (ho : w.locales.objects[l]? = some o) (hne : o.refs ≠ 0) (hfacets : w'.facets = w.facets)
    (hlocales : w'.locales = (w.locales.release l).1) (hindices : w'.indices = w.indices)
    (hnotices : w'.notices = w.notices ++ (if o.refs = 1 then farewell o.body else [])) :
    w.Ages w' := by
  have hset : (w.locales.release l).1 =
      ⟨w.locales.objects.set l { o with refs := o.refs - 1 }⟩ := by
    rw [Shared.release, ho]
  refine ⟨hlocales ▸ Shared.ages_release _ _, hfacets ▸ Shared.Ages.refl _,
    fun hi => hindices ▸ hi, _, hnotices, ?_⟩
  intro x
  have hcount := Counted.count_remains_release ho hne (fun l => [Remains.locale l.name]) x
  simp only [remains, List.count_append, hfacets, hlocales, hset, hcount]
  by_cases hone : o.refs = 1
  · simp only [hone, if_true, farewell, List.filterMap_cons, Notice.remains?,
      List.filterMap_nil]
    omega
  · simp only [hone, if_false, List.filterMap_nil]
    omega

/-- The reference given up may have been the last one; the facets go with it. -/
theorem Kept.releaseLocale {l : LocaleId} (h : w.Kept (.locale l ::ₘ hand)) :
    w.Keeps (w.releaseLocale l) hand := by
  have hpos : 0 < w.locales.refs l := h.refs_pos_of_mem (Multiset.mem_cons_self _ _)
  obtain ⟨o, ho, hrefs, -⟩ := Shared.exists_of_refs_pos hpos
  have hne : o.refs ≠ 0 := by omega
  have hlocales : ⟨w.locales.objects.set l { o with refs := o.refs - 1 }⟩ =
      (w.locales.release l).1 := by
    rw [Shared.release, ho]
  rw [releaseLocale_eq ho]
  by_cases hone : o.refs = 1
  · rw [if_pos hone]
    let w' : World :=
      { w with
        locales := ⟨w.locales.objects.set l { o with refs := o.refs - 1 }⟩
        counters := w.counters.increment .localesDestroyed
        notices := w.notices ++ farewell o.body }
    have hu : w.Unmoved w' := ⟨rfl, rfl, rfl, rfl, rfl, rfl⟩
    have hkept : w'.Kept ((o.body.holdings : Multiset Holding) + hand) := by
      have hstep := h.release_locale ho hne hu rfl rfl hlocales
      rwa [if_pos hone] at hstep
    have hages : w.Ages w' :=
      Ages.release_locale ho hne rfl hlocales rfl (by rw [if_pos hone])
    exact Keeps.trans ⟨hkept, hages, hu.extends⟩ hkept.releaseFacets
  · rw [if_neg hone]
    let w' : World :=
      { w with locales := ⟨w.locales.objects.set l { o with refs := o.refs - 1 }⟩ }
    have hu : w.Unmoved w' := ⟨rfl, rfl, rfl, rfl, rfl, rfl⟩
    have hkept : w'.Kept hand := by
      have hstep := h.release_locale ho hne hu rfl rfl hlocales
      rwa [if_neg hone, Multiset.coe_nil, Multiset.zero_add] at hstep
    have hages : w.Ages w' :=
      Ages.release_locale ho hne rfl hlocales rfl (by rw [if_neg hone, List.append_nil])
    exact ⟨hkept, hages, hu.extends⟩

theorem Kept.releaseLocales {ls : List LocaleId}
    (h : w.Kept ((ls.map Holding.locale : Multiset Holding) + hand)) :
    w.Keeps (w.releaseLocales ls) hand := by
  induction ls generalizing w with
  | nil => exact (h.of_eq (Multiset.zero_add _)).refl
  | cons l ls ih =>
      have hl : w.Kept (.locale l ::ₘ ((ls.map Holding.locale : Multiset Holding) + hand)) := by
        rw [← Multiset.cons_add, Multiset.cons_coe]
        exact h
      exact hl.releaseLocale.trans (ih hl.releaseLocale.kept)

/-! ## Registries -/

/-- What a registry holds more it takes over from callers, and what it holds less it
hands to them. -/
theorem Kept.modifyRegistry (h : w.Kept hand) {r : RegistryId} {g : Registry}
    (hg : w.registry? r = some g) {f : Registry → Registry}
    (hlocal : (f g).threadLocale = g.threadLocale) (hexits : (f g).exits = g.exits)
    (hlazy : (g.lazy.map (·.1)).Nodup → ((f g).lazy.map (·.1)).Nodup)
    (hclassic : ∀ c, (f g).classic = some c → g.classic = some c ∨ w.IsClassic c)
    (hcount : ∀ x, (f g).holdings.count x + hand'.count x =
      g.holdings.count x + hand.count x) : w.Keeps (w.modifyRegistry r f) hand' := by
  have hkeep : ∀ {β : Type} (field : Registry → β), field (f g) = field g →
      ∀ r', (World.registry? (w.modifyRegistry r f) r').map field = (w.registry? r').map field := by
    intro β field hfield r'
    rw [registry?_modifyRegistry]
    by_cases hr : r' = r
    · subst hr
      simp [hg, hfield]
    · rw [if_neg hr]
  refine ⟨?_, { Ages.refl w with }, ?_⟩
  · obtain ⟨m, hm⟩ := h.housed
    refine ⟨⟨m, hm.of_locals_eq rfl (hkeep _ hlocal)⟩, h.indexed, ?_, h.made, ?_, ?_⟩
    · intro g' hg'
      rw [World.modifyRegistry, modify_eq_set_of_getElem? hg] at hg'
      rcases List.mem_or_eq_of_mem_set hg' with hmem | rfl
      · exact h.cached g' hmem
      · exact hlazy (h.cached g (List.mem_of_getElem? hg))
    · intro g' hg' c hc
      rw [World.modifyRegistry, modify_eq_set_of_getElem? hg] at hg'
      rcases List.mem_or_eq_of_mem_set hg' with hmem | rfl
      · exact h.classic g' hmem c hc
      · exact (hclassic c hc).elim (h.classic g (List.mem_of_getElem? hg) c) id
    · intro x
      have hb := h.balanced x
      have hx := hcount x
      have hset := count_flatMap_set (show w.registries[r]? = some g from hg)
        Registry.holdings (f g) x
      have hrefs : (w.modifyRegistry r f).refsOf x = w.refsOf x := by cases x <;> rfl
      simp only [held, List.count_append] at hb
      rw [hrefs]
      simp only [held, World.modifyRegistry, modify_eq_set_of_getElem? hg, List.count_append]
      omega
  · exact Extends.of_homes rfl (Nat.le_refl _) (Nat.le_refl _) (hkeep _ (Prod.ext hlocal hexits))

end Hosted.World
