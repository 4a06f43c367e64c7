import Hosted.Proofs.Accounts.Stock
import Hosted.Proofs.Registry.Publication

/-!
# Accounts of locales

A locale comes to life once and dies once as long as references are only taken to live
ones. That is so if the slots of registries, the settings of threads and the hands of
callers never hold more references to a locale than it counts: the process is `Grounded`
then. An operation `Settles` if it leaves the process grounded and its counters account for
what it has done to the stock.
-/

namespace Hosted.World

/-- The places in a process that hold a reference to a locale: slots of registries, and
settings of threads. -/
def places (w : World) (l : LocaleId) : Nat :=
  w.slotsOf l + w.locals.weigh fun v => v.holdings.count (.locale l)

/-- Thread locals are sound, those of registries are live, and a locale counts at least as
many references as there are, with callers holding `hand`. -/
structure Grounded (w : World) (hand : Multiset LocaleId) : Prop where
  sound : w.locals.Sound
  housed : ∀ {r g}, w.registry? r = some g → (w.locals.local? g.threadLocale).isSome
  covered : ∀ l, w.places l + hand.count l ≤ w.locales.refs l

/-- The way from `w` to `w'` is counted in full, and has brought callers the receipts `t` and
the references `hand'`. -/
structure Settles (w : World) (t : Ledger) (w' : World) (hand' : Multiset LocaleId) : Prop where
  grounded : w'.Grounded hand'
  registries_le : w.registries.length ≤ w'.registries.length
  shifts : ∃ n, w.Shifts n n t w'

/-- The operation moves no reference to a locale, and nothing that is counted. -/
structure Quiet (w w' : World) : Prop where
  counters : w'.counters = w.counters
  locales : w'.locales = w.locales
  locals : w'.locals = w.locals
  registries : w'.registries.map (fun g => (g.classic, g.global, g.entries, g.threadLocale)) =
    w.registries.map fun g => (g.classic, g.global, g.entries, g.threadLocale)

variable {w w' w'' : World} {hand hand' hand'' : Multiset LocaleId} {t t' : Ledger}
  {r : RegistryId} {g : Registry} {l : LocaleId}

/-! ## Settling -/

theorem Grounded.refl (h : w.Grounded hand) : w.Settles 0 w hand :=
  ⟨h, Nat.le_refl _, 0, .refl w⟩

theorem Settles.trans (h : w.Settles t w' hand') (h' : w'.Settles t' w'' hand'') :
    w.Settles (t + t') w'' hand'' := by
  obtain ⟨n, hn⟩ := h.shifts
  obtain ⟨n', hn'⟩ := h'.shifts
  exact ⟨h'.grounded, Nat.le_trans h.registries_le h'.registries_le, n + n', hn.trans hn'⟩

/-- Steps without receipts are put before others. -/
theorem Settles.before (h : w.Settles 0 w' hand') (h' : w'.Settles t w'' hand'') :
    w.Settles t w'' hand'' := by
  have htrans := h.trans h'
  rwa [zero_add] at htrans

theorem Settles.after (h : w.Settles t w' hand') (h' : w'.Settles 0 w'' hand'') :
    w.Settles t w'' hand'' := by
  have htrans := h.trans h'
  rwa [add_zero] at htrans

theorem Settles.of_eq (h : w.Settles t w' hand) (heq : hand = hand') : w.Settles t w' hand' :=
  heq ▸ h

theorem Grounded.of_eq (h : w.Grounded hand) (heq : hand = hand') : w.Grounded hand' := heq ▸ h

theorem Settles.isSome (h : w.Settles t w' hand') (hr : (w.registry? r).isSome) :
    (w'.registry? r).isSome := by
  obtain ⟨g, hg⟩ := Option.isSome_iff_exists.1 hr
  have hlt := Nat.lt_of_lt_of_le (List.getElem?_eq_some_iff.1 hg).1 h.registries_le
  exact Option.isSome_iff_exists.2 ⟨_, List.getElem?_eq_getElem hlt⟩

/-- What one operation counts in one counter. -/
theorem Settles.counts (c : Counter) (j : Nat) (hgrounded : w'.Grounded hand')
    (hregistries : w.registries.length ≤ w'.registries.length)
    (hcounters : w'.counters = w.counters.add c j.toUInt64)
    (haccounts : Accounts (Pi.single c j) t w.stock w'.stock) : w.Settles t w' hand' :=
  ⟨hgrounded, hregistries, _, ⟨fun c' => hcounters ▸ counted_single c j c', haccounts⟩⟩

/-- Nothing is counted, and the stock stays. -/
theorem Settles.still (hgrounded : w'.Grounded hand')
    (hregistries : w.registries.length ≤ w'.registries.length)
    (hcounters : w'.counters = w.counters) (hstock : w'.stock = w.stock) :
    w.Settles 0 w' hand' := ⟨hgrounded, hregistries, 0, .of_eq hcounters hstock⟩

/-! ## Quiet operations -/

namespace Quiet

theorem refl (w : World) : w.Quiet w := ⟨rfl, rfl, rfl, rfl⟩

theorem trans (h : w.Quiet w') (h' : w'.Quiet w'') : w.Quiet w'' where
  counters := h'.counters.trans h.counters
  locales := h'.locales.trans h.locales
  locals := h'.locals.trans h.locals
  registries := h'.registries.trans h.registries

theorem foldl {β : Type} {f : World → β → World} (hf : ∀ w b, Quiet w (f w b)) (w : World)
    (bs : List β) : w.Quiet (bs.foldl f w) :=
  bs.foldlRecOn f (refl w) fun w' h b _ => h.trans (hf w' b)

theorem of_unmoved (h : w.Unmoved w') (hcounters : w'.counters = w.counters)
    (hlocales : w'.locales = w.locales) : w.Quiet w' :=
  ⟨hcounters, hlocales, h.locals, by rw [h.registries]⟩

theorem length_registries (h : w.Quiet w') : w'.registries.length = w.registries.length := by
  have hlen := congrArg List.length h.registries
  rwa [List.length_map, List.length_map] at hlen

theorem slotsOf (h : w.Quiet w') (l : LocaleId) : w'.slotsOf l = w.slotsOf l := by
  have hmap := congrArg (fun cores => (cores.map fun core : Option LocaleId × Option LocaleId ×
    List FacetId × LocalId => core.1.toList.count l + core.2.1.toList.count l).sum) h.registries
  simp only [List.map_map] at hmap
  exact hmap

theorem places (h : w.Quiet w') (l : LocaleId) : w'.places l = w.places l := by
  rw [World.places, World.places, h.slotsOf, h.locals]

theorem stock (h : w.Quiet w') : w'.stock = w.stock := by
  have hmap := congrArg (fun cores => (cores.map fun core : Option LocaleId × Option LocaleId ×
    List FacetId × LocalId => core.2.2.1.length).sum) h.registries
  simp only [List.map_map] at hmap
  unfold World.stock
  rw [h.locales, h.locals]
  exact congrArg (Stock.mk _ _ · _ _ _ _) hmap

theorem threadLocale (h : w.Quiet w') (r : RegistryId) :
    (w'.registry? r).map (·.threadLocale) = (w.registry? r).map (·.threadLocale) := by
  have hget := congrArg (fun cores => cores[r]?.map fun core : Option LocaleId ×
    Option LocaleId × List FacetId × LocalId => core.2.2.2) h.registries
  simp only [List.getElem?_map, Option.map_map] at hget
  exact hget

end Quiet

theorem Grounded.quiet (h : w.Grounded hand) (hq : w.Quiet w') : w.Settles 0 w' hand := by
  refine Settles.still ⟨hq.locals ▸ h.sound, ?_, ?_⟩ (Nat.le_of_eq hq.length_registries.symm)
    hq.counters hq.stock
  · intro r g' hg'
    have hlocal := hq.threadLocale r
    rw [hg', Option.map_some, eq_comm, Option.map_eq_some_iff] at hlocal
    obtain ⟨g, hg, heq⟩ := hlocal
    rw [hq.locals, ← heq]
    exact h.housed hg
  · intro l
    rw [hq.places, hq.locales]
    exact h.covered l

theorem quiet_notify (w : World) (n : Notice) : w.Quiet (w.notify n) := ⟨rfl, rfl, rfl, rfl⟩

theorem quiet_log (w : World) (o : Occurrence) : w.Quiet (w.log o) := w.quiet_notify _

theorem quiet_indexOf (w : World) (kind : FacetKind) : w.Quiet (w.indexOf kind).1 :=
  ⟨rfl, rfl, rfl, rfl⟩

theorem quiet_setExitTable (w : World) (t : TableId) (table : ExitTable Handler) :
    w.Quiet (w.setExitTable t table) := ⟨rfl, rfl, rfl, rfl⟩

theorem quiet_register (w : World) (t : TableId) (h : Handler) : w.Quiet (w.register t h).1 :=
  register_induction quiet_setExitTable (fun w h => w.quiet_notify (.discarded h)) w t h

theorem quiet_retainFacet (w : World) (f : FacetId) : w.Quiet (w.retainFacet f) :=
  ⟨rfl, rfl, rfl, rfl⟩

theorem quiet_retainFacet? (w : World) (f : Option FacetId) :
    w.Quiet (f.elim w w.retainFacet) := by
  cases f with
  | none => exact .refl w
  | some f => exact w.quiet_retainFacet f

theorem quiet_releaseFacet (w : World) (f : FacetId) : w.Quiet (w.releaseFacet f) := by
  refine .of_unmoved (w.unmoved_releaseFacet f) ?_ ?_
  · unfold releaseFacet
    simp only
    split <;> rfl
  · unfold releaseFacet
    simp only
    split <;> rfl

theorem quiet_releaseFacet? (w : World) (f : Option FacetId) :
    w.Quiet (f.elim w w.releaseFacet) := by
  cases f with
  | none => exact .refl w
  | some f => exact w.quiet_releaseFacet f

theorem quiet_releaseFacets (w : World) (fs : List FacetId) : w.Quiet (w.releaseFacets fs) :=
  .foldl quiet_releaseFacet w fs

theorem quiet_placeNew (w : World) (facets : List (Option FacetId)) (f : Facet) :
    w.Quiet (w.placeNew facets f).1 := ⟨rfl, rfl, rfl, rfl⟩

theorem quiet_modifyRegistry (w : World) (r : RegistryId) {f : Registry → Registry}
    (hf : ∀ g, ((f g).classic, (f g).global, (f g).entries, (f g).threadLocale) =
      (g.classic, g.global, g.entries, g.threadLocale)) : w.Quiet (w.modifyRegistry r f) :=
  ⟨rfl, rfl, rfl, map_modify_of_eq _ _ hf⟩

theorem Grounded.raise (h : w.Grounded hand) (f : Fault) : w.Settles 0 (w.raise f) hand := by
  refine Settles.counts .fatalErrors 1 ⟨h.sound, h.housed, h.covered⟩ (Nat.le_refl _) rfl ?_
  constructor <;> rfl

/-! ## Locales -/

theorem Grounded.refs_pos (h : w.Grounded hand) (hl : l ∈ hand) : 0 < w.locales.refs l := by
  have hcovered := h.covered l
  have hpos := Multiset.count_pos.2 hl
  omega

theorem Grounded.refs_pos_of_slot (h : w.Grounded hand) (hg : w.registry? r = some g)
    (hl : g.classic = some l ∨ g.global = some l) : 0 < w.locales.refs l := by
  have hcovered := h.covered l
  have hemptied := sum_map_set (show w.registries[r]? = some g from hg)
    (fun g => g.classic.toList.count l + g.global.toList.count l)
    { g with classic := none, global := none }
  have hpos : 0 < g.classic.toList.count l + g.global.toList.count l := by
    rcases hl with hl | hl
    · rw [hl, Option.toList_some, List.count_singleton_self]
      omega
    · rw [hl, Option.toList_some, List.count_singleton_self]
      omega
  simp only [Option.toList_none, List.count_nil] at hemptied
  simp only [places, World.slotsOf] at hcovered
  omega

theorem Grounded.retainLocale (h : w.Grounded hand) (hl : 0 < w.locales.refs l) :
    w.Settles 0 (w.retainLocale l) (l ::ₘ hand) := by
  obtain ⟨o, ho, hrefs, -⟩ := Shared.exists_of_refs_pos hl
  refine Settles.still ⟨h.sound, h.housed, ?_⟩ (Nat.le_refl _) rfl ?_
  · intro l'
    have hcovered := h.covered l'
    have hretain := Shared.refs_retain hl l'
    rw [Multiset.count_cons]
    change w.places l' + _ ≤ (w.locales.retain l).refs l'
    omega
  · have hlive : (w.locales.retain l).live.length = w.locales.live.length := by
      have hset := sum_map_set ho (fun o => if o.refs = 0 then 0 else 1)
        { o with refs := o.refs + 1 }
      have hne : o.refs ≠ 0 := by omega
      rw [Shared.length_live, Shared.length_live, Shared.retain, modify_eq_set_of_getElem? ho]
      simpa [hne] using hset
    have hbuilt : (w.locales.retain l).objects.length = w.locales.objects.length :=
      List.length_modify ..
    unfold stock
    exact congrArg₂ (Stock.mk · · _ _ _ _ _) hbuilt hlive

theorem Grounded.addLocale (h : w.Grounded hand) (body : Locale) :
    w.Settles 0 (w.addLocale body).1 ((w.addLocale body).2 ::ₘ hand) := by
  refine Settles.counts .localesConstructed 1 ⟨h.sound, h.housed, ?_⟩ (Nat.le_refl _) rfl ?_
  · intro l
    have hcovered := h.covered l
    have hrefs := w.locales.refs_insert body l
    rw [Multiset.count_cons]
    change w.places l + (_ + if l = w.locales.objects.length then 1 else 0) ≤
      (w.locales.insert body).1.refs l
    omega
  · have hbuilt : (w.locales.insert body).1.objects.length = w.locales.objects.length + 1 :=
      List.length_append
    have hlive : (w.locales.insert body).1.live.length = w.locales.live.length + 1 := by
      simp [Shared.live, Shared.insert]
    constructor
    case built => exact hbuilt.symm
    case live => exact hlive.symm
    all_goals rfl

/-- The reference given up may have been the last one. -/
theorem Grounded.releaseLocale (h : w.Grounded (l ::ₘ hand)) :
    w.Settles 0 (w.releaseLocale l) hand := by
  have hpos := h.refs_pos (Multiset.mem_cons_self l hand)
  obtain ⟨o, ho, hrefs, hrelease⟩ := Shared.release_of_refs_pos hpos
  have hcovered : ∀ l', w.places l' + hand.count l' ≤ (w.locales.release l).1.refs l' := by
    intro l'
    have hc := h.covered l'
    have hr := Shared.refs_release hpos l'
    rw [Multiset.count_cons] at hc
    omega
  have hbuilt : (w.locales.release l).1.objects.length = w.locales.objects.length := by
    rw [hrelease]
    exact List.length_set ..
  have hlive : (w.locales.release l).1.live.length + (if o.refs = 1 then 1 else 0) =
      w.locales.live.length := by
    have hset := sum_map_set ho (fun o => if o.refs = 0 then 0 else 1)
      { o with refs := o.refs - 1 }
    have hne : o.refs ≠ 0 := by omega
    rw [Shared.length_live, Shared.length_live, hrelease]
    simp only [hne, if_false] at hset ⊢
    split at hset <;> split <;> omega
  have hdown : ({ w with locales := (w.locales.release l).1 } : World).Grounded hand :=
    ⟨h.sound, h.housed, hcovered⟩
  unfold World.releaseLocale
  rw [hrelease] at hdown hbuilt hlive ⊢
  by_cases hone : o.refs = 1
  · simp only [hone, if_true] at hdown hbuilt hlive ⊢
    have hdestroyed : w.Settles 0 (World.tally
        { w with locales := ⟨w.locales.objects.set l { o with refs := 1 - 1 }⟩ }
        .localesDestroyed) hand := by
      refine Settles.counts .localesDestroyed 1 ⟨hdown.sound, hdown.housed, hdown.covered⟩
        (Nat.le_refl _) rfl ?_
      constructor
      case built => exact hbuilt.symm
      case live => exact hlive.symm
      all_goals rfl
    exact hdestroyed.before (hdestroyed.grounded.quiet
      ((quiet_log _ _).trans (quiet_releaseFacets _ _)))
  · simp only [hone, if_false] at hdown hbuilt hlive ⊢
    refine Settles.still hdown (Nat.le_refl _) rfl ?_
    unfold stock
    exact congrArg₂ (Stock.mk · · _ _ _ _ _) hbuilt hlive

theorem Grounded.releaseLocales {ls : List LocaleId}
    (h : w.Grounded ((ls : Multiset LocaleId) + hand)) :
    w.Settles 0 (w.releaseLocales ls) hand := by
  induction ls generalizing w with
  | nil => exact (h.of_eq (Multiset.zero_add _)).refl
  | cons l ls ih =>
      have hl : w.Grounded (l ::ₘ ((ls : Multiset LocaleId) + hand)) := by
        rw [← Multiset.cons_add, Multiset.cons_coe]
        exact h
      exact hl.releaseLocale.before (ih hl.releaseLocale.grounded)

theorem Grounded.addClassic (h : w.Grounded hand) :
    w.Settles 0 w.addClassic.1 (w.addClassic.2 ::ₘ hand) := by
  let p₁ := w.placeNew [] .charClass
  let p₂ := p₁.1.placeNew p₁.2 (.numPunct .classic)
  have hplace : w.Quiet (p₂.1.placeNew p₂.2 .collation).1 :=
    ((w.quiet_placeNew [] .charClass).trans (quiet_placeNew _ p₁.2 _)).trans
      (quiet_placeNew _ p₂.2 _)
  exact (h.quiet hplace).before ((h.quiet hplace).grounded.addLocale _)

theorem Grounded.addTransparent (h : w.Grounded hand) :
    w.Settles 0 w.addTransparent.1 (w.addTransparent.2 ::ₘ hand) := h.addLocale _

theorem Grounded.withFacet (h : w.Grounded hand) (l : LocaleId) (kind : FacetKind)
    (f : FacetId) : w.Settles 0 (w.withFacet l kind f).1 ((w.withFacet l kind f).2 ::ₘ hand) := by
  unfold World.withFacet
  let base := (w.locale? l).getD ⟨unnamed, .empty, [], false, false⟩
  have hretain := Quiet.foldl quiet_retainFacet? w base.facets
  have hindex := hretain.trans (quiet_indexOf _ kind)
  have hquiet := hindex.trans (quiet_releaseFacet? _
    (base.facetAt? (indexOf (base.facets.foldl (fun w o => o.elim w w.retainFacet) w) kind).2))
  exact (h.quiet hquiet).before ((h.quiet hquiet).grounded.addLocale _)

/-! ## Slots of registries -/

/-- What a registry holds more it takes over from callers, and what it holds less it hands
to them. -/
theorem Grounded.modified (h : w.Grounded hand) (hg : w.registry? r = some g)
    {f : Registry → Registry} (hlocal : (f g).threadLocale = g.threadLocale)
    (hcount : ∀ l, (f g).classic.toList.count l + (f g).global.toList.count l + hand'.count l ≤
      g.classic.toList.count l + g.global.toList.count l + hand.count l) :
    (w.modifyRegistry r f).Grounded hand' := by
  refine ⟨h.sound, ?_, ?_⟩
  · intro r' g' hg'
    rw [registry?_modifyRegistry] at hg'
    by_cases hr : r' = r
    · rw [if_pos hr, hr, hg, Option.map_some, Option.some.injEq] at hg'
      rw [← hg', hlocal]
      exact h.housed hg
    · rw [if_neg hr] at hg'
      exact h.housed hg'
  · intro l
    have hcovered := h.covered l
    have hl := hcount l
    have hset : (w.modifyRegistry r f).registries = w.registries.set r (f g) :=
      modify_eq_set_of_getElem? hg f
    have hsum := sum_map_set (show w.registries[r]? = some g from hg)
      (fun g => g.classic.toList.count l + g.global.toList.count l) (f g)
    simp only [places, slotsOf] at hcovered
    simp only [places, slotsOf, hset]
    change _ ≤ w.locales.refs l
    change _ + w.locals.weigh _ + _ ≤ _
    omega

theorem length_registries_modifyRegistry (w : World) (r : RegistryId)
    (f : Registry → Registry) : (w.modifyRegistry r f).registries.length = w.registries.length :=
  List.length_modify ..

theorem entries_modifyRegistry (hg : w.registry? r = some g) (f : Registry → Registry) :
    (w.modifyRegistry r f).stock.entries + g.entries.length =
      w.stock.entries + (f g).entries.length := by
  have hset : (w.modifyRegistry r f).registries = w.registries.set r (f g) :=
    modify_eq_set_of_getElem? hg f
  unfold stock
  rw [hset]
  exact sum_map_set (show w.registries[r]? = some g from hg) (·.entries.length) (f g)

theorem Grounded.modifyRegistry (h : w.Grounded hand) (hg : w.registry? r = some g)
    {f : Registry → Registry} (hlocal : (f g).threadLocale = g.threadLocale)
    (hentries : (f g).entries = g.entries)
    (hcount : ∀ l, (f g).classic.toList.count l + (f g).global.toList.count l + hand'.count l ≤
      g.classic.toList.count l + g.global.toList.count l + hand.count l) :
    w.Settles 0 (w.modifyRegistry r f) hand' := by
  have hsum := entries_modifyRegistry hg f
  rw [hentries] at hsum
  refine Settles.still (h.modified hg hlocal hcount)
    (Nat.le_of_eq (length_registries_modifyRegistry ..).symm) rfl ?_
  exact congrArg (Stock.mk _ _ · _ _ _ _) (Nat.add_right_cancel hsum)

theorem Grounded.publishClassic (h : w.Grounded hand) (hg : w.registry? r = some g) :
    w.Settles 0 (w.publishClassic r).1 hand := by
  cases hc : g.classic with
  | some c =>
      rw [publishClassic_of_some hg hc]
      exact h.refl
  | none =>
      rw [publishClassic_of_none hg hc]
      have h₁ := h.addClassic
      have hg₁ : World.registry? w.addClassic.1 r = some g :=
        (w.unmoved_addClassic.registry? r).trans hg
      have h₂ : w.addClassic.1.Settles 0 _ hand := h₁.grounded.modifyRegistry hg₁
        (f := ({ · with classic := some w.addClassic.2 })) rfl rfl (by
          intro l
          simp only [hc, Option.toList_none, Option.toList_some, List.count_nil,
            List.count_singleton, Multiset.count_cons, beq_iff_eq, eq_comm (a := l)]
          omega)
      exact (h₁.before h₂).before (h₂.grounded.quiet (quiet_log _ _))

theorem Grounded.publishGlobal (h : w.Grounded hand) (hg : w.registry? r = some g)
    {c : LocaleId} (hc : 0 < w.locales.refs c) : w.Settles 0 (w.publishGlobal r c).1 hand := by
  cases hl : g.global with
  | some l =>
      rw [publishGlobal_of_some hg hl]
      exact h.refl
  | none =>
      rw [publishGlobal_of_none hg hl]
      have h₁ := h.retainLocale hc
      have hg₁ : World.registry? (w.retainLocale c) r = some g := hg
      have h₂ : (w.retainLocale c).Settles 0 _ hand := h₁.grounded.modifyRegistry hg₁
        (f := ({ · with global := some c })) rfl rfl (by
          intro l
          simp only [hl, Option.toList_none, Option.toList_some, List.count_nil,
            List.count_singleton, Multiset.count_cons, beq_iff_eq, eq_comm (a := l)]
          omega)
      exact h₁.before h₂

theorem quiet_queueTeardown (w : World) (r : RegistryId) : w.Quiet (w.queueTeardown r) :=
  queueTeardown_induction Quiet.refl Quiet.trans
    (fun w r => w.quiet_modifyRegistry r fun _ => rfl) quiet_register
    (fun w f => w.quiet_log (.teardownRefused f)) w r

theorem Grounded.publish (h : w.Grounded hand) (hg : w.registry? r = some g) :
    w.Settles 0 (w.publish r).1 hand := by
  have h₁ := h.publishClassic hg
  have hregistry := registry?_publishClassic hg r
  unfold World.publish
  generalize w.publishClassic r = p₁ at h₁ hregistry ⊢
  obtain ⟨w₁, c⟩ := p₁
  simp only [if_true] at h₁ hregistry ⊢
  have hc : 0 < w₁.locales.refs c := h₁.grounded.refs_pos_of_slot hregistry (Or.inl rfl)
  have h₂ := h₁.before (h₁.grounded.publishGlobal hregistry hc)
  generalize w₁.publishGlobal r c = p₂ at h₂ ⊢
  obtain ⟨w₂, l⟩ := p₂
  exact h₂.before (h₂.grounded.quiet (quiet_queueTeardown _ r))

theorem Grounded.ensureLocales (h : w.Grounded hand) (hg : w.registry? r = some g) :
    w.Settles 0 (w.ensureLocales r) hand := by
  unfold World.ensureLocales
  split
  · exact h.refl
  · exact h.publish hg

theorem registry?_publish (hg : w.registry? r = some g) :
    ∃ g', World.registry? (w.publish r).1 r = some g' ∧
      g'.classic = some (w.publish r).2.1 ∧ g'.global = some (w.publish r).2.2 := by
  have hp := Published.registry? (published_publish hg) r
  rw [if_pos rfl] at hp
  exact ⟨_, hp, rfl, rfl⟩

theorem Grounded.globalLocale? (h : w.Grounded hand) (hg : w.registry? r = some g) :
    w.Settles 0 (w.globalLocale? r).1 ((w.globalLocale? r).2.toList + hand) := by
  unfold World.globalLocale?
  rw [hg, Option.bind_some]
  cases hl : g.global with
  | none => exact h.refl.of_eq (Multiset.zero_add _).symm
  | some l =>
      exact (h.retainLocale (h.refs_pos_of_slot hg (Or.inr hl))).of_eq
        (Multiset.singleton_add _ _).symm

theorem Grounded.globalLocale (h : w.Grounded hand) (hg : w.registry? r = some g) :
    w.Settles 0 (w.globalLocale r).1 ((w.globalLocale r).2 ::ₘ hand) := by
  unfold World.globalLocale World.globalLocale?
  rw [hg, Option.bind_some]
  cases hl : g.global with
  | some l => exact h.retainLocale (h.refs_pos_of_slot hg (Or.inr hl))
  | none =>
      have h₁ := h.publish hg
      obtain ⟨g₁, hg₁, -, hl₁⟩ := registry?_publish hg
      exact h₁.before (h₁.grounded.retainLocale (h₁.grounded.refs_pos_of_slot hg₁ (Or.inr hl₁)))

theorem Grounded.classicLocale (h : w.Grounded hand) (hg : w.registry? r = some g) :
    w.Settles 0 (w.classicLocale r).1 ((w.classicLocale r).2 ::ₘ hand) := by
  unfold World.classicLocale
  rw [hg, Option.bind_some]
  cases hc : g.classic with
  | some c => exact h.retainLocale (h.refs_pos_of_slot hg (Or.inl hc))
  | none =>
      have h₁ := h.publish hg
      obtain ⟨g₁, hg₁, hc₁, -⟩ := registry?_publish hg
      exact h₁.before (h₁.grounded.retainLocale (h₁.grounded.refs_pos_of_slot hg₁ (Or.inl hc₁)))

theorem Grounded.emptyLocale (h : w.Grounded hand) (hg : w.registry? r = some g) :
    w.Settles 0 (w.emptyLocale r).1 ((w.emptyLocale r).2 ::ₘ hand) :=
  (h.ensureLocales hg).before (h.ensureLocales hg).grounded.addTransparent

/-- The global locale before is handed over. -/
theorem Grounded.replaceGlobal (h : w.Grounded hand) (hg : w.registry? r = some g)
    (hl : l ∈ hand) :
    w.Settles 0 (w.replaceGlobal r l).1 ((w.replaceGlobal r l).2 ::ₘ hand) := by
  have h₁ := h.publish hg
  obtain ⟨g₁, hg₁, -, hglobal⟩ := registry?_publish hg
  have h₂ := h₁.before (h₁.grounded.retainLocale (h₁.grounded.refs_pos hl))
  have hg₂ : World.registry? ((w.publish r).1.retainLocale l) r = some g₁ := hg₁
  have h₃ : World.Settles _ 0 _ ((w.publish r).2.2 ::ₘ hand) :=
    h₂.grounded.modifyRegistry hg₂ (f := ({ · with global := some l })) rfl rfl (by
      intro l'
      simp only [hglobal, Option.toList_some, List.count_singleton, Multiset.count_cons,
        beq_iff_eq, eq_comm (a := l')]
      omega)
  exact (h₂.before h₃).before (h₃.grounded.quiet (quiet_log _ _))

end Hosted.World
