import Hosted.Proofs.References.Census
import Hosted.Proofs.Session.Reachable

/-!
# The balance of references

In a reachable session, the count of a locale is the number of its named handles, of the
references behind raw handles and of the slots and settings of registries; the count of
a facet is the number of its named handles, of its records in lists, of the live locales
that carry it and of its places in registries. With every command, the destructions that
are noticed are those of the objects whose count has come to zero.
-/

namespace Hosted

namespace World

/-- What becomes of objects until `w'`, if nothing had been noticed before. -/
structure Buries (w w' : World) : Prop where
  locale_gone : ∀ l < w.locales.objects.length, w.locales.refs l = 0 → w'.locales.refs l = 0
  facet_gone : ∀ f < w.facets.objects.length, w.facets.refs f = 0 → w'.facets.refs f = 0
  locale_stays : ∀ {l body}, w.locales.get? l = some body → 0 < w'.locales.refs l →
    w'.locales.get? l = some body
  facet_stays : ∀ {f body}, w.facets.get? f = some body → 0 < w'.facets.refs f →
    w'.facets.get? f = some body
  noticed : ∀ x, (w'.notices.filterMap Notice.remains?).count x =
    ((w.locales.destroyed w'.locales).map fun l => Remains.locale l.name).count x +
      ((w.facets.destroyed w'.facets).flatMap
        fun f => f.farewell.filterMap Notice.remains?).count x

theorem Ages.buries {w w' : World} (h : w.Ages w') (hnone : w.notices = []) : w.Buries w' where
  locale_gone _ hlt hz := Shared.Ages.refs_eq_zero h.locales hlt hz
  facet_gone _ hlt hz := Shared.Ages.refs_eq_zero h.facets hlt hz
  locale_stays hget hpos := Shared.Ages.get? h.locales hget hpos
  facet_stays hget hpos := Shared.Ages.get? h.facets hget hpos
  noticed x := by
    obtain ⟨new, hnew, hcount⟩ := h.notices
    have hx := hcount x
    have hlocales := count_remains_of_ages h.locales (fun l => [Remains.locale l.name]) x
    have hfacets := count_remains_of_ages h.facets
      (fun f => f.farewell.filterMap Notice.remains?) x
    rw [hnone, List.nil_append] at hnew
    rw [hnew, List.map_eq_flatMap]
    simp only [remains, List.count_append] at hx
    omega

end World

namespace Session

open World

variable {s : Session} {c : Command}

/-! ## Handles -/

/-- The named handles to a locale. -/
def localeHandles (s : Session) (l : LocaleId) : Nat := s.locales.values.count l

/-- The references to a locale behind raw handles. -/
def rawHandles (s : Session) (l : LocaleId) : Nat :=
  (s.handles.values.map fun h => if h.locale = l then h.held else 0).sum

/-- The named handles to a facet. -/
def facetHandles (s : Session) (f : FacetId) : Nat := s.facets.values.count f

/-- The records of a facet in lists. -/
def listed (s : Session) (f : FacetId) : Nat := (s.facetLists.values.map (·.count f)).sum

theorem count_locale_hand (s : Session) (l : LocaleId) :
    s.hand.count (.locale l) = s.localeHandles l + s.rawHandles l := by
  have hnamed : (s.locales.values.flatMap fun l => [Holding.locale l]).count (.locale l) =
      s.localeHandles l := by
    rw [← List.map_eq_flatMap, Holding.count_locales]
    rfl
  have hraw : (s.handles.values.flatMap grip).count (.locale l) = s.rawHandles l := by
    rw [List.count_flatMap, rawHandles]
    congr 1
    refine List.map_congr_left fun h _ => ?_
    rw [Function.comp_apply, grip, List.count_replicate]
    simp
  have hfacets : (s.facets.values.flatMap fun f => [Holding.facet f]).count (.locale l) = 0 := by
    rw [← List.map_eq_flatMap, Holding.locale_count_facets]
  have hlists : (s.facetLists.values.flatMap (·.map Holding.facet)).count (.locale l) = 0 := by
    refine List.count_eq_zero.2 fun hmem => ?_
    obtain ⟨fs, -, hmem⟩ := List.mem_flatMap.1 hmem
    obtain ⟨f, -, hmem⟩ := List.mem_map.1 hmem
    cases hmem
  simp only [hand, Names.hold, Multiset.count_add, Multiset.coe_count]
  omega

theorem count_facet_hand (s : Session) (f : FacetId) :
    s.hand.count (.facet f) = s.facetHandles f + s.listed f := by
  have hlocales : (s.locales.values.flatMap fun l => [Holding.locale l]).count (.facet f) =
      0 := by
    rw [← List.map_eq_flatMap, Holding.facet_count_locales]
  have hraw : (s.handles.values.flatMap grip).count (.facet f) = 0 := by
    refine List.count_eq_zero.2 fun hmem => ?_
    obtain ⟨h, -, hmem⟩ := List.mem_flatMap.1 hmem
    cases (List.mem_replicate.1 hmem).2
  have hnamed : (s.facets.values.flatMap fun f => [Holding.facet f]).count (.facet f) =
      s.facetHandles f := by
    rw [← List.map_eq_flatMap, Holding.count_facets]
    rfl
  have hlists : (s.facetLists.values.flatMap (·.map Holding.facet)).count (.facet f) =
      s.listed f := by
    rw [List.count_flatMap, listed]
    congr 1
    refine List.map_congr_left fun fs _ => ?_
    rw [Function.comp_apply, Holding.count_facets]
  simp only [hand, Names.hold, Multiset.count_add, Multiset.coe_count]
  omega

/-! ## Accounts -/

/-- The counts of all objects are the numbers of those who hold them. -/
structure Balanced (s : Session) : Prop where
  locales : ∀ l, s.world.locales.refs l =
    s.localeHandles l + s.rawHandles l + s.world.slotsOf l + s.world.settingsOf l
  facets : ∀ f, s.world.facets.refs f =
    s.facetHandles f + s.listed f + s.world.carriersOf f + s.world.keptOf f

theorem Valid.balanced (h : s.Valid 0) : s.Balanced where
  locales l := by
    rw [h.kept.locale_refs, Multiset.zero_add, count_locale_hand]
  facets f := by
    rw [h.kept.facet_refs, Multiset.zero_add, count_facet_hand]

theorem world_threadOf (s : Session) (on : Option String) :
    (s.threadOf on).1.world = s.world := by
  cases on with
  | none => rfl
  | some name =>
      simp only [Session.threadOf]
      cases s.threads.find? name <;> rfl

/-- In every reachable session all references are accounted for, and so are the
destructions in the step that any command makes next. A command that only borrows a
handle leaves the environment as it is. -/
theorem Reachable.accounts (h : s.Reachable) : s.Balanced ∧
    ∀ c, s.Allows c → (s.perform? c).1.Balanced ∧ s.world.Buries (s.perform? c).1.world ∧
      ∀ step, c.step = .handle step → step.Borrows → (s.perform? c).1.world = s.world := by
  refine ⟨h.valid.balanced, fun c hc => ?_⟩
  have hleads := h.valid.perform? hc
  refine ⟨hleads.valid.balanced, (hleads.keeps h.valid).ages.buries h.notices_eq, ?_⟩
  intro step hstep hborrows
  obtain ⟨on, step'⟩ := c
  subst hstep
  have hsame : (s.perform? ⟨on, .handle step⟩).1 = (s.threadOf on).1 :=
    handleStep_of_borrows hborrows _ _
  rw [hsame, world_threadOf]

/-- The command with which a process makes its classic locale. -/
def firstClassic : Command := { step := .registry (.classic .own (some "c")) }

/-- The classic locale is held by its name and by the two slots of the registry. -/
theorem Reachable.accounts_classic :
    let s := Session.alone {} "" none
    let s' := (s.perform? firstClassic).1
    s'.world.locales.refs 0 = 3 ∧ s'.localeHandles 0 = 1 ∧ s'.world.slotsOf 0 = 2 ∧
      s.world.Buries s'.world := by
  have hallow : (Session.alone {} "" none).Allows firstClassic := fun ref href => by cases href
  obtain ⟨hbalanced, hburies, -⟩ := (Reachable.alone {} "" none).accounts.2 firstClassic hallow
  refine ⟨(hbalanced.locales 0).trans ?_, ?_, ?_, hburies⟩
  · decide
  · decide
  · decide

end Session

end Hosted
