import Hosted.Proofs.References.Holders
import Mathlib.Algebra.BigOperators.Group.List.Basic
import Mathlib.Algebra.GroupWithZero.Nat
import Mathlib.Data.List.Nodup

/-!
# Counting the holders

The references that the environment holds, counted by who holds them: the slots of
registries, the settings that threads have bound, live locales, and the caches and lists
of registries. A value in a cell is the setting of just one thread in just one registry,
so cells may be counted by threads.
-/

namespace Hosted

/-- A list may be run through by positions, up to any number not less than its length. -/
theorem flatMap_range {α β : Type} (xs : List α) (g : α → List β) {n : Nat}
    (h : xs.length ≤ n) : (List.range n).flatMap (fun i => xs[i]?.elim [] g) = xs.flatMap g := by
  induction xs generalizing n with
  | nil => simp
  | cons x xs ih =>
      obtain ⟨n, rfl⟩ := Nat.exists_eq_add_one.2 (Nat.lt_of_lt_of_le (Nat.succ_pos _) h)
      rw [List.range_succ_eq_map, List.flatMap_cons, List.flatMap_map, List.flatMap_cons]
      simp only [List.getElem?_cons_zero, Option.elim_some, List.getElem?_cons_succ]
      rw [ih (Nat.le_of_succ_le_succ h)]

/-! ## Destructions -/

/-- The objects that have been destroyed since `s`. -/
def Shared.destroyed {α : Type} (s s' : Shared α) : List α :=
  (List.range s'.objects.length).filterMap fun id =>
    if s'.refs id = 0 ∧ (id < s.objects.length → s.refs id ≠ 0) then
      s'.objects[id]?.map (·.body)
    else none

theorem count_remains_of_ages {α : Type} {s s' : Shared α} (h : s.Ages s')
    (what : α → List Remains) (x : Remains) :
    (s'.objects.flatMap (Counted.remains what)).count x =
      (s.objects.flatMap (Counted.remains what)).count x +
        ((s.destroyed s').flatMap what).count x := by
  rw [← flatMap_range s'.objects _ (Nat.le_refl _), ← flatMap_range s.objects _ h.length_le,
    Shared.destroyed, List.filterMap_eq_flatMap_toList, List.flatMap_assoc]
  simp only [List.count_flatMap, ← List.sum_map_add]
  congr 1
  refine List.map_congr_left fun id _ => ?_
  simp only [Function.comp_apply]
  cases ho : s.objects[id]? with
  | none =>
      have hge := List.getElem?_eq_none_iff.1 ho
      cases ho' : s'.objects[id]? with
      | none => simp
      | some o' =>
          by_cases hz : o'.refs = 0
          · simp [Counted.remains, Shared.refs_of_getElem? ho', hz, Nat.not_lt.2 hge]
          · simp [Counted.remains, Shared.refs_of_getElem? ho', hz]
  | some o =>
      obtain ⟨o', ho', hbody, hzero⟩ := h ho
      have hlt := (List.getElem?_eq_some_iff.1 ho).1
      rw [ho', Shared.refs_of_getElem? ho, Shared.refs_of_getElem? ho']
      by_cases hz : o.refs = 0
      · simp [Counted.remains, hz, hzero hz, hbody, hlt]
      · by_cases hz' : o'.refs = 0
        · simp [Counted.remains, hz, hz']
        · simp [Counted.remains, hz, hz']

namespace Holding

theorem count_locales (ls : List LocaleId) (l : LocaleId) :
    (ls.map locale).count (.locale l) = ls.count l :=
  List.count_map_of_injective ls _ (fun _ _ heq => locale.inj heq) l

theorem count_facets (fs : List FacetId) (f : FacetId) :
    (fs.map facet).count (.facet f) = fs.count f :=
  List.count_map_of_injective fs _ (fun _ _ heq => facet.inj heq) f

theorem facet_count_locales (ls : List LocaleId) (f : FacetId) :
    (ls.map locale).count (.facet f) = 0 := by
  simp [List.count_eq_zero]

theorem locale_count_facets (fs : List FacetId) (l : LocaleId) :
    (fs.map facet).count (.locale l) = 0 := by
  simp [List.count_eq_zero]

end Holding

namespace World

variable {w : World} {m : BindingMap} {hand : Multiset Holding} {l : LocaleId} {f : FacetId}

theorem sum_registries_pos_iff {count : Registry → Nat} : 0 < (w.registries.map count).sum ↔
    ∃ r g, w.registry? r = some g ∧ 0 < count g := by
  rw [List.sum_pos_iff_exists_pos_nat]
  constructor
  · rintro ⟨n, hn, hpos⟩
    obtain ⟨g, hmem, rfl⟩ := List.mem_map.1 hn
    obtain ⟨r, hg⟩ := List.mem_iff_getElem?.1 hmem
    exact ⟨r, g, hg, hpos⟩
  · rintro ⟨r, g, hg, hpos⟩
    exact ⟨count g, List.mem_map_of_mem (List.mem_of_getElem? hg), hpos⟩

/-! ## Locales -/

/-- The slots of registries that hold a locale. -/
def slotsOf (w : World) (l : LocaleId) : Nat :=
  (w.registries.map fun g => g.classic.toList.count l + g.global.toList.count l).sum

theorem slotsOf_pos_iff : 0 < w.slotsOf l ↔
    ∃ r g, w.registry? r = some g ∧ (g.classic = some l ∨ g.global = some l) := by
  unfold slotsOf
  simp only [sum_registries_pos_iff, Nat.add_pos_iff_pos_or_pos, List.count_pos_iff,
    Option.mem_toList]

/-- The thread has set the locale in the registry. -/
def HasSet (w : World) (l : LocaleId) (g : Registry) (t : ThreadId) : Prop :=
  w.locals.get? t g.threadLocale = some (.setting (some l))

instance (w : World) (l : LocaleId) (g : Registry) : DecidablePred (w.HasSet l g) :=
  fun _ => inferInstanceAs (Decidable (_ = _))

theorem HasSet.lt {g : Registry} {t : ThreadId} (h : w.HasSet l g t) :
    t < w.locals.threads.length := by
  by_contra hge
  have huntouched : w.locals.thread t = .untouched := by
    rw [Locals.thread, List.getElem?_eq_none (Nat.not_lt.1 hge)]
    rfl
  unfold HasSet Locals.get? Locals.cellOf? at h
  cases hl : w.locals.local? g.threadLocale with
  | none => simp [hl] at h
  | some loc => simp [hl, huntouched, Thread.binding?, Thread.at?] at h

/-- The threads that have set a locale, counted for each registry. -/
def settingsOf (w : World) (l : LocaleId) : Nat :=
  (w.registries.map fun g => (List.range w.locals.threads.length).countP (w.HasSet l g)).sum

theorem settingsOf_pos_iff : 0 < w.settingsOf l ↔
    ∃ r g, w.registry? r = some g ∧ ∃ t, w.HasSet l g t := by
  unfold settingsOf
  simp only [sum_registries_pos_iff, List.countP_pos_iff, List.mem_range, decide_eq_true_eq]
  exact exists₂_congr fun r g => and_congr_right fun _ => exists_congr fun t =>
    and_iff_right_of_imp HasSet.lt

/-- The cells that threads see as settings, by registry. -/
def settingCells (w : World) (l : LocaleId) : List CellId :=
  w.registries.flatMap fun g => (List.range w.locals.threads.length).filterMap fun t =>
    if w.HasSet l g t then w.locals.cellOf? t g.threadLocale else none

theorem length_settingCells (w : World) (l : LocaleId) :
    (w.settingCells l).length = w.settingsOf l := by
  unfold settingCells settingsOf
  rw [List.length_flatMap]
  congr 1
  refine List.map_congr_left fun g _ => ?_
  rw [List.length_filterMap_eq_countP]
  refine List.countP_congr fun t _ => ?_
  by_cases ht : w.HasSet l g t
  · cases hc : w.locals.cellOf? t g.threadLocale with
    | none => simp [HasSet, Locals.get?, hc] at ht
    | some c => simp [ht]
  · simp [ht]

theorem mem_settingCells {c : CellId} : c ∈ w.settingCells l ↔
    ∃ g ∈ w.registries, ∃ t < w.locals.threads.length,
      w.HasSet l g t ∧ w.locals.cellOf? t g.threadLocale = some c := by
  unfold settingCells
  simp only [List.mem_flatMap, List.mem_filterMap, List.mem_range]
  refine exists_congr fun g => and_congr_right fun _ => exists_congr fun t =>
    and_congr_right fun _ => ?_
  by_cases ht : w.HasSet l g t <;> simp [ht]

/-- No cell is seen twice. -/
theorem Housed.nodup_settingCells (h : w.Housed m) (l : LocaleId) :
    (w.settingCells l).Nodup := by
  have hs := h.describes.exact.toSound
  unfold settingCells
  refine List.nodup_flatMap.2 ⟨?_, ?_⟩
  · intro g _
    refine List.Nodup.filterMap ?_ List.nodup_range
    intro t t' c hc hc'
    split at hc
    · split at hc'
      · exact (hs.cellOf?_inj hc hc').1
      · cases hc'
    · cases hc
  · apply List.pairwise_iff_getElem.2
    intro i j hi hj hij c hc hc'
    obtain ⟨t, -, hc⟩ := List.mem_filterMap.1 hc
    obtain ⟨t', -, hc'⟩ := List.mem_filterMap.1 hc'
    split at hc
    · split at hc'
      · have hid := (hs.cellOf?_inj hc hc').2
        have heq := h.home_inj (List.getElem?_eq_getElem hi) (List.getElem?_eq_getElem hj) hid
        exact absurd heq (Nat.ne_of_lt hij)
      · cases hc'
    · cases hc

/-- What lies in a cell is the setting of some thread in some registry. -/
theorem Housed.mem_settingCells_iff (h : w.Housed m) {c : CellId} :
    c ∈ w.settingCells l ↔ w.locals.cell? c = some (.setting (some l)) := by
  have hs := h.describes.exact.toSound
  rw [mem_settingCells]
  constructor
  · rintro ⟨g, -, t, -, hset, hc⟩
    rwa [HasSet, Locals.get?, hc] at hset
  · intro hcell
    obtain ⟨id, loc, hl, hmem⟩ := hs.owned (c := c) (by rw [hcell]; rfl)
    have hadmits := h.admits (Locals.mem_valuesOf.2 ⟨loc, c, hl, hmem, hcell⟩)
    have hhome : w.IsHome id := by
      by_contra hnot
      obtain ⟨text, htext⟩ := hadmits.tracked hnot
      cases htext
    obtain ⟨t, ht⟩ := h.describes.exact.exists_cellOf? hhome hl hmem
    have hget : w.locals.get? t id = some (.setting (some l)) := by
      rw [Locals.get?, ht]
      exact hcell
    obtain ⟨r, g, hg, rfl⟩ := hhome
    exact ⟨g, List.mem_of_getElem? hg, t, HasSet.lt hget, hget, ht⟩

theorem Housed.count_cells (h : w.Housed m) (l : LocaleId) :
    (w.locals.cells.flatMap cellHoldings).count (.locale l) = w.settingsOf l := by
  have hperm : (w.settingCells l).Perm ((List.range w.locals.cells.length).filter fun c =>
      w.locals.cell? c = some (.setting (some l))) := by
    rw [List.perm_ext_iff_of_nodup (h.nodup_settingCells l) (List.nodup_range.filter _)]
    intro c
    rw [h.mem_settingCells_iff, List.mem_filter, List.mem_range, decide_eq_true_eq]
    refine ⟨fun hc => ⟨?_, hc⟩, fun hc => hc.2⟩
    by_contra hge
    simp [Locals.cell?, List.getElem?_eq_none (Nat.not_lt.1 hge)] at hc
  have hone : ∀ c, ((w.locals.cells[c]?.elim [] cellHoldings).count (.locale l)) =
      if w.locals.cell? c = some (.setting (some l)) then 1 else 0 := by
    intro c
    unfold Locals.cell?
    cases w.locals.cells[c]? with
    | none => simp
    | some cell => rcases cell with - | text | - | l' <;>
      simp [cellHoldings, Payload.holdings, List.count_singleton]
  rw [← length_settingCells, hperm.length_eq, ← List.countP_eq_length_filter,
    ← flatMap_range _ _ (Nat.le_refl _)]
  induction List.range w.locals.cells.length with
  | nil => rfl
  | cons c cs ih =>
      rw [List.flatMap_cons, List.count_append, List.countP_cons, ih, hone, Nat.add_comm]
      simp only [decide_eq_true_eq]

/-- The references to a locale are those in callers' hands and those in registries. -/
theorem Kept.locale_refs (h : w.Kept hand) (l : LocaleId) :
    w.locales.refs l = hand.count (.locale l) + w.slotsOf l + w.settingsOf l := by
  obtain ⟨m, hm⟩ := h.housed
  have hb := h.balanced (.locale l)
  have hslots : (w.registries.flatMap Registry.holdings).count (.locale l) = w.slotsOf l := by
    rw [List.count_flatMap, slotsOf]
    congr 1
    refine List.map_congr_left fun g _ => ?_
    rw [Function.comp_apply, Registry.holdings, List.count_append,
      Holding.count_locales, Holding.locale_count_facets, List.count_append, Nat.add_zero]
  have hlocales : (w.locales.objects.flatMap Counted.holdings).count (.locale l) = 0 := by
    refine List.count_eq_zero.2 fun hmem => ?_
    obtain ⟨o, -, hmem⟩ := List.mem_flatMap.1 hmem
    simp only [Counted.holdings, Locale.holdings] at hmem
    split at hmem
    · cases hmem
    · simp at hmem
  simp only [refsOf, held, List.count_append, hslots, hm.count_cells, hlocales] at hb
  omega

/-! ## Facets -/

/-- The live locales that carry a facet. -/
def carriersOf (w : World) (f : FacetId) : Nat :=
  (w.locales.live.map fun l => l.facets.count (some f)).sum

/-- The facets that registries have cached or recorded. -/
def keptOf (w : World) (f : FacetId) : Nat :=
  (w.registries.map fun g => (g.lazy.map (·.2)).count f + g.entries.count f).sum

theorem carriersOf_pos_iff : 0 < w.carriersOf f ↔
    ∃ l body, w.locale? l = some body ∧ some f ∈ body.facets := by
  unfold carriersOf
  simp only [List.sum_pos_iff_exists_pos_nat, List.mem_map, exists_exists_and_eq_and,
    List.count_pos_iff, Shared.mem_live_iff]
  exact ⟨fun ⟨body, ⟨l, hl⟩, hmem⟩ => ⟨l, body, hl, hmem⟩,
    fun ⟨l, body, hl, hmem⟩ => ⟨body, ⟨l, hl⟩, hmem⟩⟩

theorem keptOf_pos_iff : 0 < w.keptOf f ↔
    ∃ r g, w.registry? r = some g ∧ (f ∈ g.lazy.map (·.2) ∨ f ∈ g.entries) := by
  unfold keptOf
  simp only [sum_registries_pos_iff, Nat.add_pos_iff_pos_or_pos, List.count_pos_iff]

/-- The references to a facet are those in callers' hands, those of live locales and those
of registries. -/
theorem Kept.facet_refs (h : w.Kept hand) (f : FacetId) :
    w.facets.refs f = hand.count (.facet f) + w.carriersOf f + w.keptOf f := by
  have hb := h.balanced (.facet f)
  have hkept : (w.registries.flatMap Registry.holdings).count (.facet f) = w.keptOf f := by
    rw [List.count_flatMap, keptOf]
    congr 1
    refine List.map_congr_left fun g _ => ?_
    rw [Function.comp_apply, Registry.holdings, List.count_append,
      Holding.count_facets, Holding.facet_count_locales, List.count_append, Nat.zero_add]
  have hcells : (w.locals.cells.flatMap cellHoldings).count (.facet f) = 0 := by
    refine List.count_eq_zero.2 fun hmem => ?_
    obtain ⟨cell, -, hmem⟩ := List.mem_flatMap.1 hmem
    rcases cell with - | text | - | l <;> simp [cellHoldings, Payload.holdings] at hmem
  have hlocales : (w.locales.objects.flatMap Counted.holdings).count (.facet f) =
      w.carriersOf f := by
    rw [List.count_flatMap, carriersOf, Shared.live]
    induction w.locales.objects with
    | nil => rfl
    | cons o objects ih =>
        rw [List.map_cons, List.sum_cons, ih, List.filterMap_cons, Function.comp_apply,
          Counted.holdings]
        by_cases hz : o.refs = 0
        · simp [hz]
        · simp only [hz, if_false, List.map_cons, List.sum_cons, Locale.holdings]
          rw [Holding.count_facets, List.count_filterMap]
          rfl
  simp only [refsOf, held, List.count_append, hkept, hcells, hlocales] at hb
  omega

end World

end Hosted
