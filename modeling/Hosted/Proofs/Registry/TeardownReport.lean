import Hosted.Proofs.Registry.Teardown

/-!
# What a teardown reports

The report of a teardown counts what the registry had. A second teardown with nothing between the
two reports that there was nothing. It writes its two notices and leaves all else as it is, down
to the cells of threads.
-/

namespace Hosted

namespace Locals

variable {α : Type} {s s' : Locals α} {id : LocalId} {v : α}

theorem cells_eq_of_cell? (hlength : s.cells.length = s'.cells.length)
    (hcell : ∀ c, s.cell? c = s'.cell? c) : s.cells = s'.cells := by
  refine List.ext_getElem hlength fun c hc hc' => ?_
  have hsame := hcell c
  rwa [cell?, cell?, List.getElem?_eq_getElem hc, List.getElem?_eq_getElem hc',
    Option.join_some, Option.join_some] at hsame

/-- To put one value into all cells of a thread local once more changes nothing. -/
theorem Sound.modifyAll_modifyAll (hs : s.Sound) (id : LocalId) (v : α) :
    (s.modifyAll id fun _ _ => v).modifyAll id (fun _ _ => v) = s.modifyAll id fun _ _ => v := by
  have hsame : ∀ c, ((s.modifyAll id fun _ _ => v).modifyAll id fun _ _ => v).cell? c =
      (s.modifyAll id fun _ _ => v).cell? c := by
    intro c
    rw [cell?_modifyAll _ id _ ((hs.modifyAll id _).nodup_cellsOf id),
      cell?_modifyAll s id _ (hs.nodup_cellsOf id)]
    change (if c ∈ s.cellsOf id then _ else _) = _
    split
    · rw [Option.map_map]
      rfl
    · rfl
  have hlength := length_foldl_visit (fun _ _ => v) ((s.cellsOf id).zipIdx)
    (s.modifyAll id fun _ _ => v).cells
  have hcells := cells_eq_of_cell? hlength hsame
  exact congrArg (fun cells => { s with cells }) hcells

theorem Sound.eq_of_mem_valuesOf (hs : s.Sound) {u : α}
    (hu : u ∈ (s.modifyAll id fun _ _ => v).valuesOf id) : u = v := by
  rcases hs.mem_valuesOf_modifyAll hu with ⟨hne, -⟩ | ⟨-, _, _, -, rfl⟩
  · exact absurd rfl hne
  · rfl

end Locals

namespace World

variable {w : World} {hand : Multiset Holding} {r : RegistryId} {g : Registry}

/-! ## The report -/

/-- What is counted is what the registry had, since nothing that is released on the way comes back
to it. -/
theorem teardown_snd (hg : w.registry? r = some g) :
    (w.teardown r).2 =
      { releasedClassic := g.classic.isSome, releasedGlobal := g.global.isSome
        threadLocales := (w.takeSettings g.threadLocale).2.length
        lazyFacets := g.lazy.length, facetsTornDown := g.entries.length } := by
  unfold teardown
  rw [hg]
  exact congrArg
    (fun entries : List FacetId => TeardownReport.mk _ _ _ g.lazy.length entries.length)
    (entries_stripped hg _ _)

/-! ## The second report -/

theorem count_zero (w : World) (which : Counter) : w.count which 0 = w := by
  have hadd : w.counters.add which 0 = w.counters := by
    cases which <;> simp only [Counters.add, UInt64.add_zero]
  exact congrArg (fun counters => { w with counters }) hadd

theorem modifyRegistry_of_eq (hg : w.registry? r = some g) {f : Registry → Registry}
    (hf : f g = g) : w.modifyRegistry r f = w := by
  have hmodify : w.registries.modify r f = w.registries := by
    obtain ⟨hlt, rfl⟩ := List.getElem?_eq_some_iff.1 hg
    rw [modify_eq_set_of_getElem? hg, hf]
    exact List.set_getElem_self hlt
  exact congrArg (fun registries => { w with registries }) hmodify

/-- The teardown of a registry that has nothing. -/
theorem teardown_of_nothing (hg : w.registry? r = some g) (hclassic : g.classic = none)
    (hglobal : g.global = none) (hlazy : g.lazy = []) (hentries : g.entries = [])
    (hqueued : (g.teardownQueued && !(w.exitTable g.exits).ran) = g.teardownQueued)
    (htake : w.takeSettings g.threadLocale = (w, [])) :
    w.teardown r = ((w.log (.facetsReleased 0)).log (.tornDown {}), {}) := by
  have hstart : w.modifyRegistry r (fun g₀ =>
      { g₀ with
        teardownQueued := g.teardownQueued && !(w.exitTable g.exits).ran
        classic := none, global := none, lazy := [] }) = w := by
    refine modifyRegistry_of_eq hg ?_
    cases g
    simp only at hclassic hglobal hlazy hqueued
    rw [hclassic, hglobal, hlazy, hqueued]
  have hend : w.modifyRegistry r ({ · with entries := [] }) = w := by
    refine modifyRegistry_of_eq hg ?_
    cases g
    simp only at hentries
    rw [hentries]
  have hrelease : w.releaseRecorded r = (w.log (.facetsReleased 0), 0) := by
    rw [releaseRecorded_eq hg, hend, hentries]
    exact congrArg (fun w => (World.log w (.facetsReleased 0), 0))
      (w.count_zero .facetsReleased)
  unfold teardown
  rw [hg]
  simp only [hstart, htake, hclassic, hglobal, hlazy, Option.toList_none, List.append_nil,
    List.map_nil, releaseLocales, releaseFacets, List.foldl_nil]
  rw [hrelease]
  rfl

/-- A second teardown reports that there was nothing, and nothing but its notices comes of it. -/
theorem Kept.teardown_teardown (h : w.Kept hand) (hg : w.registry? r = some g) :
    World.teardown (w.teardown r).1 r =
      (((w.teardown r).1.log (.facetsReleased 0)).log (.tornDown {}), {}) := by
  obtain ⟨m, hm⟩ := h.housed
  have hsound := hm.describes.exact.toSound
  obtain ⟨hregistry, hlocals⟩ := teardown_eq hg
  have hexits : ∀ t, (w.teardown r).1.exitTable t = w.exitTable t := by
    intro t
    rw [exitTable, exits_teardown]
    rfl
  refine teardown_of_nothing ((hregistry r).trans (if_pos rfl)) rfl rfl rfl rfl ?_ ?_
  · change (g.teardownQueued && !(w.exitTable g.exits).ran &&
      !((w.teardown r).1.exitTable g.exits).ran) = (g.teardownQueued && !(w.exitTable g.exits).ran)
    rw [hexits, Bool.and_assoc, Bool.and_self]
  · have hvalues : ∀ v ∈ (w.teardown r).1.locals.valuesOf g.threadLocale, v = .setting none := by
      intro v hv
      rw [hlocals] at hv
      exact hsound.eq_of_mem_valuesOf hv
    have hsame : (w.teardown r).1.locals.modifyAll g.threadLocale (fun _ _ => .setting none) =
        (w.teardown r).1.locals := by
      rw [hlocals, hsound.modifyAll_modifyAll]
    refine Prod.ext ?_ ?_
    · exact congrArg (fun locals => { (w.teardown r).1 with locals }) hsame
    · refine List.filterMap_eq_nil_iff.2 fun v hv => ?_
      rw [hvalues v hv]

end World

end Hosted
