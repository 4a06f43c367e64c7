import Hosted.Proofs.Names
import Hosted.Proofs.Run.Kept
import Hosted.Session.Run

/-!
# What a session holds

The names of a session stand for references: a named locale or facet for one, a raw
handle for as many as are held through it, a list of recorded facets for one to each.
While a step is being made, some references are on their way: they are called `extra`
here. `s.Leads extra s' extra'` says that the environment has run from one session to
the other with the references that go with it.
-/

namespace Hosted.Session

open World

/-- The references that are held through a raw handle. -/
def grip (h : RawHandle) : List Holding := List.replicate h.held (.locale h.locale)

/-- The references that the names of a session stand for. -/
def hand (s : Session) : Multiset Holding :=
  s.locales.hold (fun l => [.locale l]) +
    s.handles.hold grip +
    s.facets.hold (fun f => [.facet f]) + s.facetLists.hold (·.map .facet)

/-- The thread locals that the session has named or is going to access. -/
def localIds (s : Session) : List LocalId :=
  s.locals.values ++ (s.main :: s.threads.values).flatMap (·.accesses.map (·.target))

/-- Names are in order and stand for what is there, and with `extra` on its way all
references are accounted for. -/
structure Valid (s : Session) (extra : Multiset Holding) : Prop where
  locales_sorted : s.locales.Sorted
  handles_sorted : s.handles.Sorted
  facets_sorted : s.facets.Sorted
  facetLists_sorted : s.facetLists.Sorted
  gripped : ∀ h ∈ s.handles.values, 0 < h.held
  registries : ∀ r ∈ s.registries.values, (s.world.registry? r).isSome
  tables : ∀ t ∈ s.exitTables.values, t < s.world.exits.length
  processTable : processTable < s.world.exits.length
  locals : ∀ id ∈ s.localIds, s.world.OfCallers id
  owns : s.world.OwnsRegistry
  kept : s.world.Kept (extra + s.hand)

/-- The environment has run from `s` to `s'`. -/
structure Leads (s : Session) (extra : Multiset Holding) (s' : Session)
    (extra' : Multiset Holding) : Prop where
  valid : s'.Valid extra'
  run : ∃ es, World.Run s.world (extra + s.hand) es s'.world (extra' + s'.hand)

variable {s s' s'' : Session} {extra extra' extra'' : Multiset Holding} {e : Event}
  {es : List Event} {w : World} {l : LocaleId} {f : FacetId}

theorem mem_localIds {id : LocalId} : id ∈ s.localIds ↔ id ∈ s.locals.values ∨
    ∃ run, (run = s.main ∨ run ∈ s.threads.values) ∧ ∃ a ∈ run.accesses, a.target = id := by
  simp only [localIds, List.mem_append, List.mem_flatMap, List.mem_cons, List.mem_map]

theorem Valid.refl (h : s.Valid extra) : s.Leads extra s extra := ⟨h, [], .nil⟩

theorem Leads.trans (h : s.Leads extra s' extra') (h' : s'.Leads extra' s'' extra'') :
    s.Leads extra s'' extra'' := by
  obtain ⟨es, hrun⟩ := h.run
  obtain ⟨es', hrun'⟩ := h'.run
  exact ⟨h'.valid, es ++ es', hrun.append hrun'⟩

theorem Leads.of_eq (h : s.Leads extra s' extra') (heq : extra' = extra'') :
    s.Leads extra s' extra'' := heq ▸ h

theorem Leads.keeps (h : s.Leads extra s' extra') (hs : s.Valid extra) :
    s.world.Keeps s'.world (extra' + s'.hand) := by
  obtain ⟨es, hrun⟩ := h.run
  exact hrun.keeps hs.kept

theorem Leads.ofCallers (h : s.Leads extra s' extra') (hs : s.Valid extra) {id : LocalId}
    (hid : s.world.OfCallers id) : s'.world.OfCallers id :=
  (h.keeps hs).extended.ofCallers hid

/-- Only the environment changes. -/
theorem Valid.onRun (h : s.Valid extra)
    (hrun : World.Run s.world (extra + s.hand) es w (extra' + s.hand)) :
    s.Leads extra { s with world := w } extra' := by
  have hkeeps := hrun.keeps h.kept
  refine ⟨⟨h.locales_sorted, h.handles_sorted, h.facets_sorted, h.facetLists_sorted, h.gripped,
    ?_, ?_, ?_, ?_, hkeeps.extended.process h.owns, hkeeps.kept⟩, es, hrun⟩
  · intro r hr
    obtain ⟨g, hg⟩ := Option.isSome_iff_exists.1 (h.registries r hr)
    obtain ⟨g', hg', -⟩ := hkeeps.extended.registry hg
    exact Option.isSome_iff_exists.2 ⟨g', hg'⟩
  · intro t ht
    exact Nat.lt_of_lt_of_le (h.tables t ht) hkeeps.extended.exits_le
  · exact Nat.lt_of_lt_of_le h.processTable hkeeps.extended.exits_le
  · exact fun id hid => hkeeps.extended.ofCallers (h.locals id hid)

theorem Valid.onStep (h : s.Valid extra)
    (hstep : World.Step s.world (extra + s.hand) e w (extra' + s.hand)) :
    s.Leads extra { s with world := w } extra' := h.onRun hstep.run

/-! ## Names -/

/-- Nothing but what names hold changes. -/
theorem Valid.rehold (h : s.Valid extra) (hworld : s'.world = s.world)
    (hhand : extra + s.hand = extra' + s'.hand)
    (hvalid : s'.world.Kept (extra' + s'.hand) → s'.Valid extra') : s.Leads extra s' extra' := by
  refine ⟨hvalid ?_, [], ?_⟩
  · rw [hworld, ← hhand]
    exact h.kept
  · rw [hworld, hhand]
    exact .nil

theorem handed_eq_elim {α : Type} (what : α → Holding) (answer : Option α) :
    handed what answer = ((answer.elim [] fun a => [what a] : List Holding) :
      Multiset Holding) := by
  cases answer <;> rfl

/-- A name takes over what comes with it and hands out what it stood for. -/
theorem Valid.putLocale (h : s.Valid (.locale l ::ₘ extra)) (name : String) :
    s.Leads (.locale l ::ₘ extra) { s with locales := s.locales.put name l }
      (handed .locale (s.locales.find? name) + extra) := by
  refine h.rehold rfl ?_ fun hkept =>
    { h with locales_sorted := h.locales_sorted.put name l, kept := hkept }
  have hput := h.locales_sorted.hold_put (fun l => [Holding.locale l]) name l
  rw [← handed_eq_elim, Multiset.coe_singleton] at hput
  rw [← Multiset.singleton_add]
  ext x
  have hx := congrArg (Multiset.count x) hput
  simp only [hand, Multiset.count_add] at hx ⊢
  omega

theorem Valid.eraseLocale (h : s.Valid extra) {name : String}
    (hl : s.locales.find? name = some l) :
    s.Leads extra { s with locales := s.locales.erase name } (.locale l ::ₘ extra) := by
  refine h.rehold rfl ?_ fun hkept =>
    { h with locales_sorted := h.locales_sorted.erase name, kept := hkept }
  have herase := h.locales_sorted.hold_erase (fun l => [Holding.locale l]) name
  rw [hl, Option.elim_some, Multiset.coe_singleton] at herase
  rw [← Multiset.singleton_add]
  ext x
  have hx := congrArg (Multiset.count x) herase
  simp only [hand, Multiset.count_add] at hx ⊢
  omega

theorem Valid.putFacet (h : s.Valid (.facet f ::ₘ extra)) (name : String) :
    s.Leads (.facet f ::ₘ extra) { s with facets := s.facets.put name f }
      (handed .facet (s.facets.find? name) + extra) := by
  refine h.rehold rfl ?_ fun hkept =>
    { h with facets_sorted := h.facets_sorted.put name f, kept := hkept }
  have hput := h.facets_sorted.hold_put (fun f => [Holding.facet f]) name f
  rw [← handed_eq_elim, Multiset.coe_singleton] at hput
  rw [← Multiset.singleton_add]
  ext x
  have hx := congrArg (Multiset.count x) hput
  simp only [hand, Multiset.count_add] at hx ⊢
  omega

theorem Valid.eraseFacet (h : s.Valid extra) {name : String}
    (hf : s.facets.find? name = some f) :
    s.Leads extra { s with facets := s.facets.erase name } (.facet f ::ₘ extra) := by
  refine h.rehold rfl ?_ fun hkept =>
    { h with facets_sorted := h.facets_sorted.erase name, kept := hkept }
  have herase := h.facets_sorted.hold_erase (fun f => [Holding.facet f]) name
  rw [hf, Option.elim_some, Multiset.coe_singleton] at herase
  rw [← Multiset.singleton_add]
  ext x
  have hx := congrArg (Multiset.count x) herase
  simp only [hand, Multiset.count_add] at hx ⊢
  omega

theorem Valid.putHandle {given taken : Multiset Holding} {raw : RawHandle} {name : String}
    (h : s.Valid (given + extra)) (hheld : 0 < raw.held)
    (hnew : given + (((s.handles.find? name).elim [] grip : List Holding) : Multiset Holding) =
      taken + (grip raw : Multiset Holding)) :
    s.Leads (given + extra) { s with handles := s.handles.put name raw } (taken + extra) := by
  refine h.rehold rfl ?_ fun hkept =>
    { h with
      handles_sorted := h.handles_sorted.put name raw
      gripped := ?_
      kept := hkept }
  · have hput := h.handles_sorted.hold_put grip name raw
    ext x
    have hx := congrArg (Multiset.count x) hput
    have hx' := congrArg (Multiset.count x) hnew
    simp only [hand, Multiset.count_add] at hx hx' ⊢
    omega
  · intro raw' hraw'
    rcases Names.mem_values_put hraw' with rfl | hraw'
    · exact hheld
    · exact h.gripped raw' hraw'

theorem Valid.eraseHandle (h : s.Valid extra) {name : String} {raw : RawHandle}
    (hraw : s.handles.find? name = some raw) :
    s.Leads extra { s with handles := s.handles.erase name } (grip raw + extra) := by
  refine h.rehold rfl ?_ fun hkept =>
    { h with
      handles_sorted := h.handles_sorted.erase name
      gripped := fun raw' hraw' => h.gripped raw' (Names.mem_values_erase hraw')
      kept := hkept }
  have herase := h.handles_sorted.hold_erase grip name
  rw [hraw, Option.elim_some] at herase
  ext x
  have hx := congrArg (Multiset.count x) herase
  simp only [hand, Multiset.count_add] at hx ⊢
  omega

theorem Valid.putList {given taken : Multiset Holding} {fs : List FacetId} {name : String}
    (h : s.Valid (given + extra))
    (hnew : given + ((((s.facetLists.find? name).getD []).map Holding.facet : List Holding) :
      Multiset Holding) = taken + (fs.map Holding.facet : List Holding)) :
    s.Leads (given + extra) (s.putList name fs) (taken + extra) := by
  refine h.rehold rfl ?_ fun hkept =>
    { h with facetLists_sorted := h.facetLists_sorted.put name fs, kept := hkept }
  have hput := h.facetLists_sorted.hold_put (·.map Holding.facet) name fs
  have hold : (s.facetLists.find? name).elim [] (·.map Holding.facet) =
      ((s.facetLists.find? name).getD []).map Holding.facet := by
    cases s.facetLists.find? name <;> rfl
  rw [hold] at hput
  ext x
  have hx := congrArg (Multiset.count x) hput
  have hx' := congrArg (Multiset.count x) hnew
  simp only [hand, Session.putList, Multiset.count_add] at hx hx' ⊢
  omega

/-! ## What names stand for is there -/

theorem Valid.mem_of_locale (_h : s.Valid extra) {name : String}
    (hl : s.locales.find? name = some l) : Holding.locale l ∈ extra + s.hand := by
  have hmem : Holding.locale l ∈ s.locales.hold (fun l => [Holding.locale l]) :=
    Names.mem_hold_of_find? hl List.mem_cons_self
  simp only [hand, Multiset.mem_add, hmem, true_or, or_true]

theorem Valid.mem_of_facet (_h : s.Valid extra) {name : String}
    (hf : s.facets.find? name = some f) : Holding.facet f ∈ extra + s.hand := by
  have hmem : Holding.facet f ∈ s.facets.hold (fun f => [Holding.facet f]) :=
    Names.mem_hold_of_find? hf List.mem_cons_self
  simp only [hand, Multiset.mem_add, hmem, true_or, or_true]

end Hosted.Session
