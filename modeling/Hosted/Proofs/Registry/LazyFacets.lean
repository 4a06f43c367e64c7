import Hosted.Proofs.References.Operations
import Hosted.Proofs.Registry.Stores

/-!
# Facets created on demand

A call that uses a facet answers with the one that the locale or the global locale has.
If there is none it answers with the one in the registry's cache, which is created if need
be. The cache knows a facet by the index of its kind. What is created is new, and it is in
the cache and among the recorded facets once.
-/

namespace Hosted

/-- The kind of the facet that was created, and the name of the locale it was created for. -/
def Notice.creation? : Notice → Option (FacetKind × String)
  | created kind name => some (kind, name)
  | _ => none

namespace World

/-- The kind of a facet, be it destroyed or not. -/
def kindOf? (w : World) (f : FacetId) : Option FacetKind := w.facets.objects[f]?.map (·.body.kind)

/-- The facets that a registry has created on demand, with their indices. -/
def lazyOf (w : World) (r : RegistryId) : List (Nat × FacetId) :=
  ((w.registry? r).map (·.lazy)).getD []

variable {w w' w'' : World} {hand : Multiset Holding} {r : RegistryId} {g : Registry} {s : Store}
  {l : LocaleId} {kind : FacetKind} {f : FacetId} {index : Nat}

theorem lazyOf_of_registry (hg : w.registry? r = some g) : w.lazyOf r = g.lazy := by
  rw [lazyOf, hg]
  rfl

theorem lazyOf_eq_store? (w : World) (r : RegistryId) :
    w.lazyOf r = ((w.store? r).map Store.lazy).getD [] := by
  rw [store?, Option.map_map]
  rfl

theorem lazyOf_eq_stockOf (w : World) (r : RegistryId) : w.lazyOf r = (w.stockOf r).1 := by
  rw [lazyOf_eq_store?, stockOf]
  cases w.store? r <;> rfl

theorem SameStores.lazyOf (h : w.SameStores w') (r : RegistryId) : w'.lazyOf r = w.lazyOf r := by
  rw [lazyOf_eq_store?, lazyOf_eq_store?, h.store?]

theorem Restocks.lazyOf (h : w.Restocks r s w') (r' : RegistryId) :
    w'.lazyOf r' = if r' = r then s.lazy else w.lazyOf r' := by
  rw [lazyOf_eq_store?, lazyOf_eq_store?, h.store?]
  split <;> rfl

/-- A facet stays of its kind. -/
theorem kindOf?_of_ages (h : w.facets.Ages w'.facets) (hf : w.kindOf? f = some kind) :
    w'.kindOf? f = some kind := by
  obtain ⟨o, ho, rfl⟩ := Option.map_eq_some_iff.1 hf
  obtain ⟨o', ho', hbody, -⟩ := h ho
  rw [kindOf?, ho', Option.map_some, hbody]

theorem Ages.kindOf? (h : w.Ages w') (hf : w.kindOf? f = some kind) : w'.kindOf? f = some kind :=
  kindOf?_of_ages h.facets hf

theorem kind_createFor (kind : FacetKind) (name : String) :
    (Facet.createFor kind name).kind = kind := by
  cases kind <;> rfl

/-! ## What creates nothing -/

/-- No facet is created on demand on the way from `w` to `w'`. -/
def CreatesNone (w w' : World) : Prop := w.Gives (fun n => n.creation? = none) w'

theorem createsNone_notify {n : Notice} (hn : n.creation? = none) (w : World) :
    w.CreatesNone (w.notify n) :=
  Gives.notify (P := fun n => n.creation? = none) hn w

theorem createsNone_releaseFacet (w : World) (f : FacetId) :
    w.CreatesNone (w.releaseFacet f) := by
  unfold releaseFacet
  simp only
  split
  · exact createsNone_notify rfl _
  · exact .of_eq rfl

theorem createsNone_releaseLocale (w : World) (l : LocaleId) :
    w.CreatesNone (w.releaseLocale l) := by
  unfold releaseLocale
  simp only
  split
  · exact Gives.trans ⟨[_], rfl, fun _ hn => List.mem_singleton.1 hn ▸ rfl⟩
      (Gives.foldl createsNone_releaseFacet _ _)
  · exact .of_eq rfl

theorem createsNone_publishClassic (w : World) (r : RegistryId) :
    w.CreatesNone (w.publishClassic r).1 := by
  have hclassic : w.CreatesNone w.addClassic.1 :=
    ⟨[_], rfl, fun _ hn => List.mem_singleton.1 hn ▸ rfl⟩
  unfold publishClassic
  split
  · exact .refl w
  · exact hclassic.trans (createsNone_notify rfl (w.addClassic.1.modifyRegistry r _))

theorem createsNone_publishGlobal (w : World) (r : RegistryId) (c : LocaleId) :
    w.CreatesNone (w.publishGlobal r c).1 := by
  unfold publishGlobal
  split
  · exact .refl w
  · exact .of_eq rfl

theorem createsNone_queueTeardown (w : World) (r : RegistryId) :
    w.CreatesNone (w.queueTeardown r) :=
  queueTeardown_induction Gives.refl Gives.trans (fun _ _ => .of_eq rfl)
    (register_induction (fun _ _ _ => .of_eq rfl) fun w _ => createsNone_notify rfl w)
    (fun w _ => createsNone_notify rfl w) w r

theorem createsNone_publish (w : World) (r : RegistryId) : w.CreatesNone (w.publish r).1 :=
  ((w.createsNone_publishClassic r).trans (createsNone_publishGlobal _ r _)).trans
    (createsNone_queueTeardown _ r)

theorem createsNone_globalLocale (w : World) (r : RegistryId) :
    w.CreatesNone (w.globalLocale r).1 := by
  unfold globalLocale globalLocale?
  cases (w.registry? r).bind (·.global) with
  | some g => exact .of_eq rfl
  | none => exact (w.createsNone_publish r).trans (.of_eq rfl)

/-- Looking for a facet creates none. -/
theorem createsNone_findFacet (w : World) (r : RegistryId) (l : LocaleId) (kind : FacetKind) :
    w.CreatesNone (w.findFacet r l kind).1 := by
  have hown : ∀ (w : World) (l : LocaleId), w.CreatesNone (w.ownFacet l kind).1 :=
    fun _ _ => .of_eq rfl
  have hown₁ := hown w l
  unfold findFacet
  generalize w.ownFacet l kind = own at hown₁ ⊢
  obtain ⟨w₁, found⟩ := own
  cases found with
  | some f => exact hown₁.trans (.of_eq rfl)
  | none =>
      simp only
      split
      · have hglobal := w₁.createsNone_globalLocale r
        generalize w₁.globalLocale r = answer at hglobal ⊢
        obtain ⟨w₂, l'⟩ := answer
        have hown₂ := hown w₂ l'
        simp only at hglobal ⊢
        generalize w₂.ownFacet l' kind = own' at hown₂ ⊢
        obtain ⟨w₃, found'⟩ := own'
        have hretain : w₃.CreatesNone (found'.elim w₃ w₃.retainFacet) := by
          cases found' with
          | none => exact .refl w₃
          | some f => exact .of_eq rfl
        exact (((hown₁.trans hglobal).trans hown₂).trans hretain).trans
          (createsNone_releaseLocale _ l')
      · exact hown₁

/-! ## The cache -/

theorem find?_of_nodup {α : Type} {xs : List (Nat × α)} (hnd : (xs.map (·.1)).Nodup) {a : α}
    (hmem : (index, a) ∈ xs) : xs.find? (·.1 = index) = some (index, a) := by
  induction xs with
  | nil => cases hmem
  | cons x xs ih =>
      rw [List.map_cons, List.nodup_cons] at hnd
      rw [List.find?_cons]
      rcases List.mem_cons.1 hmem with rfl | hmem
      · simp
      · have hne : x.1 ≠ index := by
          rintro rfl
          exact hnd.1 (List.mem_map.2 ⟨_, hmem, rfl⟩)
        rw [decide_eq_false hne]
        exact ih hnd.2 hmem

theorem Kept.nodup_lazyOf (h : w.Kept hand) (r : RegistryId) :
    ((w.lazyOf r).map (·.1)).Nodup := by
  cases hg : w.registry? r with
  | none =>
      rw [lazyOf, hg]
      exact List.nodup_nil
  | some g =>
      rw [lazyOf_of_registry hg]
      exact h.cached g (List.mem_of_getElem? hg)

/-- A facet in the cache is held there. -/
theorem Kept.get?_of_lazy (h : w.Kept hand) (hmem : (index, f) ∈ w.lazyOf r) :
    ∃ o, w.facets.objects[f]? = some o ∧ w.facets.get? f = some o.body := by
  obtain ⟨g, hg⟩ : ∃ g, w.registry? r = some g := by
    rw [← Option.isSome_iff_exists, Option.isSome_iff_ne_none]
    intro hnone
    rw [lazyOf, hnone] at hmem
    cases hmem
  rw [lazyOf_of_registry hg] at hmem
  have hheld : Holding.facet f ∈ w.held := by
    refine mem_held_of_registry hg (List.mem_append_right _ (List.mem_map_of_mem ?_))
    exact List.mem_append_left _ (List.mem_map.2 ⟨_, hmem, rfl⟩)
  obtain ⟨o, ho, -, hget⟩ := Shared.exists_of_refs_pos (h.refs_pos_of_held hheld)
  exact ⟨o, ho, hget⟩

/-- What is in the cache at an index is found if it is of the kind. -/
theorem Kept.cachedFacet?_eq_some_iff (h : w.Kept hand) :
    w.cachedFacet? r index kind = some f ↔
      (index, f) ∈ w.lazyOf r ∧ w.kindOf? f = some kind := by
  have hkind : (index, f) ∈ w.lazyOf r →
      ((w.facets.get? f).any (·.kind = kind) = true ↔ w.kindOf? f = some kind) := by
    intro hmem
    obtain ⟨o, ho, hget⟩ := h.get?_of_lazy hmem
    simp [kindOf?, ho, hget]
  have hfind : (w.registry? r).bind (fun g => g.lazy.find? (·.1 = index)) =
      (w.lazyOf r).find? (·.1 = index) := by
    unfold lazyOf
    cases w.registry? r <;> rfl
  unfold cachedFacet?
  rw [hfind, Option.filter_eq_some_iff]
  constructor
  · rintro ⟨hfound, hany⟩
    obtain ⟨⟨i, f'⟩, hp, rfl⟩ := Option.map_eq_some_iff.1 hfound
    have hi : i = index := by simpa using List.find?_some hp
    subst hi
    have hmem := List.mem_of_find?_eq_some hp
    exact ⟨hmem, (hkind hmem).1 hany⟩
  · rintro ⟨hmem, hk⟩
    rw [find?_of_nodup (h.nodup_lazyOf r) hmem]
    exact ⟨rfl, (hkind hmem).2 hk⟩

/-! ## Calls that miss -/

theorem indices_missed (w : World) (r : RegistryId) (l : LocaleId) (kind : FacetKind) :
    (w.missed r l kind).1.indices.find? (.kind kind.indexOwner) = some (w.missed r l kind).2 :=
  FacetIndices.find?_assign_self _ _

theorem Kept.missed (h : w.Kept hand) (hg : w.registry? r = some g)
    (hnone : (w.findFacet r l kind).2 = none) : w.Keeps (w.missed r l kind).1 hand := by
  have hfind := h.findFacet hg l kind
  rw [hnone] at hfind
  have hfind' := hfind.of_eq (Multiset.zero_add hand)
  exact hfind'.trans (hfind'.kept.indexOf kind)

/-- A locale that a caller has keeps its name. -/
theorem Keeps.localeName_eq (h : w.Kept hand) (h' : w.Keeps w' hand) (hl : .locale l ∈ hand) :
    w'.localeName l = w.localeName l := by
  obtain ⟨o, ho, -, hget⟩ := Shared.exists_of_refs_pos (h.refs_pos_of_mem hl)
  have hget' := Shared.Ages.get? h'.ages.locales hget (h'.kept.refs_pos_of_mem hl)
  rw [localeName, localeName, locale?, locale?, hget, hget']

/-! ## Creation -/

theorem kindOf?_retainFacet (w : World) (f f' : FacetId) :
    (w.retainFacet f).kindOf? f' = w.kindOf? f' := by
  unfold kindOf? retainFacet Shared.retain
  rw [List.getElem?_modify]
  cases w.facets.objects[f']? with
  | none => rfl
  | some o => by_cases hf : f = f' <;> simp [hf]

theorem kindOf?_releaseFacet (hf : w.kindOf? f = some kind) (f' : FacetId) :
    (w.releaseFacet f').kindOf? f = some kind := by
  have hages : World.kindOf? { w with facets := (w.facets.release f').1 } f = some kind :=
    kindOf?_of_ages (w.facets.ages_release f') hf
  unfold releaseFacet
  simp only
  split
  · exact hages
  · exact hages

theorem kindOf?_cacheFacet (hf : w.kindOf? f = some kind) (r : RegistryId) (index : Nat)
    (f' : FacetId) : (w.cacheFacet r index f').kindOf? f = some kind := by
  unfold cacheFacet
  simp only
  have hmodify : (w.modifyRegistry r fun g =>
      { g with lazy := g.lazy.filter (·.1 ≠ index) ++ [(index, f')] }).kindOf? f = some kind := hf
  cases ((w.registry? r).bind fun g => g.lazy.find? (·.1 = index)).map (·.2) with
  | none => exact hmodify
  | some replaced => exact kindOf?_releaseFacet hmodify replaced

/-- What is created is of the kind that was asked for. -/
theorem kindOf?_createFacet (w : World) (r : RegistryId) (l : LocaleId) (index : Nat)
    (kind : FacetKind) :
    World.kindOf? (w.createFacet r l index kind).1 (w.createFacet r l index kind).2 =
      some kind := by
  unfold createFacet
  simp only
  generalize (if kind.isProbe then w.notify (.created kind (w.localeName l)) else w) = w₀
  have hadded : (w₀.addFacet (.createFor kind (w.localeName l))).1.kindOf?
      (w₀.addFacet (.createFor kind (w.localeName l))).2 = some kind := by
    simp [kindOf?, addFacet, Shared.insert, kind_createFor]
  generalize w₀.addFacet (.createFor kind (w.localeName l)) = added at hadded ⊢
  obtain ⟨w₁, f⟩ := added
  have hcached : (((w₁.retainFacet f).cacheFacet r index f).retainFacet f).kindOf? f =
      some kind := by
    rw [kindOf?_retainFacet]
    exact kindOf?_cacheFacet ((kindOf?_retainFacet _ _ _).trans hadded) r index f
  exact hcached

/-- Facet `f` has been created for registry `r`, which held `s` in store: it is new, the cache
has it at the index of its kind, one entry of the store is for it, and it was created once,
for the locale of the given name. -/
structure Creates (w : World) (r : RegistryId) (s : Store) (kind : FacetKind) (name : String)
    (index : Nat) (f : FacetId) (w' : World) : Prop where
  fresh : f = w.facets.objects.length
  facets : w'.facets.objects = w.facets.objects ++ [⟨3, .createFor kind name⟩]
  stores : w.Restocks r { s with lazy := s.lazy ++ [(index, f)], entries := s.entries ++ [f] } w'
  creations : w'.notices.filterMap Notice.creation? =
    w.notices.filterMap Notice.creation? ++ if kind.isProbe then [(kind, name)] else []
  counted : w'.counters =
    (w.counters.increment .facetsRegistered).increment .lazyFacetsCreated

theorem modify_append_length {α : Type} (xs : List α) (a : α) (change : α → α) :
    (xs ++ [a]).modify xs.length change = xs ++ [change a] := by
  induction xs with
  | nil => rfl
  | cons x xs ih => simpa using ih

/-- Nothing is replaced at an index that is free. -/
theorem cacheFacet_of_free (hs : w.store? r = some s) (hfree : ∀ f, (index, f) ∉ s.lazy)
    (f : FacetId) :
    w.cacheFacet r index f = w.modifyRegistry r fun g =>
      { g with lazy := g.lazy.filter (·.1 ≠ index) ++ [(index, f)] } := by
  obtain ⟨g, hg, rfl⟩ := Option.map_eq_some_iff.1 hs
  have hnone : g.lazy.find? (·.1 = index) = none := by
    rw [List.find?_eq_none]
    rintro ⟨i, f'⟩ hmem hi
    obtain rfl : i = index := by simpa using hi
    exact hfree f' hmem
  unfold cacheFacet
  rw [hg, Option.bind_some, hnone]
  rfl

theorem filter_of_free {lazy : List (Nat × FacetId)} (hfree : ∀ f, (index, f) ∉ lazy) :
    lazy.filter (·.1 ≠ index) = lazy := by
  rw [List.filter_eq_self]
  rintro ⟨i, f⟩ hmem
  refine decide_eq_true ?_
  rintro rfl
  exact hfree f hmem

theorem creates_createFacet (hs : w.store? r = some s) (l : LocaleId)
    (hfree : ∀ f, (index, f) ∉ s.lazy) (kind : FacetKind) :
    w.Creates r s kind (w.localeName l) index (w.createFacet r l index kind).2
      (w.createFacet r l index kind).1 := by
  have hstores := restocks_createFacet hs l index kind
  rw [filter_of_free hfree] at hstores
  let w₀ := if kind.isProbe then w.notify (.created kind (w.localeName l)) else w
  have hfacets : w₀.facets = w.facets := by unfold w₀; split <;> rfl
  have hcounters : w₀.counters = w.counters := by unfold w₀; split <;> rfl
  have hstore : w₀.store? r = some s := by unfold w₀; split <;> exact hs
  have hcreations : w₀.notices.filterMap Notice.creation? =
      w.notices.filterMap Notice.creation? ++
        if kind.isProbe then [(kind, w.localeName l)] else [] := by
    unfold w₀
    split
    · exact List.filterMap_append
    · exact (List.append_nil _).symm
  let f := w₀.facets.objects.length
  have hretained : (((w₀.addFacet (.createFor kind (w.localeName l))).1.retainFacet f)).store? r =
      some s := hstore
  have heq : w.createFacet r l index kind =
      (((((((w₀.addFacet (.createFor kind (w.localeName l))).1.retainFacet f).modifyRegistry r
        fun g => { g with lazy := g.lazy.filter (·.1 ≠ index) ++ [(index, f)] }).retainFacet
          f).recordFacet r (some kind) f).tally .lazyFacetsCreated).log
            (.facetCreated (w.localeName l) index), f) := by
    rw [← cacheFacet_of_free hretained hfree]
    rfl
  refine ⟨?_, ?_, hstores, ?_, ?_⟩
  · rw [heq]
    exact congrArg (fun facets => facets.objects.length) hfacets
  · rw [heq]
    change ((w₀.facets.objects ++ [_]).modify w₀.facets.objects.length _).modify
      w₀.facets.objects.length _ = _
    rw [modify_append_length, modify_append_length, hfacets]
  · rw [heq, ← hcreations]
    change (w₀.notices ++ [_] ++ [_]).filterMap Notice.creation? = _
    rw [List.append_assoc, List.filterMap_append]
    exact List.append_nil _
  · rw [heq, ← hcounters]
    rfl

end World

end Hosted
