import Hosted.Proofs.Registry.Fronts

/-!
# The stores of registries

Beside what it publishes, a registry stores facets: those created on demand, by index,
and those that wait for its teardown. Publication does not touch the stores. They change
when a facet is recorded or created, and no thread local changes then. A call that uses a
facet finds it, or has it from the cache, or creates it.
-/

namespace Hosted

/-- What a registry keeps to itself. -/
structure Store where
  lazy : List (Nat × FacetId)
  entries : List FacetId
  threadLocale : LocalId
  deriving DecidableEq, Repr

def Registry.store (g : Registry) : Store := ⟨g.lazy, g.entries, g.threadLocale⟩

namespace World

/-- The store of a registry. -/
def store? (w : World) (r : RegistryId) : Option Store := (w.registry? r).map Registry.store

variable {w w' w'' : World} {r : RegistryId} {g : Registry} {s : Store} {l : LocaleId}
  {kind : FacetKind} {f : FacetId}

theorem store?_of_registry (hg : w.registry? r = some g) : w.store? r = some g.store := by
  rw [store?, hg, Option.map_some]

/-! ## What leaves stores alone -/

/-- Stores and thread locals are as they were. -/
structure SameStores (w w' : World) : Prop where
  store? : ∀ r, w'.store? r = w.store? r
  locals : w'.locals = w.locals

namespace SameStores

theorem refl (w : World) : w.SameStores w := ⟨fun _ => rfl, rfl⟩

theorem trans (h : w.SameStores w') (h' : w'.SameStores w'') : w.SameStores w'' :=
  ⟨fun r => (h'.store? r).trans (h.store? r), h'.locals.trans h.locals⟩

theorem of_eq (hregistries : w'.registries = w.registries) (hlocals : w'.locals = w.locals) :
    w.SameStores w' :=
  ⟨fun r => by rw [World.store?, World.registry?, hregistries]; rfl, hlocals⟩

end SameStores

theorem Unmoved.sameStores (h : w.Unmoved w') : w.SameStores w' := .of_eq h.registries h.locals

theorem sameStores_publish (hg : w.registry? r = some g) : w.SameStores (w.publish r).1 := by
  have hp := published_publish hg
  refine ⟨fun r' => ?_, hp.locals⟩
  unfold World.store?
  rw [hp.registry?]
  by_cases hr : r' = r
  · rw [if_pos hr, hr, hg]
    rfl
  · rw [if_neg hr]

theorem sameStores_ensureLocales (hg : w.registry? r = some g) :
    w.SameStores (w.ensureLocales r) := by
  unfold ensureLocales
  split
  · exact .refl w
  · exact sameStores_publish hg

theorem sameStores_globalLocale? (w : World) (r : RegistryId) :
    w.SameStores (w.globalLocale? r).1 := by
  unfold globalLocale?
  split
  · exact (unmoved_retainLocale _ _).sameStores
  · exact .refl w

theorem sameStores_globalLocale (hg : w.registry? r = some g) :
    w.SameStores (w.globalLocale r).1 := by
  unfold globalLocale globalLocale?
  cases (w.registry? r).bind (·.global) with
  | some l => exact (w.unmoved_retainLocale l).sameStores
  | none => exact (sameStores_publish hg).trans (unmoved_retainLocale _ _).sameStores

theorem sameStores_classicLocale (hg : w.registry? r = some g) :
    w.SameStores (w.classicLocale r).1 := by
  unfold classicLocale
  cases (w.registry? r).bind (·.classic) with
  | some c => exact (w.unmoved_retainLocale c).sameStores
  | none => exact (sameStores_publish hg).trans (unmoved_retainLocale _ _).sameStores

theorem sameStores_emptyLocale (hg : w.registry? r = some g) :
    w.SameStores (w.emptyLocale r).1 :=
  (sameStores_ensureLocales hg).trans (unmoved_addTransparent _).sameStores

theorem sameStores_modifyRegistry (w : World) (r : RegistryId) (change : Registry → Registry)
    (hchange : ∀ g, (change g).store = g.store) : w.SameStores (w.modifyRegistry r change) := by
  refine ⟨fun r' => ?_, rfl⟩
  unfold World.store?
  rw [registry?_modifyRegistry]
  split
  · rw [Option.map_map]
    exact congrArg (fun k => Option.map k (w.registry? r')) (funext hchange)
  · rfl

theorem sameStores_replaceGlobal (hg : w.registry? r = some g) (l : LocaleId) :
    w.SameStores (w.replaceGlobal r l).1 := by
  have hpublish := sameStores_publish hg
  unfold replaceGlobal
  generalize w.publish r = published at hpublish ⊢
  obtain ⟨w₁, c, before⟩ := published
  have hmodify := sameStores_modifyRegistry (w₁.retainLocale l) r
    ({ · with global := some l }) fun _ => rfl
  exact ((hpublish.trans (w₁.unmoved_retainLocale l).sameStores).trans hmodify).trans
    (unmoved_log _ _).sameStores

theorem sameStores_retainOwn (w : World) (found : Option FacetId) :
    w.SameStores (found.elim w w.retainFacet) := by
  cases found with
  | none => exact .refl w
  | some f => exact (w.unmoved_retainFacet f).sameStores

theorem sameStores_findFacet (hg : w.registry? r = some g) (l : LocaleId) (kind : FacetKind) :
    w.SameStores (w.findFacet r l kind).1 := by
  have hown := w.unmoved_ownFacet l kind
  unfold findFacet
  generalize w.ownFacet l kind = own at hown ⊢
  obtain ⟨w₁, found⟩ := own
  cases found with
  | some f => exact hown.sameStores.trans (w₁.unmoved_retainFacet f).sameStores
  | none =>
      simp only
      split
      · have hglobal := sameStores_globalLocale ((hown.registry? r).trans hg)
        generalize w₁.globalLocale r = answer at hglobal ⊢
        obtain ⟨w₂, l'⟩ := answer
        have hown' := w₂.unmoved_ownFacet l' kind
        simp only at hglobal ⊢
        generalize w₂.ownFacet l' kind = own' at hown' ⊢
        obtain ⟨w₃, found'⟩ := own'
        refine ((hown.sameStores.trans hglobal).trans hown'.sameStores).trans ?_
        exact (w₃.sameStores_retainOwn found').trans (unmoved_releaseLocale _ l').sameStores
      · exact hown.sameStores

/-- Once a thread has looked up its setting, nothing but publication follows. -/
theorem sameStores_threadLocale (hg : w.registry? r = some g) (t : ThreadId) :
    (w.getLocal t g.threadLocale).1.SameStores (w.threadLocale r t).1 := by
  have hg₁ : World.registry? (w.getLocal t g.threadLocale).1 r = some g := hg
  unfold threadLocale
  rw [hg]
  simp only
  generalize w.getLocal t g.threadLocale = got at hg₁ ⊢
  obtain ⟨w₁, v⟩ := got
  rcases v with _ | ⟨text⟩ | ⟨_ | l⟩
  · exact sameStores_globalLocale hg₁
  · exact sameStores_globalLocale hg₁
  · exact sameStores_globalLocale hg₁
  · exact (w₁.unmoved_retainLocale l).sameStores

/-! ## What changes a store -/

/-- Registry `r` stores `s` now. Other stores and the thread locals are as they were. -/
structure Restocks (w : World) (r : RegistryId) (s : Store) (w' : World) : Prop where
  store? : ∀ r', w'.store? r' = if r' = r then some s else w.store? r'
  locals : w'.locals = w.locals

namespace Restocks

theorem same_left (h : w.SameStores w') (h' : w'.Restocks r s w'') : w.Restocks r s w'' where
  store? r' := by rw [h'.store?, h.store?]
  locals := h'.locals.trans h.locals

theorem same_right (h : w.Restocks r s w') (h' : w'.SameStores w'') : w.Restocks r s w'' where
  store? r' := (h'.store? r').trans (h.store? r')
  locals := h'.locals.trans h.locals

theorem trans {s' : Store} (h : w.Restocks r s w') (h' : w'.Restocks r s' w'') :
    w.Restocks r s' w'' where
  store? r' := by
    rw [h'.store?, h.store?]
    split <;> rfl
  locals := h'.locals.trans h.locals

theorem store?_self (h : w.Restocks r s w') : w'.store? r = some s :=
  (h.store? r).trans (if_pos rfl)

end Restocks

theorem restocks_modifyRegistry (hs : w.store? r = some s) (change : Registry → Registry)
    (f : Store → Store) (hchange : ∀ g, (change g).store = f g.store) :
    w.Restocks r (f s) (w.modifyRegistry r change) where
  store? r' := by
    obtain ⟨g, hg, rfl⟩ := Option.map_eq_some_iff.1 hs
    unfold World.store?
    rw [registry?_modifyRegistry]
    by_cases hr : r' = r
    · rw [if_pos hr, if_pos hr, hr, hg]
      exact congrArg some (hchange g)
    · rw [if_neg hr, if_neg hr]
  locals := rfl

theorem restocks_recordFacet (hs : w.store? r = some s) (kind : Option FacetKind) (f : FacetId) :
    w.Restocks r { s with entries := s.entries ++ [f] } (w.recordFacet r kind f) := by
  have hindex : w.SameStores (w.recordedIndex kind).1 := by
    cases kind with
    | none => exact .refl w
    | some kind => exact (w.unmoved_indexOf kind).sameStores
  have hmodify := restocks_modifyRegistry ((hindex.store? r).trans hs)
    (fun g => { g with entries := g.entries ++ [f] })
    (fun s => { s with entries := s.entries ++ [f] }) fun _ => rfl
  refine (Restocks.same_left hindex hmodify).same_right ?_
  exact ((unmoved_tally _ _).trans (unmoved_log _ _)).sameStores

theorem restocks_releaseRecorded (hs : w.store? r = some s) :
    w.Restocks r { s with entries := [] } (w.releaseRecorded r).1 :=
  (restocks_modifyRegistry hs ({ · with entries := [] }) ({ · with entries := [] })
    fun _ => rfl).same_right (unmoved_releaseEntries _ _).sameStores

theorem restocks_cacheFacet (hs : w.store? r = some s) (index : Nat) (f : FacetId) :
    w.Restocks r { s with lazy := s.lazy.filter (·.1 ≠ index) ++ [(index, f)] }
      (w.cacheFacet r index f) := by
  have hmodify := restocks_modifyRegistry hs
    (fun g => { g with lazy := g.lazy.filter (·.1 ≠ index) ++ [(index, f)] })
    (fun s => { s with lazy := s.lazy.filter (·.1 ≠ index) ++ [(index, f)] }) fun _ => rfl
  unfold cacheFacet
  simp only
  cases ((w.registry? r).bind fun g => g.lazy.find? (·.1 = index)).map (·.2) with
  | none => exact hmodify
  | some replaced => exact hmodify.same_right (unmoved_releaseFacet _ replaced).sameStores

/-- A facet that is created is put in the cache and recorded. -/
theorem restocks_createFacet (hs : w.store? r = some s) (l : LocaleId) (index : Nat)
    (kind : FacetKind) :
    w.Restocks r
      { s with
        lazy := s.lazy.filter (·.1 ≠ index) ++ [(index, (w.createFacet r l index kind).2)]
        entries := s.entries ++ [(w.createFacet r l index kind).2] }
      (w.createFacet r l index kind).1 := by
  unfold createFacet
  simp only
  have hnotify : w.SameStores (if kind.isProbe then w.notify (.created kind (w.localeName l))
      else w) := by
    split
    · exact (unmoved_notify _ _).sameStores
    · exact .refl w
  have hfacet := hnotify.trans (unmoved_addFacet _ (.createFor kind (w.localeName l))).sameStores
  generalize (if kind.isProbe then w.notify (.created kind (w.localeName l)) else w).addFacet
    (.createFor kind (w.localeName l)) = added at hfacet ⊢
  obtain ⟨w₁, f⟩ := added
  have hretain := hfacet.trans (w₁.unmoved_retainFacet f).sameStores
  have hcache := restocks_cacheFacet ((hretain.store? r).trans hs) index f
  have hretain' := (Restocks.same_left hretain hcache).same_right
    (unmoved_retainFacet _ f).sameStores
  refine (hretain'.trans (restocks_recordFacet hretain'.store?_self (some kind) f)).same_right ?_
  exact ((unmoved_tally _ _).trans (unmoved_log _ _)).sameStores

/-! ### Facets in store -/

/-- The facets that a registry has in store: those created on demand, with their indices, and those
recorded. -/
def stockOf (w : World) (r : RegistryId) : List (Nat × FacetId) × List FacetId :=
  ((w.store? r).map fun s => (s.lazy, s.entries)).getD ([], [])

theorem stockOf_of_registry (hg : w.registry? r = some g) : w.stockOf r = (g.lazy, g.entries) := by
  rw [stockOf, store?_of_registry hg]
  rfl

theorem stockOf_of_none (hg : w.registry? r = none) : w.stockOf r = ([], []) := by
  rw [stockOf, store?, hg]
  rfl

theorem stockOf_of_eq (hregistries : w'.registries = w.registries) (r : RegistryId) :
    w'.stockOf r = w.stockOf r := by
  unfold stockOf store? registry?
  rw [hregistries]

theorem SameStores.stockOf (h : w.SameStores w') (r : RegistryId) :
    w'.stockOf r = w.stockOf r := by
  rw [World.stockOf, World.stockOf, h.store?]

theorem Restocks.stockOf (h : w.Restocks r s w') (r' : RegistryId) :
    w'.stockOf r' = if r' = r then (s.lazy, s.entries) else w.stockOf r' := by
  rw [World.stockOf, World.stockOf, h.store?]
  split <;> rfl

/-! ## Using a facet -/

theorem useFacet_of_found (hfound : (w.findFacet r l kind).2 = some f) :
    w.useFacet r l kind = ((w.findFacet r l kind).1, f) := by
  unfold useFacet
  generalize w.findFacet r l kind = found at hfound ⊢
  obtain ⟨w₁, answer⟩ := found
  simp only at hfound
  subst hfound
  rfl

/-- The environment in which a call looks into the cache. -/
def missed (w : World) (r : RegistryId) (l : LocaleId) (kind : FacetKind) : World × Nat :=
  (w.findFacet r l kind).1.indexOf kind

theorem useFacet_of_missed (hnone : (w.findFacet r l kind).2 = none) :
    w.useFacet r l kind =
      match (w.missed r l kind).1.cachedFacet? r (w.missed r l kind).2 kind with
      | some f => ((w.missed r l kind).1.retainFacet f, f)
      | none => (w.missed r l kind).1.createFacet r l (w.missed r l kind).2 kind := by
  unfold useFacet missed
  generalize w.findFacet r l kind = found at hnone ⊢
  obtain ⟨w₁, answer⟩ := found
  simp only at hnone
  subst hnone
  rfl

theorem useFacet_of_cached (hnone : (w.findFacet r l kind).2 = none)
    (hcached : (w.missed r l kind).1.cachedFacet? r (w.missed r l kind).2 kind = some f) :
    w.useFacet r l kind = ((w.missed r l kind).1.retainFacet f, f) := by
  rw [useFacet_of_missed hnone, hcached]

theorem useFacet_of_not_cached (hnone : (w.findFacet r l kind).2 = none)
    (hcached : (w.missed r l kind).1.cachedFacet? r (w.missed r l kind).2 kind = none) :
    w.useFacet r l kind =
      (w.missed r l kind).1.createFacet r l (w.missed r l kind).2 kind := by
  rw [useFacet_of_missed hnone, hcached]

theorem sameStores_missed (hg : w.registry? r = some g) (l : LocaleId) (kind : FacetKind) :
    w.SameStores (w.missed r l kind).1 :=
  (sameStores_findFacet hg l kind).trans (unmoved_indexOf _ kind).sameStores

end World

end Hosted
