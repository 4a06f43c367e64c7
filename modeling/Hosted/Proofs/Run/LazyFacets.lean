import Hosted.Proofs.Registry.LazyFacets
import Hosted.Proofs.Run.Fronts
import Hosted.Proofs.Run.Settings

/-!
# Facets are created once

A registry creates a facet of a kind when a call uses one and there is none to be found.
It then answers all such calls with this facet until it is torn down, wherever they look and
whatever has become of the global locale. That needs the kind to have an index of its own:
kinds that share an index displace each other in the cache.
-/

namespace Hosted

/-- The answer of a call that used a facet of a kind in registry `r` at `w`, if it could not
be found. -/
def Event.missed? (w : World) (r : RegistryId) (kind : FacetKind) : Event → Option FacetId
  | .used r' l _ kind' f =>
    if r' = r ∧ kind' = kind ∧ (w.findFacet r l kind).2 = none then some f else none
  | _ => none

namespace World

/-- A process has come to `w`. Since the last teardown of registry `r`, the calls that used a
facet of a kind which could not be found have had these answers, the latest first. -/
inductive Misses (settings : Settings) (r : RegistryId) (kind : FacetKind) :
    List FacetId → World → Multiset Holding → Prop where
  | start : Misses settings r kind [] (fresh settings) 0
  | step {answers w hand e w' hand'} : Misses settings r kind answers w hand →
      Step w hand e w' hand' →
      Misses settings r kind
        (if e.tearsDown r then [] else (e.missed? w r kind).toList ++ answers) w' hand'

variable {w w' : World} {hand hand' : Multiset Holding} {e : Event} {es : List Event}
  {r r' : RegistryId} {g : Registry} {l : LocaleId} {kind kind' : FacetKind} {f f' : FacetId}
  {answers : List FacetId} {index : Nat} {settings : Settings}

/-! ## Runs -/

theorem Misses.run (h : Misses settings r kind answers w hand) :
    ∃ es, Run (fresh settings) 0 es w hand := by
  induction h with
  | start => exact ⟨[], .nil⟩
  | step _ hstep ih =>
      obtain ⟨es, hrun⟩ := ih
      exact ⟨es ++ [_], hrun.append hstep.run⟩

theorem Misses.append (h : Misses settings r kind answers w hand)
    (hrun : Run w hand es w' hand') : ∃ answers', Misses settings r kind answers' w' hand' := by
  induction hrun generalizing answers with
  | nil => exact ⟨answers, h⟩
  | cons hstep _ ih => exact ih (h.step hstep)

/-- Every run can be looked at in this way. -/
theorem Run.misses (hrun : Run (fresh settings) 0 es w hand) (r : RegistryId)
    (kind : FacetKind) : ∃ answers, Misses settings r kind answers w hand :=
  Misses.append .start hrun

/-! ## Caches -/

/-- Facets in a cache stand at the index of their kind. -/
def Placed (w : World) : Prop :=
  ∀ r index f, (index, f) ∈ w.lazyOf r → ∃ kind, w.kindOf? f = some kind ∧
    w.indices.find? (.kind kind.indexOwner) = some index

/-- What the cache has of a kind is what the calls have answered. -/
structure Cached (w : World) (r : RegistryId) (kind : FacetKind) (answers : List FacetId) :
    Prop where
  placed : w.Placed
  present : ∀ {f}, f ∈ answers → ∃ index, (index, f) ∈ w.lazyOf r ∧ w.kindOf? f = some kind
  absent : answers = [] → ∀ {index f}, (index, f) ∈ w.lazyOf r → w.kindOf? f ≠ some kind

theorem cached_fresh (settings : Settings) (r : RegistryId) (kind : FacetKind) :
    (fresh settings).Cached r kind [] where
  placed _ _ _ hmem := by cases hmem
  present hf := by cases hf
  absent _ _ _ hmem := by cases hmem

/-- A facet of a kind can stand at one index only, and there is one facet at an index. -/
theorem Placed.facet_unique (h : w.Placed) (hk : w.Kept hand) {index' : Nat}
    (hf : (index, f) ∈ w.lazyOf r) (hf' : (index', f') ∈ w.lazyOf r)
    (hkind : w.kindOf? f = some kind) (hkind' : w.kindOf? f' = some kind) : f = f' := by
  obtain ⟨kind₁, hkind₁, hindex⟩ := h _ _ _ hf
  obtain ⟨kind₂, hkind₂, hindex'⟩ := h _ _ _ hf'
  obtain rfl : kind₁ = kind := Option.some.inj (hkind₁.symm.trans hkind)
  obtain rfl : kind₂ = kind₁ := Option.some.inj (hkind₂.symm.trans hkind')
  obtain rfl : index = index' := Option.some.inj (hindex.symm.trans hindex')
  have heq := List.inj_on_of_nodup_map (hk.nodup_lazyOf r) hf hf' rfl
  exact congrArg Prod.snd heq

theorem Cached.alike (h : w.Cached r kind answers) (hk : w.Kept hand) (hf : f ∈ answers)
    (hf' : f' ∈ answers) : f = f' := by
  obtain ⟨index, hmem, hkind⟩ := h.present hf
  obtain ⟨index', hmem', hkind'⟩ := h.present hf'
  exact h.placed.facet_unique hk hmem hmem' hkind hkind'

/-! ### Steps that create nothing -/

/-- Caches are emptied or stay as they are. -/
theorem Cached.keep (h : w.Cached r kind answers) (hages : w.Ages w')
    (hlazy : ∀ r, w'.lazyOf r = if e.tearsDown r then [] else w.lazyOf r) :
    w'.Cached r kind (if e.tearsDown r then [] else answers) where
  placed r' index f hmem := by
    rw [hlazy] at hmem
    split at hmem
    · cases hmem
    · obtain ⟨kind', hkind', hindex⟩ := h.placed _ _ _ hmem
      exact ⟨kind', hages.kindOf? hkind', hages.indices hindex⟩
  present {f} hf := by
    split at hf
    · cases hf
    · next htear =>
        obtain ⟨index, hmem, hkind⟩ := h.present hf
        exact ⟨index, by rwa [hlazy, if_neg htear], hages.kindOf? hkind⟩
  absent hnil {index f} hmem := by
    rw [hlazy] at hmem
    split at hmem
    · cases hmem
    · next htear =>
        rw [if_neg htear] at hnil
        obtain ⟨kind', hkind', -⟩ := h.placed _ _ _ hmem
        have hne := h.absent hnil hmem
        rw [hages.kindOf? hkind', ← hkind']
        exact hne

theorem TearsDown.stockOf {rs : List RegistryId} (h : w.TearsDown rs w') (r : RegistryId) :
    w'.stockOf r = if r ∈ rs then ([], []) else w.stockOf r := by
  cases hg : w.registry? r with
  | none => rw [stockOf_of_none (h.absent hg), stockOf_of_none hg, ite_self]
  | some g =>
      split
      · next hr =>
          obtain ⟨g', hg', -, -, hempty⟩ := h.emptied hg hr
          rw [stockOf_of_registry hg', hempty.lazy, hempty.entries]
      · next hr => rw [stockOf_of_registry hg, stockOf_of_registry (h.spared hg hr).1]

theorem stockOf_withRegistry (w : World) (id : LocalId) (exits : TableId) (r : RegistryId) :
    World.stockOf (w.withRegistry id exits) r = w.stockOf r := by
  have hregistry := registry?_withRegistry w id exits r
  by_cases hr : r = w.registries.length
  · rw [if_pos hr] at hregistry
    have hbefore : w.registry? r = none := List.getElem?_eq_none (Nat.le_of_eq hr.symm)
    rw [stockOf_of_registry hregistry, stockOf_of_none hbefore]
  · rw [if_neg hr] at hregistry
    rw [World.stockOf, World.store?, hregistry]
    rfl

theorem stockOf_addRegistry (w : World) (t : ThreadId) (exits : TableId) (r : RegistryId) :
    World.stockOf (w.addRegistry t exits).1 r = w.stockOf r := by
  have hregistries := (w.calm_tryNewLocal t (v := .setting none) rfl).registries
  have heq := stockOf_of_eq hregistries r
  unfold addRegistry
  rcases w.newLocal_cases t (.setting none) with ⟨id, hnew, -⟩ | ⟨fault, hnew, -⟩
  · rw [hnew]
    exact (stockOf_withRegistry _ id exits r).trans heq
  · rw [hnew]
    exact heq

theorem stockOf_ownRegistry (w : World) (t : ThreadId) (r : RegistryId) :
    World.stockOf (w.ownRegistry t).1 r = w.stockOf r := by
  have hadd := w.stockOf_addRegistry t processTable r
  unfold ownRegistry
  split
  · rfl
  · generalize w.addRegistry t processTable = added at hadd ⊢
    obtain ⟨w₁, result⟩ := added
    cases result with
    | error f => exact hadd
    | ok r' => exact hadd

/-- Only calls that use or record a facet put something in store, and only teardowns and releases
of what was recorded take something out. -/
theorem Step.stockOf (hstep : Step w hand e w' hand') (h : w.Kept hand) (ho : w.Orderly)
    (hused : ∀ r l transparent kind f, e ≠ .used r l transparent kind f)
    (hrecorded : ∀ r kind f, e ≠ .recorded r kind f)
    (hreleased : ∀ r n, e ≠ .releasedRecorded r n) (r : RegistryId) :
    w'.stockOf r = if e.tearsDown r then ([], []) else w.stockOf r := by
  have hsome : ∀ {r : RegistryId}, (w.registry? r).isSome → ∃ g, w.registry? r = some g :=
    Option.isSome_iff_exists.1
  cases hstep with
  | registered t exits _ => exact w.stockOf_addRegistry t exits r
  | owned t => exact w.stockOf_ownRegistry t r
  | classic hr =>
      obtain ⟨g, hg⟩ := hsome hr
      exact (sameStores_classicLocale hg).stockOf r
  | global hr =>
      obtain ⟨g, hg⟩ := hsome hr
      exact (sameStores_globalLocale hg).stockOf r
  | @global? _ r' _ => exact (w.sameStores_globalLocale? r').stockOf r
  | empty hr =>
      obtain ⟨g, hg⟩ := hsome hr
      exact (sameStores_emptyLocale hg).stockOf r
  | ensured hr =>
      obtain ⟨g, hg⟩ := hsome hr
      exact (sameStores_ensureLocales hg).stockOf r
  | replaced hr _ =>
      obtain ⟨g, hg⟩ := hsome hr
      exact (sameStores_replaceGlobal hg _).stockOf r
  | ofThread t hg => exact (sameStores_threadLocale hg t).stockOf r
  | setThread t l _ => exact stockOf_of_eq (h.registries_setThreadLocale _ t l) r
  | found kind hr _ =>
      obtain ⟨g, hg⟩ := hsome hr
      exact (sameStores_findFacet hg _ kind).stockOf r
  | used kind _ _ => exact absurd rfl (hused _ _ _ _ _)
  | recorded kind _ => exact absurd rfl (hrecorded _ _ _)
  | releasedRecorded _ => exact absurd rfl (hreleased _ _)
  | @toreDown _ r' _ =>
      rw [(h.tearsDown_teardown r').stockOf]
      simp [Event.tearsDown, eq_comm]
  | tableRun t =>
      rcases h.runTable_cases ho t with ⟨hnil, hstores⟩ | ⟨w₁, hstores, htears, -⟩
      · rw [hstores.stockOf]
        simp [Event.tearsDown, hnil]
      · rw [htears.stockOf, hstores.stockOf]
        simp [Event.tearsDown]
  | retainedLocale _ => exact stockOf_of_eq (unmoved_retainLocale _ _).registries r
  | releasedLocale => exact stockOf_of_eq (unmoved_releaseLocale _ _).registries r
  | retainedFacet _ => exact stockOf_of_eq (unmoved_retainFacet _ _).registries r
  | releasedFacet => exact stockOf_of_eq (unmoved_releaseFacet _ _).registries r
  | madeFacet body => exact stockOf_of_eq (w.unmoved_addFacet body).registries r
  | derived kind _ => exact stockOf_of_eq (w.unmoved_withFacet _ kind _).registries r
  | lookedUp l kind =>
      exact ((w.unmoved_ownFacet l kind).sameStores.trans (sameStores_retainOwn _ _)).stockOf r
  | took => exact stockOf_of_eq w.calm_takeSlot.registries r
  | gave hd _ => exact stockOf_of_eq (w.calm_giveSlot hd).registries r
  | madeLocal t text =>
      exact stockOf_of_eq (w.calm_tryNewLocal t (v := .tracked text) rfl).registries r
  | bound t id text _ =>
      exact stockOf_of_eq (w.calm_bindValue t id (v := .tracked text) rfl).registries r
  | droppedLocal t id hid =>
      obtain ⟨m, hm⟩ := h.housed
      exact stockOf_of_eq (w.calm_dropLocal t id fun v hv =>
        (hm.admits hv).holdings_eq_nil hid).registries r
  | threadEnded t => exact stockOf_of_eq (w.unmoved_endThread t).registries r
  | aside ha => exact stockOf_of_eq ha.unmoved.registries r
  | handlerAdded t tag actions =>
      exact stockOf_of_eq (w.calm_register t (.report tag actions)).registries r
  | tableMade | opened | indexed | forgot | numbered | gotLocal | changed | started => rfl

/-- Only calls that use a facet put something into a cache. -/
theorem Step.lazyOf (hstep : Step w hand e w' hand') (h : w.Kept hand) (ho : w.Orderly)
    (hused : ∀ r l transparent kind f, e ≠ .used r l transparent kind f) (r : RegistryId) :
    w'.lazyOf r = if e.tearsDown r then [] else w.lazyOf r := by
  cases e with
  | used r' l transparent kind f => exact absurd rfl (hused _ _ _ _ _)
  | recorded r' kind f =>
      cases hstep with
      | recorded _ hr =>
          obtain ⟨g, hg⟩ := Option.isSome_iff_exists.1 hr
          rw [(restocks_recordFacet (store?_of_registry hg) kind f).lazyOf]
          split
          · next heq => rw [heq, lazyOf_of_registry hg]; rfl
          · rfl
  | releasedRecorded r' n =>
      cases hstep with
      | releasedRecorded hr =>
          obtain ⟨g, hg⟩ := Option.isSome_iff_exists.1 hr
          rw [(restocks_releaseRecorded (store?_of_registry hg)).lazyOf]
          split
          · next heq => rw [heq, lazyOf_of_registry hg]; rfl
          · rfl
  | _ =>
      rw [lazyOf_eq_stockOf, hstep.stockOf h ho hused (by rintro _ _ _ ⟨⟩) (by rintro _ _ ⟨⟩),
        lazyOf_eq_stockOf]
      split <;> rfl

/-! ### Calls that use a facet -/

/-- A facet that is created comes in place of what the cache had at its index. -/
theorem Cached.create (h : w.Cached r kind answers) (hages : w.Ages w')
    (hsound : w'.indices.Sound)
    (hunique : ∀ kind', kind'.indexOwner = kind.indexOwner → kind' = kind)
    (hlazy : ∀ r₁, w'.lazyOf r₁ = if r₁ = r' then
      (w.lazyOf r').filter (·.1 ≠ index) ++ [(index, f)] else w.lazyOf r₁)
    (hkind : w'.kindOf? f = some kind')
    (hindex : w'.indices.find? (.kind kind'.indexOwner) = some index) :
    w'.Cached r kind (if r' = r ∧ kind' = kind then [f] else answers) := by
  have hmem_iff : ∀ {i x}, (i, x) ∈ w'.lazyOf r' ↔
      ((i, x) ∈ w.lazyOf r' ∧ i ≠ index) ∨ (i = index ∧ x = f) := by
    intro i x
    rw [hlazy, if_pos rfl]
    simp
  have hother : ∀ {r₁}, r₁ ≠ r' → w'.lazyOf r₁ = w.lazyOf r₁ := by
    intro r₁ hr
    rw [hlazy, if_neg hr]
  -- what was not of the kind before is not of the kind now
  have hkeep : answers = [] → ∀ {i x}, (i, x) ∈ w.lazyOf r → w'.kindOf? x ≠ some kind := by
    intro hnil i x hmem
    obtain ⟨kind₁, hkind₁, -⟩ := h.placed _ _ _ hmem
    rw [hages.kindOf? hkind₁, ← hkind₁]
    exact h.absent hnil hmem
  refine ⟨?_, ?_, ?_⟩
  · intro r₁ i x hmem
    have hold : (i, x) ∈ w.lazyOf r₁ → ∃ kind, w'.kindOf? x = some kind ∧
        w'.indices.find? (.kind kind.indexOwner) = some i := by
      intro hmem
      obtain ⟨kind₁, hkind₁, hindex₁⟩ := h.placed _ _ _ hmem
      exact ⟨kind₁, hages.kindOf? hkind₁, hages.indices hindex₁⟩
    by_cases hr : r₁ = r'
    · subst hr
      rcases hmem_iff.1 hmem with ⟨hmem, -⟩ | ⟨rfl, rfl⟩
      · exact hold hmem
      · exact ⟨kind', hkind, hindex⟩
    · rw [hother hr] at hmem
      exact hold hmem
  · intro x hx
    split at hx
    · next heq =>
        obtain ⟨rfl, rfl⟩ := heq
        rw [List.mem_singleton] at hx
        subst hx
        exact ⟨index, hmem_iff.2 (Or.inr ⟨rfl, rfl⟩), hkind⟩
    · next hne =>
        obtain ⟨i, hmem, hk⟩ := h.present hx
        refine ⟨i, ?_, hages.kindOf? hk⟩
        by_cases hr : r = r'
        · subst hr
          refine hmem_iff.2 (Or.inl ⟨hmem, ?_⟩)
          rintro rfl
          -- one index belongs to one kind
          obtain ⟨kind₁, hkind₁, hindex₁⟩ := h.placed _ _ _ hmem
          obtain rfl : kind₁ = kind := Option.some.inj (hkind₁.symm.trans hk)
          have howner := hsound.inj hindex (hages.indices hindex₁)
          exact hne ⟨rfl, hunique kind' (Indexed.kind.inj howner)⟩
        · rwa [hother hr]
  · intro hnil i x hmem
    split at hnil
    · cases hnil
    · next hne =>
        by_cases hr : r = r'
        · subst hr
          rcases hmem_iff.1 hmem with ⟨hmem, -⟩ | ⟨rfl, rfl⟩
          · exact hkeep hnil hmem
          · rw [hkind]
            exact fun heq => hne ⟨rfl, Option.some.inj heq⟩
        · rw [hother hr] at hmem
          exact hkeep hnil hmem

/-- What a call for a facet of a kind finds in the cache is what such calls have answered. -/
theorem Cached.mem_iff_cachedFacet? (h : w.Cached r kind answers) (hk : w.Kept hand)
    (hindex : w.indices.find? (.kind kind.indexOwner) = some index) :
    w.cachedFacet? r index kind = some f ↔ f ∈ answers := by
  rw [hk.cachedFacet?_eq_some_iff]
  constructor
  · rintro ⟨hmem, hkind⟩
    obtain ⟨f', hf'⟩ : ∃ f', f' ∈ answers := by
      refine List.exists_mem_of_ne_nil _ fun hnil => ?_
      exact h.absent hnil hmem hkind
    obtain ⟨index', hmem', hkind'⟩ := h.present hf'
    rwa [h.placed.facet_unique hk hmem hmem' hkind hkind']
  · intro hf
    obtain ⟨index', hmem, hkind⟩ := h.present hf
    obtain ⟨kind₁, hkind₁, hindex₁⟩ := h.placed _ _ _ hmem
    obtain rfl : kind₁ = kind := Option.some.inj (hkind₁.symm.trans hkind)
    obtain rfl : index' = index := Option.some.inj (hindex₁.symm.trans hindex)
    exact ⟨hmem, hkind⟩

theorem Cached.same (h : w.Cached r kind answers) (hages : w.Ages w')
    (hlazy : ∀ r, w'.lazyOf r = w.lazyOf r) : w'.Cached r kind answers :=
  h.keep (e := .elsewhere) hages hlazy

theorem Cached.cons (h : w.Cached r kind answers) (hf : f ∈ answers) :
    w.Cached r kind (f :: answers) where
  placed := h.placed
  present hmem := by
    rcases List.mem_cons.1 hmem with rfl | hmem
    · exact h.present hf
    · exact h.present hmem
  absent hnil := by cases hnil

/-- A facet is created if the calls have had no answer yet, and it is their answer then. -/
theorem Cached.createFacet (h : w.Cached r kind answers) (hk : w.Kept hand)
    (hunique : ∀ kind', kind'.indexOwner = kind.indexOwner → kind' = kind)
    (hg : w.registry? r' = some g) (l : LocaleId)
    (hindex : w.indices.find? (.kind kind'.indexOwner) = some index)
    (hcached : w.cachedFacet? r' index kind' = none) :
    (w.createFacet r' l index kind').1.Cached r kind
      ((if r' = r ∧ kind' = kind then some (w.createFacet r' l index kind').2
        else none).toList ++ answers) := by
  have hkeeps := hk.createFacet hg l index kind'
  have hlazy : ∀ r₁, World.lazyOf (w.createFacet r' l index kind').1 r₁ = if r₁ = r' then
      (w.lazyOf r').filter (·.1 ≠ index) ++ [(index, (w.createFacet r' l index kind').2)]
      else w.lazyOf r₁ := by
    intro r₁
    rw [(restocks_createFacet (store?_of_registry hg) l index kind').lazyOf,
      lazyOf_of_registry hg]
    rfl
  have hcreated := h.create hkeeps.ages hkeeps.kept.indexed hunique hlazy
    (w.kindOf?_createFacet r' l index kind') (hkeeps.ages.indices hindex)
  split
  · next heq =>
      rw [if_pos heq] at hcreated
      obtain ⟨rfl, rfl⟩ := heq
      have hnil : answers = [] := by
        refine List.eq_nil_iff_forall_not_mem.2 fun f hf => ?_
        rw [(h.mem_iff_cachedFacet? hk hindex).2 hf] at hcached
        cases hcached
      rw [hnil]
      exact hcreated
  · next hne =>
      rw [if_neg hne] at hcreated
      exact hcreated

/-- A call that uses a facet answers with what the cache has of the kind from then on. -/
theorem Cached.useFacet (h : w.Cached r kind answers) (hk : w.Kept hand)
    (hunique : ∀ kind', kind'.indexOwner = kind.indexOwner → kind' = kind)
    (hg : w.registry? r' = some g) (l : LocaleId) (kind' : FacetKind) (transparent : Bool) :
    (w.useFacet r' l kind').1.Cached r kind
      (((Event.used r' l transparent kind' (w.useFacet r' l kind').2).missed? w r kind).toList ++
        answers) := by
  have hages := (hk.useFacet hg l kind').ages
  cases hfind : (w.findFacet r' l kind').2 with
  | some f =>
      have hmissed : (Event.used r' l transparent kind' (w.useFacet r' l kind').2).missed? w r
          kind = none := by
        refine if_neg ?_
        rintro ⟨rfl, rfl, hnone⟩
        rw [hfind] at hnone
        cases hnone
      rw [hmissed]
      refine h.same hages fun r₁ => ?_
      rw [useFacet_of_found hfind]
      exact (sameStores_findFacet hg l kind').lazyOf r₁
  | none =>
      have hkeeps := hk.missed hg hfind
      have hstores := sameStores_missed hg l kind'
      have hindex := w.indices_missed r' l kind'
      have h₁ := h.same hkeeps.ages hstores.lazyOf
      have hmissed : (Event.used r' l transparent kind' (w.useFacet r' l kind').2).missed? w r
          kind = if r' = r ∧ kind' = kind then some (w.useFacet r' l kind').2 else none := by
        by_cases heq : r' = r ∧ kind' = kind
        · obtain ⟨rfl, rfl⟩ := heq
          rw [if_pos ⟨rfl, rfl⟩]
          exact if_pos ⟨rfl, rfl, hfind⟩
        · rw [if_neg heq]
          exact if_neg fun hall => heq ⟨hall.1, hall.2.1⟩
      rw [hmissed]
      cases hcached : (w.missed r' l kind').1.cachedFacet? r' (w.missed r' l kind').2 kind' with
      | some f =>
          rw [useFacet_of_cached hfind hcached] at hages ⊢
          have h₂ := h.same hages fun r₁ =>
            (hstores.trans (unmoved_retainFacet _ f).sameStores).lazyOf r₁
          split
          · next heq =>
              obtain ⟨rfl, rfl⟩ := heq
              exact h₂.cons ((h₁.mem_iff_cachedFacet? hkeeps.kept hindex).1 hcached)
          · exact h₂
      | none =>
          obtain ⟨g₁, hg₁, -, -⟩ := hkeeps.extended.registry hg
          rw [useFacet_of_not_cached hfind hcached]
          exact h₁.createFacet hkeeps.kept hunique hg₁ l hindex hcached

/-- Wherever a process gets, the cache tells what the calls have answered. -/
theorem Misses.cached (h : Misses settings r kind answers w hand)
    (hunique : ∀ kind', kind'.indexOwner = kind.indexOwner → kind' = kind) :
    w.Cached r kind answers := by
  induction h with
  | start => exact cached_fresh settings r kind
  | @step answers w hand e w' hand' h hstep ih =>
      obtain ⟨es, hrun⟩ := h.run
      by_cases hused : ∃ r l transparent kind f, e = .used r l transparent kind f
      · obtain ⟨r', l, transparent, kind', f, rfl⟩ := hused
        cases hstep with
        | used _ hr _ =>
            obtain ⟨g, hg⟩ := Option.isSome_iff_exists.1 hr
            exact ih.useFacet hrun.kept hunique hg l kind' _
      · have hlazy := hstep.lazyOf hrun.kept hrun.tells.orderly
          fun r l transparent kind f he => hused ⟨r, l, transparent, kind, f, he⟩
        have hmissed : e.missed? w r kind = none := by
          cases e <;> first | rfl | skip
          exact absurd ⟨_, _, _, _, _, rfl⟩ hused
        rw [hmissed]
        exact ih.keep (hstep.keeps hrun.kept).ages hlazy

/-! ## One facet -/

/-- What is known of calls that use a facet of a kind in registry `r` at `w`, if `answers` is
what they have answered since the last teardown where the facet could not be found. -/
structure CreatedOnce (w : World) (hand : Multiset Holding) (r : RegistryId) (kind : FacetKind)
    (answers : List FacetId) : Prop where
  /-- They have answered alike. -/
  alike : ∀ {f f'}, f ∈ answers → f' ∈ answers → f = f'
  /-- A facet that is found is the answer, and nothing comes after the search for it: no store
  changes, and nothing is created. -/
  found : ∀ {l f}, (w.findFacet r l kind).2 = some f →
    w.useFacet r l kind = ((w.findFacet r l kind).1, f) ∧
      w.SameStores (w.findFacet r l kind).1 ∧ w.CreatesNone (w.findFacet r l kind).1
  /-- A facet that was the answer before is so again, and all that comes after the search is one
  more reference to it. -/
  again : ∀ {l f}, (w.findFacet r l kind).2 = none → f ∈ answers →
    (w.useFacet r l kind).2 = f ∧ w.SameStores (w.useFacet r l kind).1 ∧
      w.CreatesNone (w.useFacet r l kind).1 ∧
      World.facets (w.useFacet r l kind).1 = (w.findFacet r l kind).1.facets.retain f ∧
      World.counters (w.useFacet r l kind).1 = (w.findFacet r l kind).1.counters
  /-- The first call creates the facet, for the locale that it was made with, and records it
  once. -/
  first : ∀ {l}, .locale l ∈ hand → (w.findFacet r l kind).2 = none → answers = [] →
    ∃ s index, w.store? r = some s ∧
      (World.indices (w.useFacet r l kind).1).find? (.kind kind.indexOwner) = some index ∧
      (w.findFacet r l kind).1.Creates r s kind (w.localeName l) index (w.useFacet r l kind).2
        (w.useFacet r l kind).1

/-- Wherever a process gets, a facet of a kind with an index of its own is created once between
teardowns. -/
theorem Misses.createdOnce (h : Misses settings r kind answers w hand)
    (hunique : ∀ kind', kind'.indexOwner = kind.indexOwner → kind' = kind)
    (hr : (w.registry? r).isSome) : w.CreatedOnce hand r kind answers := by
  obtain ⟨es, hrun⟩ := h.run
  have hk := hrun.kept
  have hcached := h.cached hunique
  obtain ⟨g, hg⟩ := Option.isSome_iff_exists.1 hr
  refine ⟨fun hf hf' => hcached.alike hk hf hf', ?_, ?_, ?_⟩
  · intro l f hfound
    exact ⟨useFacet_of_found hfound, sameStores_findFacet hg l kind,
      w.createsNone_findFacet r l kind⟩
  · intro l f hnone hf
    have hkeeps := hk.missed hg hnone
    have hstores := sameStores_missed hg l kind
    have hindex := w.indices_missed r l kind
    have hthere := ((hcached.same hkeeps.ages hstores.lazyOf).mem_iff_cachedFacet? hkeeps.kept
      hindex).2 hf
    rw [useFacet_of_cached hnone hthere]
    exact ⟨rfl, hstores.trans (unmoved_retainFacet _ f).sameStores,
      (w.createsNone_findFacet r l kind).trans (.of_eq rfl), rfl, rfl⟩
  · intro l hl hnone hnil
    have hkeeps := hk.missed hg hnone
    have hstores := sameStores_missed hg l kind
    have hindex := w.indices_missed r l kind
    have h₁ := hcached.same hkeeps.ages hstores.lazyOf
    have hs := (hstores.store? r).trans (store?_of_registry hg)
    have hmissing : (w.missed r l kind).1.cachedFacet? r (w.missed r l kind).2 kind = none := by
      refine Option.eq_none_iff_forall_ne_some.2 fun f hf => ?_
      rw [h₁.mem_iff_cachedFacet? hkeeps.kept hindex, hnil] at hf
      cases hf
    have hfree : ∀ f, ((w.missed r l kind).2, f) ∉ g.store.lazy := by
      intro f hmem
      have hlazy : ((w.missed r l kind).2, f) ∈ (w.missed r l kind).1.lazyOf r := by
        rw [lazyOf_eq_store?, hs]
        exact hmem
      obtain ⟨kind₁, hkind₁, hindex₁⟩ := h₁.placed _ _ _ hlazy
      have howner := hkeeps.kept.indexed.inj hindex₁ hindex
      rw [hunique kind₁ (Indexed.kind.inj howner)] at hkind₁
      exact h₁.absent hnil hlazy hkind₁
    have hcreates := creates_createFacet hs l hfree kind
    obtain ⟨g₁, hg₁, -, -⟩ := hkeeps.extended.registry hg
    have hages := (hkeeps.kept.createFacet hg₁ l (w.missed r l kind).2 kind).ages
    rw [hkeeps.localeName_eq hk hl] at hcreates
    rw [useFacet_of_not_cached hnone hmissing]
    exact ⟨g.store, _, store?_of_registry hg, hages.indices hindex, hcreates.fresh,
      hcreates.facets, ⟨hcreates.stores.store?, hcreates.stores.locals⟩, hcreates.creations,
      hcreates.counted⟩

/-- The facet is created for the classic locale. -/
theorem Misses.createdOnce_of_one : ∃ w hand,
    Misses {} 0 .probe1 [3] w hand ∧ w.CreatedOnce hand 0 .probe1 [3] := by
  have hclassic : Misses {} 0 .probe1 [] _ _ :=
    (Misses.start.step (.registered 0 0 Nat.one_pos)).step (@Step.classic _ _ 0 rfl)
  have hmisses : Misses {} 0 .probe1 [3] _ _ :=
    hclassic.step (@Step.used _ _ 0 _ .probe1 rfl (Multiset.mem_cons_self _ _))
  have hunique : ∀ kind' : FacetKind, kind'.indexOwner = .probe1 → kind' = .probe1 := by
    intro kind' howner
    cases kind' <;> first | rfl | cases howner
  exact ⟨_, _, hmisses, hmisses.createdOnce hunique rfl⟩

end World

end Hosted
