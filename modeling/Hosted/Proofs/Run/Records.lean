import Hosted.Proofs.Run.LazyFacets

/-!
# Facets that a registry has recorded

A registry records facets that it is given, as often as it is given them, and facets that it
creates on demand. It keeps them in this order until it is torn down or is told to release just
them. A teardown that an exit table carries out is one, too: a run of a table is a run of the
teardowns in it, and what a registry has recorded when its turn comes is told by the steps so far.
-/

namespace Hosted

namespace World

/-- A call that uses a facet in registry `r` creates it: it finds none, and none has been created
before. -/
def creates (w : World) (r : RegistryId) (l : LocaleId) (kind : FacetKind) : Bool :=
  (w.findFacet r l kind).2.isNone &&
    ((w.missed r l kind).1.cachedFacet? r (w.missed r l kind).2 kind).isNone

end World

/-- The facet that registry `r` recorded with a step from `w`: one that it was given, or one that
it created. -/
def Event.records? (w : World) (r : RegistryId) : Event → Option FacetId
  | .recorded r' _ f => if r' = r then some f else none
  | .used r' l _ kind f => if r' = r ∧ w.creates r' l kind then some f else none
  | _ => none

/-- The facets that registry `r` had recorded were released. -/
def Event.empties (r : RegistryId) : Event → Bool
  | .releasedRecorded r' _ => r' = r
  | e => e.tearsDown r

namespace World

/-! ## What a registry has recorded -/

/-- A process has come to `w`. Since registry `r` last released what it had recorded, it has
recorded these facets, the latest last. -/
inductive Records (settings : Settings) (r : RegistryId) :
    List FacetId → World → Multiset Holding → Prop where
  | start : Records settings r [] (fresh settings) 0
  | step {recorded w hand e w' hand'} : Records settings r recorded w hand →
      Step w hand e w' hand' →
      Records settings r
        (if e.empties r then [] else recorded ++ (e.records? w r).toList) w' hand'

variable {w w' : World} {hand hand' : Multiset Holding} {e : Event} {es : List Event}
  {t : TableId} {r : RegistryId} {g : Registry} {recorded : List FacetId} {settings : Settings}

/-- A call that uses a facet records it if it creates it. -/
theorem stockOf_useFacet (hg : w.registry? r = some g) (l : LocaleId) (kind : FacetKind)
    (r' : RegistryId) :
    (World.stockOf (w.useFacet r l kind).1 r').2 = (w.stockOf r').2 ++
      (if r = r' ∧ w.creates r l kind then some (w.useFacet r l kind).2 else none).toList := by
  have hmissed := sameStores_missed hg l kind
  cases hfound : (w.findFacet r l kind).2 with
  | some f =>
      rw [useFacet_of_found hfound, (sameStores_findFacet hg l kind).stockOf]
      simp [creates, hfound]
  | none =>
      cases hcached : (w.missed r l kind).1.cachedFacet? r (w.missed r l kind).2 kind with
      | some f =>
          have hstores := hmissed.trans (unmoved_retainFacet _ f).sameStores
          rw [useFacet_of_cached hfound hcached, hstores.stockOf]
          simp [creates, hcached]
      | none =>
          have hs := (hmissed.store? r).trans (store?_of_registry hg)
          have hcreates : w.creates r l kind = true := by simp [creates, hfound, hcached]
          rw [useFacet_of_not_cached hfound hcached, (restocks_createFacet hs l _ kind).stockOf,
            hmissed.stockOf, hcreates]
          by_cases hr : r' = r
          · simp [hr, stockOf_of_registry hg, Registry.store]
          · simp [hr, Ne.symm hr]

/-- A step records one facet at most. -/
theorem Step.stockOf_snd (hstep : Step w hand e w' hand') (h : w.Kept hand) (ho : w.Orderly)
    (r : RegistryId) : (w'.stockOf r).2 =
      if e.empties r then [] else (w.stockOf r).2 ++ (e.records? w r).toList := by
  cases e with
  | used r' l transparent kind f =>
      cases hstep with
      | used _ hr _ =>
          obtain ⟨g, hg⟩ := Option.isSome_iff_exists.1 hr
          exact stockOf_useFacet hg l kind r
  | recorded r' kind f =>
      cases hstep with
      | recorded _ hr =>
          obtain ⟨g, hg⟩ := Option.isSome_iff_exists.1 hr
          have hstock := (restocks_recordFacet (store?_of_registry hg) kind f).stockOf r
          by_cases hr' : r = r'
          · rw [if_pos hr'] at hstock
            rw [hstock, hr', stockOf_of_registry hg]
            simp [Event.empties, Event.tearsDown, Event.records?, Registry.store]
          · rw [if_neg hr'] at hstock
            rw [hstock]
            simp [Event.empties, Event.tearsDown, Event.records?, Ne.symm hr']
  | releasedRecorded r' n =>
      cases hstep with
      | releasedRecorded hr =>
          obtain ⟨g, hg⟩ := Option.isSome_iff_exists.1 hr
          have hstock := (restocks_releaseRecorded (store?_of_registry hg)).stockOf r
          by_cases hr' : r = r'
          · rw [if_pos hr'] at hstock
            rw [hstock]
            simp [Event.empties, hr']
          · rw [if_neg hr'] at hstock
            rw [hstock]
            simp [Event.empties, Event.records?, Ne.symm hr']
  | _ =>
      rw [hstep.stockOf h ho (by rintro _ _ _ _ _ ⟨⟩) (by rintro _ _ _ ⟨⟩) (by rintro _ _ ⟨⟩)]
      unfold Event.empties
      split
      · rfl
      · exact (List.append_nil _).symm

namespace Records

theorem kept_orderly (h : Records settings r recorded w hand) : w.Kept hand ∧ w.Orderly := by
  induction h with
  | start => exact ⟨kept_fresh settings, (tells_fresh settings).orderly⟩
  | step _ hstep ih => exact ⟨(hstep.keeps ih.1).kept, (hstep.moves ih.1 ih.2).orderly⟩

/-- What has been recorded is in the registry. -/
theorem stockOf_snd (h : Records settings r recorded w hand) : (w.stockOf r).2 = recorded := by
  induction h with
  | start => rfl
  | step h hstep ih => rw [hstep.stockOf_snd h.kept_orderly.1 h.kept_orderly.2, ih]

theorem entries_eq (h : Records settings r recorded w hand) (hg : w.registry? r = some g) :
    g.entries = recorded := by
  rw [← h.stockOf_snd, stockOf_of_registry hg]

theorem run (h : Records settings r recorded w hand) (hrun : Run w hand es w' hand') :
    ∃ recorded', Records settings r recorded' w' hand' := by
  induction hrun generalizing recorded with
  | nil => exact ⟨recorded, h⟩
  | cons hstep _ ih => exact ih (h.step hstep)

/-- Each teardown that a table carries out is done in such a state: it comes after those of its
handlers that have been `done`. -/
theorem handlers (h : Records settings r recorded w hand) (ht : t < w.exits.length)
    (hran : (w.exitTable t).ran = false) (depth : Nat) (done : List Handler) :
    ∃ recorded', Records settings r recorded'
      (done.foldl (handle depth t) (w.setExitTable t { handlers := [], ran := true })) hand := by
  obtain ⟨es, hrun⟩ := exists_run_handlers ht hran hand depth done
  exact h.run hrun

end Records

/-- Every run can be looked at in this way. -/
theorem Run.records (hrun : Run (fresh settings) 0 es w hand) (r : RegistryId) :
    ∃ recorded, Records settings r recorded w hand :=
  Records.run .start hrun

end World

end Hosted
