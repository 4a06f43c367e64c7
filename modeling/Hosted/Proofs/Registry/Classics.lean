import Hosted.Proofs.World.Classics
import Hosted.World.Startup

/-!
# Classic locales in the operations on registries

Only publication makes a classic locale, and it makes one with the standard facets. So all
operations on registries and exit tables are faithful.
-/

namespace Hosted.World

theorem faithful_modifyRegistry (w : World) (r : RegistryId) (change : Registry → Registry) :
    w.Faithful (w.modifyRegistry r change) := .of_eq rfl rfl rfl

theorem faithful_addRegistry (w : World) (t : ThreadId) (exits : TableId) :
    w.Faithful (w.addRegistry t exits).1 := by
  have hnew := w.faithful_newLocal t (.setting none)
  unfold addRegistry
  generalize w.newLocal t (.setting none) = made at hnew ⊢
  obtain ⟨w₁, result⟩ := made
  cases result with
  | ok _ => exact hnew.trans (.of_eq rfl rfl rfl)
  | error f => exact hnew

theorem faithful_ownRegistry (w : World) (t : ThreadId) : w.Faithful (w.ownRegistry t).1 := by
  have hadd := w.faithful_addRegistry t processTable
  unfold ownRegistry
  split
  · exact .refl w
  · generalize w.addRegistry t processTable = added at hadd ⊢
    obtain ⟨w₁, result⟩ := added
    cases result with
    | ok _ => exact hadd.trans (.of_eq rfl rfl rfl)
    | error f => exact hadd

theorem faithful_publishClassic (w : World) (r : RegistryId) :
    w.Faithful (w.publishClassic r).1 := by
  have hclassic := w.faithful_addClassic
  unfold publishClassic
  split
  · exact .refl w
  · generalize w.addClassic = added at hclassic ⊢
    obtain ⟨w₁, c⟩ := added
    exact (hclassic.trans (faithful_modifyRegistry _ _ _)).trans (faithful_notify _ _)

theorem faithful_publishGlobal (w : World) (r : RegistryId) (c : LocaleId) :
    w.Faithful (w.publishGlobal r c).1 := by
  unfold publishGlobal
  split
  · exact .refl w
  · exact (w.faithful_retainLocale c).trans (faithful_modifyRegistry _ _ _)

theorem faithful_register (w : World) (t : TableId) (h : Handler) :
    w.Faithful (w.register t h).1 :=
  register_induction (fun _ _ _ => .of_eq rfl rfl rfl) (fun w _ => w.faithful_notify _) w t h

theorem faithful_queueTeardown (w : World) (r : RegistryId) :
    w.Faithful (w.queueTeardown r) :=
  queueTeardown_induction Faithful.refl Faithful.trans (fun w r => w.faithful_modifyRegistry r _)
    faithful_register (fun w _ => w.faithful_notify _) w r

theorem faithful_publish (w : World) (r : RegistryId) : w.Faithful (w.publish r).1 := by
  unfold publish
  exact ((w.faithful_publishClassic r).trans (faithful_publishGlobal _ r _)).trans
    (faithful_queueTeardown _ r)

theorem faithful_ensureLocales (w : World) (r : RegistryId) :
    w.Faithful (w.ensureLocales r) := by
  unfold ensureLocales
  split
  · exact .refl w
  · exact w.faithful_publish r

theorem faithful_globalLocale? (w : World) (r : RegistryId) :
    w.Faithful (w.globalLocale? r).1 := by
  unfold globalLocale?
  split
  · exact w.faithful_retainLocale _
  · exact .refl w

theorem faithful_globalLocale (w : World) (r : RegistryId) : w.Faithful (w.globalLocale r).1 := by
  have hglobal := w.faithful_globalLocale? r
  unfold globalLocale
  generalize w.globalLocale? r = got at hglobal ⊢
  obtain ⟨w₁, l⟩ := got
  cases l with
  | some l => exact hglobal
  | none => exact (hglobal.trans (w₁.faithful_publish r)).trans (faithful_retainLocale _ _)

theorem faithful_classicLocale (w : World) (r : RegistryId) :
    w.Faithful (w.classicLocale r).1 := by
  unfold classicLocale
  split
  · exact w.faithful_retainLocale _
  · exact (w.faithful_publish r).trans (faithful_retainLocale _ _)

theorem faithful_emptyLocale (w : World) (r : RegistryId) : w.Faithful (w.emptyLocale r).1 :=
  (w.faithful_ensureLocales r).trans (faithful_addTransparent _)

theorem faithful_replaceGlobal (w : World) (r : RegistryId) (l : LocaleId) :
    w.Faithful (w.replaceGlobal r l).1 :=
  (((w.faithful_publish r).trans (faithful_retainLocale _ l)).trans
    (faithful_modifyRegistry _ r _)).trans (faithful_notify _ _)

theorem faithful_findFacet (w : World) (r : RegistryId) (l : LocaleId) (kind : FacetKind) :
    w.Faithful (w.findFacet r l kind).1 := by
  have hown : w.Faithful (w.ownFacet l kind).1 := w.faithful_indexed _
  unfold findFacet
  generalize w.ownFacet l kind = own at hown ⊢
  obtain ⟨w₁, found⟩ := own
  cases found with
  | some x => exact hown.trans (w₁.faithful_retainFacet x)
  | none =>
      simp only at hown ⊢
      split
      · have hglobal := hown.trans (w₁.faithful_globalLocale r)
        generalize w₁.globalLocale r = global at hglobal ⊢
        obtain ⟨w₂, l'⟩ := global
        have hown₂ : w₂.Faithful (w₂.ownFacet l' kind).1 := w₂.faithful_indexed _
        exact ((hglobal.trans hown₂).trans (faithful_retainFacet? _ _)).trans
          (faithful_releaseLocale _ l')
      · exact hown

theorem faithful_recordFacet (w : World) (r : RegistryId) (kind : Option FacetKind)
    (x : FacetId) : w.Faithful (w.recordFacet r kind x) := by
  have hindex : w.Faithful (w.recordedIndex kind).1 := by
    cases kind with
    | none => exact .refl w
    | some kind => exact w.faithful_indexed _
  exact (hindex.trans (faithful_modifyRegistry _ r _)).trans
    (.of_aside (aside_reportRecorded _ _ _))

theorem faithful_cacheFacet (w : World) (r : RegistryId) (index : Nat) (x : FacetId) :
    w.Faithful (w.cacheFacet r index x) :=
  (w.faithful_modifyRegistry r _).trans (faithful_releaseFacet? _ _)

theorem faithful_createFacet (w : World) (r : RegistryId) (l : LocaleId) (index : Nat)
    (kind : FacetKind) : w.Faithful (w.createFacet r l index kind).1 := by
  unfold createFacet
  simp only
  have hnotify : w.Faithful (if kind.isProbe then w.notify (.created kind (w.localeName l))
      else w) := by
    split
    · exact w.faithful_notify _
    · exact .refl w
  refine Faithful.trans ?_ ((faithful_tally _ _).trans (faithful_notify _ _))
  refine Faithful.trans ?_ (faithful_recordFacet _ _ _ _)
  refine Faithful.trans ?_ (faithful_retainFacet _ _)
  refine Faithful.trans ?_ (faithful_cacheFacet _ _ _ _)
  exact (hnotify.trans (faithful_addFacet _ _)).trans (faithful_retainFacet _ _)

theorem faithful_useFacet (w : World) (r : RegistryId) (l : LocaleId) (kind : FacetKind) :
    w.Faithful (w.useFacet r l kind).1 := by
  have hfind := w.faithful_findFacet r l kind
  unfold useFacet
  generalize w.findFacet r l kind = found at hfind ⊢
  obtain ⟨w₁, x⟩ := found
  cases x with
  | some x => exact hfind
  | none =>
      have hindex := hfind.trans (w₁.faithful_indexed (.kind kind.indexOwner))
      simp only
      split
      · exact hindex.trans (faithful_retainFacet _ _)
      · exact hindex.trans (faithful_createFacet _ r l _ kind)

theorem faithful_setThreadLocale (w : World) (r : RegistryId) (t : ThreadId)
    (l : Option LocaleId) : w.Faithful (w.setThreadLocale r t l).1 := by
  unfold setThreadLocale
  cases w.registry? r with
  | none => exact .refl w
  | some g =>
      have hset := w.faithful_setting t g.threadLocale
      simp only
      generalize w.getOr t g.threadLocale (fun w => (w, .setting none)) = got at hset ⊢
      obtain ⟨w₁, result⟩ := got
      cases result with
      | ok before => exact hset.trans (faithful_locals _ _)
      | error f =>
          cases l with
          | none => exact hset
          | some l => exact hset.trans (faithful_releaseLocale _ l)

theorem faithful_threadLocale (w : World) (r : RegistryId) (t : ThreadId) :
    w.Faithful (w.threadLocale r t).1 := by
  unfold threadLocale
  split
  · exact w.faithful_globalLocale r
  · next g _ =>
      have hget : w.Faithful (w.getLocal t g.threadLocale).1 := .of_eq rfl rfl rfl
      generalize w.getLocal t g.threadLocale = got at hget ⊢
      split
      · exact hget.trans (faithful_retainLocale _ _)
      · exact hget.trans (faithful_globalLocale _ r)

theorem faithful_releaseRecorded (w : World) (r : RegistryId) :
    w.Faithful (w.releaseRecorded r).1 :=
  releaseRecorded_induction Faithful.refl Faithful.trans (fun w r => w.faithful_modifyRegistry r _)
    faithful_releaseFacet (fun _ _ => .of_eq rfl rfl rfl) (fun w _ => w.faithful_notify _) w r

theorem faithful_teardown (w : World) (r : RegistryId) : w.Faithful (w.teardown r).1 :=
  teardown_induction Faithful.refl Faithful.trans faithful_modifyRegistry
    (fun _ _ => .of_eq rfl rfl rfl) faithful_releaseLocale faithful_releaseFacet
    (fun _ _ => .of_eq rfl rfl rfl) (fun w _ => w.faithful_notify _)
    (fun w _ => w.faithful_notify _) w r

theorem faithful_runTable (w : World) (t : TableId) : w.Faithful (w.runTable t).1 :=
  runTable_induction Faithful.refl Faithful.trans Faithful.of_aside w t (.of_eq rfl rfl rfl)
    faithful_teardown

end Hosted.World
