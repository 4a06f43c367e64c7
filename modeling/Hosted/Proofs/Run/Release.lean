import Hosted.Proofs.Registry.TeardownReport
import Hosted.Proofs.Run.Fronts
import Hosted.Proofs.Run.Settings
import Mathlib.Data.Set.Card

/-!
# What a teardown releases

Wherever a process gets, a teardown takes all that a registry has: its two locales, the locales
that threads have set in it, and the facets it has created or was given. The report tells how many
of each there were. What callers or other registries have a reference to stays what it is.
-/

namespace Hosted

theorem encard_eq_length {α : Type} [DecidableEq α] {s : Set α} {xs : List α} (hnodup : xs.Nodup)
    (hmem : ∀ a, a ∈ s ↔ a ∈ xs) : s.encard = xs.length := by
  have hs : s = (xs.toFinset : Set α) := by
    ext a
    rw [hmem, Finset.mem_coe, List.mem_toFinset]
  rw [hs, Set.encard_coe_eq_coe_finsetCard, List.toFinset_card_of_nodup hnodup]

theorem Shared.refs_release_le {α : Type} (s : Shared α) (id id' : Nat) :
    (s.release id).1.refs id' ≤ s.refs id' := by
  unfold release
  cases hid : s.objects[id]? with
  | none => exact Nat.le_refl _
  | some o =>
      by_cases heq : id = id'
      · subst heq
        have hlt := (List.getElem?_eq_some_iff.1 hid).1
        rw [refs_of_getElem? hid, refs_of_getElem? (List.getElem?_set_self hlt)]
        exact Nat.sub_le o.refs 1
      · exact Nat.le_of_eq (by simp only [refs, List.getElem?_set_ne heq])

namespace World

variable {w w' w'' : World} {hand : Multiset Holding} {es : List Event} {r : RegistryId}
  {g : Registry} {x : Holding} {settings : Settings}

/-! ## References given up -/

/-- Of no object there are more references than before. -/
def Sheds (w w' : World) : Prop := ∀ x, w'.refsOf x ≤ w.refsOf x

namespace Sheds

theorem refl (w : World) : w.Sheds w := fun _ => Nat.le_refl _

theorem trans (h : w.Sheds w') (h' : w'.Sheds w'') : w.Sheds w'' :=
  fun x => Nat.le_trans (h' x) (h x)

theorem foldl {β : Type} {f : World → β → World} (hf : ∀ w b, Sheds w (f w b)) (w : World)
    (bs : List β) : w.Sheds (bs.foldl f w) :=
  bs.foldlRecOn f (refl w) fun w' h b _ => h.trans (hf w' b)

theorem of_eq (hlocales : w'.locales = w.locales) (hfacets : w'.facets = w.facets) :
    w.Sheds w' := by
  intro x
  cases x with
  | locale l => exact Nat.le_of_eq (congrArg (·.refs l) hlocales)
  | facet f => exact Nat.le_of_eq (congrArg (·.refs f) hfacets)

end Sheds

theorem sheds_releaseFacet (w : World) (f : FacetId) : w.Sheds (w.releaseFacet f) := by
  have hrelease : w.Sheds { w with facets := (w.facets.release f).1 } := by
    intro x
    cases x with
    | locale l => exact Nat.le_refl _
    | facet f' => exact w.facets.refs_release_le f f'
  unfold releaseFacet
  simp only
  split
  · exact hrelease.trans (.of_eq rfl rfl)
  · exact hrelease

theorem sheds_releaseFacets (w : World) (fs : List FacetId) : w.Sheds (w.releaseFacets fs) :=
  Sheds.foldl sheds_releaseFacet w fs

theorem sheds_releaseLocale (w : World) (l : LocaleId) : w.Sheds (w.releaseLocale l) := by
  have hrelease : w.Sheds { w with locales := (w.locales.release l).1 } := by
    intro x
    cases x with
    | locale l' => exact w.locales.refs_release_le l l'
    | facet f => exact Nat.le_refl _
  unfold releaseLocale
  simp only
  split
  · next body _ =>
      exact hrelease.trans (Sheds.trans (.of_eq rfl rfl) (sheds_releaseFacets _ _))
  · exact hrelease

theorem sheds_teardown (hg : w.registry? r = some g) : w.Sheds (w.teardown r).1 := by
  have hlocales : ∀ (w : World) ls, w.Sheds (w.releaseLocales ls) :=
    Sheds.foldl sheds_releaseLocale
  have hentries : ∀ (w : World) entries, w.Sheds (w.releaseEntries entries) :=
    fun w entries => (w.sheds_releaseFacets entries.reverse).trans (.of_eq rfl rfl)
  unfold teardown
  rw [hg]
  refine Sheds.trans ?_ (Sheds.trans (hentries _ _) (.of_eq rfl rfl))
  refine Sheds.trans ?_ (.of_eq rfl rfl)
  refine Sheds.trans ?_ (sheds_releaseFacets _ _)
  refine Sheds.trans ?_ ((hlocales _ _).trans (hlocales _ _))
  exact .of_eq rfl rfl

/-- The object is there before and after, and it is the same. -/
def Intact (w w' : World) : Holding → Prop
  | .locale l => ∃ body, w.locale? l = some body ∧ w'.locale? l = some body
  | .facet f => ∃ body, w.facets.get? f = some body ∧ w'.facets.get? f = some body

theorem Ages.intact (h : w.Ages w') (hpos : 0 < w.refsOf x) (hpos' : 0 < w'.refsOf x) :
    w.Intact w' x := by
  cases x with
  | locale l =>
      obtain ⟨o, -, -, hget⟩ := Shared.exists_of_refs_pos hpos
      exact ⟨o.body, hget, Shared.Ages.get? h.locales hget hpos'⟩
  | facet f =>
      obtain ⟨o, -, -, hget⟩ := Shared.exists_of_refs_pos hpos
      exact ⟨o.body, hget, Shared.Ages.get? h.facets hget hpos'⟩

/-! ## Settings taken away -/

theorem Kept.takeSettings_snd (h : w.Kept hand) (hg : w.registry? r = some g) :
    ∃ threads : List ThreadId, threads.Nodup ∧ (∀ t, (w.settingOf r t).isSome → t ∈ threads) ∧
      (w.takeSettings g.threadLocale).2 = threads.filterMap (w.settingOf r) := by
  obtain ⟨m, hm⟩ := h.housed
  obtain ⟨threads, henumerates, -, hvalues, -⟩ :=
    hm.describes.exists_enumerates _ ⟨r, g, hg, rfl⟩
  have hsetting : ∀ t, w.settingOf r t = (m.value? t g.threadLocale).bind Payload.chosen? := by
    intro t
    rw [settingOf_of_registry hg, hm.describes.get?]
  refine ⟨threads, henumerates.nodup, fun t ht => ?_, ?_⟩
  · rw [henumerates.mem_iff]
    rw [hsetting] at ht
    exact Option.isSome_of_isSome_bind ht
  · calc (w.takeSettings g.threadLocale).2
        = (w.locals.valuesOf g.threadLocale).filterMap Payload.chosen? := rfl
      _ = ((w.locals.valuesOf g.threadLocale).map some).filterMap
            (Option.bind · Payload.chosen?) := by
          rw [List.filterMap_map]
          rfl
      _ = threads.filterMap (w.settingOf r) := by
          rw [hvalues, List.filterMap_map]
          exact congrArg (threads.filterMap ·) (funext fun t => (hsetting t).symm)

/-- As many locales are taken as there are threads that have set one. -/
theorem Kept.encard_setters (h : w.Kept hand) (hg : w.registry? r = some g) :
    {t | w.locals.thread t ≠ .ended ∧ (w.settingOf r t).isSome}.encard =
      (w.takeSettings g.threadLocale).2.length := by
  obtain ⟨threads, hnodup, hmem, htaken⟩ := h.takeSettings_snd hg
  have hlength : (w.takeSettings g.threadLocale).2.length =
      (threads.filter fun t => (w.settingOf r t).isSome).length := by
    rw [htaken, List.length_filterMap_eq_countP, List.countP_eq_length_filter]
  rw [hlength]
  refine encard_eq_length (hnodup.filter _) fun t => ?_
  rw [List.mem_filter]
  constructor
  · rintro ⟨-, hset⟩
    exact ⟨hmem t hset, hset⟩
  · rintro ⟨-, hset⟩
    refine ⟨fun hended => ?_, hset⟩
    rw [settingOf_of_registry hg, Locals.get?_of_ended hended] at hset
    cases hset

theorem Kept.encard_cached (h : w.Kept hand) (hg : w.registry? r = some g) :
    {i | ∃ f, (i, f) ∈ g.lazy}.encard = g.lazy.length := by
  have hnodup := h.cached g (List.mem_of_getElem? hg)
  rw [← List.length_map (·.1)]
  refine encard_eq_length hnodup fun i => ?_
  rw [List.mem_map]
  constructor
  · rintro ⟨f, hf⟩
    exact ⟨(i, f), hf, rfl⟩
  · rintro ⟨⟨_, f⟩, hf, rfl⟩
    exact ⟨f, hf⟩

/-! ## Teardowns along a run -/

/-- What is known of a teardown of registry `r`, whose record is `g`, at `w`, to which a run `es`
has led. -/
structure Release (w : World) (hand : Multiset Holding) (es : List Event) (r : RegistryId)
    (g : Registry) : Prop where
  /-- The report says of both locales whether the registry was initialised. -/
  classic : (w.teardown r).2.releasedClassic = Event.isUp r es
  global : (w.teardown r).2.releasedGlobal = Event.isUp r es
  /-- It counts the live threads that have set a locale, the indices of facets created on demand,
  and the facets recorded, as often as they were. -/
  threadLocales : ((w.teardown r).2.threadLocales : ℕ∞) =
    {t | w.locals.thread t ≠ .ended ∧ (w.settingOf r t).isSome}.encard
  lazyFacets : ((w.teardown r).2.lazyFacets : ℕ∞) = {i | ∃ f, (i, f) ∈ g.lazy}.encard
  facetsTornDown : (w.teardown r).2.facetsTornDown = g.entries.length
  /-- Nothing is left in the registry. -/
  registry : World.registry? (w.teardown r).1 r =
    some (g.tornDown (w.exitTable g.exits).ran)
  /-- Threads keep their cells, but no locale in them. -/
  bound : ∀ t, (w.teardown r).1.locals.cellOf? t g.threadLocale =
    w.locals.cellOf? t g.threadLocale
  unset : ∀ t, (w.teardown r).1.locals.get? t g.threadLocale =
    (w.locals.get? t g.threadLocale).map fun _ => .setting none
  /-- Other registries have what they had, and so have other thread locals. -/
  others : ∀ r', r' ≠ r → World.registry? (w.teardown r).1 r' = w.registry? r' ∧
    ∀ t, World.settingOf (w.teardown r).1 r' t = w.settingOf r' t
  spared : ∀ t id, id ≠ g.threadLocale →
    (w.teardown r).1.locals.get? t id = w.locals.get? t id
  /-- What is referred to from elsewhere is what it was, and all else is destroyed. -/
  accounted : World.Kept (w.teardown r).1 hand
  intact : ∀ x, x ∈ hand ∨ x ∈ (w.teardown r).1.held → w.Intact (w.teardown r).1 x
  destroyed : ∀ x, x ∉ hand → x ∉ (w.teardown r).1.held → (w.teardown r).1.refsOf x = 0
  /-- Directly after that there is nothing to tear down. -/
  again : World.teardown (w.teardown r).1 r =
    (((w.teardown r).1.log (.facetsReleased 0)).log (.tornDown {}), {})

/-- Wherever a process gets, a teardown releases what the registry has and reports just that. -/
theorem Run.teardown_releases (hrun : Run (fresh settings) 0 es w hand)
    (hg : w.registry? r = some g) : w.Release hand es r g := by
  have hk := hrun.kept
  have ht := hrun.tells
  have hf : w.front? r = some g.front := congrArg (Option.map Registry.front) hg
  have hclassic : g.classic.isSome = Event.isUp r es := (ht.told hf).classic
  have hboth : g.classic.isSome = g.global.isSome := (ht.orderly.coherent hf).both
  have hreport := teardown_snd hg
  obtain ⟨hregistry, hlocals⟩ := teardown_eq hg
  have hkeeps := hk.teardown? r
  have htears := hk.tearsDown_teardown r
  have hbalanced := hkeeps.kept.balanced
  refine ⟨?_, ?_, ?_, ?_, ?_, (hregistry r).trans (if_pos rfl), fun t => ?_, fun t => ?_,
    fun r' hr' => ⟨(hregistry r').trans (if_neg hr'), fun t => ?_⟩, fun t id hid => ?_,
    hkeeps.kept, fun x hx => ?_, fun x hhand hheld => ?_, hk.teardown_teardown hg⟩
  · rw [hreport, hclassic]
  · rw [hreport, ← hboth, hclassic]
  · rw [hreport, hk.encard_setters hg]
  · rw [hreport, hk.encard_cached hg]
  · rw [hreport]
  · rw [hlocals]
    rfl
  · rw [hk.get?_teardown hg, if_pos rfl]
  · rw [htears.settingOf, if_neg (mt List.mem_singleton.1 hr')]
  · rw [hk.get?_teardown hg, if_neg hid]
  · have hpos : 0 < (w.teardown r).1.refsOf x :=
      hx.elim hkeeps.kept.refs_pos_of_mem hkeeps.kept.refs_pos_of_held
    exact hkeeps.ages.intact (Nat.lt_of_lt_of_le hpos (sheds_teardown hg x)) hpos
  · rw [hbalanced, List.count_eq_zero_of_not_mem hheld, Multiset.count_eq_zero_of_notMem hhand]

/-- One thread has a locale set and another one had it when it ended, and a facet has been created
that its caller still has. -/
theorem Run.teardown_releases_used : ∃ w hand g,
    Run (fresh {}) 0 [.registered 0 (.ok 0), .empty 0 1, .setThread 0 2 (some 1) (.ok none),
        .threadEnded 2, .classic 0 0, .setThread 0 1 (some 0) (.ok none), .classic 0 0,
        .used 0 0 false .transcoder 3] w hand ∧
      w.registry? 0 = some g ∧
      (w.teardown 0).2 = ⟨true, true, 1, 1, 1⟩ ∧ (w.locale? 1).isNone ∧
      w.Intact (w.teardown 0).1 (.facet 3) ∧
      (World.teardown (w.teardown 0).1 0).2 = {} := by
  have hrun : Run (fresh {}) 0 [.registered 0 (.ok 0), .empty 0 1,
      .setThread 0 2 (some 1) (.ok none), .threadEnded 2, .classic 0 0,
      .setThread 0 1 (some 0) (.ok none), .classic 0 0, .used 0 0 false .transcoder 3] _ _ :=
    .cons (.registered 0 0 Nat.one_pos) <| .cons (.empty rfl) <|
    .cons (@Step.setThread _ 0 0 2 (some 1) rfl) <| .cons (.threadEnded 2) <|
    .cons (.classic rfl) <| .cons (@Step.setThread _ 0 0 1 (some 0) rfl) <|
    .cons (.classic rfl) <|
    .cons (.used .transcoder rfl (Multiset.mem_cons_self _ _)) .nil
  have hrelease := hrun.teardown_releases (r := 0) rfl
  refine ⟨_, _, _, hrun, rfl, rfl, rfl, hrelease.intact _ (Or.inl (Multiset.mem_cons_self _ _)), ?_⟩
  exact congrArg Prod.snd hrelease.again

end World

end Hosted
