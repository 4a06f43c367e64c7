import Hosted.Proofs.References.Census
import Hosted.Proofs.References.Freed
import Hosted.Proofs.Run.Records
import Hosted.Proofs.Run.Release

/-!
# Facets that a teardown destroys

A registry has a reference to each facet that it has recorded, and gives these up last, the newest
first. All else that it has, the locales and the facets created on demand, it gives up before that,
in orders that are not told. Recorded facets that nothing outside the registry keeps alive are all
there when their references are given up, and the order in which they were first recorded alone
tells the order in which they are destroyed.
-/

namespace Hosted.World

variable {w : World} {hand hand' : Multiset Holding} {r : RegistryId} {g : Registry}
  {l : LocaleId} {f : FacetId} {fs recorded taken lazy : List FacetId} {settings : Settings}

/-! ## Who keeps objects -/

/-- A caller has a reference to the locale, or a registry `among` these has it in a slot, or a
thread has set it in one of them. -/
def KeepsLocale (w : World) (hand : Multiset Holding) (among : RegistryId → Prop)
    (l : LocaleId) : Prop :=
  .locale l ∈ hand ∨
    (∃ r, among r ∧ ∃ g, w.registry? r = some g ∧ (g.classic = some l ∨ g.global = some l)) ∨
    ∃ r, among r ∧ ∃ t, w.settingOf r t = some l

/-- A caller has a reference to the facet, or a registry `among` these has cached or recorded it,
or it is in a locale that is kept. -/
def KeepsFacet (w : World) (hand : Multiset Holding) (among : RegistryId → Prop)
    (f : FacetId) : Prop :=
  .facet f ∈ hand ∨
    (∃ r, among r ∧ ∃ g, w.registry? r = some g ∧ (f ∈ g.lazy.map (·.2) ∨ f ∈ g.entries)) ∨
    ∃ l body, w.locale? l = some body ∧ some f ∈ body.facets ∧ w.KeepsLocale hand among l

theorem exists_settingOf_iff : (∃ t, w.settingOf r t = some l) ↔
    ∃ g, w.registry? r = some g ∧ ∃ t, w.HasSet l g t := by
  unfold settingOf HasSet
  simp only [Option.bind_eq_some_iff]
  constructor
  · rintro ⟨t, g, hg, v, hv, hchosen⟩
    cases v with
    | tracked text => cases hchosen
    | setting set =>
        obtain rfl : set = some l := hchosen
        exact ⟨g, hg, t, hv⟩
  · rintro ⟨g, hg, t, hset⟩
    exact ⟨t, g, hg, _, hset, rfl⟩

/-- A locale is there as long as someone keeps it. -/
theorem Kept.locale_refs_pos_iff (h : w.Kept hand) :
    0 < w.locales.refs l ↔ w.KeepsLocale hand (fun _ => True) l := by
  rw [h.locale_refs, Nat.add_pos_iff_pos_or_pos, Nat.add_pos_iff_pos_or_pos, Multiset.count_pos,
    slotsOf_pos_iff, settingsOf_pos_iff, or_assoc]
  simp only [KeepsLocale, true_and, exists_settingOf_iff]

/-- With `fs` in hand these are the only references to a facet if no one else keeps it. -/
theorem Kept.facet_refs_eq_iff (h : w.Kept ((fs.map Holding.facet : Multiset Holding) + hand)) :
    w.facets.refs f = fs.count f ↔ ¬w.KeepsFacet hand (fun _ => True) f := by
  have hfs : Multiset.count (.facet f) (fs.map Holding.facet : Multiset Holding) = fs.count f :=
    (Multiset.coe_count _ _).trans (Holding.count_facets fs f)
  have hlocale : ∀ l, w.KeepsLocale ((fs.map Holding.facet : Multiset Holding) + hand)
      (fun _ => True) l ↔ w.KeepsLocale hand (fun _ => True) l := by
    intro l
    simp [KeepsLocale]
  have hcarried : 0 < w.carriersOf f ↔ ∃ l body, w.locale? l = some body ∧
      some f ∈ body.facets ∧ w.KeepsLocale hand (fun _ => True) l := by
    rw [carriersOf_pos_iff]
    refine exists₂_congr fun l body => and_congr_right fun hl => (and_iff_left ?_).symm
    exact (hlocale l).1 (h.locale_refs_pos_iff.1 (Shared.refs_pos_of_get? hl))
  have hpos : 0 < hand.count (.facet f) + w.carriersOf f + w.keptOf f ↔
      w.KeepsFacet hand (fun _ => True) f := by
    rw [Nat.add_right_comm, Nat.add_pos_iff_pos_or_pos, Nat.add_pos_iff_pos_or_pos,
      Multiset.count_pos, keptOf_pos_iff, hcarried, or_assoc]
    simp only [KeepsFacet, true_and]
  rw [← hpos, h.facet_refs, Multiset.count_add, hfs]
  omega

/-- References in hand are references that there are. -/
theorem Kept.backs (h : w.Kept ((fs.map Holding.facet : Multiset Holding) + hand)) :
    w.facets.Backs fs := by
  intro f
  have hrefs := h.facet_refs f
  rw [Multiset.count_add, Multiset.coe_count, Holding.count_facets] at hrefs
  omega

theorem KeepsLocale.mono {among among' : RegistryId → Prop} (h : w.KeepsLocale hand among l)
    (hhand : hand ⊆ hand') (hsub : ∀ r, among r → among' r) : w.KeepsLocale hand' among' l := by
  rcases h with hl | ⟨r, hr, hslot⟩ | ⟨r, hr, hset⟩
  · exact Or.inl (hhand hl)
  · exact Or.inr (Or.inl ⟨r, hsub r hr, hslot⟩)
  · exact Or.inr (Or.inr ⟨r, hsub r hr, hset⟩)

/-! ## Before recorded facets are released -/

/-- In what order references are given up shows in no registry and no thread local. -/
theorem unmoved_drained (w : World) (r : RegistryId) (g : Registry)
    (taken lazy taken' lazy' : List Nat) :
    (w.drained r g taken lazy).Unmoved (w.drained r g taken' lazy') := by
  obtain ⟨base, hbase⟩ : ∃ base, ∀ taken lazy, Unmoved base (w.stripped r g taken lazy) :=
    ⟨_, fun taken lazy => (unmoved_releaseLocales _ taken).trans
      ((unmoved_releaseLocales _ _).trans (unmoved_releaseFacets _ lazy))⟩
  exact ((hbase taken lazy).symm.trans (hbase taken' lazy')).modifyRegistry r _

theorem unmoved_drained_teardown (hg : w.registry? r = some g) (taken lazy : List Nat) :
    (w.drained r g taken lazy).Unmoved (w.teardown r).1 := by
  rw [teardown_fst hg]
  have hdrained := w.unmoved_drained r g taken lazy
  exact (hdrained _ _).trans ((unmoved_releaseEntries _ _).trans (unmoved_log _ _))

section

variable (h : w.Kept hand) (hg : w.registry? r = some g)
  (htaken : taken.Perm (w.takeSettings g.threadLocale).2) (hlazy : lazy.Perm (g.lazy.map (·.2)))

include hg in
theorem registry?_drained (r' : RegistryId) :
    World.registry? (w.drained r g taken lazy) r' =
      if r' = r then some (g.tornDown (w.exitTable g.exits).ran) else w.registry? r' := by
  rw [← (teardown_eq hg).1, Unmoved.registry? (unmoved_drained_teardown hg taken lazy)]

include h hg in
theorem Kept.settingOf_drained (r' : RegistryId) (t : ThreadId) :
    World.settingOf (w.drained r g taken lazy) r' t =
      if r' = r then none else w.settingOf r' t := by
  have hu := unmoved_drained_teardown hg taken lazy
  have htears := (h.tearsDown_teardown r).settingOf r' t
  rw [(Settled.of_eq hu.registries hu.locals).settingOf] at htears
  simpa only [List.mem_singleton] using htears

include h hg in
/-- What keeps a locale then is what kept it from outside. -/
theorem Kept.keepsLocale_drained_iff :
    (w.drained r g taken lazy).KeepsLocale hand (fun _ => True) l ↔
      w.KeepsLocale hand (· ≠ r) l := by
  unfold KeepsLocale
  simp only [true_and, registry?_drained hg, h.settingOf_drained hg]
  refine or_congr_right (or_congr (exists_congr fun r' => ?_) (exists_congr fun r' => ?_))
  · by_cases hr : r' = r
    · simp [hr, Registry.tornDown]
    · simp [hr]
  · by_cases hr : r' = r
    · simp [hr]
    · simp [hr]

include h hg htaken hlazy in
theorem Kept.locale?_drained (hl : w.KeepsLocale hand (· ≠ r) l) :
    World.locale? (w.drained r g taken lazy) l = w.locale? l := by
  have hdrained := h.drained hg htaken hlazy
  have hpos := h.locale_refs_pos_iff.2 (hl.mono (Multiset.Subset.refl _) fun _ _ => trivial)
  have hpos' := hdrained.kept.locale_refs_pos_iff.2
    (((h.keepsLocale_drained_iff hg).2 hl).mono
      (fun _ hx => Multiset.mem_add.2 (Or.inr hx)) fun _ _ => trivial)
  obtain ⟨o, -, -, hget⟩ := Shared.exists_of_refs_pos hpos
  exact (Shared.Ages.get? hdrained.ages.locales hget hpos').trans hget.symm

include h hg htaken hlazy in
/-- What keeps a facet then is what kept it from outside. -/
theorem Kept.keepsFacet_drained_iff :
    (w.drained r g taken lazy).KeepsFacet hand (fun _ => True) f ↔
      w.KeepsFacet hand (· ≠ r) f := by
  unfold KeepsFacet
  simp only [true_and, registry?_drained hg, h.keepsLocale_drained_iff hg]
  refine or_congr_right (or_congr (exists_congr fun r' => ?_)
    (exists₂_congr fun l body => and_congr_left fun hkept => ?_))
  · by_cases hr : r' = r
    · simp [hr, Registry.tornDown]
    · simp [hr]
  · rw [h.locale?_drained hg htaken hlazy hkept.2]

end

/-! ## The release of recorded facets -/

/-- A teardown that gives up the locales which threads have set, and the facets created on demand,
in the orders `taken` and `lazy`. -/
def teardownIn (w : World) (r : RegistryId) (g : Registry) (taken : List LocaleId)
    (lazy : List FacetId) : World :=
  ((w.drained r g taken lazy).releaseEntries g.entries).log (.tornDown (w.teardown r).2)

/-- The facets that such a teardown destroys as it releases recorded facets, in the order in which
it does. -/
def lastFreed (w : World) (r : RegistryId) (g : Registry) (taken : List LocaleId)
    (lazy : List FacetId) : List FacetId :=
  (w.drained r g taken lazy).facets.freed g.entries.reverse

/-- What is known of the recorded facets in such a teardown. -/
structure NewestFirst (w : World) (hand : Multiset Holding) (r : RegistryId) (g : Registry)
    (taken : List LocaleId) (lazy : List FacetId) : Prop where
  /-- None has been destroyed before recorded facets are released. -/
  unfreed : ∀ f ∈ g.entries, w.Intact (w.drained r g taken lazy) (.facet f)
  /-- Their release destroys those which nothing outside the registry keeps. -/
  mem_iff : ∀ f, f ∈ w.lastFreed r g taken lazy ↔
    f ∈ g.entries ∧ ¬w.KeepsFacet hand (· ≠ r) f
  /-- Each of these goes once. -/
  nodup : (w.lastFreed r g taken lazy).Nodup
  /-- What was first recorded later goes earlier. -/
  ordered : (w.lastFreed r g taken lazy).Pairwise fun f f' =>
    g.entries.idxOf f' < g.entries.idxOf f
  /-- They are noticed in this order. -/
  notices : (w.teardownIn r g taken lazy).notices =
    (w.drained r g taken lazy).notices ++ w.farewells (w.lastFreed r g taken lazy) ++
      [.logged (.facetsReleased g.entries.length), .logged (.tornDown (w.teardown r).2)]
  /-- They stay destroyed. -/
  gone : ∀ f ∈ w.lastFreed r g taken lazy, (w.teardownIn r g taken lazy).facets.get? f = none
  /-- The other ones are what they were. -/
  spared : ∀ f ∈ g.entries, f ∉ w.lastFreed r g taken lazy →
    w.Intact (w.teardownIn r g taken lazy) (.facet f)

theorem Kept.refs_pos_of_recorded (h : w.Kept hand) (hg : w.registry? r = some g)
    (hf : f ∈ g.entries) : 0 < w.facets.refs f := by
  refine h.refs_pos_of_held (x := .facet f) (mem_held_of_registry hg ?_)
  exact List.mem_append_right _ (List.mem_map_of_mem (List.mem_append_right _ hf))

section

variable (h : w.Kept hand) (hg : w.registry? r = some g)
  (htaken : taken.Perm (w.takeSettings g.threadLocale).2) (hlazy : lazy.Perm (g.lazy.map (·.2)))

include h hg htaken hlazy

/-- A recorded facet is there until recorded facets are released: the registry itself keeps it. -/
theorem Kept.intact_drained (hf : f ∈ g.entries) :
    w.Intact (w.drained r g taken lazy) (.facet f) := by
  have hdrained := h.drained hg htaken hlazy
  exact hdrained.ages.intact (h.refs_pos_of_recorded hg hf) (hdrained.kept.backs.refs_pos hf)

theorem Kept.mem_lastFreed_iff : f ∈ w.lastFreed r g taken lazy ↔
    f ∈ g.entries ∧ (w.drained r g taken lazy).facets.refs f = g.entries.count f := by
  have hbacks := (h.drained hg htaken hlazy).kept.backs
  rw [lastFreed, Shared.mem_freed hbacks.reverse, List.mem_reverse, List.count_reverse]

theorem Kept.refs_teardownIn (f : FacetId) :
    (w.teardownIn r g taken lazy).facets.refs f + g.entries.count f =
      (w.drained r g taken lazy).facets.refs f := by
  have hgiven := refs_releaseFacets (h.drained hg htaken hlazy).kept.backs.reverse f
  rwa [List.count_reverse] at hgiven

theorem Kept.notices_teardownIn : (w.teardownIn r g taken lazy).notices =
    (w.drained r g taken lazy).notices ++ w.farewells (w.lastFreed r g taken lazy) ++
      [.logged (.facetsReleased g.entries.length), .logged (.tornDown (w.teardown r).2)] := by
  have hfarewells : World.farewells (w.drained r g taken lazy) (w.lastFreed r g taken lazy) =
      w.farewells (w.lastFreed r g taken lazy) := by
    refine List.flatMap_congr fun f hf => ?_
    have hrecorded := ((h.mem_lastFreed_iff hg htaken hlazy).1 hf).1
    obtain ⟨body, hbefore, hafter⟩ := h.intact_drained hg htaken hlazy hrecorded
    rw [Shared.body?_of_get? hbefore, Shared.body?_of_get? hafter]
  have hnotices := (w.drained r g taken lazy).notices_releaseFacets g.entries.reverse
  rw [← hfarewells, lastFreed, ← hnotices, List.append_cons]
  rfl

theorem Kept.newestFirst : w.NewestFirst hand r g taken lazy := by
  have hdrained := h.drained hg htaken hlazy
  have hbacks := hdrained.kept.backs
  have hreleased := hdrained.trans (Kept.releaseEntries hdrained.kept)
  have hend : w.Keeps (w.teardownIn r g taken lazy) hand :=
    hreleased.trans (hreleased.kept.log rfl)
  refine ⟨fun f hf => h.intact_drained hg htaken hlazy hf, fun f => ?_,
    Shared.nodup_freed_reverse hbacks, Shared.pairwise_freed_reverse hbacks,
    h.notices_teardownIn hg htaken hlazy, fun f hf => ?_, fun f hf hnot => ?_⟩
  · rw [h.mem_lastFreed_iff hg htaken hlazy, hdrained.kept.facet_refs_eq_iff,
      h.keepsFacet_drained_iff hg htaken hlazy]
  · have hlast := ((h.mem_lastFreed_iff hg htaken hlazy).1 hf).2
    have hrefs := h.refs_teardownIn hg htaken hlazy f
    refine Option.eq_none_iff_forall_ne_some.2 fun body hbody => ?_
    have hpos := Shared.refs_pos_of_get? hbody
    omega
  · have hmore := mt (fun hlast => (h.mem_lastFreed_iff hg htaken hlazy).2 ⟨hf, hlast⟩) hnot
    have hle := hbacks f
    have hrefs := h.refs_teardownIn hg htaken hlazy f
    have hpos : 0 < (w.teardownIn r g taken lazy).facets.refs f := by omega
    exact hend.ages.intact (h.refs_pos_of_recorded hg hf) hpos

end

/-- Wherever a process gets, the facets that a registry has recorded and nothing else keeps are
destroyed by its teardown, the one that was first recorded latest first. In what order settings and
facets created on demand are given up does not matter. -/
theorem Records.teardown_newest_first (h : Records settings r recorded w hand)
    (hg : w.registry? r = some g) :
    g.entries = recorded ∧
      (w.teardown r).1 = w.teardownIn r g (w.takeSettings g.threadLocale).2 (g.lazy.map (·.2)) ∧
      ∀ taken lazy, taken.Perm (w.takeSettings g.threadLocale).2 →
        lazy.Perm (g.lazy.map (·.2)) → w.NewestFirst hand r g taken lazy :=
  ⟨h.entries_eq hg, teardown_fst hg, fun _ _ htaken hlazy =>
    h.kept_orderly.1.newestFirst hg htaken hlazy⟩

/-- One facet is recorded twice, one is in the locale that a thread has set, and one has been
created. They go in the decreasing order of their first places, and the last one stays with a
caller. -/
theorem Records.teardown_newest_first_of_twice : ∃ w hand recorded g,
    Records {} 0 recorded w hand ∧ w.registry? 0 = some g ∧ recorded = [3, 4, 3, 5, 6] ∧
      (w.takeSettings g.threadLocale).2 = [1] ∧ g.lazy.map (·.2) = [5] ∧
      w.lastFreed 0 g [1] [5] = [5, 4, 3] ∧ w.NewestFirst hand 0 g [1] [5] := by
  have hlocale : Holding.locale 0 ∈ (.facet 3 ::ₘ .locale 0 ::ₘ 0 : Multiset Holding) :=
    Multiset.mem_cons_of_mem (Multiset.mem_cons_self _ _)
  have hrun : Run (fresh {}) 0 [.registered 0 (.ok 0), .classic 0 0, .elsewhere, .elsewhere,
      .recorded 0 none 3, .elsewhere, .elsewhere, .recorded 0 none 4, .elsewhere,
      .setThread 0 1 (some 1) (.ok none), .recorded 0 none 3, .used 0 0 false .transcoder 5,
      .elsewhere, .elsewhere, .elsewhere, .recorded 0 none 6] _ _ :=
    .cons (.registered 0 0 Nat.one_pos) <| .cons (.classic rfl) <|
    .cons (.madeFacet (.probe .probe0 "a")) <|
    .cons (.retainedFacet (f := 3) (Multiset.mem_cons_self _ _)) <| .cons (.recorded none rfl) <|
    .cons (.madeFacet (.probe .probe1 "b")) <|
    .cons (.retainedFacet (f := 4) (Multiset.mem_cons_self _ _)) <| .cons (.recorded none rfl) <|
    .cons (.derived .probe1 hlocale) <|
    .cons (@Step.setThread _ (.facet 3 ::ₘ .locale 0 ::ₘ 0) 0 1 (some 1) rfl) <|
    .cons (@Step.recorded _ (.locale 0 ::ₘ 0) 0 3 none rfl) <|
    .cons (.used .transcoder rfl (Multiset.mem_cons_self _ _)) <|
    .cons (@Step.releasedFacet _ (.locale 0 ::ₘ 0) 5) <|
    .cons (.madeFacet (.probe .probe2 "c")) <|
    .cons (.retainedFacet (f := 6) (Multiset.mem_cons_self _ _)) <|
    .cons (.recorded none rfl) .nil
  obtain ⟨recorded, hrecords⟩ := hrun.records 0
  obtain ⟨hentries, -, hall⟩ := hrecords.teardown_newest_first rfl
  exact ⟨_, _, recorded, _, hrecords, rfl, hentries.symm, rfl, rfl, rfl,
    hall _ _ (.refl _) (.refl _)⟩

end Hosted.World
