import Hosted.Proofs.References.Operations
import Hosted.Proofs.World.Exits

/-!
# References in the life of a process

Making registries, running exit tables, starting and stopping. A fresh process has no
references at all.
-/

namespace Hosted.World

variable {w w' : World} {hand : Multiset Holding} {r : RegistryId} {g : Registry}

theorem kept_fresh (settings : Settings) : (fresh settings).Kept 0 where
  housed := by
    refine ⟨{}, (BindingMap.describes_fresh settings).mono fun _ _ => trivial, ?_, ?_, ?_⟩
    · intro r g hg
      simp [World.registry?, fresh] at hg
    · intro r r' g g' hg
      simp [World.registry?, fresh] at hg
    · intro id v hv
      cases hv
  indexed := FacetIndices.sound_empty
  cached := by
    intro g hg
    simp [fresh] at hg
  made := by
    intro o ho
    simp [fresh] at ho
  classic := by
    intro g hg
    simp [fresh] at hg
  balanced := by
    intro x
    have hheld : (fresh settings).held = [] := rfl
    rw [hheld]
    cases x <;> rfl

/-- The references do not depend on what has been counted and noticed. -/
theorem Kept.forget (h : w.Kept hand) (counters : Counters) :
    ({ w with counters, notices := [] } : World).Kept hand := by
  obtain ⟨m, hm⟩ := h.housed
  refine ⟨⟨m, hm.of_locals_eq rfl fun _ => rfl⟩, h.indexed, h.cached, h.made, h.classic, ?_⟩
  intro x
  have hb := h.balanced x
  cases x with
  | locale l => exact hb
  | facet f => exact hb

/-! ## Making registries -/

/-- A registry is made together with a thread local for it. -/
theorem newLocal_cases (w : World) (t : ThreadId) (v : Payload) :
    (∃ id, w.newLocal t v = ((w.tryNewLocal t v).1, .ok id) ∧ (w.tryNewLocal t v).2 = .ok id) ∨
      ∃ f, w.newLocal t v = ((w.tryNewLocal t v).1.raise f, .error f) ∧
        (w.tryNewLocal t v).2 = .error f := by
  unfold newLocal
  generalize w.tryNewLocal t v = made
  obtain ⟨w₁, result⟩ := made
  cases result with
  | ok id => exact Or.inl ⟨id, rfl, rfl⟩
  | error f => exact Or.inr ⟨f, rfl, rfl⟩

/-- The environment with one more registry, whose thread local is `id`. -/
def withRegistry (w : World) (id : LocalId) (exits : TableId) : World :=
  { w with registries := w.registries ++ [{ threadLocale := id, exits }] }

theorem registry?_withRegistry (w : World) (id : LocalId) (exits : TableId) (r : RegistryId) :
    World.registry? (w.withRegistry id exits) r =
      if r = w.registries.length then some { threadLocale := id, exits } else w.registry? r := by
  unfold World.registry? withRegistry
  rcases Nat.lt_trichotomy r w.registries.length with hlt | heq | hgt
  · simp [List.getElem?_append_left hlt, Nat.ne_of_lt hlt]
  · simp [heq]
  · have hpos : r - w.registries.length ≠ 0 := Nat.sub_ne_zero_of_lt hgt
    simp [List.getElem?_append_right (Nat.le_of_lt hgt), Nat.ne_of_gt hgt,
      List.getElem?_eq_none (Nat.le_of_lt hgt), hpos]

theorem registry?_withRegistry_of_some (hg : w.registry? r = some g) (id : LocalId)
    (exits : TableId) : World.registry? (w.withRegistry id exits) r = some g := by
  have hlt : r < w.registries.length := (List.getElem?_eq_some_iff.1 hg).1
  rw [registry?_withRegistry, if_neg (Nat.ne_of_lt hlt), hg]

theorem isHome_withRegistry_iff (w : World) (id : LocalId) (exits : TableId) (id' : LocalId) :
    (w.withRegistry id exits).IsHome id' ↔ id' = id ∨ w.IsHome id' := by
  constructor
  · rintro ⟨r, g, hg, rfl⟩
    rw [registry?_withRegistry] at hg
    split at hg
    · rw [Option.some.injEq] at hg
      exact Or.inl (congrArg Registry.threadLocale hg.symm)
    · exact Or.inr ⟨r, g, hg, rfl⟩
  · rintro (rfl | ⟨r, g, hg, rfl⟩)
    · exact ⟨w.registries.length, _, by rw [registry?_withRegistry, if_pos rfl], rfl⟩
    · exact ⟨r, g, registry?_withRegistry_of_some hg id exits, rfl⟩

/-- The thread local of a new registry is a new one. -/
theorem Housed.withRegistry {m m' : BindingMap} {id : LocalId} (h : w.Housed m)
    (hregistries : w'.registries = w.registries)
    (hm' : m'.Describes w' fun id' => id' = id ∨ w.IsHome id')
    (hfresh : id ∉ m.live) (hid : id ∈ m'.live)
    (hlive : ∀ id ∈ m.live, id ∈ m'.live)
    (hvalues : ∀ {id' v}, v ∈ w'.locals.valuesOf id' →
      v ∈ w.locals.valuesOf id' ∨ id' = id ∧ v = .setting none)
    (exits : TableId) : (w'.withRegistry id exits).Housed m' := by
  have hregistry : ∀ r, w'.registry? r = w.registry? r := by
    intro r
    rw [World.registry?, World.registry?, hregistries]
  have hne : ∀ {r g}, w.registry? r = some g → g.threadLocale ≠ id := by
    rintro r g hg rfl
    exact hfresh (h.home_live hg)
  have hcases : ∀ {r g}, World.registry? (w'.withRegistry id exits) r = some g →
      (r = w'.registries.length ∧ g.threadLocale = id) ∨ w.registry? r = some g := by
    intro r g hg
    rw [registry?_withRegistry, hregistry] at hg
    split at hg
    · next hr =>
        rw [Option.some.injEq] at hg
        exact Or.inl ⟨hr, congrArg Registry.threadLocale hg.symm⟩
    · exact Or.inr hg
  have hhome : ∀ id', (w'.withRegistry id exits).IsHome id' ↔ id' = id ∨ w.IsHome id' := by
    intro id'
    rw [isHome_withRegistry_iff, isHome_congr fun r => congrArg _ (hregistry r)]
  refine ⟨(hm'.mono fun id' => (hhome id').1).of_locals_eq rfl, ?_, ?_, ?_⟩
  · intro r g hg
    rcases hcases hg with ⟨-, heq⟩ | hg
    · rw [heq]
      exact hid
    · exact hlive _ (h.home_live hg)
  · intro r r' g g' hg hg' heq
    rcases hcases hg with ⟨hr, hgid⟩ | hg
    · rcases hcases hg' with ⟨hr', -⟩ | hg'
      · rw [hr, hr']
      · exact absurd (heq.symm.trans hgid) (hne hg')
    · rcases hcases hg' with ⟨-, hgid⟩ | hg'
      · exact absurd (heq.trans hgid) (hne hg)
      · exact h.home_inj hg hg' heq
  · intro id' v hv
    rcases hvalues hv with hold | ⟨rfl, rfl⟩
    · have hid' : id' ≠ id := by
        rintro rfl
        obtain ⟨l, c, hl, -⟩ := Locals.mem_valuesOf.1 hold
        exact hfresh ((h.describes.live id').2 (by rw [hl]; rfl))
      exact (h.admits hold).congr ((hhome id').trans (or_iff_right hid'))
    · exact ⟨fun _ => ⟨none, rfl⟩, fun hnot => absurd ((hhome id').2 (Or.inl rfl)) hnot⟩

/-- A registry holds nothing when it is made. -/
theorem Calm.keeps_withRegistry {m : BindingMap} {id : LocalId} (hc : w.Calm w')
    (h : w.Kept hand) {exits : TableId} (hm : (w'.withRegistry id exits).Housed m)
    (hid : w.locals.locals.length ≤ id) : w.Keeps (w'.withRegistry id exits) hand where
  kept := by
    refine ⟨⟨m, hm⟩, hc.indexed h.indexed, ?_, hc.locales ▸ h.made, ?_, ?_⟩
    · intro g hg
      rcases List.mem_append.1 hg with hg | hg
      · exact h.cached g (hc.registries ▸ hg)
      · rw [List.mem_singleton] at hg
        rw [hg]
        exact List.nodup_nil
    · intro g hg c hgc
      rcases List.mem_append.1 hg with hg | hg
      · exact (h.classic g (hc.registries ▸ hg) c hgc).ages { hc.ages with }
      · rw [List.mem_singleton] at hg
        subst hg
        cases hgc
    · intro x
      have hb := h.balanced x
      have hcells := hc.cells x
      have hrefs : (w'.withRegistry id exits).refsOf x = w.refsOf x := by
        cases x with
        | locale l => exact congrArg (·.refs l) hc.locales
        | facet f => exact congrArg (·.refs f) hc.facets
      rw [hrefs]
      simp only [held, List.count_append] at hb
      simp only [held, World.withRegistry, hc.registries, hc.locales, List.flatMap_append,
        List.flatMap_singleton, Registry.holdings, Option.toList_none, List.append_nil,
        List.map_nil, List.count_append]
      omega
  ages := { hc.ages with }
  extended := by
    refine ⟨?_, ?_, ?_, hc.locals_le, hc.exits_le⟩
    · intro r g hg
      exact ⟨g, registry?_withRegistry_of_some ((hc.registry? r).trans hg) id exits, rfl, rfl⟩
    · intro id' hid'
      rcases (isHome_withRegistry_iff ..).1 hid' with rfl | ⟨r, g, hg, rfl⟩
      · exact Or.inr hid
      · exact Or.inl ⟨r, g, (hc.registry? r).symm.trans hg, rfl⟩
    · intro hp r hr
      have hsome := hp r (hc.process ▸ hr)
      obtain ⟨g, hg⟩ := Option.isSome_iff_exists.1 hsome
      rw [registry?_withRegistry_of_some ((hc.registry? r).trans hg)]
      rfl

theorem Kept.addRegistry (h : w.Kept hand) (t : ThreadId) (exits : TableId) :
    w.Keeps (w.addRegistry t exits).1 hand := by
  obtain ⟨m, hm⟩ := h.housed
  have hcalm := w.calm_tryNewLocal t (v := .setting none) rfl
  have hmade := hm.describes.tryNewLocal t (.setting none)
  have hvalues := fun id' v => @mem_valuesOf_tryNewLocal w t id' v (.setting none)
    hm.describes.exact.toSound
  unfold World.addRegistry
  rcases w.newLocal_cases t (.setting none) with ⟨id, hnew, hok⟩ | ⟨f, hnew, herr⟩
  · rw [hnew]
    rcases hmade with ⟨id', hok', -, hfresh, -, hm'⟩ | ⟨herr, -⟩
    · rw [hok, Except.ok.injEq] at hok'
      subst hok'
      have hlen := eq_length_of_tryNewLocal hok
      refine hcalm.keeps_withRegistry h (hm.withRegistry hcalm.registries hm' hfresh
        List.mem_cons_self (fun _ hlive => List.mem_cons_of_mem _ hlive) ?_ exits)
        (Nat.le_of_eq hlen.symm)
      intro id' v hv
      refine (hvalues id' v hv).imp_right fun ⟨hok', hv⟩ => ⟨?_, hv⟩
      exact Except.ok.inj (hok'.symm.trans hok)
    · rcases herr with herr | ⟨-, index, herr⟩
      · rw [hok] at herr
        cases herr
      · rw [hok] at herr
        cases herr
  · rw [hnew]
    have hraise := hcalm.trans (calm_raise _ f)
    rcases hmade with ⟨id, hok, -⟩ | ⟨-, hm'⟩
    · rw [hok] at herr
      cases herr
    · refine hraise.keeps h (hm.congr (hm'.of_locals_eq rfl)
        (fun r => by rw [hraise.registry?]) (fun _ hlive => hlive) ?_)
      intro id' v hv
      rcases hvalues id' v hv with hv | ⟨hok, -⟩
      · exact hm.admits hv
      · exact nomatch hok.symm.trans herr

theorem Kept.aside (h : w.Kept hand) (ha : w.Aside w') : w.Keeps w' hand := by
  obtain ⟨hlocales, hfacets, hindices, hunmoved, hnotices⟩ := ha
  have hcalm : w.Calm w' :=
    ⟨hlocales, hfacets, hunmoved.registries, hunmoved.processRegistry,
      fun hi => hindices ▸ hi, fun hi => hindices ▸ hi,
      fun x => by rw [hunmoved.locals], Nat.le_of_eq (by rw [hunmoved.locals]),
      Nat.le_of_eq (by rw [hunmoved.exits]), hnotices⟩
  exact hcalm.keeps_of_locals_eq h hunmoved.locals

theorem isSome_registry?_addRegistry {t : ThreadId} {exits : TableId}
    (h : (w.addRegistry t exits).2 = .ok r) :
    (World.registry? (w.addRegistry t exits).1 r).isSome := by
  unfold addRegistry at h ⊢
  generalize w.newLocal t (.setting none) = made at h ⊢
  obtain ⟨w₁, result⟩ := made
  cases result with
  | error f => cases h
  | ok id =>
      simp only [Except.ok.injEq] at h
      subst h
      simp [World.registry?]

/-- The registry of the process is made once. -/
theorem Kept.ownRegistry (h : w.Kept hand) (t : ThreadId) :
    w.Keeps (w.ownRegistry t).1 hand := by
  have hadd := h.addRegistry t processTable
  have hsome : ∀ r, (w.addRegistry t processTable).2 = .ok r → _ :=
    fun r => isSome_registry?_addRegistry
  unfold World.ownRegistry
  split
  · exact h.refl
  · generalize w.addRegistry t processTable = added at hadd hsome ⊢
    obtain ⟨w₁, result⟩ := added
    cases result with
    | error f => exact hadd
    | ok r =>
        obtain ⟨m, hm⟩ := hadd.kept.housed
        refine hadd.trans ⟨⟨⟨m, hm.of_locals_eq rfl fun r => rfl⟩, hadd.kept.indexed,
          hadd.kept.cached, hadd.kept.made, hadd.kept.classic, ?_⟩, { Ages.refl w₁ with },
          { Extends.refl w₁ with process := ?_ }⟩
        · intro x
          have hb := hadd.kept.balanced x
          cases x with
          | locale l => exact hb
          | facet f => exact hb
        · intro hp r' hr'
          rw [Option.some.injEq] at hr'
          subst hr'
          exact hsome r rfl

theorem isSome_registry?_ownRegistry {t : ThreadId} (hp : w.OwnsRegistry)
    (h : (w.ownRegistry t).2 = .ok r) : (World.registry? (w.ownRegistry t).1 r).isSome := by
  have hadd : (w.addRegistry t processTable).2 = .ok r → _ := isSome_registry?_addRegistry
  unfold ownRegistry at h ⊢
  split at h
  · next r' hr' =>
      rw [Except.ok.injEq] at h
      subst h
      exact hp r' hr'
  · generalize w.addRegistry t processTable = added at h hadd ⊢
    obtain ⟨w₁, result⟩ := added
    cases result with
    | error f => cases h
    | ok r' => exact hadd h

/-! ## Exit tables -/

theorem Kept.teardown? (h : w.Kept hand) (r : RegistryId) : w.Keeps (w.teardown r).1 hand := by
  cases hg : w.registry? r with
  | none =>
      unfold World.teardown
      rw [hg]
      exact h.refl
  | some g => exact h.teardown hg

theorem Kept.runTable (h : w.Kept hand) (t : TableId) : w.Keeps (w.runTable t).1 hand := by
  let R : World → World → Prop := fun w w' => w.Kept hand → w.Keeps w' hand
  refine runTable_induction (R := R) (fun w h => h.refl) ?_ ?_ w t ?_ ?_ h
  · exact fun hstep hstep' h => (hstep h).trans (hstep' (hstep h).kept)
  · exact fun haside h => h.aside haside
  · exact fun h => h.setExitTable t _
  · exact fun w r h => h.teardown? r

end Hosted.World
