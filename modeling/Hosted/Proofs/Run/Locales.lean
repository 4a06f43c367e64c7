import Hosted.Proofs.Run.Fronts

/-!
# The classic and the global locale

A registry has both of its locales or none. The classic one stays one object until the
registry is torn down, and after that it is a new one. The global one is the last that
was put in its place since the last teardown, or else the classic one.
-/

namespace Hosted

namespace Front

variable {f : Front} {c : LocaleId}

theorem classic_published (hc : f.classic = some c) (n : LocaleId) :
    (f.published n).classic = some c := by
  rw [published, hc, Option.getD_some]

/-- Nothing but a teardown takes the classic locale away. -/
theorem classic_after (hc : f.classic = some c) (r : RegistryId) (n : LocaleId) (ran : Bool)
    {e : Event} (htear : e.tearsDown r = false) : (f.after r n ran e).classic = some c := by
  unfold Front.after
  rw [htear, if_neg Bool.false_ne_true]
  split
  · split <;> exact classic_published hc n
  · exact hc

/-- A classic locale that has just been made is the next locale. -/
theorem classic_of_after {r : RegistryId} {n : LocaleId} {ran : Bool} {e : Event}
    (hc : (f.after r n ran e).classic = some c) : f.classic = some c ∨ c = n := by
  have hpublished : (f.published n).classic = some c → f.classic = some c ∨ c = n := by
    intro hp
    rw [published, Option.some.injEq] at hp
    cases hclassic : f.classic with
    | some c' =>
        rw [hclassic, Option.getD_some] at hp
        exact Or.inl (congrArg some hp)
    | none =>
        rw [hclassic, Option.getD_none] at hp
        exact Or.inr hp.symm
  unfold Front.after at hc
  split at hc
  · cases hc
  · split at hc
    · split at hc <;> exact hpublished hc
    · exact Or.inl hc

end Front

namespace World

variable {w w' w₁ : World} {hand hand' hand₁ : Multiset Holding} {e : Event} {es es' : List Event}
  {r : RegistryId} {f : Front} {g : Registry} {c l : LocaleId} {n : Nat} {settings : Settings}

/-! ## The classic locale along a run -/

theorem Orderly.classicLocale_snd (ho : w.Orderly) (hf : w.front? r = some f) :
    (w.classicLocale r).2 = f.classic.getD w.locales.objects.length :=
  Option.some.inj (publishes_classicLocale hf (ho.placed hf) (ho.coherent hf)).2

/-- Once it has been asked for, the classic locale is in its slot. -/
theorem Orderly.front?_classicLocale (ho : w.Orderly) (hf : w.front? r = some f) :
    ∃ f', (w.classicLocale r).1.front? r = some f' ∧
      f'.classic = some (w.classicLocale r).2 := by
  have hpublishes := publishes_classicLocale hf (ho.placed hf) (ho.coherent hf)
  exact ⟨_, (hpublishes.1.front? r).trans (if_pos rfl), hpublishes.2.symm⟩

/-- Without a teardown the classic locale stays. -/
theorem Run.classicLocale_eq (hrun : Run w hand es w' hand') (h : w.Kept hand)
    (ho : w.Orderly) (hf : w.front? r = some f) (hc : f.classic = some c)
    (hup : ∀ e ∈ es, e.tearsDown r = false) : (w'.classicLocale r).2 = c := by
  induction hrun generalizing f with
  | nil => rw [ho.classicLocale_snd hf, hc, Option.getD_some]
  | cons hstep _ ih =>
      have hmoves := hstep.moves h ho
      refine ih (hstep.keeps h).kept hmoves.orderly (hmoves.front? hf) ?_
        fun e he => hup e (List.mem_cons_of_mem _ he)
      exact Front.classic_after hc r _ _ (hup _ List.mem_cons_self)

/-- A classic locale that is made along a run is none of the locales before. -/
theorem Run.le_classicLocale (hrun : Run w hand es w' hand') (h : w.Kept hand)
    (ho : w.Orderly) (hf : w.front? r = some f) (hc : ∀ c, f.classic = some c → n ≤ c)
    (hn : n ≤ w.locales.objects.length) : n ≤ (w'.classicLocale r).2 := by
  induction hrun generalizing f with
  | nil =>
      rw [ho.classicLocale_snd hf]
      cases hclassic : f.classic with
      | some c => exact hc c hclassic
      | none => exact hn
  | cons hstep _ ih =>
      have hmoves := hstep.moves h ho
      have hkeeps := hstep.keeps h
      have hlocales := Shared.Ages.length_le hkeeps.ages.locales
      refine ih hkeeps.kept hmoves.orderly (hmoves.front? hf) ?_ (Nat.le_trans hn hlocales)
      intro c hafter
      rcases Front.classic_of_after hafter with hold | rfl
      · exact hc c hold
      · exact hn

/-! ## What a classic locale is -/

/-- A classic locale that is held can be looked into. -/
theorem Kept.get?_of_isClassic (h : w.Kept hand) (hc : w.IsClassic c)
    (hpos : 0 < w.refsOf (.locale c)) :
    ∃ body, w.locales.get? c = some body ∧ body.name = classicName ∧
      ∀ kind ∈ FacetKind.standard, w.Carries body.facets kind := by
  obtain ⟨o, ho, hclassic, hcarries⟩ := hc
  obtain ⟨o', ho', -, hget⟩ := Shared.exists_of_refs_pos hpos
  obtain rfl : o = o' := Option.some.inj (ho.symm.trans ho')
  refine ⟨o.body, hget, ?_, hcarries⟩
  rw [(h.made o (List.mem_of_getElem? ho)).name_eq, if_pos hclassic]

/-- What a live locale carries it answers with. -/
theorem Kept.ownFacet_of_carries (h : w.Kept hand) {body : Locale}
    (hbody : w.locales.get? l = some body) {kind : FacetKind}
    (hcarries : w.Carries body.facets kind) :
    ∃ f facet, (w.ownFacet l kind).2 = some f ∧ w.facets.get? f = some facet ∧
      facet.kind = kind := by
  obtain ⟨i, f, p, hi, hf, hp, hkind⟩ := hcarries
  have hheld : Holding.facet f ∈ w.held := by
    refine mem_held_of_locale hbody (List.mem_map_of_mem ?_)
    exact List.mem_filterMap.2 ⟨some f, mem_facets_of_facetAt? hf, rfl⟩
  obtain ⟨p', hp', -, hget⟩ := Shared.exists_of_refs_pos (h.refs_pos_of_held hheld)
  obtain rfl : p = p' := Option.some.inj (hp.symm.trans hp')
  refine ⟨f, p.body, ?_, hget, hkind⟩
  have hindex : w.indexOf kind = (w, i) := by
    unfold World.indexOf
    rw [FacetIndices.assign_of_some hi]
  unfold World.ownFacet
  rw [hindex]
  simp only [locale?, hbody, Option.bind_some]
  rw [Locale.facetAt?, hf, Option.filter_some, hget, Option.any_some, hkind, decide_eq_true rfl]
  rfl

/-! ## Answers -/

theorem globalLocale?_snd (w : World) (r : RegistryId) :
    (w.globalLocale? r).2 = (w.front? r).bind Front.global := by
  unfold globalLocale? front?
  rw [Option.bind_map]
  change _ = (w.registry? r).bind Registry.global
  cases (w.registry? r).bind Registry.global <;> rfl

theorem Orderly.globalLocale_snd (ho : w.Orderly) (hf : w.front? r = some f) :
    some (w.globalLocale r).2 = (f.published w.locales.objects.length).global :=
  (publishes_globalLocale hf (ho.placed hf) (ho.coherent hf)).2

/-- The front is what the run tells, and the answer is what the front has. -/
theorem Tells.globalLocale_snd (h : w.Tells es) (hf : w.front? r = some f) :
    (w.globalLocale r).2 = (Event.replacement? r es).getD (w.classicLocale r).2 := by
  have hlocale := h.orderly.globalLocale_snd hf
  rw [h.orderly.classicLocale_snd hf]
  rw [Front.published, Option.some.injEq] at hlocale
  rw [hlocale]
  cases hc : f.classic with
  | some c =>
      rw [(h.told hf).global hc]
      rfl
  | none =>
      have hdown : Event.isUp r es = false := by
        rw [← (h.told hf).classic, hc]
        rfl
      rw [(h.orderly.coherent hf).global_eq_none hc, Event.replacement?_of_not_isUp hdown]

theorem Tells.globalLocale?_snd (h : w.Tells es) (hf : w.front? r = some f) :
    (w.globalLocale? r).2 = if Event.isUp r es then some (w.globalLocale r).2 else none := by
  have hlocale := h.orderly.globalLocale_snd hf
  have hcoherent := h.orderly.coherent hf
  rw [World.globalLocale?_snd, hf, Option.bind_some, ← (h.told hf).classic]
  cases hc : f.classic with
  | none => exact hcoherent.global_eq_none hc
  | some c =>
      rw [Front.published_eq hcoherent _ (hc ▸ rfl)] at hlocale
      exact hlocale.symm

/-- Putting a locale in place of the global one, and then the one before in place of it. -/
theorem Orderly.replaceGlobal_replaceGlobal (ho : w.Orderly) (hf : w.front? r = some f)
    (l l' : LocaleId) :
    ((w.replaceGlobal r l).1.replaceGlobal r l').2 = l ∧
      (((w.replaceGlobal r l).1.replaceGlobal r l').1.globalLocale? r).2 = some l' := by
  obtain ⟨hfirst, -⟩ := publishes_replaceGlobal (l := l) hf (ho.placed hf)
  have hf₁ : (w.replaceGlobal r l).1.front? r = _ := (hfirst.front? r).trans (if_pos rfl)
  have hplaced : f.exits < (w.replaceGlobal r l).1.exits.length :=
    Nat.lt_of_lt_of_eq (ho.placed hf) hfirst.exits_length.symm
  obtain ⟨hsecond, hanswer⟩ := publishes_replaceGlobal (l := l') hf₁ hplaced
  have hf₂ := (hsecond.front? r).trans (if_pos rfl)
  refine ⟨Option.some.inj hanswer, ?_⟩
  rw [globalLocale?_snd, hf₂]
  rfl

/-! ## Publication -/

/-- What is known of the locales of registry `r` at `w`, to which a run `es` has led. -/
structure Publication (w : World) (hand : Multiset Holding) (es : List Event)
    (r : RegistryId) : Prop where
  /-- Both locales are there or none. -/
  both : ∀ g, w.registry? r = some g → g.classic.isSome = g.global.isSome
  /-- Two calls for the classic locale without a teardown between them answer alike. -/
  stays : ∀ {es' w' hand'},
    Run (w.classicLocale r).1 (.locale (w.classicLocale r).2 ::ₘ hand) es' w' hand' →
    (∀ e ∈ es', e.tearsDown r = false) → (w'.classicLocale r).2 = (w.classicLocale r).2
  /-- After a teardown the classic locale is none of those there were. -/
  renewed : ∀ {e w₁ hand₁ es' w' hand'}, Step w hand e w₁ hand₁ → e.tearsDown r = true →
    Run w₁ hand₁ es' w' hand' → w₁.locales.objects.length ≤ (w'.classicLocale r).2
  /-- The classic locale is named, and carries the standard facets. -/
  named : (w.classicLocale r).1.localeName (w.classicLocale r).2 = "C"
  carries : ∀ kind ∈ [FacetKind.charClass, .numPunct, .collation], ∃ f facet,
    ((w.classicLocale r).1.ownFacet (w.classicLocale r).2 kind).2 = some f ∧
      (w.classicLocale r).1.facets.get? f = some facet ∧ facet.kind = kind
  /-- There is a global locale if the registry has been initialised since its last
  teardown. -/
  published : (w.globalLocale? r).2 = if Event.isUp r es then some (w.globalLocale r).2 else none
  /-- The global locale is the last one put in its place since, or else the classic one. -/
  global : (w.globalLocale r).2 = (Event.replacement? r es).getD (w.classicLocale r).2
  /-- The locale before is what a call for the global one would have answered. -/
  replaced : ∀ l, (w.replaceGlobal r l).2 = (w.globalLocale r).2
  /-- The locale before can be put back. -/
  restored : ∀ l,
    ((w.replaceGlobal r l).1.replaceGlobal r (w.globalLocale r).2).2 = l ∧
      (((w.replaceGlobal r l).1.replaceGlobal r (w.globalLocale r).2).1.globalLocale? r).2 =
        some (w.globalLocale r).2

/-- Wherever a process gets, the locales of its registries are what the run tells. -/
theorem Run.publication (hrun : Run (fresh settings) 0 es w hand)
    (hr : (w.registry? r).isSome) : w.Publication hand es r := by
  have hk := hrun.kept
  have ht := hrun.tells
  obtain ⟨g, hg⟩ := Option.isSome_iff_exists.1 hr
  have hf : w.front? r = some g.front := congrArg (Option.map Registry.front) hg
  have hstep : Step w hand _ (w.classicLocale r).1 _ := .classic hr
  have hkept := (hstep.keeps hk).kept
  obtain ⟨f₁, hf₁, hslot⟩ := ht.orderly.front?_classicLocale hf
  obtain ⟨g₁, hg₁, rfl⟩ := front?_eq_some hf₁
  have hmade := hkept.classic g₁ (List.mem_of_getElem? hg₁) _ hslot
  obtain ⟨body, hbody, hname, hcarries⟩ :=
    hkept.get?_of_isClassic hmade (hkept.refs_pos_of_held (held_of_classic hg₁ hslot))
  refine ⟨?_, ?_, ?_, ?_, ?_, ?_, ?_, ?_, ?_⟩
  · intro g' hg'
    obtain rfl : g = g' := Option.some.inj (hg.symm.trans hg')
    exact (ht.orderly.coherent hf).both
  · intro es' w' hand' hrun' hno
    exact hrun'.classicLocale_eq hkept (hstep.moves hk ht.orderly).orderly hf₁ hslot hno
  · intro e w₁ hand₁ es' w' hand' hstep' htear hrun'
    have hmoves' := hstep'.moves hk ht.orderly
    refine hrun'.le_classicLocale (hstep'.keeps hk).kept hmoves'.orderly (hmoves'.front? hf) ?_
      (Nat.le_refl _)
    intro c hc
    rw [Front.after, if_pos htear] at hc
    cases hc
  · rw [localeName, locale?, hbody]
    exact hname
  · exact fun kind hkind => hkept.ownFacet_of_carries hbody (hcarries kind hkind)
  · exact ht.globalLocale?_snd hf
  · exact ht.globalLocale_snd hf
  · intro l
    have hanswer := (publishes_replaceGlobal (l := l) hf (ht.orderly.placed hf)).2
    exact Option.some.inj (hanswer.trans (ht.orderly.globalLocale_snd hf).symm)
  · exact fun l => ht.orderly.replaceGlobal_replaceGlobal hf l _

/-- A transparent locale in place of the first classic one. -/
theorem Run.publication_replaced : ∃ w hand,
    Run (fresh {}) 0 [.registered 0 (.ok 0), .empty 0 1, .replaced 0 1 0] w hand ∧
      w.Publication hand [.registered 0 (.ok 0), .empty 0 1, .replaced 0 1 0] 0 ∧
      (w.globalLocale 0).2 = 1 := by
  have hrun : Run (fresh {}) 0 [.registered 0 (.ok 0), .empty 0 1, .replaced 0 1 0] _ _ :=
    .cons (.registered 0 0 Nat.one_pos) <| .cons (.empty rfl) <|
    .cons (.replaced rfl (Multiset.mem_cons_self _ _)) .nil
  have hpublication := hrun.publication (r := 0) rfl
  exact ⟨_, _, hrun, hpublication, hpublication.global⟩

end World

end Hosted
