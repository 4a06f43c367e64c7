import Hosted.Proofs.Registry.Classics
import Hosted.Proofs.Run.Chains

/-!
# Equality of locales

Two handles are equal if they lead to one locale, or to two that have the same name of their own.
Only classic locales have a name of their own, and all of them are made alike, in whatever
registry and however many teardowns lie between. So equal locales cannot be told apart by what
they hold, and a locale that is not classic equals none but itself.
-/

namespace Hosted.World

variable {w w' : World} {hand hand' : Multiset Holding} {e : Event} {es : List Event}
  {a b d l : LocaleId} {x y body : Locale} {kind : FacetKind} {i : Nat} {settings : Settings}

/-! ## Classic locales along a run -/

/-- Every step is faithful. -/
theorem Step.faithful (hstep : Step w hand e w' hand') : w.Faithful w' := by
  cases hstep with
  | registered t exits _ => exact w.faithful_addRegistry t exits
  | owned t => exact w.faithful_ownRegistry t
  | @classic _ r _ => exact w.faithful_classicLocale r
  | @global _ r _ => exact w.faithful_globalLocale r
  | @global? _ r _ => exact w.faithful_globalLocale? r
  | @empty _ r _ => exact w.faithful_emptyLocale r
  | @ensured _ r _ => exact w.faithful_ensureLocales r
  | @replaced _ r l _ _ => exact w.faithful_replaceGlobal r l
  | @ofThread _ r _ t _ => exact w.faithful_threadLocale r t
  | @setThread _ r t l _ => exact w.faithful_setThreadLocale r t l
  | @found _ r l kind _ _ => exact w.faithful_findFacet r l kind
  | @used _ r l kind _ _ => exact w.faithful_useFacet r l kind
  | @recorded _ r f kind _ => exact w.faithful_recordFacet r kind f
  | @releasedRecorded _ r _ => exact w.faithful_releaseRecorded r
  | @toreDown _ r _ => exact w.faithful_teardown r
  | tableMade => exact .of_eq rfl rfl rfl
  | handlerAdded t tag actions => exact w.faithful_register t _
  | opened t _ _ => exact .of_eq rfl rfl rfl
  | tableRun t => exact w.faithful_runTable t
  | retainedLocale _ => exact w.faithful_retainLocale _
  | releasedLocale => exact w.faithful_releaseLocale _
  | retainedFacet _ => exact w.faithful_retainFacet _
  | releasedFacet => exact w.faithful_releaseFacet _
  | madeFacet body => exact w.faithful_addFacet body
  | derived kind _ => exact w.faithful_withFacet _ kind _
  | lookedUp l kind => exact (w.faithful_indexed _).trans (faithful_retainFacet? _ _)
  | indexed key => exact w.faithful_indexed key
  | forgot identity =>
      refine .of_locales (fun _ => rfl) ⟨id, fun hi => ?_⟩ fun hs => hs.forget _
      rw [FacetIndices.find?_forget]
      exact hi
  | took => exact w.faithful_takeSlot
  | gave h _ => exact w.faithful_giveSlot h
  | numbered => exact w.faithful_locals _
  | madeLocal t text => exact w.faithful_tryNewLocal t _
  | gotLocal t id => exact w.faithful_locals _
  | bound t id text _ => exact w.faithful_bindValue t id _
  | changed id _ _ => exact w.faithful_locals _
  | droppedLocal t id _ => exact w.faithful_dropLocal t id
  | threadEnded t => exact w.faithful_endThread t
  | started => exact .of_eq rfl rfl rfl
  | aside ha => exact .of_aside ha

theorem Run.faithful (hrun : Run w hand es w' hand') : w.Faithful w' := by
  induction hrun with
  | nil => exact .refl _
  | cons hstep _ ih => exact hstep.faithful.trans ih

/-- Every classic locale of a process, destroyed or not, has the standard facets. -/
theorem Run.standard (hrun : Run (fresh settings) 0 es w hand)
    (hbody : w.locales.body? l = some body) (hclassic : body.classic = true) : w.Standard body := by
  rcases hrun.faithful.classic FacetIndices.sound_empty hbody hclassic with hold | hstandard
  · cases hold
  · exact hstandard

/-! ## What equal locales have in common -/

/-- Two locales have the same name, categories, flags and number of facets, and of each kind they
have equal facets or both have none. -/
structure Agree (w : World) (a b : LocaleId) (x y : Locale) : Prop where
  name : x.name = y.name
  categories : x.categories = y.categories
  classic : x.classic = y.classic
  transparent : x.transparent = y.transparent
  facetCount : x.facetCount = y.facetCount
  holds : ∀ kind, (w.holdsIndex a kind).2 = (w.holdsIndex b kind).2
  facet : ∀ kind, (w.ownFacet a kind).2.bind w.facets.get? =
    (w.ownFacet b kind).2.bind w.facets.get?

/-- The value of the facet of a kind, told from what stands at the index of the kind. -/
theorem Kept.bind_ownFacet (h : w.Kept hand) (hl : w.locale? l = some body) (kind : FacetKind) :
    (w.ownFacet l kind).2.bind w.facets.get? =
      ((body.facetAt? (w.indexOf kind).2).bind w.facets.body?).filter (·.kind = kind) := by
  rw [ownFacet_snd, hl, Option.bind_some]
  cases hf : body.facetAt? (w.indexOf kind).2 with
  | none => rfl
  | some f =>
      obtain ⟨facet, hget⟩ := h.get?_of_carried hl (mem_facets_of_facetAt? hf)
      rw [Option.bind_some, Shared.body?_of_get? hget, Option.filter_some, hget, Option.any_some,
        Option.filter_some]
      by_cases hkind : facet.kind = kind
      · rw [decide_eq_true hkind, if_pos rfl, if_pos rfl, Option.bind_some, hget]
      · rw [decide_eq_false hkind, if_neg Bool.false_ne_true, if_neg Bool.false_ne_true]
        rfl

theorem holdsIndex_snd (hl : w.locale? l = some body) (kind : FacetKind) :
    (w.holdsIndex l kind).2 = (body.facetAt? (w.indexOf kind).2).isSome := by
  change ((w.locale? l).bind (·.facetAt? (w.indexOf kind).2)).isSome = _
  rw [hl, Option.bind_some]

/-- Classic locales are alike. -/
theorem Standard.agree (hx : w.Standard x) (hy : w.Standard y) (h : w.Kept hand)
    (ha : w.locale? a = some x) (hb : w.locale? b = some y) (hname : x.name = y.name)
    (hclassic : x.classic = y.classic) (htransparent : x.transparent = y.transparent) :
    w.Agree a b x y := by
  have halike : ∀ i, (x.facetAt? i).map w.facets.body? = (y.facetAt? i).map w.facets.body? :=
    hx.stocked.alike hy.stocked
  have hsome : ∀ i, (x.facetAt? i).isSome = (y.facetAt? i).isSome := by
    intro i
    rw [← Option.isSome_map (f := w.facets.body?), halike, Option.isSome_map]
  have hvalue : ∀ i, (x.facetAt? i).bind w.facets.body? = (y.facetAt? i).bind w.facets.body? := by
    intro i
    have hjoin := congrArg (Option.bind · id) (halike i)
    simp only [Option.bind_map] at hjoin
    exact hjoin
  refine ⟨hname, hx.categories.trans hy.categories.symm, hclassic, htransparent, ?_, ?_, ?_⟩
  · have hcount : (x.facetCount : ℕ∞) = y.facetCount := by
      rw [← x.encard_facetAt?, ← y.encard_facetAt?]
      simp only [hsome]
    exact_mod_cast hcount
  · intro kind
    rw [holdsIndex_snd ha, holdsIndex_snd hb, hsome]
  · intro kind
    rw [h.bind_ownFacet ha, h.bind_ownFacet hb, hvalue]

/-! ## Equality -/

theorem localesEqual_iff : w.localesEqual a b = true ↔
    a = b ∨ (w.localeName a ≠ unnamed ∧ w.localeName a = w.localeName b) := by
  simp [localesEqual]

theorem localesEqual_equivalence (w : World) :
    Equivalence fun a b => w.localesEqual a b = true where
  refl a := localesEqual_iff.2 (Or.inl rfl)
  symm h := by
    rcases localesEqual_iff.1 h with rfl | ⟨hnamed, hname⟩
    · exact h
    · exact localesEqual_iff.2 (Or.inr ⟨hname ▸ hnamed, hname.symm⟩)
  trans h h' := by
    rcases localesEqual_iff.1 h with rfl | ⟨hnamed, hname⟩
    · exact h'
    · rcases localesEqual_iff.1 h' with rfl | ⟨-, hname'⟩
      · exact h
      · exact localesEqual_iff.2 (Or.inr ⟨hnamed, hname.trans hname'⟩)

/-- A locale without a name of its own is equal to itself only. -/
theorem localesEqual_of_unnamed (hname : w.localeName a = unnamed) (hne : b ≠ a) :
    w.localesEqual a b = false ∧ w.localesEqual b a = false := by
  have hnot : ¬w.localesEqual a b = true := by
    rw [localesEqual_iff]
    rintro (rfl | ⟨hnamed, -⟩)
    · exact hne rfl
    · exact hnamed hname
  refine ⟨Bool.eq_false_iff.2 hnot, Bool.eq_false_iff.2 fun h => hnot ?_⟩
  exact w.localesEqual_equivalence.symm h

theorem localeName_of_locale? (hl : w.locale? l = some body) : w.localeName l = body.name := by
  rw [localeName, hl]

/-- Just the classic locales have a name of their own. -/
theorem Kept.name_eq_classicName_iff (h : w.Kept hand) (hl : w.locale? l = some body) :
    body.name = classicName ↔ body.classic = true := by
  obtain ⟨o, ho, -, rfl⟩ := Shared.get?_eq_some_iff.1 hl
  rw [(h.made o (List.mem_of_getElem? ho)).name_eq]
  cases o.body.classic <;> decide

theorem Kept.name_of_not_classic (h : w.Kept hand) (hl : w.locale? l = some body)
    (hclassic : body.classic = false) : w.localeName l = unnamed := by
  rw [localeName_of_locale? hl]
  obtain ⟨o, ho, -, rfl⟩ := Shared.get?_eq_some_iff.1 hl
  rw [(h.made o (List.mem_of_getElem? ho)).name_eq, hclassic]
  rfl

theorem Kept.not_classic_of_transparent (h : w.Kept hand) (hl : w.locale? l = some body)
    (htransparent : body.transparent = true) : body.classic = false := by
  obtain ⟨o, ho, -, rfl⟩ := Shared.get?_eq_some_iff.1 hl
  exact ((h.made o (List.mem_of_getElem? ho)).bare htransparent).2

/-- Locale `d` has been derived from another one on the way to where the process is. -/
def WasDerived (settings : Settings) (w : World) (hand : Multiset Holding) (d : LocaleId) : Prop :=
  ∃ (es es' : List Event) (w₀ : World) (hand₀ : Multiset Holding) (l : LocaleId)
    (kind : FacetKind) (f : FacetId),
    Run (fresh settings) 0 es w₀ (.facet f ::ₘ hand₀) ∧ .locale l ∈ hand₀ ∧
      Run (w₀.withFacet l kind f).1 (.locale (w₀.withFacet l kind f).2 ::ₘ hand₀) es' w hand ∧
      d = (w₀.withFacet l kind f).2

theorem WasDerived.not_classic (h : WasDerived settings w hand d) (hd : w.locale? d = some body) :
    body.classic = false := by
  obtain ⟨es, es', w₀, hand₀, l, kind, f, hrun, hl, hlater, rfl⟩ := h
  have hk := hrun.kept
  obtain ⟨base, hbase, -⟩ := hk.exists_body (Multiset.mem_cons_of_mem hl)
  obtain ⟨hderived, -⟩ := withFacet_eq hbase kind f
  have hages := (hlater.keeps (hk.withFacet hl kind).kept).ages
  have hafter := Shared.Ages.get? hages.locales hderived (Shared.refs_pos_of_get? hd)
  obtain rfl := Option.some.inj (hafter.symm.trans hd)
  rfl

/-- What is known of the equality of locales where a process has got. -/
structure EqualitySound (settings : Settings) (w : World) (hand : Multiset Holding) : Prop where
  equivalence : Equivalence fun a b => w.localesEqual a b = true
  /-- Equal locales agree in all that can be seen of them. -/
  agree : ∀ a b x y, w.locale? a = some x → w.locale? b = some y → w.localesEqual a b = true →
    w.Agree a b x y
  named : ∀ a x, w.locale? a = some x → (x.name = "C" ↔ x.classic = true)
  /-- A transparent locale is equal to no other, nor is one that was derived. -/
  transparent : ∀ a, w.isTransparent a = true → ∀ b ≠ a,
    w.localesEqual a b = false ∧ w.localesEqual b a = false
  derived : ∀ a, (w.locale? a).isSome → WasDerived settings w hand a → ∀ b ≠ a,
    w.localesEqual a b = false ∧ w.localesEqual b a = false

/-- Wherever a process gets, equal locales cannot be told apart. -/
theorem Run.equality_sound (hrun : Run (fresh settings) 0 es w hand) :
    EqualitySound settings w hand := by
  have hk := hrun.kept
  refine ⟨w.localesEqual_equivalence, ?_, fun a x => hk.name_eq_classicName_iff, ?_, ?_⟩
  · intro a b x y ha hb heq
    rcases localesEqual_iff.1 heq with rfl | ⟨hnamed, hname⟩
    · obtain rfl := Option.some.inj (ha.symm.trans hb)
      exact ⟨rfl, rfl, rfl, rfl, rfl, fun _ => rfl, fun _ => rfl⟩
    · have hclassic : ∀ {l body}, w.locale? l = some body → w.localeName l ≠ unnamed →
          body.classic = true ∧ body.transparent = false := by
        intro l body hl hnamed
        have hc : body.classic = true :=
          Bool.eq_true_of_not_eq_false (mt (hk.name_of_not_classic hl) hnamed)
        refine ⟨hc, Bool.eq_false_iff.2 fun ht => ?_⟩
        rw [hk.not_classic_of_transparent hl ht] at hc
        cases hc
      obtain ⟨hxc, hxt⟩ := hclassic ha hnamed
      obtain ⟨hyc, hyt⟩ := hclassic hb (hname ▸ hnamed)
      have hx := hrun.standard (Shared.body?_of_get? ha) hxc
      have hy := hrun.standard (Shared.body?_of_get? hb) hyc
      rw [localeName_of_locale? ha, localeName_of_locale? hb] at hname
      exact hx.agree hy hk ha hb hname (hxc.trans hyc.symm) (hxt.trans hyt.symm)
  · intro a htransparent b hne
    obtain ⟨x, hx, htrue⟩ := (Option.any_eq_true _ _).1 htransparent
    have hclassic := hk.not_classic_of_transparent hx htrue
    exact localesEqual_of_unnamed (hk.name_of_not_classic hx hclassic) hne
  · intro a hlive hderived b hne
    obtain ⟨x, hx⟩ := Option.isSome_iff_exists.1 hlive
    exact localesEqual_of_unnamed (hk.name_of_not_classic hx (hderived.not_classic hx)) hne

/-- The classic locales before and after a teardown are equal, and what was derived from the one
is not equal to it. -/
theorem Run.equality_sound_of_classics : ∃ (w : World) (hand : Multiset Holding),
    EqualitySound {} w hand ∧ w.localesEqual 0 2 = true ∧ (w.locale? 0).isSome ∧
      (w.locale? 2).isSome ∧ WasDerived {} w hand 1 ∧ w.localesEqual 0 1 = false := by
  have hrun : Run (fresh {}) 0 [.registered 0 (.ok 0), .classic 0 0, .elsewhere] _ _ :=
    .cons (.registered 0 0 Nat.one_pos) <| .cons (.classic rfl) <|
    .cons (.madeFacet (.probe .probe0 "a")) .nil
  have hmem : Holding.locale 0 ∈ (.locale 0 ::ₘ 0 : Multiset Holding) := Multiset.mem_cons_self _ _
  have hlater {w : World} {es : List Event}
      (_ : Run (fresh {}) 0 es w (.facet 3 ::ₘ .locale 0 ::ₘ 0))
      (hr : (World.registry? (w.withFacet 0 .probe0 3).1 0).isSome)
      (hr' : (World.registry? (World.teardown (w.withFacet 0 .probe0 3).1 0).1 0).isSome) :
      Run (w.withFacet 0 .probe0 3).1 (.locale (w.withFacet 0 .probe0 3).2 ::ₘ .locale 0 ::ₘ 0)
        [.toreDown 0 _, .classic 0 _] _ _ :=
    .cons (.toreDown hr) <| .cons (.classic hr') .nil
  have hafter := hlater hrun rfl rfl
  have hequality := (hrun.append (.cons (.derived .probe0 hmem) hafter)).equality_sound
  exact ⟨_, _, hequality, rfl, rfl, rfl, ⟨_, _, _, _, 0, .probe0, 3, hrun, hmem, hafter, rfl⟩, rfl⟩

end Hosted.World
