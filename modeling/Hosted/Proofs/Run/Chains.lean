import Hosted.Proofs.Run.Derived
import Hosted.Proofs.Run.Release

/-!
# Chains of derived locales

A locale may be derived from one that was derived itself, and so on. Every derivation writes one
facet at the index of a kind. What the last locale has at an index is what was written there last
in the chain, or else what the first locale has, so it is a map from indices to facets in which
the last write wins. It does not matter in which order the indices come, nor that several kinds
have one index.

Anything may go on between two derivations. Locales and facets do not change while they are held,
and kinds keep their indices.
-/

namespace Hosted

/-- As many facets as a locale has, so many indices have one. -/
theorem Locale.encard_facetAt? (l : Locale) :
    {i | (l.facetAt? i).isSome}.encard = l.facetCount := by
  have hrow : l.facets = (List.range l.facets.length).map l.facetAt? := by
    refine List.ext_getElem (by simp) fun i hi _ => ?_
    simp [facetAt?, List.getElem?_eq_getElem hi]
  have hcount : l.facetCount =
      ((List.range l.facets.length).filter fun i => (l.facetAt? i).isSome).length := by
    rw [facetCount, List.length_filterMap_eq_countP, ← List.countP_eq_length_filter]
    conv_lhs => rw [hrow]
    rw [List.countP_map]
    rfl
  rw [hcount]
  refine encard_eq_length (List.nodup_range.filter _) fun i => ?_
  rw [List.mem_filter, List.mem_range]
  refine ⟨fun hi => ⟨?_, hi⟩, fun hi => hi.2⟩
  by_contra hge
  have hnone : l.facetAt? i = none := by
    rw [facetAt?, List.getElem?_eq_none (Nat.not_lt.1 hge)]
    rfl
  simp [hnone] at hi

namespace World

variable {w w' w₁ : World} {hand hand' : Multiset Holding} {es : List Event} {l d : LocaleId}
  {kind : FacetKind} {f : FacetId} {base body : Locale} {i : Nat}
  {writes : List (FacetKind × FacetId)} {earlier : List (World × LocaleId)} {settings : Settings}

/-! ## The last write -/

/-- What was written last at an index, or else what the first locale has there. -/
def lastStored (w : World) (base : Locale) (writes : List (FacetKind × FacetId)) (i : Nat) :
    Option FacetId :=
  ((writes.filter fun p => (w.indexOf p.1).2 = i).getLast?.map (·.2)).or (base.facetAt? i)

theorem lastStored_concat (w : World) (base : Locale) (writes : List (FacetKind × FacetId))
    (kind : FacetKind) (f : FacetId) (i : Nat) :
    w.lastStored base (writes ++ [(kind, f)]) i =
      if i = (w.indexOf kind).2 then some f else w.lastStored base writes i := by
  unfold lastStored
  rw [List.filter_append]
  by_cases hi : i = (w.indexOf kind).2
  · subst hi
    simp
  · have hne : ¬(w.indexOf kind).2 = i := fun h => hi h.symm
    simp [hi, hne]

/-- Only the indices of the kinds that were written matter. -/
theorem lastStored_congr
    (h : ∀ p ∈ writes, (w'.indexOf p.1).2 = (w.indexOf p.1).2) (base : Locale) (i : Nat) :
    w'.lastStored base writes i = w.lastStored base writes i := by
  unfold lastStored
  rw [List.filter_congr fun p hp => by rw [h p hp]]

theorem lastStored_isSome_iff : (w.lastStored base writes i).isSome ↔
    (base.facetAt? i).isSome ∨ ∃ p ∈ writes, (w.indexOf p.1).2 = i := by
  unfold lastStored
  rw [Option.isSome_or, Bool.or_eq_true, Option.isSome_map, List.getLast?_isSome, or_comm]
  simp [List.filter_eq_nil_iff]

theorem lastStored_of_unwritten (h : ∀ p ∈ writes, (w.indexOf p.1).2 ≠ i) :
    w.lastStored base writes i = base.facetAt? i := by
  unfold lastStored
  rw [List.filter_eq_nil_iff.2 (by simpa using h)]
  rfl

theorem indexOf_snd_of_find? (h : w.indices.find? (.kind kind.indexOwner) = some i) :
    (w.indexOf kind).2 = i := by
  unfold indexOf
  rw [FacetIndices.assign_of_some h]

/-! ## Chains -/

/-- A chain of derivations that begins with locale `l` and ends with locale `d`. It lists what was
written, and the moments before each derivation with the locale that was derived from. -/
inductive Chain (w : World) (hand : Multiset Holding) (l : LocaleId) :
    List (FacetKind × FacetId) → List (World × LocaleId) → World → Multiset Holding → LocaleId →
      Prop
  | base : Chain w hand l [] [] w hand l
  | later {writes earlier w₁ hand₁ d es w' hand'} : Chain w hand l writes earlier w₁ hand₁ d →
      Run w₁ hand₁ es w' hand' → Chain w hand l writes earlier w' hand' d
  | derived {writes earlier w₁ hand₁ d f} (kind) :
      Chain w hand l writes earlier w₁ (.facet f ::ₘ hand₁) d → .locale d ∈ hand₁ →
      Chain w hand l (writes ++ [(kind, f)]) (earlier ++ [(w₁, d)]) (w₁.withFacet d kind f).1
        (.locale (w₁.withFacet d kind f).2 ::ₘ hand₁) (w₁.withFacet d kind f).2

theorem Chain.keeps (hchain : Chain w hand l writes earlier w' hand' d) (h : w.Kept hand) :
    w.Keeps w' hand' := by
  induction hchain with
  | base => exact h.refl
  | later _ hrun ih => exact ih.trans (hrun.keeps ih.kept)
  | derived kind _ hd ih => exact ih.trans (ih.kept.withFacet hd kind)

/-- Locale `body` is `base` after some writes, all at indices that have been given out. -/
structure Written (w : World) (base : Locale) (writes : List (FacetKind × FacetId))
    (body : Locale) : Prop where
  assigned : ∀ p ∈ writes, ∃ i, w.indices.find? (.kind p.1.indexOwner) = some i
  facetAt? : ∀ i, body.facetAt? i = w.lastStored base writes i
  categories : body.categories = base.categories
  derived : writes ≠ [] → body.name = unnamed ∧ body.classic = false

theorem written_nil (w : World) (base : Locale) : w.Written base [] base where
  assigned _ hp := absurd hp List.not_mem_nil
  facetAt? _ := rfl
  categories := rfl
  derived h := absurd rfl h

/-- Kinds keep their indices. -/
theorem Written.mono (h : w.Written base writes body)
    (hindices : ∀ {kind i}, w.indices.find? (.kind kind) = some i →
      w'.indices.find? (.kind kind) = some i) : w'.Written base writes body where
  assigned p hp := by
    obtain ⟨i, hi⟩ := h.assigned p hp
    exact ⟨i, hindices hi⟩
  facetAt? i := by
    rw [h.facetAt?, lastStored_congr]
    intro p hp
    obtain ⟨j, hj⟩ := h.assigned p hp
    rw [indexOf_snd_of_find? hj, indexOf_snd_of_find? (hindices hj)]
  categories := h.categories
  derived := h.derived

/-- One more write. -/
theorem Written.withFacet (h : w.Written base writes body) (hd : w.locale? d = some body)
    (kind : FacetKind) (f : FacetId) :
    ∃ body', World.locale? (w.withFacet d kind f).1 (w.withFacet d kind f).2 = some body' ∧
      (w.withFacet d kind f).1.Written base (writes ++ [(kind, f)]) body' := by
  obtain ⟨hbody, hindices⟩ := withFacet_eq hd kind f
  have hself : (w.withFacet d kind f).1.indices.find? (.kind kind.indexOwner) =
      some (w.indexOf kind).2 := by
    rw [hindices]
    exact FacetIndices.find?_assign_self _ _
  have hlater : (w.withFacet d kind f).1.Written base writes body := by
    refine h.mono fun hi => ?_
    rw [hindices]
    exact FacetIndices.find?_assign hi
  refine ⟨_, hbody, ?_, fun i => ?_, h.categories, fun _ => ⟨rfl, rfl⟩⟩
  · intro p hp
    rcases List.mem_append.1 hp with hold | hnew
    · exact hlater.assigned p hold
    · rw [List.mem_singleton] at hnew
      subst hnew
      exact ⟨_, hself⟩
  · rw [lastStored_concat, indexOf_snd_of_find? hself, ← hlater.facetAt?]
    exact Locale.getElem?_place body.facets _ f i

/-- Along a chain the last locale is the first one after all writes. -/
theorem Chain.written (hchain : Chain w hand l writes earlier w' hand' d) (h : w.Kept hand)
    (hl : w.locale? l = some base) :
    ∃ o, w'.locales.objects[d]? = some o ∧ w'.Written base writes o.body := by
  induction hchain with
  | base =>
      obtain ⟨o, ho, -, rfl⟩ := Shared.get?_eq_some_iff.1 hl
      exact ⟨o, ho, w.written_nil o.body⟩
  | later hchain hrun ih =>
      obtain ⟨o, ho, hwritten⟩ := ih
      have hages := (hrun.keeps (hchain.keeps h).kept).ages
      obtain ⟨o', ho', hbody, -⟩ := hages.locales ho
      exact ⟨o', ho', hbody ▸ hwritten.mono hages.indices⟩
  | derived kind hchain hd ih =>
      obtain ⟨o, ho, hwritten⟩ := ih
      have hpos := (hchain.keeps h).kept.refs_pos_of_mem (Multiset.mem_cons_of_mem hd)
      obtain ⟨o', ho', -, hget⟩ := Shared.exists_of_refs_pos hpos
      obtain rfl : o = o' := Option.some.inj (ho.symm.trans ho')
      obtain ⟨body, hbody, hnext⟩ := hwritten.withFacet hget kind _
      obtain ⟨o'', ho'', -, rfl⟩ := Shared.get?_eq_some_iff.1 hbody
      exact ⟨o'', ho'', hnext⟩

/-- What is derived from is there, and a run leads from there to the end. -/
theorem Chain.ages_of_mem (hchain : Chain w hand l writes earlier w' hand' d) (h : w.Kept hand)
    {v : World} {e : LocaleId} (he : (v, e) ∈ earlier) :
    (∃ hand₁, v.Kept hand₁ ∧ .locale e ∈ hand₁) ∧ v.Ages w' := by
  induction hchain with
  | base => exact absurd he List.not_mem_nil
  | later hchain hrun ih =>
      obtain ⟨hheld, hages⟩ := ih he
      exact ⟨hheld, hages.trans (hrun.keeps (hchain.keeps h).kept).ages⟩
  | derived kind hchain hd ih =>
      have hkept := (hchain.keeps h).kept
      have hages := (hkept.withFacet hd kind).ages
      rcases List.mem_append.1 he with hold | hnew
      · obtain ⟨hheld, hages'⟩ := ih hold
        exact ⟨hheld, hages'.trans hages⟩
      · rw [List.mem_singleton] at hnew
        obtain ⟨rfl, rfl⟩ := Prod.mk.inj hnew
        exact ⟨⟨_, hkept, Multiset.mem_cons_of_mem hd⟩, hages⟩

/-! ## The last write wins -/

/-- What is known of locale `d`, whose body is `body`, at the end of a chain that began with a
locale with body `base`. -/
structure LastWriteWins (w : World) (base : Locale) (writes : List (FacetKind × FacetId))
    (earlier : List (World × LocaleId)) (d : LocaleId) (body : Locale) : Prop where
  /-- A facet of a kind is found just if the last write at its index was one of the kind. -/
  facet : ∀ kind f, (w.ownFacet d kind).2 = some f ↔
    w.lastStored base writes (w.indexOf kind).2 = some f ∧
      (w.facets.get? f).any (·.kind = kind)
  /-- Something stands at an index just if something was ever put there. -/
  holds : ∀ kind, (w.holdsIndex d kind).2 = true ↔
    (base.facetAt? (w.indexOf kind).2).isSome ∨
      ∃ p ∈ writes, (w.indexOf p.1).2 = (w.indexOf kind).2
  count : (body.facetCount : ℕ∞) =
    {i | (base.facetAt? i).isSome ∨ ∃ p ∈ writes, (w.indexOf p.1).2 = i}.encard
  /-- At indices that were not written it has what the first locale has. -/
  unwritten : ∀ i, (∀ p ∈ writes, (w.indexOf p.1).2 ≠ i) → body.facetAt? i = base.facetAt? i
  name : body.name = unnamed
  classic : body.classic = false
  categories : body.categories = base.categories
  /-- As long as they are referred to, earlier locales and their facets are what they were. -/
  unchanged : ∀ v e, (v, e) ∈ earlier → ∃ before, v.locale? e = some before ∧
    (0 < w.refsOf (.locale e) → w.locale? e = some before ∧
      ∀ f, some f ∈ before.facets → ∃ facet, v.facets.get? f = some facet ∧
        w.facets.get? f = some facet)

theorem Kept.get?_of_carried (h : w.Kept hand) (hl : w.locale? l = some body)
    (hf : some f ∈ body.facets) : ∃ facet, w.facets.get? f = some facet := by
  have hheld : Holding.facet f ∈ w.held := by
    refine mem_held_of_locale hl (List.mem_map_of_mem ?_)
    exact List.mem_filterMap.2 ⟨some f, hf, rfl⟩
  obtain ⟨o, -, -, hget⟩ := Shared.exists_of_refs_pos (h.refs_pos_of_held hheld)
  exact ⟨o.body, hget⟩

/-- Wherever a process derives locales from one another, the last write wins. -/
theorem Run.last_write_wins (hrun : Run (fresh settings) 0 es w hand) (hl : .locale l ∈ hand)
    (hchain : Chain w hand l writes earlier w' hand' d) (hne : writes ≠ [])
    (hd : .locale d ∈ hand') :
    ∃ base body, w.locale? l = some base ∧ w'.locale? d = some body ∧
      w'.LastWriteWins base writes earlier d body := by
  have hk := hrun.kept
  have hk' := (hchain.keeps hk).kept
  obtain ⟨base, hbase, -⟩ := hk.exists_body hl
  obtain ⟨o, ho, hwritten⟩ := hchain.written hk hbase
  obtain ⟨o', ho', -, hbody⟩ := Shared.exists_of_refs_pos (hk'.refs_pos_of_mem hd)
  obtain rfl : o = o' := Option.some.inj (ho.symm.trans ho')
  refine ⟨base, o.body, hbase, hbody, ?_, ?_, ?_, ?_, ?_, ?_, ?_, ?_⟩
  · intro kind f
    rw [ownFacet_snd, World.locale?, hbody, Option.bind_some, hwritten.facetAt?,
      Option.filter_eq_some_iff]
  · intro kind
    rw [← lastStored_isSome_iff, ← hwritten.facetAt?]
    change ((w'.locale? d).bind (·.facetAt? (w'.indexOf kind).2)).isSome = true ↔ _
    rw [World.locale?, hbody, Option.bind_some]
  · rw [← o.body.encard_facetAt?]
    congr 1
    ext i
    rw [Set.mem_ofPred_eq, Set.mem_ofPred_eq, hwritten.facetAt?, lastStored_isSome_iff]
  · intro i hi
    rw [hwritten.facetAt?, lastStored_of_unwritten hi]
  · exact (hwritten.derived hne).1
  · exact (hwritten.derived hne).2
  · exact hwritten.categories
  · intro v e he
    obtain ⟨⟨hand₁, hkv, hev⟩, hages⟩ := hchain.ages_of_mem hk he
    obtain ⟨before, hbefore, -⟩ := hkv.exists_body hev
    refine ⟨before, hbefore, fun hpos => ?_⟩
    have hafter := Shared.Ages.get? hages.locales hbefore hpos
    refine ⟨hafter, fun f hf => ?_⟩
    obtain ⟨facet, hfacet⟩ := hkv.get?_of_carried hbefore hf
    obtain ⟨facet', hfacet'⟩ := hk'.get?_of_carried hafter hf
    have hpos' := Shared.refs_pos_of_get? hfacet'
    exact ⟨facet, hfacet, Shared.Ages.get? hages.facets hfacet hpos'⟩

/-- Two facets of kinds that have one index are put one after the other into a copy of the classic
locale. -/
theorem Run.last_write_wins_of_one_index : ∃ (w : World) (earlier : List (World × LocaleId))
    (base body : Locale), w.LastWriteWins base [(.alias0, 3), (.probe0, 4)] earlier 2 body ∧
      body.facetCount = 4 ∧ (w.holdsIndex 2 .alias0).2 = true ∧
      (w.ownFacet 2 .alias0).2 = none ∧ (w.ownFacet 2 .probe0).2 = some 4 := by
  have hrun : Run (fresh {}) 0 [.registered 0 (.ok 0), .classic 0 0] _ _ :=
    .cons (.registered 0 0 Nat.one_pos) <| .cons (.classic rfl) .nil
  have hfirst : Chain (((fresh {}).addRegistry 0 0).1.classicLocale 0).1 (.locale 0 ::ₘ 0) 0
      [(.alias0, 3)] _ _ _ _ :=
    (Chain.base.later (.cons (.madeFacet (.probe .alias0 "a")) .nil)).derived .alias0
      (Multiset.mem_cons_self _ _)
  have hsecond := (hfirst.later (.cons (.madeFacet (.probe .probe0 "b")) .nil)).derived
    .probe0 (Multiset.mem_cons_self _ _)
  obtain ⟨base, body, -, hbody, hlast⟩ := hrun.last_write_wins (Multiset.mem_cons_self _ _) hsecond
    (List.cons_ne_nil _ _) (Multiset.mem_cons_self _ _)
  obtain rfl := Option.some.inj hbody
  exact ⟨_, _, base, _, hlast, rfl, rfl, rfl, rfl⟩

end World

end Hosted
