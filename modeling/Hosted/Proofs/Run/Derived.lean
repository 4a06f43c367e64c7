import Hosted.Proofs.Facet.Indices
import Hosted.Proofs.Run.Fronts

/-!
# Facets of derived locales

A derived locale has the row of facets of the locale it was derived from, with one facet put
in its place, and it is not transparent, whatever the other one was. So the two agree on all
other facets of the row. A transparent locale has no facets in its row: it finds those of the
global locale, and what is derived from it does not find them.
-/

namespace Hosted.World

variable {w w' : World} {hand hand' : Multiset Holding} {es es' : List Event} {r : RegistryId}
  {l d : LocaleId} {kind kind' : FacetKind} {f : FacetId} {base body : Locale} {i : Nat}
  {settings : Settings}

/-! ## What a locale answers with -/

theorem ownFacet_snd (w : World) (l : LocaleId) (kind : FacetKind) :
    (w.ownFacet l kind).2 =
      ((w.locale? l).bind (·.facetAt? (w.indexOf kind).2)).filter fun f =>
        (w.facets.get? f).any (·.kind = kind) := rfl

theorem findFacet_of_own (hown : (w.ownFacet l kind).2 = some f) :
    (w.findFacet r l kind).2 = some f := by
  unfold findFacet
  generalize w.ownFacet l kind = own at hown ⊢
  obtain ⟨w₁, found⟩ := own
  simp only at hown
  subst hown
  rfl

theorem findFacet_of_solid (hsolid : w.isTransparent l = false) (r : RegistryId)
    (kind : FacetKind) : (w.findFacet r l kind).2 = (w.ownFacet l kind).2 := by
  cases hown : (w.ownFacet l kind).2 with
  | some f => exact findFacet_of_own hown
  | none =>
      have hsolid' : ((w.ownFacet l kind).1.locale? l).any (·.transparent) = false := hsolid
      unfold findFacet
      generalize w.ownFacet l kind = own at hown hsolid' ⊢
      obtain ⟨w₁, found⟩ := own
      simp only at hown hsolid'
      subst hown
      simp only
      rw [if_neg (by rw [hsolid']; exact Bool.false_ne_true)]

/-- The facet of a kind that the global locale has. -/
def globalFacet? (w : World) (r : RegistryId) (kind : FacetKind) : Option FacetId :=
  let (w, l) := (w.indexOf kind).1.globalLocale r
  (w.ownFacet l kind).2

theorem findFacet_of_transparent (htransparent : w.isTransparent l = true)
    (hown : (w.ownFacet l kind).2 = none) (r : RegistryId) :
    (w.findFacet r l kind).2 = w.globalFacet? r kind := by
  have htransparent' : ((w.ownFacet l kind).1.locale? l).any (·.transparent) = true :=
    htransparent
  have hindex : (w.ownFacet l kind).1 = (w.indexOf kind).1 := rfl
  unfold findFacet globalFacet?
  rw [← hindex]
  generalize w.ownFacet l kind = own at hown htransparent' ⊢
  obtain ⟨w₁, found⟩ := own
  simp only at hown htransparent'
  subst hown
  simp only
  rw [if_pos htransparent']

/-! ## Deriving -/

/-- Locale `d` is `base` with something put at the index of a kind. -/
structure IsDerived (w : World) (base : Locale) (kind : FacetKind) (d : Locale) : Prop where
  solid : d.transparent = false
  index : ∃ i, w.indices.find? (.kind kind.indexOwner) = some i ∧
    ∀ j, j ≠ i → d.facetAt? j = base.facetAt? j

theorem locale?_addLocale (w : World) (body : Locale) :
    World.locale? (w.addLocale body).1 (w.addLocale body).2 = some body := by
  change (w.locales.insert body).1.get? (w.locales.insert body).2 = some body
  simp [Shared.insert, Shared.get?]

theorem indices_releaseFacet (w : World) (f : FacetId) :
    (w.releaseFacet f).indices = w.indices := by
  unfold releaseFacet
  simp only
  split <;> rfl

theorem indices_foldl_retainFacet (w : World) (facets : List (Option FacetId)) :
    (facets.foldl (fun w o => o.elim w w.retainFacet) w).indices = w.indices := by
  induction facets generalizing w with
  | nil => rfl
  | cons o facets ih =>
      rw [List.foldl_cons, ih]
      cases o <;> rfl

/-- What the derived locale is, and that its index is the only one given out. -/
theorem withFacet_eq (hl : w.locale? l = some base) (kind : FacetKind) (f : FacetId) :
    World.locale? (w.withFacet l kind f).1 (w.withFacet l kind f).2 =
        some { base with
          name := unnamed, facets := Locale.place base.facets (w.indexOf kind).2 f
          transparent := false, classic := false } ∧
      (w.withFacet l kind f).1.indices = (w.indexOf kind).1.indices := by
  have hretained := w.indices_foldl_retainFacet base.facets
  unfold withFacet
  rw [hl, Option.getD_some]
  simp only
  generalize base.facets.foldl (fun w o => o.elim w w.retainFacet) w = w₁ at hretained ⊢
  have hindex : (w₁.indexOf kind).2 = (w.indexOf kind).2 := by
    unfold indexOf
    rw [hretained]
  have hindices : (w₁.indexOf kind).1.indices = (w.indexOf kind).1.indices := by
    unfold indexOf
    rw [hretained]
  generalize w₁.indexOf kind = indexed at hindex hindices ⊢
  obtain ⟨w₂, index⟩ := indexed
  simp only at hindex hindices ⊢
  subst hindex
  refine ⟨locale?_addLocale _ _, ?_⟩
  have hreleased : ((base.facetAt? (w.indexOf kind).2).elim w₂ w₂.releaseFacet).indices =
      w₂.indices := by
    cases base.facetAt? (w.indexOf kind).2 with
    | none => rfl
    | some f' => exact w₂.indices_releaseFacet f'
  rw [← hindices, ← hreleased]
  rfl

theorem isDerived_withFacet (hl : w.locale? l = some base) (kind : FacetKind) (f : FacetId) :
    ∃ d, World.locale? (w.withFacet l kind f).1 (w.withFacet l kind f).2 = some d ∧
      (w.withFacet l kind f).1.IsDerived base kind d := by
  obtain ⟨hderived, hindices⟩ := withFacet_eq hl kind f
  refine ⟨_, hderived, rfl, (w.indexOf kind).2, ?_, ?_⟩
  · rw [hindices]
    exact FacetIndices.find?_assign_self _ _
  · intro j hj
    exact (Locale.getElem?_place base.facets _ f j).trans (if_neg hj)

/-- Objects do not change while they are held. -/
theorem Keeps.locale?_eq (h : w.Keeps w' hand') (hl : w.locale? l = some body)
    (hheld : .locale l ∈ hand') : w'.locale? l = some body :=
  Shared.Ages.get? h.ages.locales hl (h.kept.refs_pos_of_mem hheld)

theorem IsDerived.later (h : w.IsDerived base kind body) (hages : w.Ages w') :
    w'.IsDerived base kind body where
  solid := h.solid
  index := by
    obtain ⟨i, hi, hrow⟩ := h.index
    exact ⟨i, hages.indices hi, hrow⟩

/-- Of facets at another index a derived locale has those of its base. -/
theorem IsDerived.ownFacet_snd {derived : Locale} (h : w.IsDerived base kind derived)
    (hi : w.indices.Sound) (hl : w.locale? l = some base) {d : LocaleId}
    (hd : w.locale? d = some derived) (hne : kind'.indexOwner ≠ kind.indexOwner) :
    (w.ownFacet d kind').2 = (w.ownFacet l kind').2 := by
  obtain ⟨i, hindex, hrow⟩ := h.index
  have hother : (w.indexOf kind').2 ≠ i := by
    intro heq
    have hself := FacetIndices.find?_assign_self w.indices (.kind kind'.indexOwner)
    have hkept : (w.indices.assign (.kind kind'.indexOwner)).1.find? (.kind kind.indexOwner) =
        some i := FacetIndices.find?_assign hindex
    have hsame := (hi.assign (.kind kind'.indexOwner)).inj hself (hkept.trans (by rw [← heq]; rfl))
    exact hne (Indexed.kind.inj hsame)
  rw [World.ownFacet_snd, World.ownFacet_snd, hd, hl, Option.bind_some, Option.bind_some,
    hrow _ hother]

/-! ## Looking through a derived locale -/

/-- What is known of the facets of another kind that are found through locale `l` and through a
locale `d` that was derived from it. -/
structure Derivation (w : World) (r : RegistryId) (l d : LocaleId) (kind : FacetKind) : Prop where
  /-- The locale that was derived finds what the row of the other one has. -/
  derived : (w.findFacet r d kind).2 = if w.isTransparent l then none else (w.findFacet r l kind).2
  /-- A transparent locale finds what the global locale has. -/
  original : w.isTransparent l = true → (w.findFacet r l kind).2 = w.globalFacet? r kind
  /-- So the two find the same unless the other one is transparent and the global locale has
  the facet. -/
  agree_iff : (w.findFacet r d kind).2 = (w.findFacet r l kind).2 ↔
    (w.isTransparent l = true → w.globalFacet? r kind = none)

/-- Deriving a locale changes the one facet, and it takes those of the global locale away. This
is so from then on, whatever becomes of the global locale. -/
theorem Run.derivation (hrun : Run (fresh settings) 0 es w (.facet f ::ₘ hand))
    (hl : .locale l ∈ hand)
    (hlater : Run (w.withFacet l kind f).1 (.locale (w.withFacet l kind f).2 ::ₘ hand) es' w'
      hand')
    (hl' : .locale l ∈ hand') (hd' : .locale (w.withFacet l kind f).2 ∈ hand')
    (hne : kind'.indexOwner ≠ kind.indexOwner) (r : RegistryId) :
    w'.Derivation r l (w.withFacet l kind f).2 kind' := by
  have hk := hrun.kept
  have hderive : w.Keeps (w.withFacet l kind f).1 _ := hk.withFacet hl kind
  have hkeeps := hlater.keeps hderive.kept
  obtain ⟨base, hbase, -⟩ := hk.exists_body (Multiset.mem_cons_of_mem hl)
  obtain ⟨derived, hderived, hrow⟩ := isDerived_withFacet (f := f) hbase kind
  have hbase' := (hderive.trans hkeeps).locale?_eq hbase hl'
  have hderived' := hkeeps.locale?_eq hderived hd'
  have hown := (hrow.later hkeeps.ages).ownFacet_snd hkeeps.kept.indexed hbase' hderived' hne
  have hsolid : w'.isTransparent (w.withFacet l kind f).2 = false := by
    rw [isTransparent, hderived', Option.any_some, hrow.solid]
  have hfind := (findFacet_of_solid hsolid r kind').trans hown
  cases htransparent : w'.isTransparent l with
  | true =>
      have hnone := hkeeps.kept.bare.ownFacet_eq_none htransparent kind'
      have horiginal := findFacet_of_transparent htransparent hnone r
      refine ⟨?_, fun _ => horiginal, ?_⟩
      · rw [if_pos htransparent, hfind, hnone]
      · rw [hfind, hnone, horiginal]
        simp [htransparent, eq_comm]
  | false =>
      have hsame : (w'.findFacet r (w.withFacet l kind f).2 kind').2 =
          (w'.findFacet r l kind').2 := by
        rw [hfind, findFacet_of_solid htransparent]
      refine ⟨?_, ?_, ?_⟩
      · rw [htransparent]
        exact hsame
      · intro htrue
        rw [htransparent] at htrue
        cases htrue
      · exact iff_of_true hsame fun htrue => absurd htrue (by simp [htransparent])

/-- What is derived from a transparent locale does not find the character class of the classic
locale. -/
theorem Run.derivation_of_transparent : ∃ w, World.Derivation w 0 1 2 .charClass ∧
    (w.findFacet 0 1 .charClass).2 = some 0 ∧ (w.findFacet 0 2 .charClass).2 = none := by
  have hrun : Run (fresh {}) 0 [.registered 0 (.ok 0), .empty 0 1, .elsewhere] _ _ :=
    .cons (.registered 0 0 Nat.one_pos) <| .cons (.empty rfl) <|
    .cons (.madeFacet (.probe .probe0 "a")) .nil
  have hmem : Holding.locale 1 ∈ (.locale 1 ::ₘ 0 : Multiset Holding) := Multiset.mem_cons_self _ _
  have hderive (kind kind' : FacetKind) (hne : kind'.indexOwner ≠ kind.indexOwner) :=
    hrun.derivation hmem (@Run.nil (World.withFacet _ 1 kind _).1 _)
      (Multiset.mem_cons_of_mem hmem) (Multiset.mem_cons_self _ _) hne 0
  have hderivation := hderive .probe0 .charClass (by decide)
  exact ⟨_, hderivation, rfl, rfl⟩

end Hosted.World
