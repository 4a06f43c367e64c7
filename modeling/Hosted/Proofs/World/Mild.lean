import Hosted.Proofs.References.Objects
import Hosted.Proofs.World.Exits
import Hosted.Proofs.World.Notices

/-!
# Mild operations

A transparent locale has no facets of its own, and no operation makes one that has. Most
operations are `Mild` beyond that: they leave the teardowns in the exit tables where they
are, start no table, and report no teardown as refused.
-/

namespace Hosted

/-- A transparent locale has no facets. -/
def Locale.Bare (l : Locale) : Prop := l.transparent = true → l.facets = []

namespace World

/-- The transparent locales have no facets. -/
def Bare (w : World) : Prop := ∀ o ∈ w.locales.objects, o.body.Bare

/-- No teardown is reported as refused on the way from `w` to `w'`. -/
def Hushed (w w' : World) : Prop := w.Gives (·.refusal? = none) w'

structure Mild (w w' : World) : Prop where
  bare : w.Bare → w'.Bare
  ran : ∀ t, (w'.exitTable t).ran = (w.exitTable t).ran
  queued : ∀ t, toTearDown (w'.exitTable t) = toTearDown (w.exitTable t)
  hushed : w.Hushed w'

variable {w w' w'' : World}

namespace Mild

/-- What leaves the exit tables alone. -/
theorem of_exits (hexits : w'.exits = w.exits) (hbare : w.Bare → w'.Bare)
    (hhushed : w.Hushed w') : w.Mild w' where
  bare := hbare
  ran t := by rw [exitTable, hexits, exitTable]
  queued t := by rw [exitTable, hexits, exitTable]
  hushed := hhushed

/-- What leaves the locales alone too, and gives no notice. -/
theorem of_eq (hlocales : w'.locales = w.locales) (hexits : w'.exits = w.exits)
    (hnotices : w'.notices = w.notices) : w.Mild w' :=
  of_exits hexits (fun h => by rwa [Bare, hlocales]) (.of_eq hnotices)

theorem refl (w : World) : w.Mild w := of_eq rfl rfl rfl

theorem trans (h : w.Mild w') (h' : w'.Mild w'') : w.Mild w'' where
  bare hw := h'.bare (h.bare hw)
  ran t := (h'.ran t).trans (h.ran t)
  queued t := (h'.queued t).trans (h.queued t)
  hushed := Gives.trans h.hushed h'.hushed

theorem of_aside (h : w.Aside w') (hhushed : w.Hushed w') : w.Mild w' :=
  of_exits h.unmoved.exits (fun hw => by rwa [Bare, h.locales]) hhushed

/-- A sequence of mild steps is mild. -/
theorem foldl {β : Type} {f : World → β → World} (hf : ∀ w b, Mild w (f w b)) (w : World)
    (bs : List β) : w.Mild (bs.foldl f w) :=
  bs.foldlRecOn f (refl w) fun w' h b _ => h.trans (hf w' b)

end Mild

theorem mild_notify {n : Notice} (hn : n.refusal? = none) (w : World) : w.Mild (w.notify n) :=
  .of_exits rfl id (.notify hn w)

theorem mild_tally (w : World) (which : Counter) : w.Mild (w.tally which) := .of_eq rfl rfl rfl

theorem mild_count (w : World) (which : Counter) (n : Nat) : w.Mild (w.count which n) :=
  .of_eq rfl rfl rfl

theorem mild_raise (w : World) (f : Fault) : w.Mild (w.raise f) :=
  (w.mild_tally .fatalErrors).trans (mild_notify rfl _)

/-! ## Facets -/

theorem mild_releaseFacet (w : World) (f : FacetId) : w.Mild (w.releaseFacet f) := by
  refine .of_exits (w.unmoved_releaseFacet f).exits ?_
    ((w.plain_releaseFacet f).mono fun _ hn => hn.refusal?)
  unfold releaseFacet
  simp only
  split
  · exact id
  · exact id

theorem mild_releaseFacets (w : World) (fs : List FacetId) : w.Mild (w.releaseFacets fs) :=
  Mild.foldl mild_releaseFacet w fs

theorem mild_retainOwn (w : World) (found : Option FacetId) :
    w.Mild (found.elim w w.retainFacet) := by
  cases found with
  | none => exact .refl w
  | some f => exact .of_eq rfl rfl rfl

/-! ## Locales -/

theorem mild_retainLocale (w : World) (l : LocaleId) : w.Mild (w.retainLocale l) := by
  refine .of_exits rfl ?_ (.of_eq rfl)
  intro hw o ho
  obtain ⟨o₀, ho₀, hbody⟩ := Shared.body_of_mem_retain ho
  rw [← hbody]
  exact hw o₀ ho₀

theorem mild_releaseLocale (w : World) (l : LocaleId) : w.Mild (w.releaseLocale l) := by
  have hlocales : w.Bare → ({ w with locales := (w.locales.release l).1 } : World).Bare := by
    intro hw o ho
    obtain ⟨o₀, ho₀, hbody⟩ := Shared.body_of_mem_release ho
    rw [← hbody]
    exact hw o₀ ho₀
  refine .of_exits (w.unmoved_releaseLocale l).exits ?_
    ((w.plain_releaseLocale l).mono fun _ hn => hn.refusal?)
  unfold releaseLocale
  simp only
  split
  · exact fun hw => (mild_releaseFacets _ _).bare (hlocales hw)
  · exact hlocales

theorem mild_addLocale {body : Locale} (hbody : body.Bare) (w : World) :
    w.Mild (w.addLocale body).1 := by
  refine Mild.trans (w.mild_tally .localesConstructed)
    (Mild.trans (mild_notify rfl _) (.of_exits rfl ?_ (.of_eq rfl)))
  intro hw o ho
  rcases List.mem_append.1 ho with ho | ho
  · exact hw o ho
  · rw [List.mem_singleton.1 ho]
    exact hbody

theorem mild_addTransparent (w : World) : w.Mild w.addTransparent.1 :=
  mild_addLocale (fun _ => rfl) w

theorem mild_placeNew (w : World) (facets : List (Option FacetId)) (f : Facet) :
    w.Mild (w.placeNew facets f).1 := .of_eq rfl rfl rfl

theorem mild_addClassic (w : World) : w.Mild w.addClassic.1 := by
  let p₁ := w.placeNew [] .charClass
  let p₂ := p₁.1.placeNew p₁.2 (.numPunct .classic)
  have h₁ : w.Mild p₁.1 := w.mild_placeNew [] .charClass
  have h₂ : p₁.1.Mild p₂.1 := mild_placeNew _ p₁.2 _
  have h₃ : p₂.1.Mild (p₂.1.placeNew p₂.2 .collation).1 := mild_placeNew _ p₂.2 _
  exact ((h₁.trans h₂).trans h₃).trans
    (mild_addLocale (fun h => absurd h Bool.false_ne_true) _)

theorem mild_withFacet (w : World) (l : LocaleId) (kind : FacetKind) (f : FacetId) :
    w.Mild (w.withFacet l kind f).1 := by
  have hrelease : ∀ (w : World) (o : Option FacetId), w.Mild (o.elim w w.releaseFacet) := by
    intro w o
    cases o with
    | none => exact .refl w
    | some f => exact w.mild_releaseFacet f
  have hindex : ∀ w : World, w.Mild (w.indexOf kind).1 := fun _ => .of_eq rfl rfl rfl
  unfold withFacet
  exact (((Mild.foldl mild_retainOwn w _).trans (hindex _)).trans (hrelease _ _)).trans
    (mild_addLocale (fun h => absurd h Bool.false_ne_true) _)

/-! ## Values of thread locals -/

theorem mild_discard (w : World) (v : Payload) : w.Mild (w.discard v) := by
  cases v with
  | tracked tag => exact mild_notify rfl w
  | setting l =>
      cases l with
      | none => exact .refl w
      | some l => exact w.mild_releaseLocale l

end World

end Hosted
