import Hosted.World.Registries

/-!
# What operations on locales and facets leave alone

Counting, reporting, and taking or giving up references to facets and locales change
neither the thread locals nor the registries nor the exit tables. `Unmoved` collects
what stays, so that each of these operations has one lemma.
-/

namespace Hosted.World

/-- `w'` differs from `w` in its facets and locales, in the indices given out, in what
was counted and in what was noticed only. -/
structure Unmoved (w w' : World) : Prop where
  settings : w'.settings = w.settings
  locals : w'.locals = w.locals
  exits : w'.exits = w.exits
  registries : w'.registries = w.registries
  processRegistry : w'.processRegistry = w.processRegistry
  started : w'.started = w.started

namespace Unmoved

theorem refl (w : World) : Unmoved w w := ⟨rfl, rfl, rfl, rfl, rfl, rfl⟩

theorem trans {w₁ w₂ w₃ : World} (h : Unmoved w₁ w₂) (h' : Unmoved w₂ w₃) :
    Unmoved w₁ w₃ where
  settings := h'.settings.trans h.settings
  locals := h'.locals.trans h.locals
  exits := h'.exits.trans h.exits
  registries := h'.registries.trans h.registries
  processRegistry := h'.processRegistry.trans h.processRegistry
  started := h'.started.trans h.started

theorem symm {w w' : World} (h : Unmoved w w') : Unmoved w' w where
  settings := h.settings.symm
  locals := h.locals.symm
  exits := h.exits.symm
  registries := h.registries.symm
  processRegistry := h.processRegistry.symm
  started := h.started.symm

/-- What each step leaves alone, a sequence of steps leaves alone. -/
theorem foldl {β : Type} {f : World → β → World} (hf : ∀ w b, Unmoved w (f w b))
    (w : World) (bs : List β) : Unmoved w (bs.foldl f w) :=
  bs.foldlRecOn f (refl w) fun w' h b _ => h.trans (hf w' b)

theorem exitTable {w w' : World} (h : Unmoved w w') (t : TableId) :
    w'.exitTable t = w.exitTable t := by
  simp [World.exitTable, h.exits]

theorem registry? {w w' : World} (h : Unmoved w w') (r : RegistryId) :
    w'.registry? r = w.registry? r := by
  simp [World.registry?, h.registries]

/-- What is alike stays alike when it is changed in the same way. -/
theorem modifyRegistry {w w' : World} (h : Unmoved w w') (r : RegistryId)
    (f : Registry → Registry) : Unmoved (w.modifyRegistry r f) (w'.modifyRegistry r f) :=
  { h with registries := congrArg (List.modify · r f) h.registries }

end Unmoved

/-! ## Counting and reporting -/

theorem unmoved_notify (w : World) (n : Notice) : Unmoved w (w.notify n) :=
  ⟨rfl, rfl, rfl, rfl, rfl, rfl⟩

theorem unmoved_log (w : World) (o : Occurrence) : Unmoved w (w.log o) :=
  ⟨rfl, rfl, rfl, rfl, rfl, rfl⟩

theorem unmoved_count (w : World) (which : Counter) (n : Nat) : Unmoved w (w.count which n) :=
  ⟨rfl, rfl, rfl, rfl, rfl, rfl⟩

theorem unmoved_tally (w : World) (which : Counter) : Unmoved w (w.tally which) :=
  ⟨rfl, rfl, rfl, rfl, rfl, rfl⟩

theorem unmoved_raise (w : World) (f : Fault) : Unmoved w (w.raise f) :=
  (w.unmoved_tally .fatalErrors).trans (unmoved_log _ _)

theorem unmoved_indexOf (w : World) (kind : FacetKind) : Unmoved w (w.indexOf kind).1 :=
  ⟨rfl, rfl, rfl, rfl, rfl, rfl⟩

/-! ## Facets -/

theorem unmoved_addFacet (w : World) (f : Facet) : Unmoved w (w.addFacet f).1 :=
  ⟨rfl, rfl, rfl, rfl, rfl, rfl⟩

theorem unmoved_retainFacet (w : World) (f : FacetId) : Unmoved w (w.retainFacet f) :=
  ⟨rfl, rfl, rfl, rfl, rfl, rfl⟩

theorem unmoved_releaseFacet (w : World) (f : FacetId) : Unmoved w (w.releaseFacet f) := by
  unfold releaseFacet
  simp only
  split
  · exact ⟨rfl, rfl, rfl, rfl, rfl, rfl⟩
  · exact ⟨rfl, rfl, rfl, rfl, rfl, rfl⟩

theorem unmoved_releaseFacets (w : World) (fs : List FacetId) :
    Unmoved w (w.releaseFacets fs) :=
  Unmoved.foldl unmoved_releaseFacet w fs

theorem unmoved_releaseEntries (w : World) (entries : List FacetId) :
    Unmoved w (w.releaseEntries entries) :=
  ((w.unmoved_releaseFacets entries.reverse).trans (unmoved_count _ _ _)).trans (unmoved_log _ _)

/-! ## Locales -/

/-- A locale is transparent. -/
def isTransparent (w : World) (l : LocaleId) : Bool := (w.locale? l).any (·.transparent)

theorem unmoved_addLocale (w : World) (locale : Locale) : Unmoved w (w.addLocale locale).1 :=
  ⟨rfl, rfl, rfl, rfl, rfl, rfl⟩

theorem unmoved_retainLocale (w : World) (l : LocaleId) : Unmoved w (w.retainLocale l) :=
  ⟨rfl, rfl, rfl, rfl, rfl, rfl⟩

theorem unmoved_releaseLocale (w : World) (l : LocaleId) : Unmoved w (w.releaseLocale l) := by
  unfold releaseLocale
  simp only
  split
  · refine Unmoved.trans ?_ (unmoved_releaseFacets _ _)
    exact ⟨rfl, rfl, rfl, rfl, rfl, rfl⟩
  · exact ⟨rfl, rfl, rfl, rfl, rfl, rfl⟩

theorem unmoved_releaseLocales (w : World) (ls : List LocaleId) :
    Unmoved w (w.releaseLocales ls) :=
  Unmoved.foldl unmoved_releaseLocale w ls

theorem unmoved_placeNew (w : World) (facets : List (Option FacetId)) (f : Facet) :
    Unmoved w (w.placeNew facets f).1 :=
  (w.unmoved_indexOf f.kind).trans (unmoved_addFacet _ f)

theorem unmoved_addClassic (w : World) : Unmoved w w.addClassic.1 := by
  let p₁ := w.placeNew [] .charClass
  let p₂ := p₁.1.placeNew p₁.2 (.numPunct .classic)
  have h₁ : Unmoved w p₁.1 := w.unmoved_placeNew [] .charClass
  have h₂ : Unmoved p₁.1 p₂.1 := unmoved_placeNew _ p₁.2 _
  have h₃ : Unmoved p₂.1 (p₂.1.placeNew p₂.2 .collation).1 := unmoved_placeNew _ p₂.2 _
  exact ((h₁.trans h₂).trans h₃).trans (unmoved_addLocale _ _)

theorem unmoved_addTransparent (w : World) : Unmoved w w.addTransparent.1 :=
  w.unmoved_addLocale _

theorem unmoved_ownFacet (w : World) (l : LocaleId) (kind : FacetKind) :
    Unmoved w (w.ownFacet l kind).1 :=
  w.unmoved_indexOf kind

theorem unmoved_withFacet (w : World) (l : LocaleId) (kind : FacetKind) (f : FacetId) :
    Unmoved w (w.withFacet l kind f).1 := by
  have hretain : ∀ (w : World) (o : Option FacetId), Unmoved w (o.elim w w.retainFacet) := by
    intro w o
    cases o with
    | none => exact Unmoved.refl w
    | some f => exact w.unmoved_retainFacet f
  have hrelease : ∀ (w : World) (o : Option FacetId), Unmoved w (o.elim w w.releaseFacet) := by
    intro w o
    cases o with
    | none => exact Unmoved.refl w
    | some f => exact w.unmoved_releaseFacet f
  unfold withFacet
  exact (((Unmoved.foldl hretain w _).trans (unmoved_indexOf _ kind)).trans
    (hrelease _ _)).trans (unmoved_addLocale _ _)

/-! ## Values of thread locals -/

theorem unmoved_discard (w : World) (v : Payload) : Unmoved w (w.discard v) := by
  cases v with
  | tracked tag => exact w.unmoved_notify _
  | setting l =>
      cases l with
      | none => exact Unmoved.refl w
      | some l => exact w.unmoved_releaseLocale l

theorem unmoved_discards (w : World) (vs : List Payload) : Unmoved w (vs.foldl discard w) :=
  Unmoved.foldl unmoved_discard w vs

end Hosted.World
