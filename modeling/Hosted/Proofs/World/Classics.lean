import Hosted.Proofs.Facet.Indices
import Hosted.Proofs.World.Exits

/-!
# What classic locales are made of

Every classic locale that is made has the same facets at the same indices, and all categories.
Facets and locales do not change once they are made, and kinds keep their indices, so all classic
locales of a process go on to have the same. An operation is `Faithful` if the classic locales
after it are those before it and others made in this way. All operations are.
-/

namespace Hosted

namespace Shared

variable {α : Type}

/-- What an object is or was, for it may have been destroyed. -/
def body? (s : Shared α) (id : Nat) : Option α := s.objects[id]?.map (·.body)

theorem body?_of_get? {s : Shared α} {id : Nat} {body : α} (h : s.get? id = some body) :
    s.body? id = some body := by
  obtain ⟨o, ho, -, rfl⟩ := get?_eq_some_iff.1 h
  rw [body?, ho, Option.map_some]

theorem body?_insert (s : Shared α) (body : α) (id : Nat) :
    (s.insert body).1.body? id = if id = s.objects.length then some body else s.body? id := by
  unfold insert body?
  rcases Nat.lt_trichotomy id s.objects.length with hlt | heq | hgt
  · rw [List.getElem?_append_left hlt, if_neg (Nat.ne_of_lt hlt)]
  · rw [heq, List.getElem?_concat_length, if_pos rfl]
    rfl
  · rw [if_neg (Nat.ne_of_gt hgt), List.getElem?_eq_none (Nat.le_of_lt hgt),
      List.getElem?_eq_none (by rw [List.length_append]; exact hgt)]

theorem body?_insert_of_some {s : Shared α} {id : Nat} {body : α} (h : s.body? id = some body)
    (body' : α) : (s.insert body').1.body? id = some body := by
  obtain ⟨o, ho, -⟩ := Option.map_eq_some_iff.1 h
  rw [body?_insert, if_neg (Nat.ne_of_lt (List.getElem?_eq_some_iff.1 ho).1), h]

theorem body?_retain (s : Shared α) (id id' : Nat) : (s.retain id).body? id' = s.body? id' := by
  unfold retain body?
  rw [List.getElem?_modify]
  cases s.objects[id']? with
  | none => rfl
  | some o => by_cases hid : id = id' <;> simp [hid]

theorem body?_release (s : Shared α) (id id' : Nat) :
    (s.release id).1.body? id' = s.body? id' := by
  unfold release
  cases hid : s.objects[id]? with
  | none => rfl
  | some o =>
      by_cases heq : id = id'
      · subst heq
        rw [body?, body?, List.getElem?_set_self (List.getElem?_eq_some_iff.1 hid).1, hid]
        rfl
      · rw [body?, body?, List.getElem?_set_ne heq]

end Shared

/-- The facets of a classic locale. -/
def Facet.standard : List Facet := [.charClass, .numPunct .classic, .collation]

namespace World

variable {w w' w'' : World} {facets facets' : List (Option FacetId)} {fs : List Facet}
  {body : Facet}

/-! ## Rows of facets -/

/-- The index of the kind of a facet. -/
def placeOf (w : World) (f : Facet) : Option Nat := w.indices.find? (.kind f.kind.indexOwner)

/-- What was an object is one, and a kind that had an index has it. -/
structure Lasts (w w' : World) : Prop where
  facet : ∀ {x f}, w.facets.body? x = some f → w'.facets.body? x = some f
  index : ∀ {kind i}, w.indices.find? (.kind kind) = some i →
    w'.indices.find? (.kind kind) = some i

/-- A row has just the facets `fs`, each at the index of its kind. -/
structure Stocked (w : World) (facets : List (Option FacetId)) (fs : List Facet) : Prop where
  has : ∀ f ∈ fs, ∃ i x, w.placeOf f = some i ∧ facets[i]?.join = some x ∧
    w.facets.body? x = some f
  only : ∀ {i x}, facets[i]?.join = some x → ∃ f ∈ fs, w.placeOf f = some i ∧
    w.facets.body? x = some f

theorem Stocked.lasts (h : w.Stocked facets fs) (hl : w.Lasts w') : w'.Stocked facets fs where
  has f hf := by
    obtain ⟨i, x, hi, hx, hbody⟩ := h.has f hf
    exact ⟨i, x, hl.index hi, hx, hl.facet hbody⟩
  only hx := by
    obtain ⟨f, hf, hi, hbody⟩ := h.only hx
    exact ⟨f, hf, hl.index hi, hl.facet hbody⟩

/-- Two rows of the same facets are alike at every index. -/
theorem Stocked.alike (h : w.Stocked facets fs) (h' : w.Stocked facets' fs) (i : Nat) :
    facets[i]?.join.map w.facets.body? = facets'[i]?.join.map w.facets.body? := by
  have hsome : ∀ {facets facets'} {x : FacetId}, w.Stocked facets fs → w.Stocked facets' fs →
      facets[i]?.join = some x →
      ∃ x', facets'[i]?.join = some x' ∧ w.facets.body? x' = w.facets.body? x := by
    intro facets facets' x h h' hx
    obtain ⟨f, hf, hi, hbody⟩ := h.only hx
    obtain ⟨i', x', hi', hx', hbody'⟩ := h'.has f hf
    obtain rfl : i = i' := Option.some.inj (hi.symm.trans hi')
    exact ⟨x', hx', hbody'.trans hbody.symm⟩
  cases hx : facets[i]?.join with
  | some x =>
      obtain ⟨x', hx', hbody⟩ := hsome h h' hx
      rw [hx', Option.map_some, Option.map_some, hbody]
  | none =>
      cases hx' : facets'[i]?.join with
      | none => rfl
      | some x' =>
          obtain ⟨x, hx₀, -⟩ := hsome h' h hx'
          rw [hx] at hx₀
          cases hx₀

theorem Lasts.refl (w : World) : w.Lasts w := ⟨id, id⟩

theorem Lasts.trans (h : w.Lasts w') (h' : w'.Lasts w'') : w.Lasts w'' :=
  ⟨fun hx => h'.facet (h.facet hx), fun hi => h'.index (h.index hi)⟩

theorem lasts_placeNew (w : World) (facets : List (Option FacetId)) (body : Facet) :
    w.Lasts (w.placeNew facets body).1 :=
  ⟨fun hx => Shared.body?_insert_of_some hx body, FacetIndices.find?_assign⟩

/-- One more facet, of a kind that has another index. -/
theorem Stocked.placeNew (h : w.Stocked facets fs) (hsound : w.indices.Sound)
    (hnew : ∀ f ∈ fs, f.kind.indexOwner ≠ body.kind.indexOwner) :
    (w.placeNew facets body).1.Stocked (w.placeNew facets body).2 (fs ++ [body]) := by
  have hself : (w.placeNew facets body).1.placeOf body = some (w.indexOf body.kind).2 :=
    FacetIndices.find?_assign_self w.indices (.kind body.kind.indexOwner)
  have hplace : ∀ j, (w.placeNew facets body).2[j]?.join = if j = (w.indexOf body.kind).2 then
      some w.facets.objects.length else facets[j]?.join := Locale.getElem?_place facets _ _
  have hbody : (w.placeNew facets body).1.facets.body? w.facets.objects.length = some body :=
    (w.facets.body?_insert body _).trans (if_pos rfl)
  have hlater := h.lasts (w.lasts_placeNew facets body)
  refine ⟨fun f hf => ?_, fun {i x} hx => ?_⟩
  · rcases List.mem_append.1 hf with hold | hlast
    · obtain ⟨i, x, hi, hx, hf'⟩ := hlater.has f hold
      refine ⟨i, x, hi, (hplace i).trans ((if_neg ?_).trans hx), hf'⟩
      rintro rfl
      exact hnew f hold (Indexed.kind.inj ((hsound.assign _).inj hi hself))
    · rw [List.mem_singleton] at hlast
      subst hlast
      exact ⟨_, _, hself, (hplace _).trans (if_pos rfl), hbody⟩
  · rw [hplace] at hx
    split at hx
    · next hi =>
        rw [Option.some.injEq] at hx
        exact ⟨body, List.mem_append_right _ (List.mem_singleton.2 rfl), hi ▸ hself, hx ▸ hbody⟩
    · obtain ⟨f, hf, hi, hf'⟩ := hlater.only hx
      exact ⟨f, List.mem_append_left _ hf, hi, hf'⟩

/-! ## Classic locales -/

/-- A locale has what a classic one is made with. -/
structure Standard (w : World) (l : Locale) : Prop where
  categories : l.categories = .all
  stocked : w.Stocked l.facets Facet.standard

/-- All classic locales after an operation were there before or have been made as classic ones
are. -/
structure Faithful (w w' : World) : Prop where
  lasts : w.Lasts w'
  sound : w.indices.Sound → w'.indices.Sound
  classic : w.indices.Sound → ∀ {l body}, w'.locales.body? l = some body → body.classic = true →
    w.locales.body? l = some body ∨ w'.Standard body

theorem Standard.lasts {l : Locale} (h : w.Standard l) (hl : w.Lasts w') : w'.Standard l :=
  ⟨h.categories, h.stocked.lasts hl⟩

namespace Faithful

theorem trans (h : w.Faithful w') (h' : w'.Faithful w'') : w.Faithful w'' where
  lasts := h.lasts.trans h'.lasts
  sound hs := h'.sound (h.sound hs)
  classic hs {l body} hbody hclassic := by
    rcases h'.classic (h.sound hs) hbody hclassic with hold | hnew
    · rcases h.classic hs hold hclassic with holder | hstandard
      · exact Or.inl holder
      · exact Or.inr (hstandard.lasts h'.lasts)
    · exact Or.inr hnew

/-- What makes no locale. -/
theorem of_locales (hlocales : ∀ l, w'.locales.body? l = w.locales.body? l)
    (hlasts : w.Lasts w') (hsound : w.indices.Sound → w'.indices.Sound) : w.Faithful w' :=
  ⟨hlasts, hsound, fun _ _ _ hbody _ => Or.inl ((hlocales _).symm.trans hbody)⟩

/-- What leaves locales, facets and indices alone. -/
theorem of_eq (hlocales : w'.locales = w.locales) (hfacets : w'.facets = w.facets)
    (hindices : w'.indices = w.indices) : w.Faithful w' :=
  of_locales (fun l => by rw [hlocales]) ⟨fun hx => by rwa [hfacets], fun hi => by rwa [hindices]⟩
    fun hs => by rwa [hindices]

theorem refl (w : World) : w.Faithful w := of_eq rfl rfl rfl

theorem of_aside (h : w.Aside w') : w.Faithful w' := of_eq h.locales h.facets h.indices

/-- A sequence of faithful steps is faithful. -/
theorem foldl {β : Type} {f : World → β → World} (hf : ∀ w b, Faithful w (f w b)) (w : World)
    (bs : List β) : w.Faithful (bs.foldl f w) :=
  bs.foldlRecOn f (refl w) fun w' h b _ => h.trans (hf w' b)

end Faithful

theorem faithful_indexed (w : World) (key : Indexed) :
    w.Faithful { w with indices := (w.indices.assign key).1 } :=
  .of_locales (fun _ => rfl) ⟨id, FacetIndices.find?_assign⟩ fun hs => hs.assign key

theorem faithful_notify (w : World) (n : Notice) : w.Faithful (w.notify n) := .of_eq rfl rfl rfl

theorem faithful_tally (w : World) (which : Counter) : w.Faithful (w.tally which) :=
  .of_eq rfl rfl rfl

theorem faithful_raise (w : World) (f : Fault) : w.Faithful (w.raise f) := .of_eq rfl rfl rfl

/-! ## Facets -/

theorem faithful_addFacet (w : World) (f : Facet) : w.Faithful (w.addFacet f).1 :=
  .of_locales (fun _ => rfl) ⟨fun hx => Shared.body?_insert_of_some hx f, id⟩ id

theorem faithful_retainFacet (w : World) (x : FacetId) : w.Faithful (w.retainFacet x) :=
  .of_locales (fun _ => rfl) ⟨fun hx => (Shared.body?_retain ..).trans hx, id⟩ id

theorem faithful_releaseFacet (w : World) (x : FacetId) : w.Faithful (w.releaseFacet x) := by
  have hrelease : w.Faithful { w with facets := (w.facets.release x).1 } :=
    .of_locales (fun _ => rfl) ⟨fun hx => (Shared.body?_release ..).trans hx, id⟩ id
  unfold releaseFacet
  simp only
  split
  · exact hrelease.trans (faithful_notify _ _)
  · exact hrelease

theorem faithful_retainFacet? (w : World) (found : Option FacetId) :
    w.Faithful (found.elim w w.retainFacet) := by
  cases found with
  | none => exact .refl w
  | some x => exact w.faithful_retainFacet x

theorem faithful_releaseFacet? (w : World) (found : Option FacetId) :
    w.Faithful (found.elim w w.releaseFacet) := by
  cases found with
  | none => exact .refl w
  | some x => exact w.faithful_releaseFacet x

/-! ## Locales -/

theorem faithful_retainLocale (w : World) (l : LocaleId) : w.Faithful (w.retainLocale l) :=
  .of_locales (fun _ => Shared.body?_retain ..) ⟨id, id⟩ id

theorem faithful_releaseLocale (w : World) (l : LocaleId) : w.Faithful (w.releaseLocale l) := by
  have hrelease : w.Faithful { w with locales := (w.locales.release l).1 } :=
    .of_locales (fun _ => Shared.body?_release ..) ⟨id, id⟩ id
  unfold releaseLocale
  simp only
  split
  · refine (hrelease.trans ?_).trans (.foldl faithful_releaseFacet _ _)
    exact .of_eq rfl rfl rfl
  · exact hrelease

theorem faithful_addLocale {body : Locale} (hbody : body.classic = true → w.Standard body) :
    w.Faithful (w.addLocale body).1 := by
  have hlasts : w.Lasts (w.addLocale body).1 := ⟨id, id⟩
  refine ⟨hlasts, id, fun _ {l body'} hbody' hclassic => ?_⟩
  have hinsert : (w.locales.insert body).1.body? l = some body' := hbody'
  rw [Shared.body?_insert] at hinsert
  split at hinsert
  · obtain rfl := Option.some.inj hinsert
    exact Or.inr ((hbody hclassic).lasts hlasts)
  · exact Or.inl hinsert

theorem faithful_addTransparent (w : World) : w.Faithful w.addTransparent.1 :=
  faithful_addLocale fun h => absurd h Bool.false_ne_true

theorem faithful_withFacet (w : World) (l : LocaleId) (kind : FacetKind) (x : FacetId) :
    w.Faithful (w.withFacet l kind x).1 := by
  unfold withFacet
  exact (((Faithful.foldl faithful_retainFacet? w _).trans (faithful_indexed _ _)).trans
    (faithful_releaseFacet? _ _)).trans (faithful_addLocale fun h => absurd h Bool.false_ne_true)

theorem faithful_placeNew (w : World) (facets : List (Option FacetId)) (body : Facet) :
    w.Faithful (w.placeNew facets body).1 :=
  (w.faithful_indexed _).trans (faithful_addFacet _ body)

/-- Three facets are put at the indices of their kinds. -/
theorem faithful_addClassic (w : World) : w.Faithful w.addClassic.1 := by
  let p₁ := w.placeNew [] .charClass
  let p₂ := p₁.1.placeNew p₁.2 (.numPunct .classic)
  let p₃ := p₂.1.placeNew p₂.2 .collation
  have h₁ : w.Faithful p₁.1 := w.faithful_placeNew [] .charClass
  have h₂ : p₁.1.Faithful p₂.1 := faithful_placeNew _ p₁.2 _
  have h₃ : p₂.1.Faithful p₃.1 := faithful_placeNew _ p₂.2 _
  have hplaced := (h₁.trans h₂).trans h₃
  have hstocked : w.indices.Sound → p₃.1.Stocked p₃.2 Facet.standard := by
    intro hs
    have hempty : w.Stocked [] [] :=
      ⟨fun _ hf => absurd hf List.not_mem_nil, fun hx => nomatch hx⟩
    have hrow₁ : p₁.1.Stocked p₁.2 [.charClass] := hempty.placeNew hs (by decide)
    have hrow₂ : p₂.1.Stocked p₂.2 [.charClass, .numPunct .classic] :=
      hrow₁.placeNew (h₁.sound hs) (by decide)
    exact hrow₂.placeNew (h₂.sound (h₁.sound hs)) (by decide)
  refine ⟨hplaced.lasts.trans ⟨id, id⟩, hplaced.sound, fun hs _ _ => ?_⟩
  have hadd : p₃.1.Faithful w.addClassic.1 := faithful_addLocale fun _ => ⟨rfl, hstocked hs⟩
  exact (hplaced.trans hadd).classic hs

/-! ## Thread locals -/

theorem faithful_locals (w : World) (locals : Locals Payload) : w.Faithful { w with locals } :=
  .of_eq rfl rfl rfl

theorem faithful_discard (w : World) (v : Payload) : w.Faithful (w.discard v) := by
  cases v with
  | tracked tag => exact w.faithful_notify _
  | setting l =>
      cases l with
      | none => exact .refl w
      | some l => exact w.faithful_releaseLocale l

theorem faithful_takeSlot (w : World) : w.Faithful w.takeSlot.1 := by
  unfold takeSlot
  split
  · exact .of_eq rfl rfl rfl
  · exact .of_eq rfl rfl rfl

theorem faithful_giveSlot (w : World) (h : SlotHandle) : w.Faithful (w.giveSlot h).1 := by
  unfold giveSlot
  simp only
  split
  · exact .of_eq rfl rfl rfl
  · exact .of_eq rfl rfl rfl

theorem faithful_bindValue (w : World) (t : ThreadId) (id : LocalId) (v : Payload) :
    w.Faithful (w.bindValue t id v).1 := by
  unfold bindValue
  split
  · exact .of_eq rfl rfl rfl
  · next locals f _ =>
      refine ((w.faithful_locals locals).trans (faithful_discard _ v)).trans ?_
      simp only
      split
      · exact faithful_notify _ _
      · exact .refl _

theorem faithful_dropLocal (w : World) (t : ThreadId) (id : LocalId) :
    w.Faithful (w.dropLocal t id) := by
  unfold dropLocal
  split
  · exact .refl w
  · next locals values h _ =>
      have hcount : ∀ w : World, w.Faithful (w.count .valuesFreed values.length) :=
        fun _ => .of_eq rfl rfl rfl
      refine ((w.faithful_locals locals).trans (.foldl faithful_discard _ values)).trans ?_
      exact (hcount _).trans (faithful_giveSlot _ h)

theorem faithful_tryNewLocal (w : World) (t : ThreadId) (v : Payload) :
    w.Faithful (w.tryNewLocal t v).1 := by
  have htake := w.faithful_takeSlot
  unfold tryNewLocal
  generalize w.takeSlot = taken at htake ⊢
  obtain ⟨w₁, result⟩ := taken
  cases result with
  | error f => exact htake.trans (faithful_discard _ v)
  | ok h =>
      simp only
      generalize w₁.locals.create h = created
      obtain ⟨locals, id⟩ := created
      have hbind := htake.trans
        ((w₁.faithful_locals locals).trans (faithful_bindValue { w₁ with locals } t id v))
      simp only
      generalize World.bindValue { w₁ with locals } t id v = bound at hbind ⊢
      obtain ⟨w₂, result⟩ := bound
      cases result with
      | ok _ => exact hbind
      | error f => exact hbind.trans (faithful_dropLocal _ t id)

theorem faithful_newLocal (w : World) (t : ThreadId) (v : Payload) :
    w.Faithful (w.newLocal t v).1 := by
  have htry := w.faithful_tryNewLocal t v
  unfold newLocal
  generalize w.tryNewLocal t v = tried at htry ⊢
  obtain ⟨w₁, result⟩ := tried
  cases result with
  | ok _ => exact htry
  | error f => exact htry.trans (faithful_raise _ f)

theorem faithful_endThread (w : World) (t : ThreadId) : w.Faithful (w.endThread t) := by
  have hstep : ∀ (w : World) (v : Payload), w.Faithful ((w.discard v).tally .valuesFreed) :=
    fun w v => (w.faithful_discard v).trans (faithful_tally _ _)
  unfold endThread
  simp only
  generalize w.locals.endThread t = ended
  obtain ⟨locals, freed⟩ := ended
  refine ((w.faithful_locals locals).trans (.foldl hstep _ freed)).trans ?_
  simp only
  split
  · exact .refl _
  · exact faithful_notify _ _

theorem faithful_setting (w : World) (t : ThreadId) (id : LocalId) :
    w.Faithful (w.getOr t id fun w => (w, .setting none)).1 := by
  have hget : w.Faithful (w.getLocal t id).1 := .of_eq rfl rfl rfl
  unfold getOr tryGetOr
  generalize w.getLocal t id = got at hget ⊢
  obtain ⟨w₁, value⟩ := got
  cases value with
  | some v => exact hget
  | none =>
      have hbind := hget.trans (w₁.faithful_bindValue t id (.setting none))
      simp only
      generalize w₁.bindValue t id (.setting none) = bound at hbind ⊢
      obtain ⟨w₂, result⟩ := bound
      cases result with
      | ok _ => exact hbind
      | error f => exact hbind.trans (faithful_raise _ f)

end World

end Hosted
