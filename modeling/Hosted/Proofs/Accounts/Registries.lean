import Hosted.Proofs.Accounts.Values
import Hosted.Proofs.Run.ExitProtocol

/-!
# Accounts of registries and exit tables

A facet that is recorded is counted at once, and so is one that is created on demand. A
teardown takes all that is recorded from the registry before it releases and counts it, so
there too the stock is ahead of the counters for a while. A run of an exit table counts each
handler after it has run.
-/

namespace Hosted.World

open Locals

variable {w w' w₁ : World} {hand hand' : Multiset LocaleId} {t : ThreadId} {id : LocalId}
  {r : RegistryId} {g : Registry} {l : LocaleId} {f : FacetId}

/-! ## Making registries -/

/-- A registry that has just been made holds nothing. -/
theorem Grounded.withRegistry (h : w.Grounded hand) (hid : (w.locals.local? id).isSome)
    (exits : TableId) : w.Settles 0 (w.withRegistry id exits) hand := by
  have hlen : (w.withRegistry id exits).registries.length = w.registries.length + 1 :=
    List.length_append
  refine .still ⟨h.sound, ?_, ?_⟩ (by omega) rfl ?_
  · intro r g hg
    rw [registry?_withRegistry] at hg
    split at hg
    · rw [← Option.some.inj hg]
      exact hid
    · exact h.housed hg
  · intro l
    have hslots : (w.withRegistry id exits).slotsOf l = w.slotsOf l := by
      simp [slotsOf, World.withRegistry]
    rw [places, hslots]
    exact h.covered l
  · have hentries : ((w.withRegistry id exits).registries.map (·.entries.length)).sum =
        (w.registries.map (·.entries.length)).sum := by
      simp [World.withRegistry]
    exact congrArg (Stock.mk _ _ · _ _ _ _) hentries

theorem Grounded.addRegistry (h : w.Grounded hand) (t : ThreadId) (exits : TableId) :
    w.Settles 0 (w.addRegistry t exits).1 hand := by
  obtain ⟨hmade, hlive⟩ := h.newLocal t (v := .setting none) rfl
  unfold World.addRegistry
  generalize w.newLocal t (.setting none) = made at hmade hlive ⊢
  obtain ⟨w₁, result⟩ := made
  cases result with
  | error f => exact hmade
  | ok id => exact hmade.before (hmade.grounded.withRegistry (hlive id rfl) exits)

theorem Grounded.ownRegistry (h : w.Grounded hand) (t : ThreadId) :
    w.Settles 0 (w.ownRegistry t).1 hand := by
  have hadd := h.addRegistry t processTable
  unfold World.ownRegistry
  split
  · exact h.refl
  · generalize w.addRegistry t processTable = added at hadd ⊢
    obtain ⟨w₁, result⟩ := added
    cases result with
    | error f => exact hadd
    | ok r => exact hadd.before (hadd.grounded.quiet ⟨rfl, rfl, rfl, rfl⟩)

/-! ## Facets -/

theorem length_facets_releaseFacet (w : World) (f : FacetId) :
    (w.releaseFacet f).facets.objects.length = w.facets.objects.length := by
  have hrelease : (w.facets.release f).1.objects.length = w.facets.objects.length := by
    unfold Shared.release
    split
    · exact List.length_set ..
    · rfl
  unfold releaseFacet
  simp only
  split <;> exact hrelease

theorem length_facets_releaseLocale (w : World) (l : LocaleId) :
    (w.releaseLocale l).facets.objects.length = w.facets.objects.length := by
  have hfacets : ∀ w (fs : List FacetId), (releaseFacets w fs).facets.objects.length =
      w.facets.objects.length := fun w fs =>
    fs.foldlRecOn (motive := fun w' => w'.facets.objects.length = w.facets.objects.length)
      releaseFacet rfl fun w' h f _ => (w'.length_facets_releaseFacet f).trans h
  unfold releaseLocale
  simp only
  split
  · exact hfacets _ _
  · rfl

theorem quiet_ownFacet (w : World) (l : LocaleId) (kind : FacetKind) :
    w.Quiet (w.ownFacet l kind).1 := w.quiet_indexOf kind

theorem lt_of_ownFacet {kind : FacetKind} (hf : (w.ownFacet l kind).2 = some f) :
    f < (w.ownFacet l kind).1.facets.objects.length :=
  Shared.lt_of_refs_pos (pos_of_filtered (w := (w.ownFacet l kind).1) hf)

theorem length_facets_retainFacet? (w : World) (f : Option FacetId) :
    (f.elim w w.retainFacet).facets.objects.length = w.facets.objects.length := by
  cases f with
  | none => rfl
  | some f => exact List.length_modify ..

theorem Grounded.findFacet (h : w.Grounded hand) (hg : w.registry? r = some g) (l : LocaleId)
    (kind : FacetKind) : w.Settles 0 (w.findFacet r l kind).1 hand := by
  have h₁ := h.quiet (w.quiet_ownFacet l kind)
  have hg₁ : World.registry? (w.ownFacet l kind).1 r = some g :=
    (Unmoved.registry? (w.unmoved_ownFacet l kind) r).trans hg
  unfold World.findFacet
  generalize w.ownFacet l kind = own at h₁ hg₁ ⊢
  obtain ⟨w₁, found⟩ := own
  cases found with
  | some f => exact h₁.before (h₁.grounded.quiet (quiet_retainFacet _ f))
  | none =>
      simp only at h₁ hg₁ ⊢
      split
      · have h₂ := h₁.before (h₁.grounded.globalLocale hg₁)
        generalize w₁.globalLocale r = global at h₂ ⊢
        obtain ⟨w₂, l'⟩ := global
        simp only at h₂ ⊢
        have h₃ := h₂.before (h₂.grounded.quiet
          ((w₂.quiet_ownFacet l' kind).trans (quiet_retainFacet? _ (w₂.ownFacet l' kind).2)))
        exact h₃.before h₃.grounded.releaseLocale
      · exact h₁

/-- What is found is a facet that there is. -/
theorem lt_of_findFacet {kind : FacetKind} (hf : (w.findFacet r l kind).2 = some f) :
    f < (w.findFacet r l kind).1.facets.objects.length := by
  have hown : ∀ f, (w.ownFacet l kind).2 = some f → _ := fun f => lt_of_ownFacet
  unfold World.findFacet at hf ⊢
  generalize w.ownFacet l kind = own at hown hf ⊢
  obtain ⟨w₁, found⟩ := own
  cases found with
  | some f' =>
      simp only [Option.some.injEq] at hf hown ⊢
      subst hf
      exact Nat.lt_of_lt_of_eq (hown f' rfl) (length_facets_retainFacet? w₁ (some f')).symm
  | none =>
      simp only at hf ⊢
      split at hf
      · next htransparent =>
          rw [if_pos htransparent, length_facets_releaseLocale, length_facets_retainFacet?]
          exact lt_of_ownFacet hf
      · cases hf

theorem quiet_recordedIndex (w : World) (kind : Option FacetKind) :
    w.Quiet (w.recordedIndex kind).1 := by
  cases kind with
  | none => exact .refl w
  | some kind => exact w.quiet_indexOf kind

theorem Grounded.recordFacet (h : w.Grounded hand) (hg : w.registry? r = some g)
    (kind : Option FacetKind) (f : FacetId) :
    w.Settles (Pi.single .recorded 1) (w.recordFacet r kind f) hand := by
  have h₁ := h.quiet (w.quiet_recordedIndex kind)
  have hg₁ : World.registry? (w.recordedIndex kind).1 r = some g := by
    cases kind with
    | none => exact hg
    | some kind => exact (Unmoved.registry? (w.unmoved_indexOf kind) r).trans hg
  unfold World.recordFacet
  generalize w.recordedIndex kind = recorded at h₁ hg₁ ⊢
  obtain ⟨w₁, index⟩ := recorded
  simp only at h₁ hg₁ ⊢
  let add (g : Registry) : Registry := { g with entries := g.entries ++ [f] }
  have hdown : (w₁.modifyRegistry r add).Grounded hand :=
    h₁.grounded.modified hg₁ rfl fun _ => Nat.le_refl _
  have hentries := entries_modifyRegistry hg₁ add
  rw [show (add g).entries.length = g.entries.length + 1 from List.length_append] at hentries
  have hcounted : w₁.Settles (Pi.single .recorded 1)
      ((w₁.modifyRegistry r add).tally .facetsRegistered) hand := by
    refine .counts .facetsRegistered 1 ⟨hdown.sound, hdown.housed, hdown.covered⟩
      (Nat.le_of_eq (length_registries_modifyRegistry ..).symm) rfl ?_
    constructor
    case entries =>
      change w₁.stock.entries + 1 = (w₁.modifyRegistry r add).stock.entries + 0 + 0
      omega
    all_goals rfl
  exact (h₁.before hcounted).after (hcounted.grounded.quiet (quiet_log _ _))

theorem quiet_cacheFacet (w : World) (r : RegistryId) (index : Nat) (f : FacetId) :
    w.Quiet (w.cacheFacet r index f) := by
  have hcache : w.Quiet (w.modifyRegistry r fun g =>
      { g with lazy := g.lazy.filter (·.1 ≠ index) ++ [(index, f)] }) :=
    w.quiet_modifyRegistry r fun _ => rfl
  exact hcache.trans (quiet_releaseFacet? _ _)

theorem Grounded.createFacet (h : w.Grounded hand) (hr : (w.registry? r).isSome) (l : LocaleId)
    (index : Nat) (kind : FacetKind) :
    w.Settles (Pi.single .recorded 1 + Pi.single .created 1) (w.createFacet r l index kind).1
      hand := by
  unfold World.createFacet
  simp only
  have h₁ : w.Settles 0 (if kind.isProbe = true then
      w.notify (.created kind (w.localeName l)) else w) hand := by
    split
    · exact h.quiet (w.quiet_notify _)
    · exact h.refl
  generalize (if kind.isProbe = true then w.notify (.created kind (w.localeName l)) else w) =
    w₁ at h₁ ⊢
  have hadd : w₁.Quiet (w₁.addFacet (.createFor kind (w.localeName l))).1 := ⟨rfl, rfl, rfl, rfl⟩
  generalize w₁.addFacet (.createFor kind (w.localeName l)) = added at hadd ⊢
  obtain ⟨w₂, f⟩ := added
  have h₃ := h₁.before (h₁.grounded.quiet (((hadd.trans (quiet_retainFacet _ f)).trans
    (quiet_cacheFacet _ r index f)).trans (quiet_retainFacet _ f)))
  simp only at h₃ ⊢
  obtain ⟨g₃, hg₃⟩ := Option.isSome_iff_exists.1 (h₃.isSome hr)
  have hrecorded := h₃.before (h₃.grounded.recordFacet hg₃ (some kind) f)
  generalize World.recordFacet _ r (some kind) f = w₄ at hrecorded ⊢
  have hcounted : w₄.Settles (Pi.single .created 1) (w₄.tally .lazyFacetsCreated) hand := by
    refine .counts .lazyFacetsCreated 1 ⟨hrecorded.grounded.sound, hrecorded.grounded.housed,
      hrecorded.grounded.covered⟩ (Nat.le_refl _) rfl ?_
    constructor <;> rfl
  exact (hrecorded.trans hcounted).after (hcounted.grounded.quiet (quiet_log _ _))

/-- A facet that there was after looking is answered as it is, any other has been created
and recorded. -/
theorem Grounded.useFacet_cases (h : w.Grounded hand) (hg : w.registry? r = some g)
    (l : LocaleId) (kind : FacetKind) :
    (w.useFacet r l kind).2 < (w.findFacet r l kind).1.facets.objects.length ∧
        w.Settles 0 (w.useFacet r l kind).1 hand ∨
      (w.findFacet r l kind).1.facets.objects.length ≤ (w.useFacet r l kind).2 ∧
        w.Settles (Pi.single .recorded 1 + Pi.single .created 1) (w.useFacet r l kind).1 hand := by
  have h₁ := h.findFacet hg l kind
  have hfound : ∀ f, (w.findFacet r l kind).2 = some f → _ := fun f => lt_of_findFacet
  unfold World.useFacet
  generalize w.findFacet r l kind = found at h₁ hfound ⊢
  obtain ⟨w₁, answer⟩ := found
  cases answer with
  | some f => exact Or.inl ⟨hfound f rfl, h₁⟩
  | none =>
      simp only at h₁ ⊢
      have h₂ := h₁.before (h₁.grounded.quiet (w₁.quiet_indexOf kind))
      have hlen : (w₁.indexOf kind).1.facets.objects.length = w₁.facets.objects.length := rfl
      rw [← hlen]
      generalize w₁.indexOf kind = indexed at h₂ ⊢
      obtain ⟨w₂, index⟩ := indexed
      simp only at h₂ ⊢
      split
      · next f hf =>
          exact Or.inl ⟨Shared.lt_of_refs_pos (pos_of_filtered hf),
            h₂.before (h₂.grounded.quiet (quiet_retainFacet _ f))⟩
      · have hnew : (w₂.createFacet r l index kind).2 = w₂.facets.objects.length := by
          unfold World.createFacet
          simp only
          split <;> rfl
        exact Or.inr ⟨Nat.le_of_eq hnew.symm, h₂.before (h₂.grounded.createFacet
          (h₂.isSome (Option.isSome_iff_exists.2 ⟨g, hg⟩)) l index kind)⟩

/-- How many facets a use of a facet creates: one if it answers with a facet that was not
there after looking for one. -/
def createdBy (w : World) (r : RegistryId) (l : LocaleId) (kind : FacetKind) : Nat :=
  if (w.findFacet r l kind).1.facets.objects.length ≤ (w.useFacet r l kind).2 then 1 else 0

theorem Grounded.useFacet (h : w.Grounded hand) (hg : w.registry? r = some g) (l : LocaleId)
    (kind : FacetKind) :
    w.Settles (Pi.single .recorded (w.createdBy r l kind) +
      Pi.single .created (w.createdBy r l kind)) (w.useFacet r l kind).1 hand := by
  unfold createdBy
  rcases h.useFacet_cases hg l kind with ⟨hlt, hsettles⟩ | ⟨hle, hsettles⟩
  · rw [if_neg (Nat.not_le.2 hlt), Pi.single_zero, Pi.single_zero, add_zero]
    exact hsettles
  · rw [if_pos hle]
    exact hsettles

/-! ## Settings of threads -/

/-- A thread's setting is there after asking for it, unless its bindings are gone. -/
theorem Grounded.getOr_setting (h : w.Grounded hand) (hg : w.registry? r = some g)
    (t : ThreadId) :
    (∃ w' before, w.getOr t g.threadLocale (fun w => (w, .setting none)) = (w', .ok before) ∧
        w.Settles 0 w' hand ∧ w'.locals.get? t g.threadLocale = some before) ∨
      ∃ w' fault, w.getOr t g.threadLocale (fun w => (w, .setting none)) = (w', .error fault) ∧
        w.Settles 0 w' hand := by
  have h₁ : w.Settles 0 (w.getLocal t g.threadLocale).1 hand := h.touch t
  have hget : (w.getLocal t g.threadLocale).1.locals.get? t g.threadLocale =
      w.locals.get? t g.threadLocale := Locals.get?_touch ..
  cases hv : w.locals.get? t g.threadLocale with
  | some v => exact Or.inl ⟨_, v, getOr_of_some hv _, h₁, hget.trans hv⟩
  | none =>
      obtain ⟨l, hl⟩ := Option.isSome_iff_exists.1 (h₁.grounded.housed (r := r) (g := g) hg)
      have h₂ := h₁.before (h₁.grounded.bindValue hl t (v := .setting none) rfl)
      have heq := tryGetOr_of_none hv fun w => (w, .setting none)
      unfold getOr
      rw [heq]
      simp only
      rcases bindValue_cases hl t (.setting none) with ⟨-, w₂, hb, -⟩ | ⟨-, w₂, hb, hbinds⟩
      · rw [hb] at h₂ ⊢
        exact Or.inr ⟨_, _, rfl, h₂.before (h₂.grounded.raise _)⟩
      · rw [hb] at h₂ ⊢
        exact Or.inl ⟨w₂, _, rfl, h₂, hbinds.get?_self⟩

/-- The locale before is handed over; a locale that is refused is given up. -/
theorem Grounded.setThreadLocale {l : Option LocaleId}
    (h : w.Grounded ((l.toList : Multiset LocaleId) + hand)) (hg : w.registry? r = some g)
    (t : ThreadId) :
    w.Settles 0 (w.setThreadLocale r t l).1
      (((w.setThreadLocale r t l).2.toOption.join.toList : Multiset LocaleId) + hand) := by
  unfold World.setThreadLocale
  rw [hg]
  simp only
  rcases h.getOr_setting hg t with ⟨w₁, before, hgot, h₁, hget⟩ | ⟨w₁, fault, hgot, h₁⟩
  · rw [hgot]
    simp only
    obtain ⟨c, hc, hcell⟩ := Option.bind_eq_some_iff.1 hget
    rw [hc]
    have h₂ := h₁.grounded.setCell (v := .setting l) hcell
    cases before <;> exact h₁.before h₂
  · rw [hgot]
    refine (h₁.before ?_).of_eq (Multiset.zero_add hand).symm
    cases l with
    | none => exact (h₁.grounded.of_eq (Multiset.zero_add _)).refl
    | some l => exact (h₁.grounded.of_eq (Multiset.singleton_add _ _)).releaseLocale

theorem Grounded.threadLocale (h : w.Grounded hand) (hg : w.registry? r = some g)
    (t : ThreadId) :
    w.Settles 0 (w.threadLocale r t).1 ((w.threadLocale r t).2 ::ₘ hand) := by
  have h₁ : w.Settles 0 (w.getLocal t g.threadLocale).1 hand := h.touch t
  have hg₁ : World.registry? (w.getLocal t g.threadLocale).1 r = some g := hg
  have hv : (w.getLocal t g.threadLocale).2 = w.locals.get? t g.threadLocale := rfl
  have hpos : ∀ {l}, w.locals.get? t g.threadLocale = some (.setting (some l)) →
      0 < (w.getLocal t g.threadLocale).1.locales.refs l := by
    intro l hl
    obtain ⟨c, -, hcell⟩ := Option.bind_eq_some_iff.1 hl
    exact h.refs_pos_of_cell hcell
  unfold World.threadLocale
  rw [hg]
  simp only
  generalize w.getLocal t g.threadLocale = got at h₁ hg₁ hv hpos ⊢
  obtain ⟨w₁, v⟩ := got
  have hglobal := h₁.before (h₁.grounded.globalLocale hg₁)
  rcases v with _ | ⟨text⟩ | ⟨_ | l⟩
  · exact hglobal
  · exact hglobal
  · exact hglobal
  · exact h₁.before (h₁.grounded.retainLocale (hpos hv.symm))

/-! ## Teardown -/

/-- The settings that are taken away are handed over. -/
theorem Grounded.takeSettings (h : w.Grounded hand) (id : LocalId) :
    w.Settles 0 (w.takeSettings id).1
      (((w.takeSettings id).2 : Multiset LocaleId) + hand) := by
  have htaken : (w.takeSettings id).2 = (w.locals.valuesOf id).filterMap Payload.locale? :=
    List.filterMap_congr fun v _ => by cases v <;> rfl
  have hgrounded := h.relocate
    (((w.locals.valuesOf id).filterMap Payload.locale? : Multiset LocaleId) + hand)
    (h.sound.modifyAll id fun _ _ => .setting none) (fun _ hsome => hsome) fun l => by
      have hcount := count_modifyAll w.locals (f := fun _ _ => .setting none)
        (h.sound.nodup_cellsOf id) (fun _ _ _ => rfl) (.locale l)
      have hvalues : ((w.locals.valuesOf id).flatMap Payload.holdings).count (.locale l) = _ :=
        List.count_flatMap.trans (Payload.sum_holdings (w.locals.valuesOf id) l)
      rw [weigh_holdings, weigh_holdings, Multiset.count_add, Multiset.coe_count]
      omega
  rw [htaken]
  refine .still hgrounded (Nat.le_refl _) rfl ?_
  have hweigh : (w.locals.modifyAll id fun _ _ => Payload.setting none).weigh (fun _ => 1) =
      w.locals.weigh fun _ => 1 := w.locals.weigh_modifyAll id fun _ _ => rfl
  have hcells : (w.locals.modifyAll id fun _ _ => Payload.setting none).cells.length =
      w.locals.cells.length :=
    length_foldl_visit (fun _ _ => Payload.setting none) _ w.locals.cells
  exact congrArg₂ (Stock.mk _ _ _ _ _ · ·) hcells hweigh

/-- The facets that a registry has recorded are released and counted. -/
theorem Grounded.releaseRecorded (h : w.Grounded hand) (hg : w.registry? r = some g) :
    w.Settles 0 (w.releaseRecorded r).1 hand := by
  have hdown : (w.modifyRegistry r ({ · with entries := [] })).Grounded hand :=
    h.modified hg rfl fun _ => Nat.le_refl _
  have hahead : w.Shifts 0 (Pi.single .facetsReleased g.entries.length) 0
      (w.modifyRegistry r ({ · with entries := [] })) := by
    refine .ahead rfl ?_
    have hentries := entries_modifyRegistry hg ({ · with entries := [] })
    constructor
    case entries => exact hentries.symm
    all_goals rfl
  have hcounted := (hdown.quiet (quiet_releaseFacets _ g.entries.reverse)).catchUp hahead
    (Nat.le_of_eq (length_registries_modifyRegistry ..).symm)
  rw [add_zero] at hcounted
  rw [releaseRecorded_eq hg]
  exact hcounted.before (hcounted.grounded.quiet (quiet_log _ _))

/-- A teardown releases what was recorded too. -/
theorem Grounded.teardown (h : w.Grounded hand) (r : RegistryId) :
    w.Settles 0 (w.teardown r).1 hand := by
  unfold World.teardown
  cases hg : w.registry? r with
  | none => exact h.refl
  | some g =>
      simp only
      let f : Registry → Registry := fun g₀ =>
        { g₀ with
          teardownQueued := g.teardownQueued && !(w.exitTable g.exits).ran
          classic := none, global := none, lazy := [] }
      have h₁ : w.Settles 0 (w.modifyRegistry r f)
          ((g.global.toList ++ g.classic.toList : List LocaleId) + hand) :=
        h.modifyRegistry hg rfl rfl fun l => by
          simp only [f, Option.toList_none, List.count_nil, Multiset.count_add,
            Multiset.coe_count, List.count_append]
          omega
      have hg₁ : World.registry? (w.modifyRegistry r f) r = some (f g) := by
        rw [registry?_modifyRegistry, if_pos rfl, hg]
        rfl
      have h₂ := h₁.before (h₁.grounded.takeSettings g.threadLocale)
      have hg₂ : World.registry? ((w.modifyRegistry r f).takeSettings g.threadLocale).1 r =
          some (f g) := hg₁
      generalize (w.modifyRegistry r f).takeSettings g.threadLocale = taken at h₂ hg₂ ⊢
      obtain ⟨w₂, settings⟩ := taken
      simp only at h₂ hg₂ ⊢
      have h₃ := h₂.before (Grounded.releaseLocales h₂.grounded)
      have h₄ := h₃.before (Grounded.releaseLocales h₃.grounded)
      have h₅ := h₄.before (h₄.grounded.quiet (quiet_releaseFacets _ (g.lazy.map (·.2))))
      have hreleased := ((unmoved_releaseLocales w₂ settings).trans
        (unmoved_releaseLocales _ (g.global.toList ++ g.classic.toList))).trans
        (unmoved_releaseFacets _ (g.lazy.map (·.2)))
      have hg₅ := (hreleased.registry? r).trans hg₂
      generalize World.releaseFacets _ (g.lazy.map (·.2)) = w₅ at h₅ hg₅ ⊢
      have h₆ := h₅.before (h₅.grounded.releaseRecorded hg₅)
      exact h₆.before (h₆.grounded.quiet (quiet_log _ _))

/-! ## Exit tables -/

theorem Grounded.execute (h : w.Grounded hand) (handler : Handler) :
    w.Settles (Pi.single .ran 1) (w.execute handler) hand := by
  have htally : ∀ {w : World}, w.Grounded hand →
      w.Settles (Pi.single .ran 1) (w.tally .exitHandlersRun) hand := by
    intro w h
    refine .counts .exitHandlersRun 1 ⟨h.sound, h.housed, h.covered⟩ (Nat.le_refl _) rfl ?_
    constructor <;> rfl
  cases handler with
  | report tag actions =>
      have hsaid : w.Settles 0
          { w with notices := w.notices ++ (Handler.report tag actions).notices } hand :=
        h.quiet ⟨rfl, rfl, rfl, rfl⟩
      exact hsaid.before (htally hsaid.grounded)
  | teardown r => exact (h.teardown r).before (htally (h.teardown r).grounded)

theorem Grounded.foldl_execute (h : w.Grounded hand) (hs : List Handler) :
    w.Settles (Pi.single .ran hs.length) (hs.foldl World.execute w) hand := by
  induction hs generalizing w with
  | nil =>
      rw [List.length_nil, Pi.single_zero]
      exact h.refl
  | cons handler hs ih =>
      have hstep := h.execute handler
      have hrest := hstep.trans (ih hstep.grounded)
      rwa [← Pi.single_add, Nat.add_comm 1] at hrest

/-- There is no such table. -/
theorem runTable_of_ge {t : TableId} (ht : w.exits.length ≤ t) :
    w.runTable t = (w, 0) ∨ w.runTable t = (w.log (.handlersRan 0), 0) := by
  have hnone : w.exitTable t = {} := by simp [exitTable, List.getElem?_eq_none ht]
  unfold runTable
  cases w.exits.length with
  | zero => exact Or.inl rfl
  | succ depth =>
      rw [runTableWithin, hnone]
      simp only [ExitTable.start, Bool.false_eq_true, if_false, List.reverse_nil, List.foldl_nil,
        setExitTable_of_ge ht]
      exact Or.inr rfl

/-- A run answers with nothing, or executes the handlers that a table has given out. -/
theorem runTable_cases (w : World) (t : TableId) :
    (w.runTable t).2 = 0 ∧ ((w.runTable t).1 = w ∨ (w.runTable t).1 = w.log (.handlersRan 0)) ∨
      ∃ hs : List Handler, w.runTable t = ((hs.reverse.foldl World.execute
        (w.setExitTable t ⟨[], true⟩)).log (.handlersRan hs.length), hs.length) := by
  rcases Nat.lt_or_ge t w.exits.length with hlt | hge
  · have ht : w.exits[t]? = some (w.exitTable t) := by
      rw [exitTable, List.getElem?_eq_getElem hlt]
      rfl
    cases hran : (w.exitTable t).ran with
    | true =>
        rw [runTable_of_ran hran]
        exact Or.inl ⟨rfl, Or.inl rfl⟩
    | false =>
        have hwaiting : w.exits[t]? = some ⟨(w.exitTable t).handlers, false⟩ := by
          rw [ht, ← hran]
        exact Or.inr ⟨_, runTable_of_waiting hwaiting⟩
  · rcases runTable_of_ge hge with heq | heq
    · rw [heq]
      exact Or.inl ⟨rfl, Or.inl rfl⟩
    · rw [heq]
      exact Or.inl ⟨rfl, Or.inr rfl⟩

theorem Grounded.runTable (h : w.Grounded hand) (t : TableId) :
    w.Settles (Pi.single .ran (w.runTable t).2) (w.runTable t).1 hand := by
  rcases w.runTable_cases t with ⟨hzero, hsame | hlog⟩ | ⟨hs, heq⟩
  · rw [hzero, hsame, Pi.single_zero]
    exact h.refl
  · rw [hzero, hlog, Pi.single_zero]
    exact h.quiet (w.quiet_log _)
  · have hstart := h.quiet (w.quiet_setExitTable t ⟨[], true⟩)
    have hrun := hstart.before (hstart.grounded.foldl_execute hs.reverse)
    rw [List.length_reverse] at hrun
    rw [heq]
    exact hrun.after (hrun.grounded.quiet (quiet_log _ _))

/-- What a run that a handler started has answered. -/
def nestedAnswer? : Notice → Option Nat
  | .nestedRun n => some n
  | _ => none

/-- What the runs that handlers started between `w` and `w'` have answered. -/
def nestedAnswers (w w' : World) : List Nat :=
  (w'.notices.filterMap nestedAnswer?).drop (w.notices.filterMap nestedAnswer?).length

theorem filterMap_nestedAnswer? (ns : List Notice) :
    (ns.filter Notice.ofHandler).filterMap nestedAnswer? = ns.filterMap nestedAnswer? := by
  rw [List.filterMap_filter]
  refine List.filterMap_congr fun n _ => ?_
  cases n <;> rfl

theorem nestedAnswer?_notices (h : Handler) :
    ∀ n ∈ h.notices.filterMap nestedAnswer?, n = 0 := by
  intro n hn
  obtain ⟨notice, hnotice, heq⟩ := List.mem_filterMap.1 hn
  cases h with
  | teardown r => cases hnotice
  | report tag actions =>
      rcases List.mem_cons.1 hnotice with rfl | hnotice
      · cases heq
      · obtain ⟨action, -, hnotice⟩ := List.mem_flatMap.1 hnotice
        cases action with
        | look =>
            rw [List.mem_singleton.1 hnotice] at heq
            cases heq
        | run =>
            rw [List.mem_singleton.1 hnotice] at heq
            exact (Option.some.inj heq).symm
        | register tag =>
            rcases List.mem_pair.1 hnotice with rfl | rfl
            · cases heq
            · cases heq

/-- Handlers run while their table is closed, so the runs that they start run nothing. -/
theorem sum_nestedAnswers_runTable (w : World) (t : TableId) :
    (w.nestedAnswers (w.runTable t).1).sum = 0 := by
  have hsame : ∀ ns : List Notice, ns.filterMap nestedAnswer? = w.notices.filterMap nestedAnswer? →
      ((ns.filterMap nestedAnswer?).drop (w.notices.filterMap nestedAnswer?).length).sum = 0 := by
    intro ns hns
    rw [hns, List.drop_length, List.sum_nil]
  unfold nestedAnswers
  rcases w.runTable_cases t with ⟨-, hw | hlog⟩ | ⟨hs, heq⟩
  · exact hsame _ (by rw [hw])
  · refine hsame _ ?_
    rw [hlog]
    exact List.filterMap_append.trans (List.append_nil _)
  · have hsaid := filter_notices_foldl_execute (w.setExitTable t ⟨[], true⟩) hs.reverse
    have hanswers := congrArg (List.filterMap nestedAnswer?) hsaid
    rw [List.filterMap_append, filterMap_nestedAnswer?, filterMap_nestedAnswer?] at hanswers
    have hlog : ∀ (w : World) n, (w.log (.handlersRan n)).notices.filterMap nestedAnswer? =
        w.notices.filterMap nestedAnswer? := fun w n =>
      List.filterMap_append.trans (List.append_nil _)
    rw [heq, hlog, hanswers]
    rw [show (w.setExitTable t ⟨[], true⟩).notices = w.notices from rfl, List.drop_left]
    refine List.sum_eq_zero fun n hn => ?_
    rw [List.filterMap_flatMap] at hn
    obtain ⟨h, -, hn⟩ := List.mem_flatMap.1 hn
    exact nestedAnswer?_notices h n hn

end Hosted.World
