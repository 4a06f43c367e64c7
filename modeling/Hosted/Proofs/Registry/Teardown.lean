import Hosted.Proofs.References.Process
import Hosted.Proofs.Registry.Fronts

/-!
# Teardown

A teardown leaves a registry with nothing: no locale, no facet, and no thread with a
locale set in it. Of other registries it touches nothing. A run of an exit table does
the same for all registries whose teardowns are queued there.
-/

namespace Hosted

/-- The record of a registry after its teardown, when its exit table has run or has not. -/
def Registry.tornDown (g : Registry) (ran : Bool) : Registry :=
  { g with
    classic := none, global := none, lazy := [], entries := []
    teardownQueued := g.teardownQueued && !ran }

namespace World

variable {w w' w'' : World} {hand : Multiset Holding} {r : RegistryId} {g : Registry}
  {rs rs' : List RegistryId}

/-- A registry holds nothing, and no thread has set a locale in it. -/
structure Emptied (w : World) (g : Registry) : Prop where
  classic : g.classic = none
  global : g.global = none
  lazy : g.lazy = []
  entries : g.entries = []
  unset : ∀ t l, w.locals.get? t g.threadLocale ≠ some (.setting (some l))

theorem emptied_congr (hget : ∀ t,
    w'.locals.get? t g.threadLocale = w.locals.get? t g.threadLocale) :
    w'.Emptied g ↔ w.Emptied g := by
  constructor
  · intro h
    refine { h with unset := fun t l => ?_ }
    rw [← hget]
    exact h.unset t l
  · intro h
    refine { h with unset := fun t l => ?_ }
    rw [hget]
    exact h.unset t l

/-! ## One teardown -/

/-- The record of the registry is emptied, and then references are released. -/
theorem teardown_eq (hg : w.registry? r = some g) :
    (∀ r', World.registry? (w.teardown r).1 r' =
      if r' = r then some (g.tornDown (w.exitTable g.exits).ran) else w.registry? r') ∧
    (w.teardown r).1.locals = w.locals.modifyAll g.threadLocale fun _ _ => .setting none := by
  rw [teardown_fst hg]
  generalize (w.takeSettings g.threadLocale).2 = settings
  generalize g.lazy.map (·.2) = lazy
  have hreleased := (unmoved_releaseEntries (w.drained r g settings lazy) g.entries).trans
    (unmoved_log _ (.tornDown (w.teardown r).2))
  refine ⟨fun r' => ?_, hreleased.locals.trans ?_⟩
  · rw [hreleased.registry?, drained, registry?_modifyRegistry, registry?_stripped hg]
    by_cases hr : r' = r
    · rw [if_pos hr, if_pos hr, if_pos hr]
      rfl
    · rw [if_neg hr, if_neg hr, if_neg hr]
  · exact ((unmoved_releaseLocales _ settings).trans
      ((unmoved_releaseLocales _ _).trans (unmoved_releaseFacets _ lazy))).locals

/-- Settings are taken away in the registry's thread local only. -/
theorem Kept.get?_teardown (h : w.Kept hand) (hg : w.registry? r = some g) (t : ThreadId)
    (id : LocalId) :
    (w.teardown r).1.locals.get? t id =
      if id = g.threadLocale then (w.locals.get? t id).map fun _ => .setting none
      else w.locals.get? t id := by
  obtain ⟨m, hm⟩ := h.housed
  obtain ⟨threads, -, -, -, hupdate⟩ := hm.describes.exists_enumerates _ ⟨r, g, hg, rfl⟩
  have hget := (hupdate fun _ _ => .setting none).get? t id
  rw [(teardown_eq hg).2]
  apply hget.trans
  simp only [BindingMap.update, hm.describes.get?]

theorem Kept.emptied_teardown (h : w.Kept hand) (hg : w.registry? r = some g) (ran : Bool) :
    (w.teardown r).1.Emptied (g.tornDown ran) where
  classic := rfl
  global := rfl
  lazy := rfl
  entries := rfl
  unset t l := by
    have hget := h.get?_teardown hg t g.threadLocale
    rw [if_pos rfl] at hget
    intro hset
    rw [show (g.tornDown ran).threadLocale = g.threadLocale from rfl, hget] at hset
    cases hv : w.locals.get? t g.threadLocale with
    | none => simp [hv] at hset
    | some v => simp [hv] at hset

/-! ## Teardowns one after the other -/

/-- From `w` to `w'` the registries `rs` have been torn down. -/
structure TearsDown (w : World) (rs : List RegistryId) (w' : World) : Prop where
  emptied : ∀ {r g}, w.registry? r = some g → r ∈ rs →
    ∃ g', w'.registry? r = some g' ∧ g'.threadLocale = g.threadLocale ∧
      g'.front = g.front.tornDown (w.exitTable g.exits).ran ∧ w'.Emptied g'
  spared : ∀ {r g}, w.registry? r = some g → r ∉ rs →
    w'.registry? r = some g ∧
      ∀ t, w'.locals.get? t g.threadLocale = w.locals.get? t g.threadLocale
  absent : ∀ {r}, w.registry? r = none → w'.registry? r = none
  exits : w'.exits = w.exits

namespace TearsDown

theorem of_aside (h : w.Aside w') : w.TearsDown [] w' where
  emptied _ hr := absurd hr List.not_mem_nil
  spared hg _ := ⟨(h.unmoved.registry? _).trans hg, fun t => by rw [h.unmoved.locals]⟩
  absent hg := (h.unmoved.registry? _).trans hg
  exits := h.unmoved.exits

theorem congr (h : w.TearsDown rs w') (hrs : ∀ r, r ∈ rs' ↔ r ∈ rs) : w.TearsDown rs' w' where
  emptied hg hr := h.emptied hg ((hrs _).1 hr)
  spared hg hr := h.spared hg fun hr' => hr ((hrs _).2 hr')
  absent := h.absent
  exits := h.exits

theorem trans (h : w.TearsDown rs w') (h' : w'.TearsDown rs' w'') :
    w.TearsDown (rs ++ rs') w'' where
  emptied {r g} hg hr := by
    by_cases hmem : r ∈ rs
    · obtain ⟨g', hg', hlocal, hfront, hempty⟩ := h.emptied hg hmem
      have hexits : g'.exits = g.exits := congrArg Front.exits hfront
      by_cases hmem' : r ∈ rs'
      · obtain ⟨g'', hg'', hlocal', hfront', hempty'⟩ := h'.emptied hg' hmem'
        refine ⟨g'', hg'', hlocal'.trans hlocal, ?_, hempty'⟩
        have hran : w'.exitTable g.exits = w.exitTable g.exits := by
          rw [World.exitTable, h.exits]
          rfl
        rw [hfront', hfront, hexits, hran, Front.tornDown_tornDown]
      · obtain ⟨hg'', hget⟩ := h'.spared hg' hmem'
        exact ⟨g', hg'', hlocal, hfront, (emptied_congr hget).2 hempty⟩
    · obtain ⟨hg', hget⟩ := h.spared hg hmem
      have hmem' : r ∈ rs' := (List.mem_append.1 hr).resolve_left hmem
      obtain ⟨g'', hg'', hlocal', hfront', hempty'⟩ := h'.emptied hg' hmem'
      refine ⟨g'', hg'', hlocal', ?_, hempty'⟩
      rw [hfront', World.exitTable, h.exits]
      rfl
  spared {r g} hg hr := by
    obtain ⟨hrs, hrs'⟩ := not_or.1 (mt List.mem_append.2 hr)
    obtain ⟨hg', hget⟩ := h.spared hg hrs
    obtain ⟨hg'', hget'⟩ := h'.spared hg' hrs'
    exact ⟨hg'', fun t => (hget' t).trans (hget t)⟩
  absent hg := h'.absent (h.absent hg)
  exits := h'.exits.trans h.exits

end TearsDown

theorem Kept.tearsDown_teardown (h : w.Kept hand) (r : RegistryId) :
    w.TearsDown [r] (w.teardown r).1 := by
  cases hr : w.registry? r with
  | none =>
      have hsame : (w.teardown r).1 = w := by
        unfold World.teardown
        rw [hr]
      rw [hsame]
      refine ⟨?_, fun hg _ => ⟨hg, fun _ => rfl⟩, id, rfl⟩
      intro r' g hg hmem
      rw [List.mem_singleton.1 hmem, hr] at hg
      cases hg
  | some g₀ =>
      obtain ⟨m, hm⟩ := h.housed
      have hregistry := (teardown_eq hr).1
      refine ⟨?_, ?_, ?_, exits_teardown w r⟩
      · intro r' g hg hmem
        rw [List.mem_singleton] at hmem
        subst hmem
        rw [hr, Option.some.injEq] at hg
        subst hg
        refine ⟨g₀.tornDown (w.exitTable g₀.exits).ran, ?_, rfl, rfl, h.emptied_teardown hr _⟩
        rw [hregistry, if_pos rfl]
      · intro r' g hg hmem
        rw [List.mem_singleton] at hmem
        refine ⟨by rw [hregistry, if_neg hmem, hg], fun t => ?_⟩
        rw [h.get?_teardown hr, if_neg]
        intro hid
        exact hmem (hm.home_inj hg hr hid)
      · intro r' hg
        rw [hregistry, if_neg, hg]
        rintro rfl
        rw [hg] at hr
        cases hr

/-! ## Runs of exit tables -/

theorem Kept.tearsDown_handle (h : w.Kept hand) {t : TableId}
    (hran : (w.exitTable t).ran = true) (depth : Nat) (handlers : List Handler) :
    w.TearsDown (toTearDown { handlers }) (handlers.foldl (handle depth t) w) :=
  foldl_handle (P := (·.Kept hand)) (fun h ha => ⟨(h.aside ha).kept, .of_aside ha⟩)
    (fun r h => ⟨(h.teardown? r).kept, h.tearsDown_teardown r⟩) .trans hran h depth handlers

/-- A table that has not run tears down the registries whose teardowns are queued there. -/
theorem Kept.tearsDown_runTable (h : w.Kept hand) {t : TableId} (ht : t < w.exits.length)
    (hran : (w.exitTable t).ran = false) :
    (w.setExitTable t { handlers := [], ran := true }).TearsDown (toTearDown (w.exitTable t))
      (w.runTable t).1 := by
  obtain ⟨depth, heq⟩ := runTable_eq ht hran
  have hstart := (h.setExitTable t { handlers := [], ran := true }).kept
  have hran' := ran_setExitTable ht
  have hgo := (hstart.tearsDown_handle hran' depth (w.exitTable t).handlers.reverse).trans
    (.of_aside (aside_notify _ (n := .logged (.handlersRan (w.exitTable t).handlers.length)) rfl))
  rw [heq]
  refine hgo.congr fun r => ?_
  simp [toTearDown]

end World

end Hosted
