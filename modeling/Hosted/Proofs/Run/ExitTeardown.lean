import Hosted.Proofs.Run.Fronts

/-!
# Teardown at exit

The first run of an exit table tears down the registries that queued their teardown
there, and that is each registry of the table that has ever been initialised. A registry
that has not been keeps what it holds: facets created or recorded in it, and locales that
threads have set, come to it without its being initialised.
-/

namespace Hosted.World

variable {w : World} {hand : Multiset Holding} {es : List Event} {r : RegistryId}
  {g : Registry} {settings : Settings}

/-- While its exit table has not run, a registry has its teardown there if it has been
initialised at some time. -/
theorem Tells.mem_toTearDown_iff (h : w.Tells es) (hg : w.registry? r = some g)
    (hran : (w.exitTable g.exits).ran = false) :
    r ∈ toTearDown (w.exitTable g.exits) ↔ Event.wasUp r es = true := by
  have hf : w.front? r = some g.front := congrArg (Option.map Registry.front) hg
  have hqueued : g.front.queued = Event.wasUp r es := (h.told hf).queued hran
  rw [World.mem_toTearDown_iff, ← hqueued]
  constructor
  · intro hqueue
    obtain ⟨f, hf', -, hq⟩ := h.orderly.own hqueue
    obtain rfl : g.front = f := Option.some.inj (hf.symm.trans hf')
    exact hq
  · exact fun hq => h.orderly.queued hf hq hran

/-- What the first run of its exit table leaves a registry with: nothing, if the registry
has been initialised at some time, and all that it had, if it has not. -/
theorem Run.runTable_emptied_iff (hrun : Run (fresh settings) 0 es w hand)
    (hg : w.registry? r = some g) (hran : (w.exitTable g.exits).ran = false) :
    (w.runTable g.exits).1.Kept hand ∧
    ∃ g', World.registry? (w.runTable g.exits).1 r = some g' ∧
      ((w.runTable g.exits).1.Emptied g' ↔ Event.wasUp r es = true ∨ w.Emptied g) ∧
      (Event.wasUp r es = false → g' = g ∧ ∀ t,
        (w.runTable g.exits).1.locals.get? t g.threadLocale = w.locals.get? t g.threadLocale) := by
  have hk := hrun.kept
  have ht := hrun.tells
  have hplaced : g.exits < w.exits.length :=
    ht.orderly.placed (f := g.front) (congrArg (Option.map Registry.front) hg)
  have htear := hk.tearsDown_runTable hplaced hran
  have hmem := ht.mem_toTearDown_iff hg hran
  refine ⟨(hk.runTable g.exits).kept, ?_⟩
  cases hwas : Event.wasUp r es with
  | true =>
      obtain ⟨g', hg', -, -, hempty⟩ := htear.emptied hg (hmem.2 hwas)
      exact ⟨g', hg', iff_of_true hempty (Or.inl rfl), fun h => nomatch h⟩
  | false =>
      have hspared : r ∉ toTearDown (w.exitTable g.exits) := by
        rw [hmem, hwas]
        exact Bool.false_ne_true
      obtain ⟨hg', hget⟩ := htear.spared hg hspared
      have hget : ∀ t, (w.runTable g.exits).1.locals.get? t g.threadLocale =
          w.locals.get? t g.threadLocale := hget
      refine ⟨g, hg', ?_, fun _ => ⟨rfl, hget⟩⟩
      rw [emptied_congr hget]
      exact ⟨Or.inr, fun h => h.resolve_left Bool.false_ne_true⟩

/-- A facet that one registry has created for the classic locale of another outlives the
table of both. -/
theorem Run.runTable_emptied_iff_borrowed : ∃ w hand g,
    Run (fresh {}) 0 [.registered 0 (.ok 0), .registered 0 (.ok 1), .classic 0 0,
      .used 1 0 false .transcoder 3] w hand ∧ w.registry? 1 = some g ∧
      (w.exitTable g.exits).ran = false ∧ World.registry? (w.runTable g.exits).1 1 = some g ∧
      ¬(w.runTable g.exits).1.Emptied g := by
  have hrun : Run (fresh {}) 0 [.registered 0 (.ok 0), .registered 0 (.ok 1), .classic 0 0,
      .used 1 0 false .transcoder 3] _ _ :=
    .cons (.registered 0 0 Nat.one_pos) <| .cons (.registered 0 0 Nat.one_pos) <|
    .cons (.classic rfl) <|
    .cons (.used .transcoder rfl (Multiset.mem_cons_self _ _)) .nil
  obtain ⟨-, g', hg', hiff, hspared⟩ := hrun.runTable_emptied_iff (r := 1) rfl rfl
  obtain ⟨rfl, -⟩ := hspared rfl
  refine ⟨_, _, _, hrun, rfl, rfl, hg', ?_⟩
  rw [hiff]
  rintro (hwas | hempty)
  · cases hwas
  · exact absurd hempty.entries (by decide)

end Hosted.World
