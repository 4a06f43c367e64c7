import Hosted.Proofs.Registry.Teardown
import Hosted.Proofs.Run.Kept

/-!
# Fronts along a run

An event tells of each registry whether it was initialised or torn down by the step, and
with that what became of its front. The environment stays `Orderly` in the meantime: a
registry that has queued its teardown finds it in its exit table until the table runs.
-/

namespace Hosted

/-- The locale in a setting. -/
def Payload.chosen? : Payload → Option LocaleId
  | .setting l => l
  | .tracked _ => none

theorem bind_chosen?_eq_some_iff {value : Option Payload} {l : LocaleId} :
    value.bind Payload.chosen? = some l ↔ value = some (.setting (some l)) := by
  rcases value with _ | _ | l' <;> simp [Payload.chosen?]

namespace Event

/-- The step published what had not been published of a registry. -/
def initialises (r : RegistryId) : Event → Bool
  | .classic r' _ | .global r' _ | .empty r' _ | .ensured r' | .replaced r' _ _ => r' = r
  | .ofThread r' _ value _ => r' = r && (value.bind Payload.chosen?).isNone
  | .found r' _ transparent _ _ | .used r' _ transparent _ _ => r' = r && transparent
  | _ => false

/-- The step tore a registry down. -/
def tearsDown (r : RegistryId) : Event → Bool
  | .toreDown r' _ => r' = r
  | .tableRun _ registries _ => r ∈ registries
  | _ => false

/-- A table gave out the teardown of a registry, which is still to be carried out. -/
def givesOut (r : RegistryId) : Event → Bool
  | .opened _ registries => r ∈ registries
  | _ => false

/-- The global locale that the step put in place of a registry's. -/
def replaces? (r : RegistryId) : Event → Option LocaleId
  | .replaced r' l _ => if r' = r then some l else none
  | _ => none

end Event

/-- The front of registry `r` after a step, if `n` is the number of the next locale and the
exit table has run by then or has not. -/
def Front.after (f : Front) (r : RegistryId) (n : LocaleId) (ran : Bool) (e : Event) : Front :=
  if e.tearsDown r then f.tornDown ran
  else if e.initialises r then
    match e.replaces? r with
    | some l => { f.published n with global := some l }
    | none => f.published n
  else f

theorem Front.Coherent.after {f : Front} (h : f.Coherent) (r : RegistryId) (n : LocaleId)
    (ran : Bool) (e : Event) : (f.after r n ran e).Coherent := by
  unfold Front.after
  split
  · exact Front.coherent_of_none rfl rfl
  · split
    · split
      · exact ⟨rfl, fun _ => rfl⟩
      · exact f.coherent_published n
    · exact h

theorem Front.exits_after (f : Front) (r : RegistryId) (n : LocaleId) (ran : Bool) (e : Event) :
    (f.after r n ran e).exits = f.exits := by
  unfold Front.after
  split
  · rfl
  · split
    · split <;> rfl
    · rfl

namespace World

/-- Fronts are coherent, and queued teardowns are where they belong. -/
structure Orderly (w : World) : Prop where
  coherent : ∀ {r f}, w.front? r = some f → f.Coherent
  placed : ∀ {r f}, w.front? r = some f → f.exits < w.exits.length
  queued : ∀ {r f}, w.front? r = some f → f.queued = true →
    (w.exitTable f.exits).ran = false → .teardown r ∈ (w.exitTable f.exits).handlers
  own : ∀ {r t}, .teardown r ∈ (w.exitTable t).handlers →
    ∃ f, w.front? r = some f ∧ f.exits = t ∧ f.queued = true
  closed : ∀ {t}, (w.exitTable t).ran = true → (w.exitTable t).handlers = []
  process : processTable < w.exits.length

/-- What a step does to fronts and exit tables. -/
structure Moves (w : World) (e : Event) (w' : World) : Prop where
  front? : ∀ {r f}, w.front? r = some f → w'.front? r =
    some (f.after r w.locales.objects.length (w'.exitTable f.exits).ran e)
  fresh : ∀ {r}, w.front? r = none → e.initialises r = false ∧
    (w'.front? r = none ∨ ∃ exits, w'.front? r = some ⟨none, none, false, exits⟩)
  ran : ∀ {t}, (w.exitTable t).ran = true → (w'.exitTable t).ran = true
  orderly : w'.Orderly

variable {w w' w'' : World} {hand hand' : Multiset Holding} {e : Event} {r : RegistryId}
  {rs rs' : List RegistryId} {f f' : Front} {t : TableId}

theorem after_of_quiet (hinit : e.initialises r = false) (htear : e.tearsDown r = false)
    (f : Front) (n : LocaleId) (ran : Bool) : f.after r n ran e = f := by
  unfold Front.after
  rw [htear, hinit]
  rfl

/-! ## The kinds of steps -/

theorem Steady.orderly (h : w.Steady w') (ho : w.Orderly) : w'.Orderly where
  coherent hf := ho.coherent ((h.front? _).symm.trans hf)
  placed hf := by
    rw [h.exits]
    exact ho.placed ((h.front? _).symm.trans hf)
  queued hf hq hran := by
    rw [h.exitTable] at hran ⊢
    exact ho.queued ((h.front? _).symm.trans hf) hq hran
  own hmem := by
    rw [h.exitTable] at hmem
    obtain ⟨f, hf, ht⟩ := ho.own hmem
    exact ⟨f, (h.front? _).trans hf, ht⟩
  closed hran := by
    rw [h.exitTable] at hran ⊢
    exact ho.closed hran
  process := by
    rw [h.exits]
    exact ho.process

theorem Steady.moves (h : w.Steady w') (ho : w.Orderly)
    (hquiet : ∀ r, e.initialises r = false ∧ e.tearsDown r = false) : w.Moves e w' where
  front? {r f} hf := by
    rw [after_of_quiet (hquiet r).1 (hquiet r).2, h.front?, hf]
  fresh {r} hf := ⟨(hquiet r).1, Or.inl ((h.front? r).trans hf)⟩
  ran hran := by rwa [h.exitTable]
  orderly := h.orderly ho

theorem Publishes.ran_eq (h : w.Publishes r f f' w') (t : TableId) :
    (w'.exitTable t).ran = (w.exitTable t).ran := by
  rw [h.exitTable]
  split
  · unfold Front.queue
    split <;> rfl
  · rfl

theorem Publishes.teardown_mem (h : w.Publishes r f f' w') {r' : RegistryId}
    (hmem : .teardown r' ∈ (w.exitTable t).handlers) :
    .teardown r' ∈ (w'.exitTable t).handlers := by
  rw [h.exitTable]
  split
  · unfold Front.queue
    split
    · exact hmem
    · exact List.mem_append_left _ hmem
  · exact hmem

theorem Publishes.mem_of_teardown (h : w.Publishes r f f' w') {r' : RegistryId}
    (hmem : .teardown r' ∈ (w'.exitTable t).handlers) :
    .teardown r' ∈ (w.exitTable t).handlers ∨ (r' = r ∧ t = f.exits) := by
  rw [h.exitTable] at hmem
  split at hmem
  · next ht =>
      unfold Front.queue at hmem
      split at hmem
      · exact Or.inl hmem
      · rcases List.mem_append.1 hmem with hmem | hmem
        · exact Or.inl hmem
        · rw [List.mem_singleton, Handler.teardown.injEq] at hmem
          exact Or.inr ⟨hmem, ht⟩
  · exact Or.inl hmem

theorem Publishes.orderly (h : w.Publishes r f f' w') (ho : w.Orderly) (hf : w.front? r = some f)
    (hexits : f'.exits = f.exits) (hqueued : f'.queued = true) (hcoherent : f'.Coherent) :
    w'.Orderly := by
  have hself : w'.front? r = some f' := (h.front? r).trans (if_pos rfl)
  have hcases : ∀ {r' f₀}, w'.front? r' = some f₀ →
      (r' = r ∧ f₀ = f') ∨ w.front? r' = some f₀ := by
    intro r' f₀ hf₀
    rw [h.front?] at hf₀
    split at hf₀
    · next hr => exact Or.inl ⟨hr, (Option.some.inj hf₀).symm⟩
    · exact Or.inr hf₀
  refine ⟨?_, ?_, ?_, ?_, ?_, h.exits_length ▸ ho.process⟩
  · intro r' f₀ hf₀
    rcases hcases hf₀ with ⟨-, rfl⟩ | hf₀
    · exact hcoherent
    · exact ho.coherent hf₀
  · intro r' f₀ hf₀
    rw [h.exits_length]
    rcases hcases hf₀ with ⟨-, rfl⟩ | hf₀
    · rw [hexits]
      exact ho.placed hf
    · exact ho.placed hf₀
  · intro r' f₀ hf₀ hq hran
    rw [h.ran_eq] at hran
    rcases hcases hf₀ with ⟨rfl, rfl⟩ | hf₀
    · rw [hexits] at hran ⊢
      cases hbefore : f.queued with
      | true => exact h.teardown_mem (ho.queued hf hbefore hran)
      | false =>
          rw [h.exitTable, if_pos rfl, Front.queue, hbefore, hran]
          exact List.mem_append_right _ (List.mem_singleton.2 rfl)
    · exact h.teardown_mem (ho.queued hf₀ hq hran)
  · intro r' t hmem
    rcases h.mem_of_teardown hmem with hmem | ⟨rfl, rfl⟩
    · obtain ⟨f₀, hf₀, ht, hq⟩ := ho.own hmem
      by_cases hr : r' = r
      · subst hr
        rw [hf, Option.some.injEq] at hf₀
        subst hf₀
        exact ⟨f', hself, hexits.trans ht, hqueued⟩
      · exact ⟨f₀, (h.front? r').trans ((if_neg hr).trans hf₀), ht, hq⟩
    · exact ⟨f', hself, hexits, hqueued⟩
  · intro t hran
    have hran' := (h.ran_eq t).symm.trans hran
    rw [h.exitTable]
    split
    · rw [Front.queue, hran', Bool.or_true, if_pos rfl]
      exact ho.closed hran'
    · exact ho.closed hran'

theorem Publishes.moves (h : w.Publishes r f f' w') (ho : w.Orderly) (hf : w.front? r = some f)
    (hexits : f'.exits = f.exits) (hqueued : f'.queued = true)
    (hafter : ∀ ran, f.after r w.locales.objects.length ran e = f')
    (hquiet : ∀ r', r' ≠ r → e.initialises r' = false ∧ e.tearsDown r' = false) :
    w.Moves e w' where
  front? {r' f₀} hf₀ := by
    rw [h.front?]
    by_cases hr : r' = r
    · subst hr
      rw [hf, Option.some.injEq] at hf₀
      subst hf₀
      rw [if_pos rfl, hafter]
    · rw [if_neg hr, hf₀, after_of_quiet (hquiet r' hr).1 (hquiet r' hr).2]
  fresh {r'} hf₀ := by
    have hr : r' ≠ r := by
      rintro rfl
      rw [hf] at hf₀
      cases hf₀
    refine ⟨(hquiet r' hr).1, Or.inl ?_⟩
    rw [h.front?, if_neg hr, hf₀]
  ran hran := by rwa [h.ran_eq]
  orderly := by
    apply h.orderly ho hf hexits hqueued
    rw [← hafter false]
    exact (ho.coherent hf).after r _ _ e

/-! ### Teardowns -/

/-- The fronts of the registries `rs` are as after their teardown. -/
structure Clears (w : World) (rs : List RegistryId) (w' : World) : Prop where
  front? : ∀ r, w'.front? r =
    if r ∈ rs then (w.front? r).map fun f => f.tornDown (w.exitTable f.exits).ran
    else w.front? r
  exits : w'.exits = w.exits

namespace Clears

theorem of_steady (h : w.Steady w') : w.Clears [] w' where
  front? r := (h.front? r).trans (if_neg List.not_mem_nil).symm
  exits := h.exits

theorem congr (h : w.Clears rs w') (hrs : ∀ r, r ∈ rs' ↔ r ∈ rs) : w.Clears rs' w' where
  front? r := by simp only [h.front?, hrs]
  exits := h.exits

theorem exitTable (h : w.Clears rs w') (t : TableId) : w'.exitTable t = w.exitTable t := by
  rw [World.exitTable, h.exits]
  rfl

theorem trans (h : w.Clears rs w') (h' : w'.Clears rs' w'') : w.Clears (rs ++ rs') w'' where
  front? r := by
    rw [h'.front?, h.front?]
    simp only [h.exitTable, List.mem_append]
    by_cases hmem : r ∈ rs
    · by_cases hmem' : r ∈ rs'
      · rw [if_pos hmem', if_pos hmem, if_pos (Or.inl hmem), Option.map_map]
        exact congrArg (fun k => Option.map k (w.front? r))
          (funext fun f => f.tornDown_tornDown _)
      · rw [if_neg hmem', if_pos hmem, if_pos (Or.inl hmem)]
    · by_cases hmem' : r ∈ rs'
      · rw [if_pos hmem', if_neg hmem, if_pos (Or.inr hmem')]
      · rw [if_neg hmem', if_neg hmem, if_neg (not_or.2 ⟨hmem, hmem'⟩)]
  exits := h'.exits.trans h.exits

theorem front?_of_some (h : w.Clears rs w') (hf : w.front? r = some f) :
    w'.front? r = some (if r ∈ rs then f.tornDown (w.exitTable f.exits).ran else f) := by
  rw [h.front?, hf]
  split <;> rfl

theorem front?_of_none (h : w.Clears rs w') (hf : w.front? r = none) : w'.front? r = none := by
  rw [h.front?, hf, Option.map_none, ite_self]

theorem exists_front? (h : w.Clears rs w') (hf : w'.front? r = some f') :
    ∃ f, w.front? r = some f ∧
      f' = if r ∈ rs then f.tornDown (w.exitTable f.exits).ran else f := by
  cases hf₀ : w.front? r with
  | none =>
      rw [h.front?_of_none hf₀] at hf
      cases hf
  | some f =>
      rw [h.front?_of_some hf₀, Option.some.injEq] at hf
      exact ⟨f, rfl, hf.symm⟩

theorem orderly (h : w.Clears rs w') (ho : w.Orderly) : w'.Orderly where
  coherent hf' := by
    obtain ⟨f, hf, rfl⟩ := h.exists_front? hf'
    split
    · exact Front.coherent_of_none rfl rfl
    · exact ho.coherent hf
  placed hf' := by
    obtain ⟨f, hf, rfl⟩ := h.exists_front? hf'
    have hplaced := ho.placed hf
    rw [h.exits]
    split <;> exact hplaced
  queued hf' hq hran := by
    obtain ⟨f, hf, rfl⟩ := h.exists_front? hf'
    have hqueued := ho.queued hf
    rw [h.exitTable] at hran ⊢
    split at hq
    · next hmem =>
        rw [if_pos hmem] at hran ⊢
        exact hqueued (Bool.and_eq_true_iff.1 hq).1 hran
    · next hmem =>
        rw [if_neg hmem] at hran ⊢
        exact hqueued hq hran
  own hmem := by
    rw [h.exitTable] at hmem
    obtain ⟨f, hf, rfl, hq⟩ := ho.own hmem
    have hran : (w.exitTable f.exits).ran = false := by
      rw [Bool.eq_false_iff]
      intro hran
      rw [ho.closed hran] at hmem
      cases hmem
    refine ⟨_, h.front?_of_some hf, ?_⟩
    split
    · exact ⟨rfl, by rw [Front.tornDown, hq, hran]; rfl⟩
    · exact ⟨rfl, hq⟩
  closed hran := by
    rw [h.exitTable] at hran ⊢
    exact ho.closed hran
  process := by
    rw [h.exits]
    exact ho.process

theorem moves (h : w.Clears rs w') (ho : w.Orderly)
    (htear : ∀ r, e.tearsDown r = decide (r ∈ rs)) (hinit : ∀ r, e.initialises r = false) :
    w.Moves e w' where
  front? {r f} hf := by
    rw [h.front?_of_some hf, h.exitTable, Front.after, htear, hinit]
    simp only [decide_eq_true_eq, Bool.false_eq_true, if_false]
  fresh hf := ⟨hinit _, Or.inl (h.front?_of_none hf)⟩
  ran hran := by rwa [h.exitTable]
  orderly := h.orderly ho

end Clears

theorem clears_teardown (w : World) (r : RegistryId) : w.Clears [r] (w.teardown r).1 where
  front? r' := by
    unfold World.front?
    cases hr : w.registry? r with
    | none =>
        have hsame : (w.teardown r).1 = w := by
          unfold World.teardown
          rw [hr]
        rw [hsame]
        split
        · next hmem => rw [List.mem_singleton.1 hmem, hr]; rfl
        · rfl
    | some g =>
        rw [(teardown_eq hr).1]
        by_cases hr' : r' = r
        · rw [if_pos hr', if_pos (List.mem_singleton.2 hr'), hr', hr]
          rfl
        · rw [if_neg hr', if_neg (mt List.mem_singleton.1 hr')]
  exits := exits_teardown w r

theorem clears_runTable (ht : t < w.exits.length) (hran : (w.exitTable t).ran = false) :
    (w.setExitTable t { handlers := [], ran := true }).Clears (toTearDown (w.exitTable t))
      (w.runTable t).1 := by
  have hran' := ran_setExitTable ht
  obtain ⟨depth, heq⟩ := runTable_eq ht hran
  have hgo := foldl_handle (P := fun _ => True)
    (fun _ ha => ⟨trivial, Clears.of_steady ha.unmoved.steady⟩)
    (fun {w} r _ => ⟨trivial, w.clears_teardown r⟩) .trans hran' trivial depth
    (w.exitTable t).handlers.reverse
  rw [heq]
  refine (hgo.trans (.of_steady (unmoved_log _ _).steady)).congr fun r => ?_
  simp [toTearDown]

/-! ### Registries and tables -/

/-- There may be one more registry, which has published nothing. -/
structure Adds (w : World) (exits : TableId) (w' : World) : Prop where
  front? : ∀ {r f}, w.front? r = some f → w'.front? r = some f
  fresh : ∀ {r}, w.front? r = none →
    w'.front? r = none ∨ w'.front? r = some ⟨none, none, false, exits⟩
  exits : w'.exits = w.exits
  mild : w.Mild w'

theorem adds_addRegistry (w : World) (t : ThreadId) (exits : TableId) :
    w.Adds exits (w.addRegistry t exits).1 := by
  have hidle := w.idle_tryNewLocal t (.setting none)
  have hadds : ∀ {w' : World}, w.Idle w' → w.Adds exits w' := fun h =>
    ⟨fun hf => (h.steady.front? _).trans hf, fun hf => Or.inl ((h.steady.front? _).trans hf),
      h.steady.exits, h.mild⟩
  unfold addRegistry
  rcases w.newLocal_cases t (.setting none) with ⟨id, hnew, -⟩ | ⟨fault, hnew, -⟩
  · rw [hnew]
    have hone := hadds hidle
    generalize (w.tryNewLocal t (.setting none)).1 = w₁ at hone
    refine ⟨?_, ?_, hone.exits, hone.mild.trans (.of_eq rfl rfl rfl)⟩
    · intro r f hf
      obtain ⟨g, hg, rfl⟩ := front?_eq_some (hone.front? hf)
      exact congrArg (Option.map Registry.front) (registry?_withRegistry_of_some hg id exits)
    · intro r hf
      have hregistry := registry?_withRegistry w₁ id exits r
      by_cases hr : r = w₁.registries.length
      · rw [if_pos hr] at hregistry
        exact Or.inr (congrArg (Option.map Registry.front) hregistry)
      · rw [if_neg hr] at hregistry
        exact (hone.fresh hf).imp (congrArg (Option.map Registry.front) hregistry).trans
          (congrArg (Option.map Registry.front) hregistry).trans
  · rw [hnew]
    exact hadds (hidle.trans (idle_raise _ fault))

theorem adds_ownRegistry (w : World) (t : ThreadId) :
    w.Adds processTable (w.ownRegistry t).1 := by
  have hadds := w.adds_addRegistry t processTable
  unfold ownRegistry
  split
  · exact ⟨id, Or.inl, rfl, .refl w⟩
  · generalize w.addRegistry t processTable = added at hadds ⊢
    obtain ⟨w₁, result⟩ := added
    cases result with
    | error _ => exact hadds
    | ok r => exact ⟨hadds.front?, hadds.fresh, hadds.exits, hadds.mild.trans (.of_eq rfl rfl rfl)⟩

theorem Adds.moves {exits : TableId} (h : w.Adds exits w') (ho : w.Orderly)
    (hexits : exits < w.exits.length)
    (hquiet : ∀ r, e.initialises r = false ∧ e.tearsDown r = false) : w.Moves e w' := by
  have htable : ∀ t, w'.exitTable t = w.exitTable t := by
    intro t
    rw [World.exitTable, h.exits]
    rfl
  have hback : ∀ {r f}, w'.front? r = some f →
      w.front? r = some f ∨ f = ⟨none, none, false, exits⟩ := by
    intro r f hf
    cases hf₀ : w.front? r with
    | some f₀ => exact Or.inl ((h.front? hf₀).symm.trans hf)
    | none =>
        rcases h.fresh hf₀ with hnone | hnew
        · rw [hnone] at hf
          cases hf
        · rw [hnew, Option.some.injEq] at hf
          exact Or.inr hf.symm
  refine ⟨?_, ?_, fun hran => by rwa [htable], ?_⟩
  · intro r f hf
    rw [after_of_quiet (hquiet r).1 (hquiet r).2]
    exact h.front? hf
  · intro r hf
    exact ⟨(hquiet r).1, (h.fresh hf).imp id fun hnew => ⟨exits, hnew⟩⟩
  · refine ⟨?_, ?_, ?_, ?_, ?_, h.exits ▸ ho.process⟩
    · intro r f hf
      rcases hback hf with hf | rfl
      · exact ho.coherent hf
      · exact Front.coherent_of_none rfl rfl
    · intro r f hf
      rw [h.exits]
      rcases hback hf with hf | rfl
      · exact ho.placed hf
      · exact hexits
    · intro r f hf hq hran
      rw [htable] at hran ⊢
      rcases hback hf with hf | rfl
      · exact ho.queued hf hq hran
      · cases hq
    · intro r t hmem
      rw [htable] at hmem
      obtain ⟨f, hf, ht⟩ := ho.own hmem
      exact ⟨f, h.front? hf, ht⟩
    · intro t hran
      rw [htable] at hran ⊢
      exact ho.closed hran

/-- No front changes, and tables keep the teardowns in them. -/
structure Tables (w w' : World) : Prop where
  front? : ∀ r, w'.front? r = w.front? r
  exits_le : w.exits.length ≤ w'.exits.length
  mild : w.Mild w'
  closed : ∀ {t}, (w'.exitTable t).ran = true →
    (w'.exitTable t).handlers = (w.exitTable t).handlers

theorem Tables.moves (h : w.Tables w') (ho : w.Orderly)
    (hquiet : ∀ r, e.initialises r = false ∧ e.tearsDown r = false) : w.Moves e w' where
  front? {r f} hf := by
    rw [after_of_quiet (hquiet r).1 (hquiet r).2, h.front?, hf]
  fresh {r} hf := ⟨(hquiet r).1, Or.inl ((h.front? r).trans hf)⟩
  ran hran := by rwa [h.mild.ran]
  orderly := by
    have hteardown : ∀ {t r}, .teardown r ∈ (w'.exitTable t).handlers ↔
        .teardown r ∈ (w.exitTable t).handlers := by
      intro t r
      rw [← mem_toTearDown_iff, h.mild.queued, mem_toTearDown_iff]
    refine ⟨?_, ?_, ?_, ?_, ?_, Nat.lt_of_lt_of_le ho.process h.exits_le⟩
    · intro r f hf
      exact ho.coherent ((h.front? r).symm.trans hf)
    · intro r f hf
      exact Nat.lt_of_lt_of_le (ho.placed ((h.front? r).symm.trans hf)) h.exits_le
    · intro r f hf hq hran
      rw [h.mild.ran] at hran
      exact hteardown.2 (ho.queued ((h.front? r).symm.trans hf) hq hran)
    · intro r t hmem
      obtain ⟨f, hf, ht⟩ := ho.own (hteardown.1 hmem)
      exact ⟨f, (h.front? r).trans hf, ht⟩
    · intro t hran
      rw [h.closed hran]
      exact ho.closed ((h.mild.ran t).symm.trans hran)

theorem tables_addExitTable (w : World) : w.Tables w.addExitTable.1 := by
  have htable := w.exitTable_addExitTable
  refine ⟨fun _ => rfl, ?_, ⟨id, ?_, ?_, .of_eq rfl⟩, fun _ => by rw [htable]⟩
  · simp [addExitTable]
  · exact fun t => by rw [htable]
  · exact fun t => by rw [htable]

theorem tables_register (w : World) (t : TableId) (tag : String) (actions : List HandlerAction) :
    w.Tables (w.register t (.report tag actions)).1 := by
  cases hran : (w.exitTable t).ran with
  | true =>
      rw [register_of_ran hran]
      exact ⟨fun _ => rfl, Nat.le_refl _, mild_notify rfl w, fun _ => rfl⟩
  | false =>
      rw [register_of_not_ran hran]
      rcases Nat.lt_or_ge t w.exits.length with ht | ht
      · have htable := exitTable_setExitTable w ht
          ⟨(w.exitTable t).handlers ++ [.report tag actions], false⟩
        refine ⟨fun _ => rfl, Nat.le_of_eq (List.length_set ..).symm, ⟨id, ?_, ?_, .of_eq rfl⟩, ?_⟩
        · intro t'
          rw [htable]
          split
          · next heq => rw [heq, hran]
          · rfl
        · intro t'
          rw [htable]
          split
          · next heq => simp [heq, toTearDown]
          · rfl
        · intro t' hran'
          rw [htable] at hran' ⊢
          split
          · next heq =>
              rw [if_pos heq] at hran'
              cases hran'
          · rfl
      · rw [setExitTable_of_ge ht]
        exact ⟨fun _ => rfl, Nat.le_refl _, .refl w, fun _ => rfl⟩

/-- Once a table starts to run, nothing is queued in it. -/
theorem Orderly.start (ho : w.Orderly) (ht : t < w.exits.length) :
    (w.setExitTable t { handlers := [], ran := true }).Orderly := by
  have htable := exitTable_setExitTable w ht { handlers := [], ran := true }
  have hlen : (w.setExitTable t { handlers := [], ran := true }).exits.length =
      w.exits.length := List.length_set ..
  refine ⟨ho.coherent, ?_, ?_, ?_, ?_, hlen ▸ ho.process⟩
  · intro r f hf
    rw [hlen]
    exact ho.placed hf
  · intro r f hf hq hran
    rw [htable] at hran ⊢
    split at hran
    · cases hran
    · next hne =>
        rw [if_neg hne]
        exact ho.queued hf hq hran
  · intro r t' hmem
    rw [htable] at hmem
    split at hmem
    · cases hmem
    · exact ho.own hmem
  · intro t' hran
    rw [htable] at hran ⊢
    split
    · rfl
    · next hne =>
        rw [if_neg hne] at hran
        exact ho.closed hran

/-- A table that gives out its handlers changes no front. -/
theorem Orderly.moves_start (ho : w.Orderly) (ht : t < w.exits.length)
    (hquiet : ∀ r, e.initialises r = false ∧ e.tearsDown r = false) :
    w.Moves e (w.setExitTable t { handlers := [], ran := true }) where
  front? {r f} hf := by
    rw [after_of_quiet (hquiet r).1 (hquiet r).2]
    exact hf
  fresh {r} hf := ⟨(hquiet r).1, Or.inl hf⟩
  ran {t'} hran := by
    rw [exitTable_setExitTable w ht]
    split
    · rfl
    · exact hran
  orderly := ho.start ht

theorem moves_runTable (ho : w.Orderly) (t : TableId) (n : Nat) :
    w.Moves (.tableRun t (toTearDown (w.exitTable t)) n) (w.runTable t).1 := by
  have hquiet : (w.exitTable t).handlers = [] → ∀ r,
      (Event.tableRun t (toTearDown (w.exitTable t)) n).initialises r = false ∧
        (Event.tableRun t (toTearDown (w.exitTable t)) n).tearsDown r = false := by
    intro hnil r
    refine ⟨rfl, ?_⟩
    simp [Event.tearsDown, toTearDown, hnil]
  cases hran : (w.exitTable t).ran with
  | true =>
      rw [runTable_of_ran hran]
      exact (Steady.refl w).moves ho (hquiet (ho.closed hran))
  | false =>
      rcases Nat.lt_or_ge t w.exits.length with ht | ht
      · have hclears := clears_runTable ht hran
        have htable := exitTable_setExitTable w ht { handlers := [], ran := true }
        have hmoves := hclears.moves (e := .tableRun t (toTearDown (w.exitTable t)) n)
          (ho.start ht) (fun r => rfl) (fun r => rfl)
        refine ⟨hmoves.front?, hmoves.fresh, fun {t'} hran' => hmoves.ran ?_, hmoves.orderly⟩
        rw [htable]
        split
        · rfl
        · exact hran'
      · refine (aside_runTable_of_ge ht).unmoved.steady.moves ho (hquiet ?_)
        simp [World.exitTable, List.getElem?_eq_none ht]

end World

end Hosted
