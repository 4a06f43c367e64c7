import Hosted.Proofs.Run.ExitTeardown
import Hosted.Proofs.Run.Turns
import Hosted.Proofs.World.Warnings

/-!
# Teardowns are queued once

Along a `Course` of turns from the beginning of a process, the exit table of a registry has
its teardown queued once as soon as the registry has been initialised, and it stays so until
the table runs. From then on nothing is queued there. Each time the registry goes up again,
its log warns once.

While the table runs, its handlers take turns of their own, and so do other threads. From the
opening of the table until the registry is torn down, the teardown that the table has given out
is due. Whoever makes the registry go up in that time gets no warning, and needs none: the
teardown is still to come. A run of the table is not over before that.
-/

namespace Hosted

/-- An exit table has given out the teardown of registry `r`, and the registry has not been torn
down since. -/
def Event.isDue (r : RegistryId) (es : List Event) : Bool := (recent r es).any (·.givesOut r)

theorem Event.isDue_concat (r : RegistryId) (es : List Event) (e : Event) :
    isDue r (es ++ [e]) = (!e.tearsDown r && (e.givesOut r || isDue r es)) :=
  any_recent_concat r es e (·.givesOut r)

theorem Front.queued_after {f : Front} {r : RegistryId} {e : Event} (hqueued : f.queued = true)
    (htear : e.tearsDown r = false) (n : LocaleId) (ran : Bool) :
    (f.after r n ran e).queued = true := by
  rw [Front.after, htear, if_neg Bool.false_ne_true]
  split
  · split <;> rfl
  · exact hqueued

namespace World

open Log (Threshold)

/-- A turn as it was seen: its event and the notices it gave. -/
structure Seen where
  event : Event
  notices : List Notice

/-- The notices given on the way from `w` to `w'`. -/
def noticed (w w' : World) : List Notice := w'.notices.drop w.notices.length

/-- The turns of a process from its beginning, the latest last. -/
inductive Course (settings : Settings) : List Seen → World → Prop where
  | start : Course settings [] (fresh settings)
  | turn {past w e w'} : Course settings past w → Turn w e w' →
      Course settings (past ++ [⟨e, w.noticed w'⟩]) w'

variable {settings : Settings} {threshold : Threshold} {past : List Seen} {w w' : World}
  {e : Event} {r : RegistryId} {g : Registry} {f : Front} {faults : List Fault}

/-! ## Warnings of a turn -/

theorem Warns.warnings_eq (h : w.Warns faults w') (hthreshold : threshold.passes .warn = true)
    (timestamp : String) :
    Notice.warnings threshold timestamp (w.noticed w') =
      faults.map fun f => (Occurrence.teardownRefused f).entry timestamp := by
  obtain ⟨new, hnew, hfaults⟩ := h.notices
  rw [noticed, hnew, List.drop_left, Notice.warnings_eq hthreshold, hfaults]

theorem Hushed.warnings_eq_nil (h : w.Hushed w') (hthreshold : threshold.passes .warn = true)
    (timestamp : String) : Notice.warnings threshold timestamp (w.noticed w') = [] := by
  obtain ⟨new, hnew, hall⟩ := h
  rw [noticed, hnew, List.drop_left, Notice.warnings_eq hthreshold,
    List.filterMap_eq_nil_iff.2 hall]
  rfl

/-- Registry `r` goes up on the way from `w` to `w'`. -/
structure GoesUp (w : World) (r : RegistryId) (w' : World) : Prop where
  down : w.isReady r = false
  up : w'.isReady r = true

theorem isReady_eq (hf : w.front? r = some f) : w.isReady r = f.global.isSome := by
  obtain ⟨g, hg, rfl⟩ := front?_eq_some hf
  rw [isReady, hg]
  rfl

/-- A registry that is initialised is up afterwards, and only then can it go up. -/
theorem Turn.isReady_eq (h : Turn w e w') (hp : w.Poised) (hf : w.front? r = some f) :
    w'.isReady r = (!e.tearsDown r && (e.initialises r || w.isReady r)) := by
  rw [World.isReady_eq ((h.moves hp).front? hf), World.isReady_eq hf, Front.after]
  cases htear : e.tearsDown r with
  | true => rfl
  | false =>
      cases hinit : e.initialises r with
      | true =>
          simp only [Bool.false_eq_true, if_false, if_true]
          split <;> rfl
      | false => rfl

/-- A registry that is up takes its teardown for queued. -/
theorem Turn.warnings_of_up (h : Turn w e w') (hp : w.Poised) (hf : w.front? r = some f)
    (hinit : e.initialises r = true) (hup : w.isReady r = true)
    (hthreshold : threshold.passes .warn = true) (timestamp : String) :
    Notice.warnings threshold timestamp (w.noticed w') = [] := by
  have hc := hp.orderly.coherent hf
  rw [World.isReady_eq hf, ← hc.both] at hup
  rw [((h.queues hp).warns hf hinit).warnings_eq hthreshold, hc.queued hup]
  rfl

/-- Before the exit table has run, teardowns are not refused. -/
theorem Turn.warnings_of_not_ran (h : Turn w e w') (hp : w.Poised) (hf : w.front? r = some f)
    (hinit : e.initialises r = true) (hran : (w.exitTable f.exits).ran = false)
    (hthreshold : threshold.passes .warn = true) (timestamp : String) :
    Notice.warnings threshold timestamp (w.noticed w') = [] := by
  rw [((h.queues hp).warns hf hinit).warnings_eq hthreshold, hran, refusals, Bool.not_false,
    Bool.or_true]
  rfl

/-- A turn warns only about what it initialises. -/
theorem Turn.exists_of_warnings (h : Turn w e w') (hp : w.Poised)
    (hthreshold : threshold.passes .warn = true) {timestamp : String}
    (hnone : e.initialises r = true → Notice.warnings threshold timestamp (w.noticed w') = [])
    (hwarns : Notice.warnings threshold timestamp (w.noticed w') ≠ []) :
    ∃ r', r' ≠ r ∧ e.initialises r' = true := by
  by_contra hother
  have hinit : e.initialises r = false := Bool.eq_false_iff.2 fun hinit => hwarns (hnone hinit)
  refine hwarns (((h.queues hp).hushed fun r' => ?_).warnings_eq_nil hthreshold timestamp)
  rw [Bool.eq_false_iff]
  intro hinit'
  refine hother ⟨r', ?_, hinit'⟩
  rintro rfl
  rw [hinit] at hinit'
  cases hinit'

/-! ## Courses -/

theorem Orderly.exitTable_eq (ho : w.Orderly) {t : TableId} (hran : (w.exitTable t).ran = true) :
    w.exitTable t = { handlers := [], ran := true } := by
  have hnil := ho.closed hran
  generalize w.exitTable t = table at hran hnil ⊢
  obtain ⟨handlers, ran⟩ := table
  exact congrArg₂ ExitTable.mk hnil hran

theorem Course.poised (h : Course settings past w) : w.Poised := by
  induction h with
  | start => exact poised_fresh settings
  | turn _ hturn ih => exact hturn.poised ih

theorem Course.tells (h : Course settings past w) : w.Tells (past.map (·.event)) := by
  induction h with
  | start => exact tells_fresh settings
  | turn hcourse hturn ih =>
      rw [List.map_append]
      exact ih.step (hturn.moves hcourse.poised)

/-- A table that has not run had not run before. -/
theorem Moves.not_ran (h : w.Moves e w')
    (hran : ∀ f, w'.front? r = some f → (w'.exitTable f.exits).ran = false) (f : Front)
    (hf : w.front? r = some f) : (w.exitTable f.exits).ran = false := by
  rw [Bool.eq_false_iff]
  intro htrue
  have hstill := hran _ (h.front? hf)
  rw [Front.exits_after, h.ran htrue] at hstill
  cases hstill

/-- No turn so far has warned for a registry whose exit table has not run. -/
theorem Course.silent (h : Course settings past w) (hthreshold : threshold.passes .warn = true)
    (hran : ∀ f, w.front? r = some f → (w.exitTable f.exits).ran = false) :
    ∀ x ∈ past, ∀ timestamp, Notice.warnings threshold timestamp x.notices ≠ [] →
      ∃ r', r' ≠ r ∧ x.event.initialises r' = true := by
  induction h with
  | start => exact fun x hx => nomatch hx
  | @turn past w e w' hcourse hturn ih =>
      have hp := hcourse.poised
      have hmoves := hturn.moves hp
      have hran₀ := hmoves.not_ran hran
      intro x hx timestamp hwarns
      rcases List.mem_append.1 hx with hx | hx
      · exact ih hran₀ x hx timestamp hwarns
      · rw [List.mem_singleton] at hx
        subst hx
        refine hturn.exists_of_warnings hp hthreshold (fun hinit => ?_) hwarns
        cases hf : w.front? r with
        | none =>
            rw [(hmoves.fresh hf).1] at hinit
            cases hinit
        | some f => exact hturn.warnings_of_not_ran hp hf hinit (hran₀ f hf) hthreshold timestamp

/-! ### Teardowns that are due -/

/-- A table gives out the teardowns of registries that take them for queued. -/
theorem Turn.queued_of_givesOut (h : Turn w e w') (hp : w.Poised) (hgives : e.givesOut r = true) :
    ∃ f, w.front? r = some f ∧ f.queued = true ∧ (w'.exitTable f.exits).ran = true := by
  cases e with
  | opened t registries =>
      cases h with
      | call hstep _ =>
          cases hstep with
          | opened _ ht _ =>
              have hmem := mem_toTearDown_iff.1 (of_decide_eq_true hgives)
              obtain ⟨f, hf, rfl, hqueued⟩ := hp.orderly.own hmem
              exact ⟨f, hf, hqueued, ran_setExitTable ht⟩
  | _ => cases hgives

/-- As long as its teardown is due, a registry takes it for queued. -/
theorem Course.queued_of_due (h : Course settings past w)
    (hdue : Event.isDue r (past.map (·.event)) = true) :
    ∃ f, w.front? r = some f ∧ f.queued = true ∧ (w.exitTable f.exits).ran = true := by
  induction h with
  | start => cases hdue
  | @turn past w e w' hcourse hturn ih =>
      have hmoves := hturn.moves hcourse.poised
      rw [List.map_append, List.map_singleton, Event.isDue_concat, Bool.and_eq_true,
        Bool.or_eq_true, Bool.not_eq_true'] at hdue
      obtain ⟨htear, hdue⟩ := hdue
      obtain ⟨f, hf, hqueued, hran⟩ : ∃ f, w.front? r = some f ∧ f.queued = true ∧
          (w'.exitTable f.exits).ran = true := by
        rcases hdue with hgives | hdue
        · exact hturn.queued_of_givesOut hcourse.poised hgives
        · obtain ⟨f, hf, hqueued, hran⟩ := ih hdue
          exact ⟨f, hf, hqueued, hmoves.ran hran⟩
      refine ⟨_, hmoves.front? hf, Front.queued_after hqueued htear _ _, ?_⟩
      rw [Front.exits_after, hran]

/-- Once its exit table has run and its teardown is not due any more, a registry that is down
does not take its teardown for queued. -/
theorem Course.reset (h : Course settings past w)
    (hdue : Event.isDue r (past.map (·.event)) = false) (hf : w.front? r = some f)
    (hran : (w.exitTable f.exits).ran = true) (hdown : f.classic = none) : f.queued = false := by
  induction h generalizing f with
  | start => cases hf
  | @turn past w e w' hcourse hturn ih =>
      have hp := hcourse.poised
      have hmoves := hturn.moves hp
      rw [List.map_append, List.map_singleton, Event.isDue_concat] at hdue
      cases hf₀ : w.front? r with
      | none =>
          obtain ⟨-, hnone | ⟨exits, hnew⟩⟩ := hmoves.fresh hf₀
          · rw [hnone] at hf
            cases hf
          · rw [hnew, Option.some.injEq] at hf
            rw [← hf]
      | some f₀ =>
          have hafter := hmoves.front? hf₀
          rw [hf, Option.some.injEq] at hafter
          have hexits : f.exits = f₀.exits := by rw [hafter, Front.exits_after]
          rw [hexits] at hran
          rw [hran, Front.after] at hafter
          cases htear : e.tearsDown r with
          | true =>
              rw [hafter, htear, if_pos rfl, Front.tornDown, Bool.not_true, Bool.and_false]
          | false =>
              rw [htear, Bool.not_false, Bool.true_and, Bool.or_eq_false_iff] at hdue
              rw [htear, if_neg Bool.false_ne_true] at hafter
              split at hafter
              · split at hafter
                · rw [hafter] at hdown
                  cases hdown
                · rw [hafter] at hdown
                  cases hdown
              · subst hafter
                cases hran₀ : (w.exitTable f.exits).ran with
                | true => exact ih hdue.2 hf₀ hran₀ hdown
                | false =>
                    rw [Bool.eq_false_iff]
                    intro hqueued
                    have hmem := mem_toTearDown_iff.2 (hp.orderly.queued hf₀ hqueued hran₀)
                    rcases (hturn.queues hp).started hran₀ hran r hmem with hnow | hgives
                    · rw [hnow] at htear
                      cases htear
                    · rw [hdue.1] at hgives
                      cases hgives

/-- A registry that goes up while its teardown is due is not warned about. -/
theorem Course.warnings_of_due (h : Course settings past w)
    (hdue : Event.isDue r (past.map (·.event)) = true) (hturn : Turn w e w')
    (hinit : e.initialises r = true) (hthreshold : threshold.passes .warn = true)
    (timestamp : String) : Notice.warnings threshold timestamp (w.noticed w') = [] := by
  obtain ⟨f, hf, hqueued, -⟩ := h.queued_of_due hdue
  rw [((hturn.queues h.poised).warns hf hinit).warnings_eq hthreshold, hqueued]
  rfl

/-- A registry that goes up after its exit table has run is warned about once. -/
theorem Course.warnings_of_down (h : Course settings past w)
    (hdue : Event.isDue r (past.map (·.event)) = false) (hturn : Turn w e w')
    (hf : w.front? r = some f) (hinit : e.initialises r = true)
    (hran : (w.exitTable f.exits).ran = true) (hdown : w.isReady r = false)
    (hthreshold : threshold.passes .warn = true) (timestamp : String) :
    Notice.warnings threshold timestamp (w.noticed w') =
      [(Occurrence.teardownRefused .exitTableClosed).entry timestamp] := by
  have hp := h.poised
  rw [World.isReady_eq hf, ← (hp.orderly.coherent hf).both, Option.isSome_eq_false_iff,
    Option.isNone_iff_eq_none] at hdown
  rw [((hturn.queues hp).warns hf hinit).warnings_eq hthreshold, hran,
    h.reset hdue hf hran hdown]
  rfl

/-- What is said of the teardown of registry `r`, which is to be queued in table `exits`,
when the turns `past` have led to `w`. -/
structure QueuedOnce (threshold : Threshold) (past : List Seen) (w : World) (r : RegistryId)
    (exits : TableId) : Prop where
  /-- Until the table runs, the teardown is there once if the registry has ever been
  initialised. -/
  pending : (w.exitTable exits).ran = false →
    (w.exitTable exits).handlers.count (.teardown r) =
      if Event.wasUp r (past.map (·.event)) then 1 else 0
  /-- Until then all warnings are about other registries. -/
  silent : (w.exitTable exits).ran = false → ∀ x ∈ past, ∀ timestamp,
    Notice.warnings threshold timestamp x.notices ≠ [] →
      ∃ r', r' ≠ r ∧ x.event.initialises r' = true
  /-- From then on no handler is added. -/
  closed : (w.exitTable exits).ran = true → (w.exitTable exits).handlers = [] ∧
    ∀ {e w'}, Turn w e w' → w'.exitTable exits = w.exitTable exits
  /-- Whoever makes the registry go up initialises it. -/
  initialised : ∀ {e w'}, Turn w e w' → w.GoesUp r w' → e.initialises r = true
  /-- After the table has run there is one warning each time the registry goes up. -/
  warned : (w.exitTable exits).ran = true → Event.isDue r (past.map (·.event)) = false →
    ∀ {e w'}, Turn w e w' → w.GoesUp r w' → ∀ timestamp,
      Notice.warnings threshold timestamp (w.noticed w') =
        [(Occurrence.teardownRefused .exitTableClosed).entry timestamp]
  /-- While it runs and the teardown is due, there is none. The teardown stays due then. -/
  awaited : Event.isDue r (past.map (·.event)) = true → (w.exitTable exits).ran = true ∧
    ∀ {e w'}, Turn w e w' → w.GoesUp r w' →
      Event.isDue r (past.map (·.event) ++ [e]) = true ∧
        ∀ timestamp, Notice.warnings threshold timestamp (w.noticed w') = []
  /-- What does not make the registry go up does not warn about it. -/
  unwarned : ∀ {e w'}, Turn w e w' → ¬w.GoesUp r w' → ∀ timestamp,
    Notice.warnings threshold timestamp (w.noticed w') ≠ [] →
      ∃ r', r' ≠ r ∧ e.initialises r' = true

/-- In every course a registry queues its teardown exactly once, and once its exit table has
run, it warns of the teardown that is not queued exactly when it goes up. -/
theorem Course.queued_once (h : Course settings past w) (hg : w.registry? r = some g)
    (hthreshold : threshold.passes .warn = true) : QueuedOnce threshold past w r g.exits := by
  have hp := h.poised
  have hf : w.front? r = some g.front := congrArg (Option.map Registry.front) hg
  have hup : ∀ {e w'}, Turn w e w' → w.GoesUp r w' → e.initialises r = true := by
    intro e w' hturn hgoes
    have hready := hturn.isReady_eq hp hf
    rw [hgoes.up, hgoes.down, Bool.or_false] at hready
    exact (Bool.and_eq_true_iff.1 hready.symm).2
  constructor
  case pending =>
    intro hran
    rw [← count_toTearDown, (hp.nodup g.exits).count]
    simp only [h.tells.mem_toTearDown_iff hg hran]
  case silent =>
    intro hran
    refine h.silent hthreshold fun f hf' => ?_
    rw [hf, Option.some.injEq] at hf'
    subst hf'
    exact hran
  case closed =>
    intro hran
    refine ⟨hp.orderly.closed hran, fun {e w'} hturn => ?_⟩
    have hmoves := hturn.moves hp
    rw [hmoves.orderly.exitTable_eq (hmoves.ran hran), hp.orderly.exitTable_eq hran]
  case initialised => exact hup
  case warned =>
    intro hran hdue e w' hturn hgoes timestamp
    exact h.warnings_of_down hdue hturn hf (hup hturn hgoes) hran hgoes.down hthreshold timestamp
  case awaited =>
    intro hdue
    obtain ⟨f, hf', -, hran⟩ := h.queued_of_due hdue
    rw [hf, Option.some.injEq] at hf'
    subst hf'
    refine ⟨hran, fun {e w'} hturn hgoes => ?_⟩
    have hinit := hup hturn hgoes
    refine ⟨?_, h.warnings_of_due hdue hturn hinit hthreshold⟩
    rw [Event.isDue_concat, Event.not_tearsDown_of_initialises hinit, hdue, Bool.or_true]
    rfl
  case unwarned =>
    intro e w' hturn hgoes timestamp
    refine hturn.exists_of_warnings hp hthreshold fun hinit => ?_
    have hafter : w'.isReady r = true := by
      rw [hturn.isReady_eq hp hf, Event.not_tearsDown_of_initialises hinit, hinit]
      rfl
    have hready : w.isReady r = true := by
      by_contra hdown
      exact hgoes ⟨Bool.eq_false_iff.2 hdown, hafter⟩
    exact hturn.warnings_of_up hp hf hinit hready hthreshold timestamp

/-- A registry that was torn down by hand, built again and torn down again before its exit table
ran is queued once. It is not warned about when it is built while its own teardown is due, and is
warned about once when it is built after that. -/
theorem Course.queued_once_rebuilt : ∃ past past' past'' w w' v w'' v' g,
    Course {} past w ∧ (w.exitTable 0).handlers.count (.teardown 0) = 1 ∧
    Course {} past' w' ∧ Event.isDue 0 (past'.map (·.event)) = true ∧
    Turn w' (.classic 0 2) v ∧ w'.GoesUp 0 v ∧
    Notice.warnings (.atLeast .info) "" (w'.noticed v) = [] ∧
    Course {} past'' w'' ∧ w''.registry? 0 = some g ∧
    (Threshold.atLeast .info).passes .warn = true ∧ (w''.exitTable g.exits).ran = true ∧
    Turn w'' (.classic 0 3) v' ∧ w''.GoesUp 0 v' ∧
    Notice.warnings (.atLeast .info) "" (w''.noticed v') =
      [(Occurrence.teardownRefused .exitTableClosed).entry ""] := by
  have hclassic : ∀ {w : World}, (w.registry? 0).isSome →
      Turn w (.classic 0 (w.classicLocale 0).2) (w.classicLocale 0).1 :=
    fun hr => .call (@Step.classic _ 0 _ hr) fun h => nomatch h
  have htear : ∀ {w : World}, (w.registry? 0).isSome →
      Turn w (.toreDown 0 (w.teardown 0).2) (w.teardown 0).1 :=
    fun hr => .call (@Step.toreDown _ 0 _ hr) fun h => nomatch h
  have hmade : Course {} _ _ := .turn .start
    (.call (@Step.registered (fresh {}) 0 0 0 Nat.one_pos) fun h => nomatch h)
  have htorn : Course {} _ _ := (hmade.turn (hclassic rfl)).turn (htear rfl)
  have hagain : Course {} _ _ := (htorn.turn (hclassic rfl)).turn (htear rfl)
  have hopened : Course {} _ _ := hagain.turn
    (.call (@Step.opened _ 0 0 Nat.one_pos rfl) fun h => nomatch h)
  have hran : Course {} _ _ := (hopened.turn (hclassic rfl)).turn (htear rfl)
  have hbefore : QueuedOnce (.atLeast .info) _ _ 0 _ := hagain.queued_once rfl rfl
  have hmeanwhile : QueuedOnce (.atLeast .info) _ _ 0 _ := hopened.queued_once rfl rfl
  have hafter : QueuedOnce (.atLeast .info) _ _ 0 _ := hran.queued_once rfl rfl
  have hsilent := ((hmeanwhile.awaited rfl).2 (hclassic rfl) ⟨rfl, rfl⟩).2 ""
  have hwarned := hafter.warned rfl rfl (hclassic rfl) ⟨rfl, rfl⟩ ""
  exact ⟨_, _, _, _, _, _, _, _, _, hagain, hbefore.pending rfl, hopened, rfl, hclassic rfl,
    ⟨rfl, rfl⟩, hsilent, hran, rfl, rfl, rfl, hclassic rfl, ⟨rfl, rfl⟩, hwarned⟩

end World

end Hosted
