import Hosted.Log.Journal
import Hosted.Proofs.World.Notices

/-!
# Warnings

Which entries a log takes of the notices given depends on its threshold. A log that takes
warnings warns of each teardown that was refused, and of nothing else in those words.
-/

namespace Hosted

variable {threshold : Log.Threshold} {timestamp : String}

/-- An occurrence that is logged as a refused teardown is one. -/
theorem Occurrence.eq_teardownRefused {o : Occurrence}
    (h : (o.entry timestamp).event = "locale.teardown_unregistered") :
    ∃ f, o = .teardownRefused f := by
  cases o with
  | teardownRefused f => exact ⟨f, rfl⟩
  | fatal f => cases f <;> exact absurd h (by simp [entry, Fault.kind])
  | _ => exact absurd h (by simp [entry])

namespace Notice

/-- The entry that a log takes of a notice. -/
def taken? (threshold : Log.Threshold) (timestamp : String) : Notice → Option Log.Entry
  | logged o => some (o.entry timestamp) |>.filter fun entry => threshold.passes entry.level
  | _ => none

/-- The entries that warn of a teardown that is not queued. -/
def warnings (threshold : Log.Threshold) (timestamp : String) (notices : List Notice) :
    List Log.Entry :=
  (notices.filterMap (taken? threshold timestamp)).filter
    (·.event = "locale.teardown_unregistered")

theorem warnings_cons (n : Notice) (notices : List Notice) :
    warnings threshold timestamp (n :: notices) =
      (taken? threshold timestamp n).toList.filter (·.event = "locale.teardown_unregistered") ++
        warnings threshold timestamp notices := by
  unfold warnings
  rw [List.filterMap_cons]
  cases taken? threshold timestamp n with
  | none => rfl
  | some entry => rw [← List.filter_append]; rfl

/-- A log that takes warnings has one for each teardown that was refused. -/
theorem warnings_eq (h : threshold.passes .warn = true) (notices : List Notice) :
    warnings threshold timestamp notices =
      (notices.filterMap refusal?).map fun f => (Occurrence.teardownRefused f).entry timestamp := by
  have hone : ∀ n : Notice, (taken? threshold timestamp n).toList.filter
      (·.event = "locale.teardown_unregistered") =
        n.refusal?.toList.map fun f => (Occurrence.teardownRefused f).entry timestamp := by
    intro n
    cases n with
    | logged o =>
        by_cases hevent : (o.entry timestamp).event = "locale.teardown_unregistered"
        · obtain ⟨f, rfl⟩ := Occurrence.eq_teardownRefused hevent
          have hpasses : threshold.passes
            ((Occurrence.teardownRefused f).entry timestamp).level = true := h
          rw [taken?, Option.filter_some, if_pos hpasses]
          rfl
        · have hnone : (logged o).refusal? = none := by
            cases o with
            | teardownRefused f => exact absurd rfl hevent
            | _ => rfl
          rw [hnone, taken?, Option.filter_some]
          split
          · rw [Option.toList_some, List.filter_cons_of_neg (by simpa using hevent)]
            rfl
          · rfl
    | _ => rfl
  induction notices with
  | nil => rfl
  | cons n notices ih =>
      rw [warnings_cons, hone, ih, List.filterMap_cons]
      cases n.refusal? <;> rfl

end Notice

end Hosted
