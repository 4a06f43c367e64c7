import Hosted.Proofs.Session.Blind

/-!
# Runs under different logs

Whether anything is logged, from which level on, by whom and to where, has no influence on
what commands do: two sessions that agree in all but their logs give the same outcomes with the
same events, command by command, and agree in the end. Only the lines that they show differ.
-/

namespace Hosted

/-- What there is to an answer besides lines of the log. -/
def Answer.unlogged (a : Answer) : Outcome × List String := (a.outcome, a.events)

namespace Session

variable {s s' s'' : Session} {c : Command} {cs : List Command}

/-- The two sessions agree in all but their logs. -/
def AgreeButLog (s s' : Session) : Prop := s.relog {} = s'.relog {}

theorem agreeButLog_relog (s : Session) (g : Logging) : s.AgreeButLog (s.relog g) := rfl

namespace AgreeButLog

theorem symm (h : s.AgreeButLog s') : s'.AgreeButLog s := Eq.symm h

theorem trans (h : s.AgreeButLog s') (h' : s'.AgreeButLog s'') : s.AgreeButLog s'' := Eq.trans h h'

theorem exists_relog (h : s.AgreeButLog s') : ∃ g, s' = s.relog g := by
  let g : Logging := ⟨s'.journal, s'.emitters, s'.outputs, s'.watched⟩
  exact ⟨g, (congrArg (·.relog g) h).symm⟩

theorem of_blind {α : Type} {f : Session → Session × α} (hf : Blind f) (h : s.AgreeButLog s') :
    (f s).1.AgreeButLog (f s').1 ∧ (f s).2 = (f s').2 := by
  obtain ⟨g, rfl⟩ := h.exists_relog
  rw [hf]
  exact ⟨rfl, rfl⟩

/-- The notices go to different journals, and the events in them are the same. -/
theorem collect (h : s.AgreeButLog s') :
    s.collect.1.AgreeButLog s'.collect.1 ∧ s.collect.2 = s'.collect.2 := by
  obtain ⟨g, rfl⟩ := h.exists_relog
  exact ⟨rfl, rfl⟩

theorem newLines (s : Session) : s.AgreeButLog s.newLines.1 := by
  unfold Session.newLines
  split
  · rfl
  · split <;> rfl

theorem answer (h : s.AgreeButLog s') (hc : c.step.isLog = false) :
    (s.answer c).1.AgreeButLog (s'.answer c).1 ∧
      (s.answer c).2.unlogged = (s'.answer c).2.unlogged := by
  obtain ⟨hdone, houtcome⟩ := of_blind (blind_perform? hc) h
  obtain ⟨hcollected, hevents⟩ := hdone.collect
  exact ⟨((newLines _).symm.trans hcollected).trans (newLines _), Prod.ext houtcome hevents⟩

end AgreeButLog

end Session

end Hosted
