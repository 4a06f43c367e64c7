import Hosted.Proofs.Session.HandleSteps
import Hosted.Proofs.Session.RegistrySteps
import Hosted.Proofs.Session.ThreadSteps

/-!
# Reachable sessions

A session is reachable if it has come, by commands of any kind on any threads, from one
of the two beginnings. The one thing that a command must not do is to give back a slot
under a live thread local.
-/

namespace Hosted.Session

open World

variable {s s' : Session} {extra : Multiset Holding} {t : ThreadId} {c : Command}

/-! ## The process and the log -/

theorem Valid.start (h : s.Valid extra) (t : ThreadId) :
    s.Leads extra (s.perform (·.start t)).1 extra := by
  have hstarted := h.onStep .started
  have hown := hstarted.valid.onStep (.owned t)
  have hsome : ∀ r, _ → _ := fun r => isSome_registry?_ownRegistry (r := r) (t := t)
    hstarted.valid.owns
  simp only [Session.perform, World.start]
  split
  · exact h.refl
  · simp only at hown hsome
    generalize World.ownRegistry { s.world with started := true } t = owned at hown hsome ⊢
    obtain ⟨w, result⟩ := owned
    cases result with
    | error f => exact hstarted.trans hown
    | ok r =>
        have hensure := hown.valid.onStep (.ensured (hsome r rfl))
        exact ((hstarted.trans hown).trans hensure).trans
          (hensure.valid.aside (World.aside_notify _ rfl))

theorem Valid.stop (h : s.Valid extra) : s.Leads extra (s.perform World.stop).1 extra := by
  have hrun := h.onStep (.tableRun World.processTable)
  simp only [Session.perform, World.stop]
  split
  · exact hrun.trans (hrun.valid.aside (World.aside_notify _ rfl))
  · exact hrun

theorem Valid.processStep (h : s.Valid extra) (t : ThreadId) (step : ProcessStep) :
    s.Leads extra (s.processStep t step).1 extra := by
  cases step with
  | start => exact h.start t
  | startForC => exact h.start t
  | stop => exact h.stop
  | stopForC => exact h.stop
  | isStarted => exact h.refl
  | settings => exact h.refl
  | counters => exact h.refl
  | raise fault => exact h.aside (s.world.aside_raise fault)
  | outOfMemory what size => exact h.aside (s.world.aside_raise _)

/-- Only the log changes, which is no part of the environment. -/
theorem Valid.relog (h : s.Valid extra) (journal : Log.Journal) (emitters : Names Log.Emitter)
    (outputs : Names Nat) :
    s.Leads extra { s with journal, emitters, outputs } extra :=
  h.rehold rfl rfl fun hkept => { h with kept := hkept }

theorem Valid.answerEmitter (h : s.Valid extra) (keep : Option String)
    (e : Option Log.Emitter) : s.Leads extra (s.answerEmitter keep e).1 extra := by
  unfold Session.answerEmitter
  split
  · exact h.relog _ _ _
  · exact h.refl

theorem Valid.logStep (h : s.Valid extra) (step : LogStep) :
    s.Leads extra (s.logStep step).1 extra := by
  cases step with
  | makeEmitter emitter runId room => exact h.relog _ _ _
  | emit emitter entry => exact h.withNamed fun _ _ => h.relog _ _ _
  | flush emitter =>
      refine h.withNamed fun e _ => ?_
      cases s.journal.outputs[e.output]? with
      | none => exact h.refl
      | some o => exact h.refl
  | output output =>
      refine h.withNamed fun i _ => ?_
      cases s.journal.outputs[i]? <;> exact h.refl
  | install emitter level keep =>
      refine h.withNamed fun e _ => ?_
      have hlog := h.relog (s.journal.install e level).1 (s.emitters.erase emitter) s.outputs
      exact hlog.trans (hlog.valid.answerEmitter keep _)
  | uninstall keep =>
      have hlog := h.relog s.journal.uninstall.1 s.emitters s.outputs
      exact hlog.trans (hlog.valid.answerEmitter keep _)
  | report entry => exact h.relog _ _ _
  | enabled => exact h.relog _ _ _
  | configure settings => exact h.relog _ _ _

/-! ## Commands -/

/-- The command does not give back a slot under a live thread local. -/
def Allows (s : Session) (c : Command) : Prop :=
  ∀ ref, c.step = .slot (.give ref) → s.Free ref

theorem Valid.performStep (h : s.Valid 0) (on : Option String) (t : ThreadId) {step : Step}
    (hfree : ∀ ref, step = .slot (.give ref) → s.Free ref) :
    s.Leads 0 (s.performStep on t step).1 0 := by
  cases step with
  | exit step => exact h.exitStep step
  | registry step => exact h.registryStep t step
  | locale step => exact h.localeStep step
  | facet step => exact h.facetStep step
  | slot step =>
      refine h.slotStep fun ref href => hfree ref ?_
      rw [href]
  | threadLocal step => exact h.localStep on t step
  | log step => exact h.logStep step
  | handle step => exact h.handleStep t step
  | process step => exact h.processStep t step
  | endThread => exact h.endThread (on.getD "")

theorem free_threadOf {ref : SlotRef} (h : s.Free ref) (on : Option String) :
    (s.threadOf on).1.Free ref := by
  cases on with
  | none => exact h
  | some name =>
      simp only [Session.threadOf]
      cases s.threads.find? name <;> exact h

theorem Valid.perform? (h : s.Valid 0) (hc : s.Allows c) : s.Leads 0 (s.perform? c).1 0 := by
  have hthread := h.threadOf c.on
  have hgo : s.Leads 0 ((s.threadOf c.on).1.performStep c.on (s.threadOf c.on).2 c.step).1 0 :=
    hthread.trans (hthread.valid.performStep _ _ fun ref href => free_threadOf (hc ref href) _)
  unfold Session.perform?
  split
  · exact h.endThread _
  · exact hgo

theorem Valid.collect (h : s.Valid extra) : s.collect.1.Valid extra :=
  { h with kept := h.kept.forget s.world.counters }

theorem Valid.newLines (h : s.Valid extra) : s.newLines.1.Valid extra := by
  unfold Session.newLines
  split
  · exact h
  · split
    · exact h
    · exact { h with kept := h.kept }

theorem world_newLines (s : Session) : s.newLines.1.world = s.world := by
  unfold Session.newLines
  split
  · rfl
  · split <;> rfl

theorem Valid.answer (h : s.Valid 0) (hc : s.Allows c) : (s.answer c).1.Valid 0 :=
  (h.perform? hc).valid.collect.newLines

theorem notices_answer (s : Session) (c : Command) : (s.answer c).1.world.notices = [] := by
  have hworld := world_newLines (s.perform? c).1.collect.1
  exact (congrArg World.notices hworld).trans rfl

/-! ## Beginnings -/

/-- The sessions that commands can lead to. -/
inductive Reachable : Session → Prop where
  | alone (settings : Settings) (timestamp : String) (level : Option Log.Level) :
      Reachable (alone settings timestamp level)
  | opened (timestamp : String) (level : Option Log.Level) : Reachable (opened timestamp level)
  | answer {s : Session} (c : Command) : Reachable s → s.Allows c → Reachable (s.answer c).1

theorem Valid.watch (h : s.Valid extra) (level : Option Log.Level) :
    (s.watch level).Valid extra := by
  cases level with
  | none => exact h
  | some level => exact { h with kept := h.kept }

theorem valid_alone (settings : Settings) (timestamp : String) (level : Option Log.Level) :
    (alone settings timestamp level).Valid 0 := by
  refine Valid.watch ?_ level
  refine ⟨Names.sorted_empty, Names.sorted_empty, Names.sorted_empty, Names.sorted_empty, ?_, ?_,
    ?_, Nat.one_pos, ?_, ?_, kept_fresh settings⟩
  · exact fun _ hh => absurd hh List.not_mem_nil
  · exact fun _ hr => absurd hr List.not_mem_nil
  · exact fun _ ht => absurd ht List.not_mem_nil
  · exact fun _ hid => absurd hid List.not_mem_nil
  · exact fun r hr => nomatch hr

theorem kept_openedWorld : openedWorld.Kept 0 ∧ openedWorld.OwnsRegistry := by
  have hown := (kept_fresh {}).ownRegistry 0
  have hindex : ∀ {w : World} (kinds : List FacetKind), w.Kept 0 →
      w.Keeps (kinds.foldl (fun w kind => (w.indexOf kind).1) w) 0 := by
    intro w kinds h
    induction kinds generalizing w with
    | nil => exact h.refl
    | cons kind kinds ih => exact (h.indexOf kind).trans (ih (h.indexOf kind).kept)
  have hkinds := hown.trans (hindex knownKinds hown.kept)
  have howns := hkinds.extended.process fun r hr => nomatch hr
  unfold openedWorld
  simp only
  generalize knownKinds.foldl _ _ = w at hkinds howns ⊢
  cases hp : w.processRegistry with
  | none => exact ⟨hkinds.kept.forget {}, fun r hr => howns r hr⟩
  | some r =>
      obtain ⟨g, hg⟩ := Option.isSome_iff_exists.1 (howns r hp)
      have hqueued : w.Keeps (w.modifyRegistry r ({ · with teardownQueued := true })) 0 :=
        hkinds.kept.modifyRegistry hg rfl rfl id (fun _ => Or.inl) fun _ => rfl
      exact ⟨hqueued.kept.forget {}, hqueued.extended.process howns⟩

theorem valid_opened (timestamp : String) (level : Option Log.Level) :
    (opened timestamp level).Valid 0 := by
  refine Valid.watch ?_ level
  refine ⟨Names.sorted_empty, Names.sorted_empty, Names.sorted_empty, Names.sorted_empty, ?_, ?_,
    ?_, Nat.one_pos, ?_, kept_openedWorld.2, kept_openedWorld.1⟩
  · exact fun _ hh => absurd hh List.not_mem_nil
  · exact fun _ hr => absurd hr List.not_mem_nil
  · exact fun _ ht => absurd ht List.not_mem_nil
  · exact fun _ hid => absurd hid List.not_mem_nil

theorem Reachable.valid (h : s.Reachable) : s.Valid 0 := by
  induction h with
  | alone settings timestamp level => exact valid_alone settings timestamp level
  | opened timestamp level => exact valid_opened timestamp level
  | answer c _ hc ih => exact ih.answer hc

theorem Reachable.notices_eq (h : s.Reachable) : s.world.notices = [] := by
  cases h with
  | alone settings timestamp level => cases level <;> rfl
  | opened timestamp level => cases level <;> rfl
  | answer c _ _ => exact notices_answer _ c

end Hosted.Session
