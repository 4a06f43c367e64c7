import Hosted.Proofs.Run.Locales
import Hosted.Proofs.Run.Settings

/-!
# The locale of a thread

Each thread has one setting in each registry. What it is can be told from the events of a
run: it is what the thread itself set last in this registry, unless the thread has ended or
the registry has been torn down since. With a setting the thread's locale is that one, and
without it is the global one of the moment.
-/

namespace Hosted

namespace Event

/-! ## Histories -/

/-- The locale that thread `t` set last in registry `r`, if it was one and nothing has taken
it away since. -/
def chosen? (r : RegistryId) (t : ThreadId) (es : List Event) : Option LocaleId :=
  ((es.reverse.takeWhile fun e => !e.forgets r t).findSome? (·.sets? r t)).join

/-- Thread `t` has ended. -/
def hasEnded (t : ThreadId) (es : List Event) : Bool := es.any (·.ends t)

/-- The step changed what thread `t` had set in registry `r`: it was a call of this thread on
this registry, or the end of the one or a teardown of the other. -/
def concerns (r : RegistryId) (t : ThreadId) : Event → Bool
  | .setThread r' t' _ _ => r' = r && t' = t
  | e => e.forgets r t

variable {r : RegistryId} {t : ThreadId} {e : Event} {es : List Event}

theorem chosen?_concat (r : RegistryId) (t : ThreadId) (es : List Event) (e : Event) :
    chosen? r t (es ++ [e]) =
      if e.forgets r t then none else (e.sets? r t).getD (chosen? r t es) := by
  unfold chosen?
  rw [List.reverse_append, List.reverse_singleton, List.singleton_append, List.takeWhile_cons]
  cases e.forgets r t with
  | true => rfl
  | false =>
      simp only [Bool.not_false, if_true, List.findSome?_cons, Bool.false_eq_true, if_false]
      cases e.sets? r t <;> rfl

theorem hasEnded_concat (t : ThreadId) (es : List Event) (e : Event) :
    hasEnded t (es ++ [e]) = (hasEnded t es || e.ends t) := by
  simp [hasEnded]

theorem sets?_eq_none (h : e.concerns r t = false) : e.sets? r t = none := by
  cases e <;> first | rfl | skip
  next r' t' l result =>
    cases result with
    | error _ => rfl
    | ok _ =>
        refine if_neg ?_
        rintro ⟨rfl, rfl⟩
        simp [concerns] at h

theorem forgets_eq_false (h : e.concerns r t = false) : e.forgets r t = false := by
  cases e <;> first | rfl | exact h

/-- A thread that has set nothing has no setting. -/
theorem chosen?_eq_none (h : ∀ l result, .setThread r t l result ∉ es) : chosen? r t es = none := by
  unfold chosen?
  have hnone : (es.reverse.takeWhile fun e => !e.forgets r t).findSome? (·.sets? r t) = none := by
    refine List.findSome?_eq_none_iff.2 fun e he => ?_
    have hmem : e ∈ es := List.mem_reverse.1 ((List.takeWhile_prefix _).subset he)
    cases e <;> first | rfl | skip
    next r' t' l result =>
      cases result with
      | error _ => rfl
      | ok _ =>
          refine if_neg ?_
          rintro ⟨rfl, rfl⟩
          exact h _ _ hmem
  rw [hnone]
  rfl

end Event

namespace World

variable {w w' : World} {hand hand' : Multiset Holding} {es es' : List Event}
  {r : RegistryId} {t : ThreadId} {settings : Settings}

/-! ## Settings along a run -/

/-- The run `es` so far tells what threads have set, and which of them have ended. -/
structure Recalls (w : World) (es : List Event) : Prop where
  settingOf : ∀ r t, w.settingOf r t = Event.chosen? r t es
  ended : ∀ t, w.locals.thread t = .ended ↔ Event.hasEnded t es = true

theorem recalls_fresh (settings : Settings) : (fresh settings).Recalls [] where
  settingOf _ _ := rfl
  ended t := by simp [fresh, Locals.thread, Event.hasEnded]

theorem Recalls.step {e : Event} (h : w.Recalls es) (hsets : w.Sets e w') :
    w'.Recalls (es ++ [e]) where
  settingOf r t := by rw [hsets.settingOf, Event.chosen?_concat, h.settingOf]
  ended t := by
    rw [hsets.ended, h.ended, Event.hasEnded_concat, Bool.or_eq_true]

theorem Run.recalls_append (hrun : Run w hand es w' hand') (hk : w.Kept hand) (ho : w.Orderly)
    (h : w.Recalls es') : w'.Recalls (es' ++ es) := by
  induction hrun generalizing es' with
  | nil => rwa [List.append_nil]
  | @cons w hand e _ _ es _ _ hstep _ ih =>
      rw [List.append_cons]
      exact ih (hstep.keeps hk).kept (hstep.moves hk ho).orderly (h.step (hstep.sets hk ho))

/-- Wherever a process gets, its run so far tells what threads have set. -/
theorem Run.recalls (hrun : Run (fresh settings) 0 es w hand) : w.Recalls es :=
  hrun.recalls_append (kept_fresh settings) (tells_fresh settings).orderly
    (recalls_fresh settings)

/-! ## The locale of a thread -/

theorem Orderly.threadLocale_snd (ho : w.Orderly) {g : Registry} (hg : w.registry? r = some g)
    (t : ThreadId) :
    (w.threadLocale r t).2 = (w.settingOf r t).getD (w.globalLocale r).2 := by
  have hf : w.front? r = some g.front := congrArg (Option.map Registry.front) hg
  rw [settingOf_of_registry hg]
  cases hl : (w.locals.get? t g.threadLocale).bind Payload.chosen? with
  | some l => exact (idle_threadLocale hg (bind_chosen?_eq_some_iff.1 hl)).2
  | none =>
      have hunset : ∀ l, w.locals.get? t g.threadLocale ≠ some (.setting (some l)) := by
        intro l hv
        rw [bind_chosen?_eq_some_iff.2 hv] at hl
        cases hl
      have hanswer := (publishes_threadLocale hg (ho.placed hf) (ho.coherent hf) t hunset).2
      exact Option.some.inj (hanswer.trans (ho.globalLocale_snd hf).symm)

/-- What is known of the locale of thread `t` in registry `r` at `w`, to which a run `es` has
led. -/
structure PerThread (w : World) (hand : Multiset Holding) (es : List Event) (r : RegistryId)
    (t : ThreadId) : Prop where
  /-- The thread's locale is the one that it set last, if that was one and the thread has not
  ended nor the registry been torn down since, and else the global one. -/
  answer : (w.threadLocale r t).2 = (Event.chosen? r t es).getD (w.globalLocale r).2
  /-- The global locale is the last one put in its place, by whatever thread, or else the
  classic one. -/
  global : (w.globalLocale r).2 = (Event.replacement? r es).getD (w.classicLocale r).2
  /-- A thread that sets a locale is told what it had set before. -/
  before : Event.hasEnded t es = false → ∀ l,
    (w.setThreadLocale r t l).2 = .ok (Event.chosen? r t es)
  /-- A thread that has ended sets nothing. -/
  refused : Event.hasEnded t es = true → ∀ l,
    (∃ index, (w.setThreadLocale r t l).2 = .error (.bindFailed index)) ∧
      ∀ r' t', (w.setThreadLocale r t l).1.settingOf r' t' = w.settingOf r' t'
  /-- The setting is the thread's own in this registry: all other calls leave it alone. -/
  own : w.settingOf r t = Event.chosen? r t es
  others : ∀ {e w' hand'}, Step w hand e w' hand' → e.concerns r t = false →
    w'.settingOf r t = w.settingOf r t
  /-- A thread begins without a setting, whatever threads before it have set. -/
  begins : (∀ l result, .setThread r t l result ∉ es) →
    (w.threadLocale r t).2 = (w.globalLocale r).2

/-- Wherever a process gets, the locale of each thread in each registry is what the run
tells. -/
theorem Run.perThread (hrun : Run (fresh settings) 0 es w hand) (hr : (w.registry? r).isSome)
    (t : ThreadId) : w.PerThread hand es r t := by
  have hk := hrun.kept
  have ht := hrun.tells
  have hrecalls := hrun.recalls
  obtain ⟨g, hg⟩ := Option.isSome_iff_exists.1 hr
  have hf : w.front? r = some g.front := congrArg (Option.map Registry.front) hg
  have hanswer : (w.threadLocale r t).2 = (Event.chosen? r t es).getD (w.globalLocale r).2 := by
    rw [ht.orderly.threadLocale_snd hg, hrecalls.settingOf]
  refine ⟨hanswer, ht.globalLocale_snd hf, ?_, ?_, hrecalls.settingOf r t, ?_, ?_⟩
  · intro hrunning l
    rcases hk.setThreadLocale_eq hg t l with ⟨-, hok, -, -⟩ | ⟨hended, -, -⟩
    · rw [hok, hrecalls.settingOf]
    · rw [(hrecalls.ended t).1 hended] at hrunning
      cases hrunning
  · intro hended l
    rcases hk.setThreadLocale_eq hg t l with ⟨hrunning, -, -, -⟩ | ⟨-, herr, hsettled⟩
    · exact absurd ((hrecalls.ended t).2 hended) hrunning
    · exact ⟨herr, hsettled.settingOf⟩
  · intro e w' hand' hstep hother
    rw [(hstep.sets hk ht.orderly).settingOf, Event.forgets_eq_false hother,
      Event.sets?_eq_none hother]
    rfl
  · intro hnone
    rw [hanswer, Event.chosen?_eq_none hnone]
    rfl

/-- A thread has set a locale, another one has ended, and a third one has set nothing. -/
theorem Run.perThread_of_two : ∃ w hand,
    Run (fresh {}) 0 [.registered 0 (.ok 0), .empty 0 1, .setThread 0 1 (some 1) (.ok none),
        .threadEnded 2] w hand ∧
      w.PerThread hand [.registered 0 (.ok 0), .empty 0 1, .setThread 0 1 (some 1) (.ok none),
        .threadEnded 2] 0 1 ∧
      (w.threadLocale 0 1).2 = 1 ∧ (w.threadLocale 0 3).2 = 0 := by
  have hrun : Run (fresh {}) 0 [.registered 0 (.ok 0), .empty 0 1,
      .setThread 0 1 (some 1) (.ok none), .threadEnded 2] _ _ :=
    .cons (.registered 0 0 Nat.one_pos) <| .cons (.empty rfl) <|
    .cons (@Step.setThread _ 0 0 1 (some 1) rfl) <| .cons (.threadEnded 2) .nil
  have hone := hrun.perThread (r := 0) rfl 1
  have hthree := hrun.perThread (r := 0) rfl 3
  exact ⟨_, _, hrun, hone, hone.answer, hthree.answer⟩

end World

end Hosted
