import Hosted.Proofs.Run.Kinds

/-!
# Fronts along a run

What became of the front of a registry can be told from the events of a run. Since its
last teardown the registry has been initialised or has not; its global locale is the
last one that was put in place since, and the classic one if none was.
-/

namespace Hosted

namespace Event

/-! ## Histories -/

/-- The events since the last teardown of registry `r`, the latest first. -/
def recent (r : RegistryId) (es : List Event) : List Event :=
  es.reverse.takeWhile fun e => !e.tearsDown r

/-- Registry `r` has been initialised since its last teardown. -/
def isUp (r : RegistryId) (es : List Event) : Bool := (recent r es).any (·.initialises r)

/-- The locale that was last put in place of the global one since the last teardown. -/
def replacement? (r : RegistryId) (es : List Event) : Option LocaleId :=
  (recent r es).findSome? (·.replaces? r)

/-- Registry `r` has been initialised at some time. -/
def wasUp (r : RegistryId) (es : List Event) : Bool := es.any (·.initialises r)

variable {r : RegistryId} {e : Event} {es : List Event}

theorem recent_concat (r : RegistryId) (es : List Event) (e : Event) :
    recent r (es ++ [e]) = if e.tearsDown r then [] else e :: recent r es := by
  unfold recent
  rw [List.reverse_append, List.reverse_singleton, List.singleton_append, List.takeWhile_cons]
  cases e.tearsDown r <;> rfl

theorem any_recent_concat (r : RegistryId) (es : List Event) (e : Event) (p : Event → Bool) :
    (recent r (es ++ [e])).any p = (!e.tearsDown r && (p e || (recent r es).any p)) := by
  rw [recent_concat]
  cases e.tearsDown r <;> rfl

theorem isUp_concat (r : RegistryId) (es : List Event) (e : Event) :
    isUp r (es ++ [e]) = (!e.tearsDown r && (e.initialises r || isUp r es)) :=
  any_recent_concat r es e (·.initialises r)

theorem replacement?_concat (r : RegistryId) (es : List Event) (e : Event) :
    replacement? r (es ++ [e]) =
      if e.tearsDown r then none else (e.replaces? r).or (replacement? r es) := by
  unfold replacement?
  rw [recent_concat]
  split
  · rfl
  · rw [List.findSome?_cons]
    cases e.replaces? r <;> rfl

theorem wasUp_concat (r : RegistryId) (es : List Event) (e : Event) :
    wasUp r (es ++ [e]) = (wasUp r es || e.initialises r) := by
  simp [wasUp]

theorem not_initialises_of_tearsDown (h : e.tearsDown r = true) : e.initialises r = false := by
  cases e <;> first | rfl | cases h

theorem not_tearsDown_of_initialises (h : e.initialises r = true) : e.tearsDown r = false := by
  rw [Bool.eq_false_iff]
  intro htear
  rw [not_initialises_of_tearsDown htear] at h
  cases h

theorem not_replaces?_of_not_initialises (h : e.initialises r = false) : e.replaces? r = none := by
  cases e <;> first | rfl | skip
  next r' l before =>
    rw [Event.replaces?, if_neg]
    exact of_decide_eq_false h

/-- What is up has been initialised at some time. -/
theorem wasUp_of_isUp (h : isUp r es = true) : wasUp r es = true := by
  obtain ⟨e, he, hinit⟩ := List.any_eq_true.1 h
  refine List.any_eq_true.2 ⟨e, ?_, hinit⟩
  exact List.mem_reverse.1 ((List.takeWhile_prefix _).subset he)

theorem isUp_eq_false (h : wasUp r es = false) : isUp r es = false := by
  rw [Bool.eq_false_iff]
  intro hup
  rw [wasUp_of_isUp hup] at h
  cases h

theorem replacement?_of_not_isUp (h : isUp r es = false) : replacement? r es = none := by
  refine List.findSome?_eq_none_iff.2 fun e he => ?_
  exact not_replaces?_of_not_initialises (by simpa using List.any_eq_false.1 h e he)

end Event

/-- What a run so far tells of the front of registry `r`, whose exit table has run or has
not. -/
structure Front.Told (f : Front) (r : RegistryId) (ran : Bool) (es : List Event) : Prop where
  classic : f.classic.isSome = Event.isUp r es
  global : ∀ {c}, f.classic = some c → f.global = some ((Event.replacement? r es).getD c)
  queued : ran = false → f.queued = Event.wasUp r es

namespace Front

variable {f : Front} {r : RegistryId} {ran ran' : Bool} {e : Event} {es : List Event}

theorem Told.tearsDown (h : f.Told r ran es) (hran : ran = true → ran' = true)
    (htear : e.tearsDown r = true) : (f.tornDown ran').Told r ran' (es ++ [e]) := by
  refine ⟨?_, fun hc => absurd hc.symm (Option.some_ne_none _), ?_⟩
  · rw [Event.isUp_concat, htear]
    rfl
  · intro hran'
    have hqueued := h.queued (Bool.eq_false_iff.2 fun htrue => by simp [hran htrue] at hran')
    rw [Event.wasUp_concat, Event.not_initialises_of_tearsDown htear, Bool.or_false, ← hqueued,
      tornDown, hran', Bool.not_false, Bool.and_true]

theorem Told.quiet (h : f.Told r ran es) (hran : ran = true → ran' = true)
    (htear : e.tearsDown r = false) (hinit : e.initialises r = false) :
    f.Told r ran' (es ++ [e]) := by
  refine ⟨?_, ?_, ?_⟩
  · rw [Event.isUp_concat, htear, hinit, h.classic]
    rfl
  · intro c hc
    rw [Event.replacement?_concat, htear, Event.not_replaces?_of_not_initialises hinit]
    exact h.global hc
  · intro hran'
    have hqueued := h.queued (Bool.eq_false_iff.2 fun htrue => by simp [hran htrue] at hran')
    rw [Event.wasUp_concat, hinit, Bool.or_false, hqueued]

/-- What a run tells of the global locale of a front that is published next. -/
theorem Told.global_published (h : f.Told r ran es) (hc : f.Coherent) (n : LocaleId) {c : LocaleId}
    (hclassic : (f.published n).classic = some c) :
    (f.published n).global = some ((Event.replacement? r es).getD c) := by
  rw [published, Option.some.injEq] at hclassic
  subst hclassic
  cases hbefore : f.classic with
  | some c =>
      rw [published, hbefore, h.global hbefore]
      rfl
  | none =>
      have hdown : Event.isUp r es = false := by
        rw [← h.classic, hbefore]
        rfl
      rw [published, hbefore, hc.global_eq_none hbefore, Event.replacement?_of_not_isUp hdown]

/-- The front after an event is what the run with the event tells. -/
theorem Told.after (h : f.Told r ran es) (hc : f.Coherent) (n : LocaleId)
    (hran : ran = true → ran' = true) (e : Event) :
    (f.after r n ran' e).Told r ran' (es ++ [e]) := by
  unfold Front.after
  cases htear : e.tearsDown r with
  | true => exact h.tearsDown hran htear
  | false =>
      cases hinit : e.initialises r with
      | false => exact h.quiet hran htear hinit
      | true =>
          have hup : Event.isUp r (es ++ [e]) = true := by
            rw [Event.isUp_concat, htear, hinit]
            rfl
          have hwas : Event.wasUp r (es ++ [e]) = true := Event.wasUp_of_isUp hup
          have hrep := Event.replacement?_concat r es e
          rw [htear, if_neg Bool.false_ne_true] at hrep
          cases hl : e.replaces? r with
          | some l =>
              refine ⟨hup.symm, ?_, fun _ => hwas.symm⟩
              intro c _
              rw [hrep, hl]
              rfl
          | none =>
              refine ⟨hup.symm, ?_, fun _ => hwas.symm⟩
              intro c hclassic
              rw [hrep, hl, Option.none_or]
              exact h.global_published hc n hclassic

end Front

namespace World

variable {w w' : World} {hand hand' : Multiset Holding} {e : Event} {es es' : List Event}
  {r : RegistryId} {f : Front} {settings : Settings}

theorem Kept.bare (h : w.Kept hand) : w.Bare := fun o ho htransparent =>
  ((h.made o ho).bare htransparent).1

/-- What a step does to fronts is told by its event. -/
theorem Step.moves (hstep : Step w hand e w' hand') (h : w.Kept hand) (ho : w.Orderly) :
    w.Moves e w' := (hstep.kind h.bare ho).moves ho

/-! ## Runs -/

/-- The run `es` so far tells of all fronts. -/
structure Tells (w : World) (es : List Event) : Prop where
  orderly : w.Orderly
  told : ∀ {r f}, w.front? r = some f → f.Told r (w.exitTable f.exits).ran es
  unheard : ∀ {r}, w.front? r = none → Event.wasUp r es = false

theorem Tells.step (h : w.Tells es) (hmoves : w.Moves e w') : w'.Tells (es ++ [e]) := by
  refine ⟨hmoves.orderly, ?_, ?_⟩
  · intro r f' hf'
    cases hf : w.front? r with
    | some f =>
        have hafter := hmoves.front? hf
        rw [hf', Option.some.injEq] at hafter
        have hexits : f'.exits = f.exits := by rw [hafter, Front.exits_after]
        rw [hexits, hafter]
        exact (h.told hf).after (h.orderly.coherent hf) _ hmoves.ran e
    | none =>
        obtain ⟨hinit, hnone | ⟨exits, hnew⟩⟩ := hmoves.fresh hf
        · rw [hnone] at hf'
          cases hf'
        · rw [hnew, Option.some.injEq] at hf'
          subst hf'
          have hwas : Event.wasUp r (es ++ [e]) = false := by
            rw [Event.wasUp_concat, h.unheard hf, hinit]
            rfl
          exact ⟨(Event.isUp_eq_false hwas).symm, (fun hc => nomatch hc), fun _ => hwas.symm⟩
  · intro r hf'
    cases hf : w.front? r with
    | some f =>
        rw [hmoves.front? hf] at hf'
        cases hf'
    | none => rw [Event.wasUp_concat, h.unheard hf, (hmoves.fresh hf).1, Bool.or_false]

theorem tells_fresh (settings : Settings) : (fresh settings).Tells [] := by
  have htable : ∀ t, (fresh settings).exitTable t = {} := by
    intro t
    unfold exitTable fresh
    cases t <;> simp
  have hfront : ∀ {r f}, (fresh settings).front? r ≠ some f := fun hf => nomatch hf
  refine ⟨⟨fun hf => absurd hf hfront, fun hf => absurd hf hfront, fun hf => absurd hf hfront,
    ?_, ?_, Nat.one_pos⟩, fun hf => absurd hf hfront, fun _ => rfl⟩
  · intro r t hmem
    rw [htable] at hmem
    cases hmem
  · intro t hran
    rw [htable] at hran
    cases hran

theorem Run.tells_append (hrun : Run w hand es w' hand') (hk : w.Kept hand) (h : w.Tells es') :
    w'.Tells (es' ++ es) := by
  induction hrun generalizing es' with
  | nil => rwa [List.append_nil]
  | @cons w hand e _ _ es _ _ hstep _ ih =>
      rw [List.append_cons]
      exact ih (hstep.keeps hk).kept (h.step (hstep.moves hk h.orderly))

/-- Wherever a process gets, its run so far tells of all fronts. -/
theorem Run.tells (hrun : Run (fresh settings) 0 es w hand) : w.Tells es :=
  hrun.tells_append (kept_fresh settings) (tells_fresh settings)

end World

end Hosted
