import Hosted.Proofs.Run.Orderly

/-!
# The kinds of steps

As to fronts and exit tables there are few kinds of steps: most are idle, and the others
make or publish a registry, tear one down, or are about exit tables. The `Kind` of a step
is told by its event, and what a step does is told by its kind.
-/

namespace Hosted.World

/-- What a step with event `e` is to fronts and exit tables. -/
inductive Kind (w : World) (e : Event) (w' : World) : Prop where
  | idle : w.Idle w' → (∀ r, e.initialises r = false ∧ e.tearsDown r = false) → Kind w e w'
  | aside : w.Aside w' → e = .elsewhere → Kind w e w'
  | adds {exits} : w.Adds exits w' → exits < w.exits.length →
      (∀ r, e.initialises r = false ∧ e.tearsDown r = false) → Kind w e w'
  | publishes {r f f'} : w.Publishes r f f' w' → w.front? r = some f → f'.exits = f.exits →
      f'.queued = true → (∀ ran, f.after r w.locales.objects.length ran e = f') →
      (∀ r', e.initialises r' = decide (r = r')) → (∀ r', e.tearsDown r' = false) → Kind w e w'
  | tearsDown {r} : w.Clears [r] w' → w.Mild w' → (∀ r', e.tearsDown r' = decide (r' ∈ [r])) →
      (∀ r', e.initialises r' = false) → Kind w e w'
  | tables : w.Tables w' → (∀ r, e.initialises r = false ∧ e.tearsDown r = false) → Kind w e w'
  | opens {t} : t < w.exits.length → e = .opened t (toTearDown (w.exitTable t)) →
      w' = w.setExitTable t { handlers := [], ran := true } → Kind w e w'
  | runs {t n} : e = .tableRun t (toTearDown (w.exitTable t)) n → w' = (w.runTable t).1 →
      Kind w e w'

variable {w w' : World} {hand hand' : Multiset Holding} {e : Event} {r : RegistryId} {f : Front}

theorem Publishes.kind (h : w.Publishes r f (f.published w.locales.objects.length) w')
    (hf : w.front? r = some f) (hinit : ∀ r', e.initialises r' = decide (r = r'))
    (htear : ∀ r', e.tearsDown r' = false) (hsame : e.replaces? r = none) : w.Kind e w' := by
  refine .publishes h hf rfl rfl (fun ran => ?_) hinit htear
  simp [Front.after, hinit, htear, hsame]

theorem idle_globalLocale? (w : World) (r : RegistryId) : w.Idle (w.globalLocale? r).1 := by
  unfold globalLocale?
  split
  · exact idle_retainLocale _ _
  · exact .refl w

theorem Step.kind (hstep : Step w hand e w' hand') (hb : w.Bare) (ho : w.Orderly) :
    w.Kind e w' := by
  have hfront : ∀ {r : RegistryId}, (w.registry? r).isSome → ∃ f, w.front? r = some f := by
    intro r hr
    obtain ⟨g, hg⟩ := Option.isSome_iff_exists.1 hr
    exact ⟨g.front, congrArg (Option.map Registry.front) hg⟩
  cases hstep with
  | registered t exits hlt => exact .adds (w.adds_addRegistry t exits) hlt fun r => ⟨rfl, rfl⟩
  | owned t => exact .adds (w.adds_ownRegistry t) ho.process fun r => ⟨rfl, rfl⟩
  | classic hr =>
      obtain ⟨f, hf⟩ := hfront hr
      exact (publishes_classicLocale hf (ho.placed hf) (ho.coherent hf)).1.kind hf
        (fun _ => rfl) (fun _ => rfl) rfl
  | global hr =>
      obtain ⟨f, hf⟩ := hfront hr
      exact (publishes_globalLocale hf (ho.placed hf) (ho.coherent hf)).1.kind hf
        (fun _ => rfl) (fun _ => rfl) rfl
  | @global? _ r _ => exact .idle (w.idle_globalLocale? r) fun r => ⟨rfl, rfl⟩
  | empty hr =>
      obtain ⟨f, hf⟩ := hfront hr
      have hensured := publishes_ensureLocales hf (ho.placed hf) (ho.coherent hf)
      exact (hensured.idle (idle_addTransparent _)).kind hf (fun _ => rfl) (fun _ => rfl) rfl
  | ensured hr =>
      obtain ⟨f, hf⟩ := hfront hr
      exact (publishes_ensureLocales hf (ho.placed hf) (ho.coherent hf)).kind hf
        (fun _ => rfl) (fun _ => rfl) rfl
  | replaced hr _ =>
      obtain ⟨f, hf⟩ := hfront hr
      refine .publishes (publishes_replaceGlobal hf (ho.placed hf)).1 hf rfl rfl (fun ran => ?_)
        (fun _ => rfl) (fun _ => rfl)
      simp [Front.after, Event.tearsDown, Event.initialises, Event.replaces?]
  | @ofThread _ r g t hg =>
      have hf : w.front? r = some g.front := congrArg (Option.map Registry.front) hg
      cases hl : (w.locals.get? t g.threadLocale).bind Payload.chosen? with
      | some l =>
          have hset := bind_chosen?_eq_some_iff.1 hl
          refine .idle (idle_threadLocale hg hset).1 fun r' => ⟨?_, rfl⟩
          simp [Event.initialises, hl]
      | none =>
          have hunset : ∀ l, w.locals.get? t g.threadLocale ≠ some (.setting (some l)) := by
            intro l hv
            rw [bind_chosen?_eq_some_iff.2 hv] at hl
            cases hl
          have hpublishes := publishes_threadLocale hg (ho.placed hf) (ho.coherent hf) t hunset
          refine hpublishes.1.kind hf (fun r' => ?_) (fun _ => rfl) rfl
          simp [Event.initialises, hl]
  | setThread t l _ => exact .idle (w.idle_setThreadLocale _ t l) fun r => ⟨rfl, rfl⟩
  | @found _ r l kind hr _ =>
      cases htransparent : w.isTransparent l with
      | true =>
          obtain ⟨f, hf⟩ := hfront hr
          have hfound := publishes_findFacet hf (ho.placed hf) (ho.coherent hf) kind hb
            htransparent
          exact hfound.kind hf (fun _ => Bool.and_true _) (fun _ => rfl) rfl
      | false =>
          refine .idle (idle_findFacet htransparent r kind) fun r' => ⟨?_, rfl⟩
          simp [Event.initialises]
  | @used _ r l kind hr _ =>
      have hrest := w.idle_useFacet_findFacet r l kind
      cases htransparent : w.isTransparent l with
      | true =>
          obtain ⟨f, hf⟩ := hfront hr
          have hfound := publishes_findFacet hf (ho.placed hf) (ho.coherent hf) kind hb
            htransparent
          exact (hfound.idle hrest).kind hf (fun _ => Bool.and_true _) (fun _ => rfl) rfl
      | false =>
          refine .idle ((idle_findFacet htransparent r kind).trans hrest) fun r' => ⟨?_, rfl⟩
          simp [Event.initialises]
  | recorded kind _ => exact .idle (w.idle_recordFacet _ kind _) fun r => ⟨rfl, rfl⟩
  | @releasedRecorded _ r _ => exact .idle (w.idle_releaseRecorded r) fun r => ⟨rfl, rfl⟩
  | @toreDown _ r _ =>
      refine .tearsDown (w.clears_teardown r) (w.mild_teardown r) (fun r' => ?_) fun r' => rfl
      simp [Event.tearsDown, eq_comm]
  | tableMade => exact .tables w.tables_addExitTable fun r => ⟨rfl, rfl⟩
  | handlerAdded t tag actions =>
      exact .tables (w.tables_register t tag actions) fun r => ⟨rfl, rfl⟩
  | opened t ht _ => exact .opens ht rfl rfl
  | tableRun t => exact .runs rfl rfl
  | retainedLocale _ => exact .idle (w.idle_retainLocale _) fun r => ⟨rfl, rfl⟩
  | releasedLocale => exact .idle (w.idle_releaseLocale _) fun r => ⟨rfl, rfl⟩
  | retainedFacet _ => exact .idle (w.idle_retainFacet _) fun r => ⟨rfl, rfl⟩
  | releasedFacet => exact .idle (w.idle_releaseFacet _) fun r => ⟨rfl, rfl⟩
  | madeFacet body => exact .idle (w.idle_addFacet body) fun r => ⟨rfl, rfl⟩
  | derived kind _ => exact .idle (w.idle_withFacet _ kind _) fun r => ⟨rfl, rfl⟩
  | lookedUp l kind =>
      exact .idle ((w.idle_ownFacet l kind).trans (idle_retainOwn _ _)) fun r => ⟨rfl, rfl⟩
  | indexed key => exact .idle (.of_eq rfl rfl rfl rfl) fun r => ⟨rfl, rfl⟩
  | forgot identity => exact .idle (.of_eq rfl rfl rfl rfl) fun r => ⟨rfl, rfl⟩
  | took => exact .idle w.idle_takeSlot fun r => ⟨rfl, rfl⟩
  | gave h _ => exact .idle (w.idle_giveSlot h) fun r => ⟨rfl, rfl⟩
  | numbered => exact .idle (w.idle_locals _) fun r => ⟨rfl, rfl⟩
  | madeLocal t text => exact .idle (w.idle_tryNewLocal t _) fun r => ⟨rfl, rfl⟩
  | gotLocal t id => exact .idle (w.idle_getLocal t id) fun r => ⟨rfl, rfl⟩
  | bound t id text _ => exact .idle (w.idle_bindValue t id _) fun r => ⟨rfl, rfl⟩
  | changed id _ _ => exact .idle (w.idle_locals _) fun r => ⟨rfl, rfl⟩
  | droppedLocal t id _ => exact .idle (w.idle_dropLocal t id) fun r => ⟨rfl, rfl⟩
  | threadEnded t => exact .idle (w.idle_endThread t) fun r => ⟨rfl, rfl⟩
  | started => exact .idle (.of_eq rfl rfl rfl rfl) fun r => ⟨rfl, rfl⟩
  | aside ha => exact .aside ha rfl

/-- What becomes of fronts, kind by kind. -/
theorem Kind.moves (h : w.Kind e w') (ho : w.Orderly) : w.Moves e w' := by
  cases h with
  | idle h hquiet => exact h.steady.moves ho hquiet
  | aside h he =>
      subst he
      exact h.unmoved.steady.moves ho fun r => ⟨rfl, rfl⟩
  | adds h hexits hquiet => exact h.moves ho hexits hquiet
  | publishes h hf hexits hqueued hafter hinit htear =>
      refine h.moves ho hf hexits hqueued hafter fun r' hr' => ⟨?_, htear r'⟩
      exact (hinit r').trans (decide_eq_false (Ne.symm hr'))
  | tearsDown h _ htear hinit => exact h.moves ho htear hinit
  | tables h hquiet => exact h.moves ho hquiet
  | opens ht he hw =>
      subst he hw
      exact ho.moves_start ht fun _ => ⟨rfl, rfl⟩
  | runs he hw =>
      subst he hw
      exact moves_runTable ho _ _

end Hosted.World
