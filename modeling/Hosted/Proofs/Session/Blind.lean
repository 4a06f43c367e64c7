import Hosted.Session.Run

/-!
# Steps that are blind to the log

Apart from the steps on the log itself, no step looks at the journal, at the emitters or at
their outputs, and none changes them. With another log in its place a session gives the same
answer and comes out the same, the log aside.
-/

namespace Hosted

/-- The part of a session that has to do with its log. -/
structure Logging where
  journal : Log.Journal := {}
  emitters : Names Log.Emitter := {}
  outputs : Names Nat := {}
  watched : Option Watched := none

namespace Session

/-- The session with another log. -/
def relog (s : Session) (g : Logging) : Session :=
  { s with
    journal := g.journal, emitters := g.emitters, outputs := g.outputs, watched := g.watched }

/-- Whatever the log is, `f` gives the same answer and leaves the log as it is. -/
def Blind {α : Type} (f : Session → Session × α) : Prop :=
  ∀ s g, f (s.relog g) = ((f s).1.relog g, (f s).2)

/-- As `Blind`, for an operation without an answer. -/
def BlindUpdate (f : Session → Session) : Prop := ∀ s g, f (s.relog g) = (f s).relog g

theorem BlindUpdate.elim {α : Type} {o : Option α} {f : Session → α → Session}
    (hf : ∀ a, BlindUpdate (f · a)) : BlindUpdate fun s => o.elim s (f s) := by
  cases o with
  | none => exact fun _ _ => rfl
  | some a => exact hf a

theorem BlindUpdate.answer {α : Type} {f : Session → Session} {a : Session → α}
    (hf : BlindUpdate f) (ha : ∀ s g, a (s.relog g) = a s) : Blind fun s => (f s, a s) :=
  fun s g => Prod.ext (hf s g) (ha s g)

@[simp] theorem world_relog (s : Session) (g : Logging) : (s.relog g).world = s.world := rfl

@[simp] theorem facets_relog (s : Session) (g : Logging) : (s.relog g).facets = s.facets := rfl

@[simp] theorem threads_relog (s : Session) (g : Logging) : (s.relog g).threads = s.threads := rfl

/-! ## Names and registries -/

namespace Blind

theorem ite {α : Type} {c : Session → Bool} {f k : Session → Session × α}
    (hc : ∀ s g, c (s.relog g) = c s) (hf : Blind f) (hk : Blind k) :
    Blind fun s => if c s then f s else k s := by
  intro s g
  simp only [hc]
  cases c s with
  | true => exact hf s g
  | false => exact hk s g

theorem withNamed {α : Type} {names : Session → Names α} {name : String}
    {go : Session → α → Session × Outcome} (hnames : ∀ s g, names (s.relog g) = names s)
    (hgo : ∀ a, Blind (go · a)) : Blind fun s => s.withNamed (names s) name (go s) := by
  intro s g
  simp only [Session.withNamed, hnames]
  cases (names s).find? name with
  | none => rfl
  | some a => exact hgo a s g

theorem withTable {t : Ref} {go : Session → TableId → Session × Outcome}
    (hgo : ∀ id, Blind (go · id)) : Blind fun s => s.withTable t (go s) := by
  cases t with
  | own => exact hgo World.processTable
  | named name => exact .withNamed (fun _ _ => rfl) hgo

theorem withRegistry {t : ThreadId} {r : Ref} {go : Session → RegistryId → Session × Outcome}
    (hgo : ∀ r, Blind (go · r)) : Blind fun s => s.withRegistry t r go := by
  cases r with
  | named name => exact .withNamed (fun _ _ => rfl) hgo
  | own =>
      intro s g
      simp only [Session.withRegistry, Session.perform, world_relog]
      generalize s.world.ownRegistry t = made
      obtain ⟨w, f | r⟩ := made
      · rfl
      · exact hgo r { s with world := w } g

theorem withRegistryForC {t : ThreadId} {go : Session → RegistryId → Session × Outcome}
    (hgo : ∀ r, Blind (go · r)) : Blind fun s => s.withRegistryForC t go := by
  intro s g
  have h := Blind.withRegistry (t := t) (r := .own) hgo s g
  exact congrArg (fun p : Session × Outcome => (p.1, p.2.forC)) h

theorem withLocale {name : String} {go : Session → LocaleId → Locale → Session × Outcome}
    (hgo : ∀ l body, Blind (go · l body)) : Blind fun s => s.withLocale name (go s) := by
  refine .withNamed (fun _ _ => rfl) fun l s g => ?_
  simp only [world_relog]
  cases s.world.locale? l with
  | none => rfl
  | some body => exact hgo l body s g

theorem withSlot {h : SlotRef} {go : Session → SlotHandle → Session × Outcome}
    (hgo : ∀ h, Blind (go · h)) : Blind fun s => s.withSlot h (go s) := by
  cases h with
  | named name => exact .withNamed (fun _ _ => rfl) hgo
  | written h => exact fun s g => hgo (s.writtenSlot h) s g

theorem withHandle {h : HandleRef} {ifNull : Outcome}
    {go : Session → String → RawHandle → Session × Outcome}
    (hgo : ∀ name h, Blind (go · name h)) : Blind fun s => s.withHandle h ifNull (go s) := by
  cases h with
  | null => exact fun _ _ => rfl
  | named name => exact .withNamed (fun _ _ => rfl) (hgo name)

end Blind

/-! ## Answers -/

theorem blind_keepLocale (keep : Option String) (l : LocaleId) :
    BlindUpdate (·.keepLocale keep l) := by
  cases keep with
  | none => exact fun _ _ => rfl
  | some name =>
      intro s g
      exact BlindUpdate.elim (o := s.locales.find? name)
        (f := fun s old => s.onWorld (·.releaseLocale old)) (fun _ _ _ => rfl)
        { s with locales := s.locales.put name l } g

theorem blind_keepFacet (keep : Option String) (f : FacetId) :
    BlindUpdate (·.keepFacet keep f) := by
  cases keep with
  | none => exact fun _ _ => rfl
  | some name =>
      intro s g
      exact BlindUpdate.elim (o := s.facets.find? name)
        (f := fun s old => s.onWorld (·.releaseFacet old)) (fun _ _ _ => rfl)
        { s with facets := s.facets.put name f } g

theorem blind_answerLocale (keep : Option String) (l : LocaleId) :
    Blind (·.answerLocale keep l) :=
  (blind_keepLocale keep l).answer fun _ _ => rfl

theorem blind_answerLocale? (keep : Option String) (l : Option LocaleId) :
    Blind (·.answerLocale? keep l) := by
  cases l with
  | none => exact fun _ _ => rfl
  | some l => exact blind_answerLocale keep l

theorem blind_answerFacet (keep : Option String) (f : FacetId) :
    Blind (·.answerFacet keep f) := by
  intro s g
  simp only [answerFacet, world_relog]
  cases s.world.facets.get? f with
  | none => rfl
  | some facet => exact Prod.ext (blind_keepFacet keep f s g) rfl

theorem blind_answerFacet? (keep : Option String) (f : Option FacetId) :
    Blind (·.answerFacet? keep f) := by
  cases f with
  | none => exact fun _ _ => rfl
  | some f => exact blind_answerFacet keep f

theorem blind_answerHandle (keep : Option String) (l : LocaleId) :
    Blind (·.answerHandle keep l) := by
  cases keep with
  | none => exact fun _ _ => rfl
  | some name =>
      intro s g
      have hkeep := BlindUpdate.elim (o := s.handles.find? name)
        (f := fun s old => s.releaseTimes old.locale old.held) (fun _ _ _ => rfl)
        { s with handles := s.handles.put name ⟨l, 1⟩ } g
      exact Prod.ext hkeep rfl

theorem blind_answerSlot (keep : Option String) (h : SlotHandle) :
    Blind (·.answerSlot keep h) := by
  cases keep <;> exact fun _ _ => rfl

/-! ## Steps -/

theorem blind_exitStep (step : ExitStep) : Blind (·.exitStep step) := by
  cases step with
  | make table => exact fun _ _ => rfl
  | register table tag actions =>
      refine .withTable fun id s g => ?_
      simp only [Session.perform, world_relog]
      generalize s.world.register id (.report tag actions) = registered
      obtain ⟨w, f | _⟩ := registered <;> rfl
  | run table => exact .withTable fun _ _ _ => rfl
  | inspect table => exact .withTable fun _ _ _ => rfl

theorem blind_setThreadStep (t : ThreadId) (r : RegistryId) (l : Option LocaleId)
    (keep : Option String) : Blind (·.setThreadStep t r l keep) := by
  intro s g
  have hretained : l.elim (s.relog g) (fun l => (s.relog g).onWorld (·.retainLocale l)) =
      (l.elim s fun l => s.onWorld (·.retainLocale l)).relog g :=
    BlindUpdate.elim (o := l) (f := fun s l => s.onWorld (·.retainLocale l)) (fun _ _ _ => rfl) s g
  simp only [Session.setThreadStep, hretained]
  generalize (l.elim s fun l => s.onWorld (·.retainLocale l)) = s
  simp only [Session.perform, world_relog]
  generalize s.world.setThreadLocale r t l = made
  obtain ⟨w, f | before⟩ := made
  · rfl
  · exact blind_answerLocale? keep before { s with world := w } g

theorem blind_registryStep (t : ThreadId) (step : RegistryStep) :
    Blind (·.registryStep t step) := by
  cases step with
  | make registry table =>
      refine .withTable fun exits s g => ?_
      simp only [Session.perform, world_relog]
      generalize s.world.addRegistry t exits = made
      obtain ⟨w, f | r⟩ := made <;> rfl
  | classic registry keep =>
      exact .withRegistry fun r s g =>
        blind_answerLocale keep _ (s.perform (·.classicLocale r)).1 g
  | global registry keep =>
      exact .withRegistry fun r s g =>
        blind_answerLocale keep _ (s.perform (·.globalLocale r)).1 g
  | empty registry keep =>
      exact .withRegistry fun r s g =>
        blind_answerLocale keep _ (s.perform (·.emptyLocale r)).1 g
  | ofThread registry keep =>
      exact .withRegistry fun r s g =>
        blind_answerLocale keep _ (s.perform (·.threadLocale r t)).1 g
  | global? registry keep =>
      exact .withRegistry fun r s g =>
        blind_answerLocale? keep _ (s.perform (·.globalLocale? r)).1 g
  | ensure registry => exact .withRegistry fun _ _ _ => rfl
  | isReady registry => exact .withRegistry fun _ _ _ => rfl
  | replaceGlobal registry locale keep =>
      exact .withRegistry fun r => .withNamed (fun _ _ => rfl) fun l s g =>
        blind_answerLocale keep _ (s.perform (·.replaceGlobal r l)).1 g
  | setThread registry locale keep =>
      cases locale with
      | none => exact .withRegistry fun r => blind_setThreadStep t r none keep
      | some locale =>
          exact .withRegistry fun r => .withNamed (fun _ _ => rfl) fun l =>
            blind_setThreadStep t r (some l) keep
  | findFacet registry locale kind keep =>
      exact .withRegistry fun r => .withNamed (fun _ _ => rfl) fun l s g =>
        blind_answerFacet? keep _ (s.perform (·.findFacet r l kind)).1 g
  | useFacet registry locale kind keep =>
      exact .withRegistry fun r => .withNamed (fun _ _ => rfl) fun l s g =>
        blind_answerFacet keep _ (s.perform (·.useFacet r l kind)).1 g
  | recordFacet registry facet =>
      exact .withRegistry fun _ => .withNamed (fun _ _ => rfl) fun _ _ _ => rfl
  | releaseRecorded registry => exact .withRegistry fun _ _ _ => rfl
  | teardown registry => exact .withRegistry fun _ _ _ => rfl
  | inspect registry => exact .withRegistry fun _ _ _ => rfl

theorem blind_takeFacet (kind : FacetKind) (source : FacetSource) :
    Blind (·.takeFacet kind source) := by
  cases source with
  | fresh facet => exact fun _ _ => rfl
  | stored name =>
      intro s g
      simp only [takeFacet, facets_relog]
      cases s.facets.find? name with
      | none => rfl
      | some f =>
          exact Blind.ite (c := fun s => (s.world.facets.get? f).any (·.kind = kind))
            (f := fun s => (s.onWorld (·.retainFacet f), some f)) (k := fun s => (s, none))
            (fun _ _ => rfl) (fun _ _ => rfl) (fun _ _ => rfl) s g

theorem blind_localeStep (step : LocaleStep) : Blind (·.localeStep step) := by
  cases step with
  | inspect locale => exact .withLocale fun _ _ _ _ => rfl
  | texts locale => exact .withLocale fun _ _ _ _ => rfl
  | holdsIndex locale kind => exact .withNamed (fun _ _ => rfl) fun _ _ _ => rfl
  | facet locale kind keep =>
      refine .withNamed (fun _ _ => rfl) fun l s g => ?_
      simp only [Session.perform, world_relog]
      generalize s.world.ownFacet l kind = made
      obtain ⟨w, _ | f⟩ := made
      · rfl
      · exact blind_answerFacet keep f ({ s with world := w }.onWorld (·.retainFacet f)) g
  | clone locale keep =>
      exact .withNamed (fun _ _ => rfl) fun l s g =>
        blind_answerLocale keep l (s.onWorld (·.retainLocale l)) g
  | drop locale => exact .withNamed (fun _ _ => rfl) fun _ _ _ => rfl
  | withFacet locale kind source keep =>
      refine .withNamed (fun _ _ => rfl) fun l s g => ?_
      have htake := blind_takeFacet kind source s g
      simp only at htake ⊢
      rw [htake]
      generalize s.takeFacet kind source = taken
      obtain ⟨s₁, _ | f⟩ := taken
      · rfl
      · exact blind_answerLocale keep _ (s₁.perform (·.withFacet l kind f)).1 g
  | compare first second =>
      exact .withNamed (fun _ _ => rfl) fun _ => .withNamed (fun _ _ => rfl) fun _ _ _ => rfl
  | covers locale categories => exact .withLocale fun _ _ _ _ => rfl

theorem blind_facetStep (step : FacetStep) : Blind (·.facetStep step) := by
  cases step with
  | make facet keep =>
      exact fun s g => blind_answerFacet keep _ (s.perform (·.addFacet facet)).1 g
  | inspect facet =>
      refine .withNamed (fun _ _ => rfl) fun f s g => ?_
      simp only [world_relog]
      cases s.world.facets.get? f <;> rfl
  | drop facet => exact .withNamed (fun _ _ => rfl) fun _ _ _ => rfl
  | record list facet kind =>
      exact .withNamed (fun _ _ => rfl) fun _ => .withNamed (fun _ _ => rfl) fun _ _ _ => rfl
  | teardownList list => exact .withNamed (fun _ _ => rfl) fun _ _ _ => rfl
  | inspectList list => exact .withNamed (fun _ _ => rfl) fun _ _ _ => rfl
  | indexOfKind kind => exact fun _ _ => rfl
  | inspectKind kind => exact fun _ _ => rfl
  | newIdentity identity => exact fun _ _ => rfl
  | indexOfIdentity identity => exact fun _ _ => rfl
  | inspectIdentity identity => exact fun _ _ => rfl
  | newList list => exact fun _ _ => rfl

theorem blind_slotStep (step : SlotStep) : Blind (·.slotStep step) := by
  cases step with
  | makeTable table limit => exact fun _ _ => rfl
  | allocateIn table keep =>
      refine .withNamed (fun _ _ => rfl) fun body s g => ?_
      simp only [world_relog]
      cases body.allocate s.world.locals.nextSeq with
      | error f => rfl
      | ok p => exact blind_answerSlot keep p.1 (s.useSeq.putTable table p.2) g
  | releaseIn table handle =>
      exact .withNamed (fun _ _ => rfl) fun _ => .withSlot fun _ _ _ => rfl
  | isLiveIn table handle =>
      exact .withNamed (fun _ _ => rfl) fun _ => .withSlot fun _ _ _ => rfl
  | inspectTable table => exact .withNamed (fun _ _ => rfl) fun _ _ _ => rfl
  | take keep =>
      intro s g
      simp only [slotStep, Session.perform, world_relog]
      generalize s.world.takeSlot = taken
      obtain ⟨w, f | h⟩ := taken
      · rfl
      · exact blind_answerSlot keep h { s with world := w } g
  | give handle => exact .withSlot fun _ _ _ => rfl
  | inUse => exact fun _ _ => rfl

/-! ## Thread locals -/

theorem blind_letGo (t : ThreadId) (id : LocalId) : BlindUpdate (·.letGo t id) := by
  intro s g
  change (if s.isHeld id then s.relog g else (s.relog g).onWorld (·.dropLocal t id)) =
    relog (if s.isHeld id then s else s.onWorld (·.dropLocal t id)) g
  split <;> rfl

theorem blind_keepLocal (t : ThreadId) (name : String) (id : LocalId) :
    BlindUpdate (·.keepLocal t name id) := fun s g =>
  BlindUpdate.elim (o := s.locals.find? name) (blind_letGo t)
    { s with locals := s.locals.put name id } g

theorem blind_putOff (on : Option String) (access : Access) :
    BlindUpdate (·.putOff on access) := by
  cases on with
  | none => exact fun _ _ => rfl
  | some name =>
      intro s g
      simp only [putOff, world_relog, threads_relog]
      cases s.threads.find? name <;> rfl

theorem blind_localStep (on : Option String) (t : ThreadId) (step : LocalStep) :
    Blind (·.localStep on t step) := by
  cases step with
  | make name tag fatal =>
      intro s g
      simp only [localStep, Session.perform, world_relog]
      generalize (if fatal then s.world.newLocal t (.tracked tag)
        else s.world.tryNewLocal t (.tracked tag)) = made
      obtain ⟨w, f | id⟩ := made
      · rfl
      · exact Prod.ext (blind_keepLocal t name id { s with world := w } g) rfl
  | get name => exact .withNamed (fun _ _ => rfl) fun _ _ _ => rfl
  | getOr name tag fatal =>
      refine .withNamed (fun _ _ => rfl) fun id s g => ?_
      simp only [Session.perform, world_relog]
      generalize (if fatal then s.world.getOr t id (initialValue tag)
        else s.world.tryGetOr t id (initialValue tag)) = got
      obtain ⟨w, f | v⟩ := got <;> rfl
  | deref name => exact .withNamed (fun _ _ => rfl) fun _ _ _ => rfl
  | each name => exact .withNamed (fun _ _ => rfl) fun _ _ _ => rfl
  | extend name suffix => exact .withNamed (fun _ _ => rfl) fun _ _ _ => rfl
  | handle name keep =>
      exact .withNamed (fun _ _ => rfl) fun id s g => blind_answerSlot keep (s.slotOf id) s g
  | drop name =>
      exact .withNamed (fun _ _ => rfl) fun id s g =>
        Prod.ext (blind_letGo t id { s with locals := s.locals.erase name } g) rfl
  | text name => exact .withNamed (fun _ _ => rfl) fun _ _ _ => rfl
  | atExit name kind tag =>
      exact .withNamed (fun _ _ => rfl) fun id s g =>
        Prod.ext (blind_putOff on ⟨kind, id, tag⟩ s g) rfl

/-! ## Raw handles -/

theorem blind_loosen (name : String) (h : RawHandle) : BlindUpdate (·.loosen name h) := by
  intro s g
  simp only [loosen]
  split <;> rfl

theorem blind_handleStep (t : ThreadId) (step : HandleStep) : Blind (·.handleStep t step) := by
  cases step with
  | classic keep =>
      exact .withRegistryForC fun r s g =>
        blind_answerHandle keep _ (s.perform (·.classicLocale r)).1 g
  | global keep =>
      exact .withRegistryForC fun r s g =>
        blind_answerHandle keep _ (s.perform (·.globalLocale r)).1 g
  | empty keep =>
      exact .withRegistryForC fun r s g =>
        blind_answerHandle keep _ (s.perform (·.emptyLocale r)).1 g
  | replaceGlobal handle keep =>
      exact .withHandle fun _ h => .withRegistryForC fun r s g =>
        blind_answerHandle keep _ (s.perform (·.replaceGlobal r h.locale)).1 g
  | retain handle => exact .withHandle fun _ _ _ _ => rfl
  | release handle =>
      refine .withHandle fun name h s g => ?_
      exact congrArg (fun s : Session => (s.onWorld (·.releaseLocale h.locale), _))
        (blind_loosen name h s g)
  | name handle buffer => exact fun _ _ => rfl
  | isTransparent handle => exact fun _ _ => rfl
  | covers handle category => exact fun _ _ => rfl
  | same first second => exact fun _ _ => rfl
  | toLocale handle keep =>
      refine .withHandle fun name h s g => ?_
      have hloosen := blind_loosen name h s g
      simp only at hloosen ⊢
      rw [hloosen]
      exact blind_answerLocale keep h.locale (s.loosen name h) g
  | ofLocale locale keep =>
      exact .withNamed (fun _ _ => rfl) fun l s g =>
        blind_answerHandle keep l (s.onWorld (·.retainLocale l)) g

/-! ## Processes and threads -/

theorem blind_processStep (t : ThreadId) (step : ProcessStep) : Blind (·.processStep t step) := by
  cases step <;> exact fun _ _ => rfl

theorem blind_makeAccesses (name : String) (t : ThreadId) (accesses : List Access) :
    BlindUpdate (·.makeAccesses name t accesses) := by
  induction accesses with
  | nil => exact fun _ _ => rfl
  | cons a rest ih =>
      intro s g
      let s₁ := s.onWorld fun w => access w t a
      let s₂ := { s₁ with threads := s₁.threads.put name { id := t, accesses := rest } }
      have hgo := congrArg (·.makeAccesses name t rest) (blind_letGo t a.target s₂ g)
      exact hgo.trans (ih (s₂.letGo t a.target) g)

/-- The values of an ending thread are reclaimed before its accesses, or after them. -/
theorem blind_reclaim (name : String) (run : ThreadRun) (reclaimFirst : Bool) :
    BlindUpdate fun s => if reclaimFirst then
        (s.onWorld (·.endThread run.id)).makeAccesses name run.id run.accesses
      else (s.makeAccesses name run.id run.accesses).onWorld (·.endThread run.id) := by
  have hmade := blind_makeAccesses name run.id run.accesses
  cases reclaimFirst with
  | false => exact fun s g => congrArg (·.onWorld (·.endThread run.id)) (hmade s g)
  | true => exact fun s g => hmade (s.onWorld (·.endThread run.id)) g

theorem blind_endThread (name : String) : Blind (·.endThread name) := by
  intro s g
  simp only [endThread, world_relog, threads_relog]
  cases s.threads.find? name with
  | none => rfl
  | some run =>
      have hended := blind_reclaim name run
        (run.accessesFirst && s.world.locals.thread run.id ≠ .untouched) s g
      exact congrArg (fun s : Session => ({ s with threads := s.threads.erase name }, true)) hended

theorem blind_threadOf (on : Option String) : Blind (·.threadOf on) := by
  cases on with
  | none => exact fun _ _ => rfl
  | some name =>
      intro s g
      simp only [threadOf, threads_relog]
      cases s.threads.find? name <;> rfl

end Session

/-- The step is one on the log. -/
def Step.isLog : Step → Bool
  | log _ => true
  | _ => false

namespace Session

theorem blind_performStep (on : Option String) (t : ThreadId) {step : Step}
    (hstep : step.isLog = false) : Blind (·.performStep on t step) := by
  cases step with
  | exit step => exact blind_exitStep step
  | registry step => exact blind_registryStep t step
  | locale step => exact blind_localeStep step
  | facet step => exact blind_facetStep step
  | slot step => exact blind_slotStep step
  | threadLocal step => exact blind_localStep on t step
  | log step => cases hstep
  | handle step => exact blind_handleStep t step
  | process step => exact blind_processStep t step
  | endThread =>
      intro s g
      exact congrArg (fun p : Session × Bool => (p.1, Outcome.reply (.truth p.2)))
        (blind_endThread (on.getD "") s g)

theorem blind_perform? {c : Command} (hc : c.step.isLog = false) : Blind (·.perform? c) := by
  obtain ⟨on, step⟩ := c
  have hthen : Blind fun s => (s.threadOf on).1.performStep on (s.threadOf on).2 step := by
    intro s g
    have hthread := blind_threadOf on s g
    have hstep := blind_performStep on (s.threadOf on).2 hc (s.threadOf on).1 g
    exact (congrArg (fun p : Session × ThreadId => p.1.performStep on p.2 step) hthread).trans hstep
  cases step with
  | endThread => exact fun s g => blind_performStep on s.main.id hc s g
  | log step => cases hc
  | _ => exact hthen

end Session

end Hosted
