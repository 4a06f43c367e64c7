import Hosted.Proofs.References.Holders
import Hosted.Proofs.World.Exits
import Hosted.World.Startup

/-!
# Runs of the environment

A `Step` is one call of an operation, made by whichever thread, with the references that
callers have in their hands before and after it. A caller names only what it has a
reference to, and gives up only references that it has. The `Event` of a step records
the call on a registry or an exit table and what it answered; a step on anything else is
`elsewhere`. A `Run` is any number of steps one after the other.

A run of an exit table is one step if nothing else happens meanwhile. Otherwise it is
`opened` first, and what its handlers do, they do in steps of their own, between which other
threads take theirs.
-/

namespace Hosted

/-- What a step of a run did to registries and exit tables. -/
inductive Event where
  /-- A registry was made. -/
  | registered (exits : TableId) (result : Except Fault RegistryId)
  /-- The registry of the process was asked for. -/
  | owned (result : Except Fault RegistryId)
  | classic (r : RegistryId) (l : LocaleId)
  | global (r : RegistryId) (l : LocaleId)
  | global? (r : RegistryId) (l : Option LocaleId)
  | empty (r : RegistryId) (l : LocaleId)
  | ensured (r : RegistryId)
  | replaced (r : RegistryId) (l before : LocaleId)
  /-- A thread asked for its locale, while `value` was its value for the registry. -/
  | ofThread (r : RegistryId) (t : ThreadId) (value : Option Payload) (l : LocaleId)
  | setThread (r : RegistryId) (t : ThreadId) (l : Option LocaleId)
      (result : Except Fault (Option LocaleId))
  /-- A facet was looked for through a locale, which was `transparent` or not. -/
  | found (r : RegistryId) (l : LocaleId) (transparent : Bool) (kind : FacetKind)
      (f : Option FacetId)
  | used (r : RegistryId) (l : LocaleId) (transparent : Bool) (kind : FacetKind) (f : FacetId)
  | recorded (r : RegistryId) (kind : Option FacetKind) (f : FacetId)
  /-- The facets that a registry had recorded were released, and nothing else. -/
  | releasedRecorded (r : RegistryId) (n : Nat)
  | toreDown (r : RegistryId) (report : TeardownReport)
  | tableMade (t : TableId)
  /-- A handler was added to a table, unless that had run. -/
  | handlerAdded (t : TableId)
  /-- A table gave out its handlers, which are to tear down `registries`. -/
  | opened (t : TableId) (registries : List RegistryId)
  /-- A table was run, whose handlers were to tear down `registries`. -/
  | tableRun (t : TableId) (registries : List RegistryId) (n : Nat)
  | threadEnded (t : ThreadId)
  | elsewhere

namespace World

/-- One call. -/
inductive Step : World → Multiset Holding → Event → World → Multiset Holding → Prop where
  -- registries
  | registered {w hand} (t exits) : exits < w.exits.length →
      Step w hand (.registered exits (w.addRegistry t exits).2) (w.addRegistry t exits).1 hand
  | owned {w hand} (t) :
      Step w hand (.owned (w.ownRegistry t).2) (w.ownRegistry t).1 hand
  | classic {w hand r} : (w.registry? r).isSome →
      Step w hand (.classic r (w.classicLocale r).2) (w.classicLocale r).1
        (.locale (w.classicLocale r).2 ::ₘ hand)
  | global {w hand r} : (w.registry? r).isSome →
      Step w hand (.global r (w.globalLocale r).2) (w.globalLocale r).1
        (.locale (w.globalLocale r).2 ::ₘ hand)
  | global? {w hand r} : (w.registry? r).isSome →
      Step w hand (.global? r (w.globalLocale? r).2) (w.globalLocale? r).1
        (handed .locale (w.globalLocale? r).2 + hand)
  | empty {w hand r} : (w.registry? r).isSome →
      Step w hand (.empty r (w.emptyLocale r).2) (w.emptyLocale r).1
        (.locale (w.emptyLocale r).2 ::ₘ hand)
  | ensured {w hand r} : (w.registry? r).isSome →
      Step w hand (.ensured r) (w.ensureLocales r) hand
  | replaced {w hand r l} : (w.registry? r).isSome → .locale l ∈ hand →
      Step w hand (.replaced r l (w.replaceGlobal r l).2) (w.replaceGlobal r l).1
        (.locale (w.replaceGlobal r l).2 ::ₘ hand)
  | ofThread {w hand r g} (t) : w.registry? r = some g →
      Step w hand (.ofThread r t (w.locals.get? t g.threadLocale) (w.threadLocale r t).2)
        (w.threadLocale r t).1 (.locale (w.threadLocale r t).2 ::ₘ hand)
  | setThread {w hand r} (t l) : (w.registry? r).isSome →
      Step w (handed .locale l + hand) (.setThread r t l (w.setThreadLocale r t l).2)
        (w.setThreadLocale r t l).1
        ((w.setThreadLocale r t l).2.toOption.elim 0 (handed .locale) + hand)
  | found {w hand r l} (kind) : (w.registry? r).isSome → .locale l ∈ hand →
      Step w hand (.found r l (w.isTransparent l) kind (w.findFacet r l kind).2)
        (w.findFacet r l kind).1 (handed .facet (w.findFacet r l kind).2 + hand)
  | used {w hand r l} (kind) : (w.registry? r).isSome → .locale l ∈ hand →
      Step w hand (.used r l (w.isTransparent l) kind (w.useFacet r l kind).2)
        (w.useFacet r l kind).1 (.facet (w.useFacet r l kind).2 ::ₘ hand)
  | recorded {w hand r f} (kind) : (w.registry? r).isSome →
      Step w (.facet f ::ₘ hand) (.recorded r kind f) (w.recordFacet r kind f) hand
  | releasedRecorded {w hand r} : (w.registry? r).isSome →
      Step w hand (.releasedRecorded r (w.releaseRecorded r).2) (w.releaseRecorded r).1 hand
  | toreDown {w hand r} : (w.registry? r).isSome →
      Step w hand (.toreDown r (w.teardown r).2) (w.teardown r).1 hand
  -- exit tables
  | tableMade {w hand} : Step w hand (.tableMade w.addExitTable.2) w.addExitTable.1 hand
  | handlerAdded {w hand} (t tag actions) :
      Step w hand (.handlerAdded t) (w.register t (.report tag actions)).1 hand
  | opened {w hand} (t) : t < w.exits.length → (w.exitTable t).ran = false →
      Step w hand (.opened t (toTearDown (w.exitTable t)))
        (w.setExitTable t { handlers := [], ran := true }) hand
  | tableRun {w hand} (t) :
      Step w hand (.tableRun t (toTearDown (w.exitTable t)) (w.runTable t).2) (w.runTable t).1 hand
  -- locales and facets
  | retainedLocale {w hand l} : .locale l ∈ hand →
      Step w hand .elsewhere (w.retainLocale l) (.locale l ::ₘ hand)
  | releasedLocale {w hand l} :
      Step w (.locale l ::ₘ hand) .elsewhere (w.releaseLocale l) hand
  | retainedFacet {w hand f} : .facet f ∈ hand →
      Step w hand .elsewhere (w.retainFacet f) (.facet f ::ₘ hand)
  | releasedFacet {w hand f} :
      Step w (.facet f ::ₘ hand) .elsewhere (w.releaseFacet f) hand
  | madeFacet {w hand} (body) :
      Step w hand .elsewhere (w.addFacet body).1 (.facet (w.addFacet body).2 ::ₘ hand)
  | derived {w hand l f} (kind) : .locale l ∈ hand →
      Step w (.facet f ::ₘ hand) .elsewhere (w.withFacet l kind f).1
        (.locale (w.withFacet l kind f).2 ::ₘ hand)
  | lookedUp {w hand} (l kind) :
      Step w hand .elsewhere
        ((w.ownFacet l kind).2.elim (w.ownFacet l kind).1 (w.ownFacet l kind).1.retainFacet)
        (handed .facet (w.ownFacet l kind).2 + hand)
  | indexed {w hand} (key) :
      Step w hand .elsewhere { w with indices := (w.indices.assign key).1 } hand
  | forgot {w hand} (identity) :
      Step w hand .elsewhere { w with indices := w.indices.forget (.identity identity) } hand
  -- slots and thread locals of callers
  | took {w hand} : Step w hand .elsewhere w.takeSlot.1 hand
  | gave {w hand} (h) : (∀ id l, w.locals.local? id = some l → l.handle ≠ h) →
      Step w hand .elsewhere (w.giveSlot h).1 hand
  | numbered {w hand} :
      Step w hand .elsewhere
        { w with locals := { w.locals with nextSeq := w.locals.nextSeq + 1 } } hand
  | madeLocal {w hand} (t text) :
      Step w hand .elsewhere (w.tryNewLocal t (.tracked text)).1 hand
  | gotLocal {w hand} (t id) : Step w hand .elsewhere (w.getLocal t id).1 hand
  | bound {w hand} (t id text) : ¬w.IsHome id →
      Step w hand .elsewhere (w.bindValue t id (.tracked text)).1 hand
  | changed {w hand} (id) {f : Nat → Payload → Payload} : ¬w.IsHome id →
      (∀ i text, ∃ text', f i (.tracked text) = .tracked text') →
      Step w hand .elsewhere { w with locals := w.locals.modifyAll id f } hand
  | droppedLocal {w hand} (t id) : ¬w.IsHome id →
      Step w hand .elsewhere (w.dropLocal t id) hand
  | threadEnded {w hand} (t) : Step w hand (.threadEnded t) (w.endThread t) hand
  -- the rest
  | started {w hand} : Step w hand .elsewhere { w with started := true } hand
  | aside {w w' hand} : w.Aside w' → Step w hand .elsewhere w' hand

/-- Calls one after the other. -/
inductive Run : World → Multiset Holding → List Event → World → Multiset Holding → Prop where
  | nil {w hand} : Run w hand [] w hand
  | cons {w w₁ w' hand hand₁ hand' e es} : Step w hand e w₁ hand₁ → Run w₁ hand₁ es w' hand' →
      Run w hand (e :: es) w' hand'

variable {w w' w'' : World} {hand hand' hand'' : Multiset Holding} {e : Event}
  {es es' : List Event}

theorem Step.run (h : Step w hand e w' hand') : Run w hand [e] w' hand' := .cons h .nil

theorem Run.append (h : Run w hand es w' hand') (h' : Run w' hand' es' w'' hand'') :
    Run w hand (es ++ es') w'' hand'' := by
  induction h with
  | nil => exact h'
  | cons hstep _ ih => exact .cons hstep (ih h')

/-- A teardown is a step, if there is such a registry. -/
theorem exists_run_teardown (w : World) (hand : Multiset Holding) (r : RegistryId) :
    ∃ es, Run w hand es (w.teardown r).1 hand := by
  by_cases hr : (w.registry? r).isSome
  · exact ⟨_, (Step.toreDown hr).run⟩
  · rw [teardown, Option.not_isSome_iff_eq_none.1 hr]
    exact ⟨[], .nil⟩

/-- Whatever handlers of a table have been `done`, a run leads there that starts with the
opening of the table. -/
theorem exists_run_handlers {t : TableId} (ht : t < w.exits.length)
    (hran : (w.exitTable t).ran = false) (hand : Multiset Holding) (depth : Nat)
    (done : List Handler) : ∃ es, Run w hand (.opened t (toTearDown (w.exitTable t)) :: es)
      (done.foldl (handle depth t) (w.setExitTable t { handlers := [], ran := true })) hand := by
  have hran' := ran_setExitTable ht
  have hdone := foldl_handle (P := fun _ => True) (R := fun w _ w' => ∃ es, Run w hand es w' hand)
    (fun _ haside => ⟨trivial, _, (Step.aside haside).run⟩)
    (fun r _ => ⟨trivial, exists_run_teardown _ hand r⟩)
    (fun ⟨_, h⟩ ⟨_, h'⟩ => ⟨_, h.append h'⟩) hran' trivial depth done
  obtain ⟨es, hrun⟩ := hdone
  exact ⟨es, .cons (.opened t ht hran) hrun⟩

end World

end Hosted
