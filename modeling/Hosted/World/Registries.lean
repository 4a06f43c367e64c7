import Hosted.World.ThreadLocals

/-!
# Registries

A registry publishes a classic and a global locale, keeps the locale each thread
has chosen, and creates facets on demand. What it publishes is made on first use,
and with the first use its teardown is queued on its exit table. A locale or facet
that an operation answers with comes with a reference for the caller.
-/

namespace Hosted.World

/-- Makes a registry whose teardown goes to the given exit table. -/
def addRegistry (w : World) (t : ThreadId) (exits : TableId) : World × Except Fault RegistryId :=
  match w.newLocal t (.setting none) with
  | (w, .error f) => (w, .error f)
  | (w, .ok threadLocale) =>
    ({ w with registries := w.registries ++ [{ threadLocale, exits }] },
      .ok w.registries.length)

/-! ## Publication -/

/-- The classic locale of a registry, published if need be. The slot keeps the
reference. -/
def publishClassic (w : World) (r : RegistryId) : World × LocaleId :=
  match (w.registry? r).bind (·.classic) with
  | some c => (w, c)
  | none =>
    let (w, c) := w.addClassic
    ((w.modifyRegistry r ({ · with classic := some c })).log .classicPublished, c)

/-- The global locale of a registry, which is the classic one until it is replaced. -/
def publishGlobal (w : World) (r : RegistryId) (classic : LocaleId) : World × LocaleId :=
  match (w.registry? r).bind (·.global) with
  | some g => (w, g)
  | none =>
    ((w.retainLocale classic).modifyRegistry r ({ · with global := some classic }), classic)

/-- Queues the teardown of a registry, unless it has been queued. A table that has
run refuses it. -/
def queueTeardown (w : World) (r : RegistryId) : World :=
  match w.registry? r with
  | none => w
  | some g =>
    if g.teardownQueued then w
    else
      let w := w.modifyRegistry r ({ · with teardownQueued := true })
      match w.register g.exits (.teardown r) with
      | (w, .ok _) => w
      | (w, .error f) => w.log (.teardownRefused f)

/-- A relation that the steps of the queueing keep holds between its start and its end. -/
theorem queueTeardown_induction {R : World → World → Prop} (hrefl : ∀ w, R w w)
    (htrans : ∀ {w w' w''}, R w w' → R w' w'' → R w w'')
    (hmark : ∀ w r, R w (w.modifyRegistry r ({ · with teardownQueued := true })))
    (hregister : ∀ w t h, R w (w.register t h).1)
    (hrefused : ∀ w f, R w (w.log (.teardownRefused f))) (w : World) (r : RegistryId) :
    R w (w.queueTeardown r) := by
  unfold queueTeardown
  split
  · exact hrefl w
  · next g _ =>
      split
      · exact hrefl w
      · have hqueue := htrans (hmark w r) (hregister _ g.exits (.teardown r))
        simp only
        generalize World.register _ g.exits (.teardown r) = registered at hqueue ⊢
        obtain ⟨w', result⟩ := registered
        cases result with
        | ok _ => exact hqueue
        | error f => exact htrans hqueue (hrefused w' f)

/-- Publishes both locales of a registry and queues its teardown. -/
def publish (w : World) (r : RegistryId) : World × LocaleId × LocaleId :=
  let (w, classic) := w.publishClassic r
  let (w, global) := w.publishGlobal r classic
  (w.queueTeardown r, classic, global)

/-- Publishes both locales unless both are there. -/
def ensureLocales (w : World) (r : RegistryId) : World :=
  match (w.registry? r).bind (·.classic), (w.registry? r).bind (·.global) with
  | some _, some _ => w
  | _, _ => (w.publish r).1

/-- The global locale of a registry, if it is published. -/
def globalLocale? (w : World) (r : RegistryId) : World × Option LocaleId :=
  match (w.registry? r).bind (·.global) with
  | some g => (w.retainLocale g, some g)
  | none => (w, none)

/-- A registry has a global locale. -/
def isReady (w : World) (r : RegistryId) : Bool := ((w.registry? r).bind (·.global)).isSome

/-- The global locale of a registry, published first if need be. -/
def globalLocale (w : World) (r : RegistryId) : World × LocaleId :=
  match w.globalLocale? r with
  | (w, some g) => (w, g)
  | (w, none) =>
    let (w, _, g) := w.publish r
    (w.retainLocale g, g)

/-- The classic locale of a registry, published first if need be. -/
def classicLocale (w : World) (r : RegistryId) : World × LocaleId :=
  match (w.registry? r).bind (·.classic) with
  | some c => (w.retainLocale c, c)
  | none =>
    let (w, c, _) := w.publish r
    (w.retainLocale c, c)

/-- A new transparent locale. -/
def emptyLocale (w : World) (r : RegistryId) : World × LocaleId :=
  (w.ensureLocales r).addTransparent

/-- Replaces the global locale. Answers with the one before, and the reference that
was the registry's. -/
def replaceGlobal (w : World) (r : RegistryId) (l : LocaleId) : World × LocaleId :=
  let (w, _, previous) := w.publish r
  let w := (w.retainLocale l).modifyRegistry r ({ · with global := some l })
  (w.log (.globalReplaced (w.localeName l)), previous)

/-! ## Facets -/

/-- The facet of a kind in a locale or, if the locale is transparent, in the global
locale. None is created. -/
def findFacet (w : World) (r : RegistryId) (l : LocaleId) (kind : FacetKind) :
    World × Option FacetId :=
  match w.ownFacet l kind with
  | (w, some f) => (w.retainFacet f, some f)
  | (w, none) =>
    if (w.locale? l).any (·.transparent) then
      let (w, g) := w.globalLocale r
      let (w, found) := w.ownFacet g kind
      let w := found.elim w w.retainFacet
      (w.releaseLocale g, found)
    else (w, none)

/-- The index that the report of a recorded facet names: that of the facet's kind,
if the kind is given. -/
def recordedIndex (w : World) : Option FacetKind → World × Option Nat
  | some kind =>
    let (w, i) := w.indexOf kind
    (w, some i)
  | none => (w, none)

/-- Counts and reports a facet that was recorded as the last of `entries`. -/
def reportRecorded (w : World) (index : Option Nat) (entries : Nat) : World :=
  (w.tally .facetsRegistered).log (.facetRecorded index entries)

/-- The number of facets recorded in a registry. -/
def entryCount (w : World) (r : RegistryId) : Nat :=
  match w.registry? r with
  | some g => g.entries.length
  | none => 0

/-- Records a facet for release at teardown, taking over a reference to it. -/
def recordFacet (w : World) (r : RegistryId) (kind : Option FacetKind) (f : FacetId) : World :=
  let (w, index) := w.recordedIndex kind
  let w := w.modifyRegistry r fun g => { g with entries := g.entries ++ [f] }
  w.reportRecorded index (w.entryCount r)

/-- Puts a facet among the facets created on demand, in place of any at its index. -/
def cacheFacet (w : World) (r : RegistryId) (index : Nat) (f : FacetId) : World :=
  let replaced := ((w.registry? r).bind fun g => g.lazy.find? (·.1 = index)).map (·.2)
  let w := w.modifyRegistry r fun g =>
    { g with lazy := g.lazy.filter (·.1 ≠ index) ++ [(index, f)] }
  replaced.elim w w.releaseFacet

/-- The facet of a kind that was created on demand earlier. -/
def cachedFacet? (w : World) (r : RegistryId) (index : Nat) (kind : FacetKind) :
    Option FacetId :=
  (((w.registry? r).bind fun g => g.lazy.find? (·.1 = index)).map (·.2)).filter fun f =>
    (w.facets.get? f).any (·.kind = kind)

/-- Creates the facet of a kind for a locale, and keeps one reference in the cache
and one for teardown beside the caller's. -/
def createFacet (w : World) (r : RegistryId) (l : LocaleId) (index : Nat) (kind : FacetKind) :
    World × FacetId :=
  let name := w.localeName l
  let w := if kind.isProbe then w.notify (.created kind name) else w
  let (w, f) := w.addFacet (.createFor kind name)
  let w := (w.retainFacet f).cacheFacet r index f
  let w := (w.retainFacet f).recordFacet r (some kind) f
  ((w.tally .lazyFacetsCreated).log (.facetCreated name index), f)

/-- The facet of a kind as seen through a locale: its own, or the global locale's if
it is transparent, or the one created on demand. -/
def useFacet (w : World) (r : RegistryId) (l : LocaleId) (kind : FacetKind) : World × FacetId :=
  match w.findFacet r l kind with
  | (w, some f) => (w, f)
  | (w, none) =>
    let (w, index) := w.indexOf kind
    match w.cachedFacet? r index kind with
    | some f => (w.retainFacet f, f)
    | none => w.createFacet r l index kind

/-! ## Locales of threads -/

/-- Replaces a thread's setting, taking over the reference in it. Answers with the
setting before. -/
def setThreadLocale (w : World) (r : RegistryId) (t : ThreadId) (l : Option LocaleId) :
    World × Except Fault (Option LocaleId) :=
  match w.registry? r with
  | none => (w, .ok none)
  | some g =>
    match w.getOr t g.threadLocale fun w => (w, .setting none) with
    | (w, .error f) => (l.elim w w.releaseLocale, .error f)
    | (w, .ok before) =>
      let locals := match w.locals.cellOf? t g.threadLocale with
        | some c => { w.locals with cells := w.locals.cells.set c (some (.setting l)) }
        | none => w.locals
      ({ w with locals },
        .ok (match before with
          | .setting l => l
          | .tracked _ => none))

/-- A thread's locale: the one it has set, or the global one. -/
def threadLocale (w : World) (r : RegistryId) (t : ThreadId) : World × LocaleId :=
  match w.registry? r with
  | none => w.globalLocale r
  | some g =>
    match w.getLocal t g.threadLocale with
    | (w, some (.setting (some l))) => (w.retainLocale l, l)
    | (w, _) => w.globalLocale r

/-! ## Teardown -/

/-- Releases recorded facets, the newest first. -/
def releaseEntries (w : World) (entries : List FacetId) : World :=
  ((w.releaseFacets entries.reverse).count .facetsReleased entries.length).log
    (.facetsReleased entries.length)

/-- Releases the facets recorded in a registry, and nothing else that it holds. Answers with
their number. -/
def releaseRecorded (w : World) (r : RegistryId) : World × Nat :=
  let entries := ((w.registry? r).map (·.entries)).getD []
  ((w.modifyRegistry r ({ · with entries := [] })).releaseEntries entries, entries.length)

theorem releaseRecorded_eq {w : World} {r : RegistryId} {g : Registry}
    (hg : w.registry? r = some g) :
    w.releaseRecorded r =
      ((w.modifyRegistry r ({ · with entries := [] })).releaseEntries g.entries,
        g.entries.length) := by
  rw [releaseRecorded, hg, Option.map_some, Option.getD_some]

/-- Takes away the settings of all threads; their cells stay bound. Answers with the
locales in them. -/
def takeSettings (w : World) (id : LocalId) : World × List LocaleId :=
  let taken := (w.locals.valuesOf id).filterMap fun
    | .setting l => l
    | .tracked _ => none
  ({ w with locals := w.locals.modifyAll id fun _ _ => .setting none }, taken)

/-- Releases all that a registry holds: the settings of threads, the global and the
classic locale, and the facets. -/
def teardown (w : World) (r : RegistryId) : World × TeardownReport :=
  match w.registry? r with
  | none => (w, {})
  | some g =>
    let queued := g.teardownQueued && !(w.exitTable g.exits).ran
    let w := w.modifyRegistry r fun g =>
      { g with teardownQueued := queued, classic := none, global := none, lazy := [] }
    let (w, settings) := w.takeSettings g.threadLocale
    let w := (w.releaseLocales settings).releaseLocales (g.global.toList ++ g.classic.toList)
    let w := w.releaseFacets (g.lazy.map (·.2))
    let (w, facetsTornDown) := w.releaseRecorded r
    let report : TeardownReport :=
      { releasedClassic := g.classic.isSome, releasedGlobal := g.global.isSome
        threadLocales := settings.length, lazyFacets := g.lazy.length, facetsTornDown }
    (w.log (.tornDown report), report)

end Hosted.World
