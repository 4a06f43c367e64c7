import Hosted.Proofs.Registry.Refusals
import Hosted.Proofs.ThreadLocals.Operations

/-!
# The fronts of registries

The front of a registry is what its publication is about: its two locales, whether its
teardown has been queued, and where. Most operations are `Idle`: they leave all fronts
and all exit tables as they are, and report no teardown as refused. The others publish,
replace or tear down.
-/

namespace Hosted

/-- What a registry shows of its publication. -/
structure Front where
  classic : Option LocaleId
  global : Option LocaleId
  queued : Bool
  exits : TableId

def Registry.front (g : Registry) : Front := ⟨g.classic, g.global, g.teardownQueued, g.exits⟩

namespace Front

/-- The front after publication, if `n` is the number of the next locale. -/
def published (f : Front) (n : LocaleId) : Front :=
  { f with
    classic := some (f.classic.getD n)
    global := some (f.global.getD (f.classic.getD n))
    queued := true }

/-- The front after a teardown, when the exit table has run or has not. -/
def tornDown (f : Front) (ran : Bool) : Front :=
  { f with classic := none, global := none, queued := f.queued && !ran }

/-- The exit table once the teardown of registry `r` has been queued. -/
def queue (f : Front) (r : RegistryId) (table : ExitTable Handler) : ExitTable Handler :=
  if f.queued || table.ran then table
  else { table with handlers := table.handlers ++ [.teardown r] }

/-- Both locales are there or none, and with them the teardown has been queued. -/
structure Coherent (f : Front) : Prop where
  both : f.classic.isSome = f.global.isSome
  queued : f.classic.isSome = true → f.queued = true

theorem coherent_of_none {f : Front} (hc : f.classic = none) (hl : f.global = none) :
    f.Coherent where
  both := by rw [hc, hl]
  queued := by
    rw [hc]
    exact fun h => absurd h Bool.false_ne_true

theorem Coherent.global_eq_none {f : Front} (h : f.Coherent) (hc : f.classic = none) :
    f.global = none := by
  rw [← Option.isNone_iff_eq_none, ← Option.not_isSome, ← h.both, hc, Option.isSome_none,
    Bool.not_false]

theorem published_eq {f : Front} (h : f.Coherent) (n : LocaleId)
    (hc : f.classic.isSome = true) : f.published n = f := by
  have hq := h.queued hc
  obtain ⟨c, hc⟩ := Option.isSome_iff_exists.1 hc
  obtain ⟨l, hl⟩ := Option.isSome_iff_exists.1 (h.both ▸ Option.isSome_iff_exists.2 ⟨c, hc⟩)
  obtain ⟨classic, global, queued, exits⟩ := f
  simp only at hc hl hq
  subst hc hl hq
  rfl

theorem tornDown_tornDown (f : Front) (ran : Bool) :
    (f.tornDown ran).tornDown ran = f.tornDown ran := by
  simp [tornDown]

theorem coherent_published (f : Front) (n : LocaleId) : (f.published n).Coherent :=
  ⟨rfl, fun _ => rfl⟩

end Front

namespace World

/-- The front of a registry. -/
def front? (w : World) (r : RegistryId) : Option Front := (w.registry? r).map Registry.front

variable {w w' w'' : World} {r : RegistryId} {g : Registry} {f : Front} {t : ThreadId}
  {id : LocalId} {v : Payload}

theorem front?_eq_some (hf : w.front? r = some f) :
    ∃ g, w.registry? r = some g ∧ g.front = f := Option.map_eq_some_iff.1 hf

/-! ## What stays as it is -/

/-- Fronts and exit tables stay as they are. -/
structure Steady (w w' : World) : Prop where
  front? : ∀ r, w'.front? r = w.front? r
  exits : w'.exits = w.exits

namespace Steady

theorem refl (w : World) : w.Steady w := ⟨fun _ => rfl, rfl⟩

theorem trans (h : w.Steady w') (h' : w'.Steady w'') : w.Steady w'' :=
  ⟨fun r => (h'.front? r).trans (h.front? r), h'.exits.trans h.exits⟩

theorem of_eq (hregistries : w'.registries = w.registries) (hexits : w'.exits = w.exits) :
    w.Steady w' :=
  ⟨fun r => by rw [World.front?, World.registry?, hregistries]; rfl, hexits⟩

theorem exitTable (h : w.Steady w') (t : TableId) : w'.exitTable t = w.exitTable t := by
  rw [World.exitTable, h.exits]
  rfl

end Steady

theorem Unmoved.steady (h : w.Unmoved w') : w.Steady w' := .of_eq h.registries h.exits

/-- What is steady and mild. -/
structure Idle (w w' : World) : Prop where
  steady : w.Steady w'
  bare : w.Bare → w'.Bare
  hushed : w.Hushed w'

namespace Idle

theorem mild (h : w.Idle w') : w.Mild w' := .of_exits h.steady.exits h.bare h.hushed

theorem of_mild (h : w.Mild w') (hsteady : w.Steady w') : w.Idle w' := ⟨hsteady, h.bare, h.hushed⟩

/-- What leaves registries, exit tables and locales alone, and gives no notice. -/
theorem of_eq (hregistries : w'.registries = w.registries) (hexits : w'.exits = w.exits)
    (hlocales : w'.locales = w.locales) (hnotices : w'.notices = w.notices) : w.Idle w' :=
  of_mild (.of_eq hlocales hexits hnotices) (.of_eq hregistries hexits)

theorem refl (w : World) : w.Idle w := of_eq rfl rfl rfl rfl

theorem trans (h : w.Idle w') (h' : w'.Idle w'') : w.Idle w'' where
  steady := h.steady.trans h'.steady
  bare hw := h'.bare (h.bare hw)
  hushed := Gives.trans h.hushed h'.hushed

/-- A sequence of idle steps is idle. -/
theorem foldl {β : Type} {f : World → β → World} (hf : ∀ w b, Idle w (f w b)) (w : World)
    (bs : List β) : w.Idle (bs.foldl f w) :=
  bs.foldlRecOn f (refl w) fun w' h b _ => h.trans (hf w' b)

end Idle

theorem idle_notify {n : Notice} (hn : n.refusal? = none) (w : World) : w.Idle (w.notify n) :=
  .of_mild (mild_notify hn w) (.of_eq rfl rfl)

theorem idle_tally (w : World) (which : Counter) : w.Idle (w.tally which) := .of_eq rfl rfl rfl rfl

theorem idle_raise (w : World) (fault : Fault) : w.Idle (w.raise fault) :=
  .of_mild (w.mild_raise fault) (w.unmoved_raise fault).steady

theorem idle_indexOf (w : World) (kind : FacetKind) : w.Idle (w.indexOf kind).1 :=
  .of_eq rfl rfl rfl rfl

/-! ## Facets and locales -/

theorem idle_addFacet (w : World) (body : Facet) : w.Idle (w.addFacet body).1 :=
  .of_eq rfl rfl rfl rfl

theorem idle_retainFacet (w : World) (x : FacetId) : w.Idle (w.retainFacet x) :=
  .of_eq rfl rfl rfl rfl

theorem idle_releaseFacet (w : World) (x : FacetId) : w.Idle (w.releaseFacet x) :=
  .of_mild (w.mild_releaseFacet x) (w.unmoved_releaseFacet x).steady

theorem idle_retainLocale (w : World) (l : LocaleId) : w.Idle (w.retainLocale l) :=
  .of_mild (w.mild_retainLocale l) (w.unmoved_retainLocale l).steady

theorem idle_releaseLocale (w : World) (l : LocaleId) : w.Idle (w.releaseLocale l) :=
  .of_mild (w.mild_releaseLocale l) (w.unmoved_releaseLocale l).steady

theorem idle_addTransparent (w : World) : w.Idle w.addTransparent.1 :=
  .of_mild w.mild_addTransparent w.unmoved_addTransparent.steady

theorem idle_withFacet (w : World) (l : LocaleId) (kind : FacetKind) (x : FacetId) :
    w.Idle (w.withFacet l kind x).1 :=
  .of_mild (w.mild_withFacet l kind x) (w.unmoved_withFacet l kind x).steady

theorem idle_ownFacet (w : World) (l : LocaleId) (kind : FacetKind) :
    w.Idle (w.ownFacet l kind).1 := w.idle_indexOf kind

theorem idle_retainOwn (w : World) (found : Option FacetId) :
    w.Idle (found.elim w w.retainFacet) := by
  cases found with
  | none => exact .refl w
  | some x => exact w.idle_retainFacet x

/-- The records of what a registry keeps do not show. -/
theorem idle_modifyRegistry (w : World) (r : RegistryId) {change : Registry → Registry}
    (hchange : ∀ g, (change g).front = g.front) : w.Idle (w.modifyRegistry r change) := by
  refine .of_mild (w.mild_modifyRegistry r change) ⟨fun r' => ?_, rfl⟩
  unfold World.front?
  rw [registry?_modifyRegistry]
  split
  · rw [Option.map_map]
    exact congrArg (fun k => Option.map k (w.registry? r')) (funext hchange)
  · rfl

theorem idle_recordFacet (w : World) (r : RegistryId) (kind : Option FacetKind)
    (x : FacetId) : w.Idle (w.recordFacet r kind x) := by
  have hindex : w.Idle (w.recordedIndex kind).1 := by
    cases kind with
    | none => exact .refl w
    | some kind => exact w.idle_indexOf kind
  unfold recordFacet
  refine ((hindex.trans (idle_modifyRegistry _ r ?_)).trans (idle_tally _ _)).trans
    (idle_notify rfl _)
  exact fun _ => rfl

theorem idle_releaseRecorded (w : World) (r : RegistryId) : w.Idle (w.releaseRecorded r).1 :=
  releaseRecorded_induction Idle.refl Idle.trans (fun w r => w.idle_modifyRegistry r fun _ => rfl)
    idle_releaseFacet (fun _ _ => .of_eq rfl rfl rfl rfl) (fun w _ => idle_notify rfl w) w r

theorem idle_cacheFacet (w : World) (r : RegistryId) (index : Nat) (x : FacetId) :
    w.Idle (w.cacheFacet r index x) := by
  unfold cacheFacet
  simp only
  have hmodify : w.Idle (w.modifyRegistry r fun g =>
      { g with lazy := g.lazy.filter (·.1 ≠ index) ++ [(index, x)] }) :=
    w.idle_modifyRegistry r fun _ => rfl
  cases ((w.registry? r).bind fun g => g.lazy.find? (·.1 = index)).map (·.2) with
  | none => exact hmodify
  | some replaced => exact hmodify.trans (idle_releaseFacet _ replaced)

theorem idle_createFacet (w : World) (r : RegistryId) (l : LocaleId) (index : Nat)
    (kind : FacetKind) : w.Idle (w.createFacet r l index kind).1 := by
  unfold createFacet
  simp only
  have hnotify : w.Idle (if kind.isProbe then w.notify (.created kind (w.localeName l))
      else w) := by
    split
    · exact idle_notify rfl w
    · exact .refl w
  refine Idle.trans ?_ ((idle_tally _ _).trans (idle_notify rfl _))
  refine Idle.trans ?_ (idle_recordFacet _ _ _ _)
  refine Idle.trans ?_ (idle_retainFacet _ _)
  refine Idle.trans ?_ (idle_cacheFacet _ _ _ _)
  exact (hnotify.trans (idle_addFacet _ _)).trans (idle_retainFacet _ _)

/-! ## Thread locals -/

theorem idle_locals (w : World) (locals : Locals Payload) : w.Idle { w with locals } :=
  .of_eq rfl rfl rfl rfl

theorem idle_getLocal (w : World) (t : ThreadId) (id : LocalId) : w.Idle (w.getLocal t id).1 :=
  w.idle_locals _

theorem idle_discard (w : World) (v : Payload) : w.Idle (w.discard v) :=
  .of_mild (w.mild_discard v) (w.unmoved_discard v).steady

theorem idle_takeSlot (w : World) : w.Idle w.takeSlot.1 := by
  unfold takeSlot
  split
  · exact ((w.idle_locals _).trans (idle_tally _ _)).trans (idle_notify rfl _)
  · exact (w.idle_locals _).trans (idle_notify rfl _)

theorem idle_giveSlot (w : World) (h : SlotHandle) : w.Idle (w.giveSlot h).1 := by
  unfold giveSlot
  simp only
  split
  · exact (w.idle_locals _).trans (idle_tally _ _)
  · exact w.idle_locals _

theorem idle_bindValue (w : World) (t : ThreadId) (id : LocalId) (v : Payload) :
    w.Idle (w.bindValue t id v).1 := by
  unfold bindValue
  split
  · exact (w.idle_locals _).trans (idle_tally _ _)
  · next locals f _ =>
      apply ((w.idle_locals locals).trans (idle_discard _ v)).trans
      simp only
      split
      · exact idle_notify rfl _
      · exact .refl _

theorem idle_dropLocal (w : World) (t : ThreadId) (id : LocalId) :
    w.Idle (w.dropLocal t id) := by
  unfold dropLocal
  split
  · exact .refl w
  · next locals values h _ =>
      have hcount : ∀ w : World, w.Idle (w.count .valuesFreed values.length) :=
        fun _ => .of_eq rfl rfl rfl rfl
      apply ((w.idle_locals locals).trans (Idle.foldl idle_discard _ values)).trans
      exact (hcount _).trans (idle_giveSlot _ h)

theorem idle_tryNewLocal (w : World) (t : ThreadId) (v : Payload) :
    w.Idle (w.tryNewLocal t v).1 := by
  have htake := w.idle_takeSlot
  unfold tryNewLocal
  generalize w.takeSlot = taken at htake ⊢
  obtain ⟨w₁, result⟩ := taken
  cases result with
  | error f => exact htake.trans (idle_discard _ v)
  | ok h =>
      simp only
      generalize w₁.locals.create h = created
      obtain ⟨locals, id⟩ := created
      have hbind := idle_bindValue { w₁ with locals } t id v
      have hcreate := w₁.idle_locals locals
      simp only
      generalize World.bindValue { w₁ with locals } t id v = bound at hbind ⊢
      obtain ⟨w₂, result⟩ := bound
      cases result with
      | ok _ => exact (htake.trans hcreate).trans hbind
      | error f => exact ((htake.trans hcreate).trans hbind).trans (idle_dropLocal _ t id)

theorem idle_endThread (w : World) (t : ThreadId) : w.Idle (w.endThread t) := by
  have hstep : ∀ (w : World) (v : Payload), w.Idle ((w.discard v).tally .valuesFreed) :=
    fun w v => (w.idle_discard v).trans (idle_tally _ _)
  unfold endThread
  simp only
  generalize w.locals.endThread t = ended
  obtain ⟨locals, freed⟩ := ended
  apply ((w.idle_locals locals).trans (Idle.foldl hstep _ freed)).trans
  simp only
  split
  · exact .refl _
  · exact idle_notify rfl _

theorem idle_setting (w : World) (t : ThreadId) (id : LocalId) :
    w.Idle (w.getOr t id fun w => (w, .setting none)).1 := by
  have hget := w.idle_getLocal t id
  cases hv : w.locals.get? t id with
  | some v =>
      rw [getOr, tryGetOr_of_some hv]
      exact hget
  | none =>
      have hbind := idle_bindValue (w.getLocal t id).1 t id (.setting none)
      rw [getOr, tryGetOr_of_none hv]
      simp only
      generalize World.bindValue (w.getLocal t id).1 t id (.setting none) = bound at hbind ⊢
      obtain ⟨w₁, result⟩ := bound
      cases result with
      | ok _ => exact hget.trans hbind
      | error f => exact (hget.trans hbind).trans (idle_raise _ _)

theorem idle_setThreadLocale (w : World) (r : RegistryId) (t : ThreadId)
    (l : Option LocaleId) : w.Idle (w.setThreadLocale r t l).1 := by
  unfold setThreadLocale
  cases hg : w.registry? r with
  | none => exact .refl w
  | some g =>
      have hset := w.idle_setting t g.threadLocale
      simp only
      generalize w.getOr t g.threadLocale (fun w => (w, .setting none)) = got at hset ⊢
      obtain ⟨w₁, result⟩ := got
      cases result with
      | ok before => exact hset.trans (idle_locals _ _)
      | error f =>
          cases l with
          | none => exact hset
          | some l => exact hset.trans (idle_releaseLocale _ l)

/-! ## Publication -/

/-- Registry `r` has published, its front is now `f'`, and its teardown is queued or
refused. -/
structure Publishes (w : World) (r : RegistryId) (f f' : Front) (w' : World) : Prop where
  front? : ∀ r', w'.front? r' = if r' = r then some f' else w.front? r'
  exits_length : w'.exits.length = w.exits.length
  exitTable : ∀ t, w'.exitTable t =
    if t = f.exits then f.queue r (w.exitTable t) else w.exitTable t
  warns : w.Warns (refusals f.queued (w.exitTable f.exits).ran) w'

variable {f' : Front} {n : LocaleId} {l : LocaleId}

namespace Publishes

theorem idle (h : w.Publishes r f f' w') (h' : w'.Idle w'') : w.Publishes r f f' w'' where
  front? r' := (h'.steady.front? r').trans (h.front? r')
  exits_length := (congrArg List.length h'.steady.exits).trans h.exits_length
  exitTable t := (h'.steady.exitTable t).trans (h.exitTable t)
  warns := h.warns.mild h'.mild

theorem of_idle (h : w.Idle w') (h' : w'.Publishes r f f' w'') : w.Publishes r f f' w'' where
  front? r' := by rw [h'.front?, h.steady.front?]
  exits_length := h'.exits_length.trans (congrArg List.length h.steady.exits)
  exitTable t := by rw [h'.exitTable, h.steady.exitTable]
  warns := by
    rw [← h.steady.exitTable]
    exact .of_mild h.mild h'.warns

end Publishes

/-- What is up stays as it is. -/
theorem publishes_self (hf : w.front? r = some f) (hc : f.Coherent)
    (hup : f.classic.isSome = true) : w.Publishes r f (f.published n) w where
  front? r' := by
    rw [Front.published_eq hc n hup]
    by_cases hr : r' = r
    · rw [if_pos hr, hr, hf]
    · rw [if_neg hr]
  exits_length := rfl
  exitTable t := by
    rw [Front.queue, hc.queued hup, Bool.true_or, if_pos rfl, ite_self]
  warns := by
    rw [hc.queued hup]
    exact (Mild.refl w).warns

theorem publishes_publish (hf : w.front? r = some f) (hexits : f.exits < w.exits.length) :
    w.Publishes r f (f.published w.locales.objects.length) (w.publish r).1 ∧
      some (w.publish r).2.1 = (f.published w.locales.objects.length).classic ∧
      some (w.publish r).2.2 = (f.published w.locales.objects.length).global := by
  obtain ⟨g, hg, rfl⟩ := front?_eq_some hf
  have hp := published_publish hg
  refine ⟨⟨?_, hp.exits_length, hp.exitTable hexits, warns_publish hg⟩,
    congrArg some hp.classic_eq, ?_⟩
  · intro r'
    unfold World.front?
    rw [hp.registry?]
    by_cases hr : r' = r
    · rw [if_pos hr, if_pos hr, Option.map_some, hp.global_eq, hp.classic_eq]
      rfl
    · rw [if_neg hr, if_neg hr]
  · rw [hp.global_eq, hp.classic_eq]
    rfl

theorem publishes_globalLocale (hf : w.front? r = some f) (hexits : f.exits < w.exits.length)
    (hc : f.Coherent) :
    w.Publishes r f (f.published w.locales.objects.length) (w.globalLocale r).1 ∧
      some (w.globalLocale r).2 = (f.published w.locales.objects.length).global := by
  obtain ⟨g, hg, rfl⟩ := front?_eq_some hf
  unfold globalLocale globalLocale?
  rw [hg, Option.bind_some]
  cases hl : g.global with
  | some l =>
      have hup : g.front.classic.isSome = true := by
        rw [hc.both, Registry.front, hl]
        rfl
      refine ⟨(publishes_self hf hc hup).idle (w.idle_retainLocale l), ?_⟩
      rw [Front.published_eq hc _ hup, Registry.front, hl]
  | none =>
      obtain ⟨hp, -, hglobal⟩ := publishes_publish hf hexits
      exact ⟨hp.idle (idle_retainLocale _ _), hglobal⟩

theorem publishes_classicLocale (hf : w.front? r = some f) (hexits : f.exits < w.exits.length)
    (hc : f.Coherent) :
    w.Publishes r f (f.published w.locales.objects.length) (w.classicLocale r).1 ∧
      some (w.classicLocale r).2 = (f.published w.locales.objects.length).classic := by
  obtain ⟨g, hg, rfl⟩ := front?_eq_some hf
  unfold classicLocale
  rw [hg, Option.bind_some]
  cases hl : g.classic with
  | some c =>
      have hup : g.front.classic.isSome = true := by
        rw [Registry.front, hl]
        rfl
      refine ⟨(publishes_self hf hc hup).idle (w.idle_retainLocale c), ?_⟩
      rw [Front.published_eq hc _ hup, Registry.front, hl]
  | none =>
      obtain ⟨hp, hclassic, -⟩ := publishes_publish hf hexits
      exact ⟨hp.idle (idle_retainLocale _ _), hclassic⟩

theorem publishes_ensureLocales (hf : w.front? r = some f) (hexits : f.exits < w.exits.length)
    (hc : f.Coherent) :
    w.Publishes r f (f.published w.locales.objects.length) (w.ensureLocales r) := by
  obtain ⟨g, hg, rfl⟩ := front?_eq_some hf
  unfold ensureLocales
  rw [hg, Option.bind_some]
  split
  · next hclassic _ =>
      exact publishes_self hf hc (Option.isSome_iff_exists.2 ⟨_, hclassic⟩)
  · exact (publishes_publish hf hexits).1

theorem publishes_replaceGlobal (hf : w.front? r = some f) (hexits : f.exits < w.exits.length) :
    w.Publishes r f { f.published w.locales.objects.length with global := some l }
        (w.replaceGlobal r l).1 ∧
      some (w.replaceGlobal r l).2 = (f.published w.locales.objects.length).global := by
  obtain ⟨hp, -, hglobal⟩ := publishes_publish hf hexits
  unfold replaceGlobal
  generalize w.publish r = published at hp hglobal ⊢
  obtain ⟨w₁, c, before⟩ := published
  have hwarns := (hp.warns.mild (w₁.mild_retainLocale l)).mild
    (mild_modifyRegistry _ r ({ · with global := some l }))
  refine ⟨⟨?_, hp.exits_length, hp.exitTable, hwarns.mild (mild_notify rfl _)⟩, hglobal⟩
  intro r'
  have hfront := hp.front? r'
  unfold World.front? at hfront ⊢
  refine Eq.trans (congrArg _ (registry?_modifyRegistry (w₁.retainLocale l) r
    ({ · with global := some l }) r')) ?_
  by_cases hr : r' = r
  · rw [if_pos hr] at hfront ⊢
    rw [if_pos hr]
    obtain ⟨g, hg, hgf⟩ := Option.map_eq_some_iff.1 hfront
    change Option.map _ (Option.map _ (w₁.registry? r')) = _
    rw [hg, Option.map_some, Option.map_some, ← hgf]
    rfl
  · rw [if_neg hr] at hfront ⊢
    rw [if_neg hr]
    exact hfront

/-! ## Threads and facets -/

/-- A thread without a locale of its own asks for the global one. -/
theorem publishes_threadLocale (hg : w.registry? r = some g) (hexits : g.exits < w.exits.length)
    (hc : g.front.Coherent) (t : ThreadId)
    (hunset : ∀ l, w.locals.get? t g.threadLocale ≠ some (.setting (some l))) :
    w.Publishes r g.front (g.front.published w.locales.objects.length) (w.threadLocale r t).1 ∧
      some (w.threadLocale r t).2 = (g.front.published w.locales.objects.length).global := by
  have hget := w.idle_getLocal t g.threadLocale
  have hf : (w.getLocal t g.threadLocale).1.front? r = some g.front :=
    (hget.steady.front? r).trans (congrArg (Option.map Registry.front) hg)
  have hglobal := publishes_globalLocale hf hexits hc
  have hv : (w.getLocal t g.threadLocale).2 = w.locals.get? t g.threadLocale := rfl
  have hlocales : (w.getLocal t g.threadLocale).1.locales = w.locales := rfl
  rw [hlocales] at hglobal
  unfold threadLocale
  rw [hg]
  simp only
  generalize w.getLocal t g.threadLocale = got at hget hglobal hv ⊢
  obtain ⟨w₁, v⟩ := got
  have hall := And.intro (Publishes.of_idle hget hglobal.1) hglobal.2
  rcases v with _ | ⟨text⟩ | ⟨_ | l⟩
  · exact hall
  · exact hall
  · exact hall
  · exact absurd hv.symm (hunset l)

theorem idle_threadLocale (hg : w.registry? r = some g) {t : ThreadId}
    (hset : w.locals.get? t g.threadLocale = some (.setting (some l))) :
    w.Idle (w.threadLocale r t).1 ∧ (w.threadLocale r t).2 = l := by
  have hgot : w.getLocal t g.threadLocale =
      ((w.getLocal t g.threadLocale).1, some (.setting (some l))) := Prod.ext rfl hset
  unfold threadLocale
  rw [hg]
  simp only
  rw [hgot]
  exact ⟨(w.idle_getLocal t g.threadLocale).trans (idle_retainLocale _ l), rfl⟩

theorem ownFacet_of_transparent {body : Locale} (hl : w.locales.get? l = some body)
    (hbare : body.facets = []) (kind : FacetKind) : (w.ownFacet l kind).2 = none := by
  have hlocale : (w.indexOf kind).1.locale? l = some body := hl
  unfold ownFacet
  simp only
  rw [hlocale, Option.bind_some, Locale.facetAt?, hbare]
  rfl

/-- A transparent locale has no facet of its own to answer with. -/
theorem Bare.ownFacet_eq_none (h : w.Bare) (htransparent : w.isTransparent l = true)
    (kind : FacetKind) : (w.ownFacet l kind).2 = none := by
  unfold isTransparent locale? at htransparent
  obtain ⟨body, hbody, htrue⟩ := (Option.any_eq_true _ _).1 htransparent
  refine ownFacet_of_transparent hbody ?_ kind
  unfold Shared.get? at hbody
  split at hbody
  · next o ho =>
      split at hbody
      · cases hbody
      · rw [Option.some.injEq] at hbody
        subst hbody
        exact h o (List.mem_of_getElem? ho) htrue
  · cases hbody

/-- A transparent locale asks for the global one. -/
theorem publishes_findFacet (hf : w.front? r = some f) (hexits : f.exits < w.exits.length)
    (hc : f.Coherent) (kind : FacetKind) (hb : w.Bare)
    (htransparent : w.isTransparent l = true) :
    w.Publishes r f (f.published w.locales.objects.length) (w.findFacet r l kind).1 := by
  have hown := hb.ownFacet_eq_none htransparent kind
  have hidle := w.idle_ownFacet l kind
  have hlocales : (w.ownFacet l kind).1.locales = w.locales := rfl
  have hglobal := publishes_globalLocale ((hidle.steady.front? r).trans hf)
    (hidle.steady.exits ▸ hexits) hc
  have htransparent' : ((w.ownFacet l kind).1.locale? l).any (·.transparent) = true := htransparent
  rw [hlocales] at hglobal
  unfold findFacet
  generalize w.ownFacet l kind = own at hown hidle hglobal htransparent' ⊢
  obtain ⟨w₁, found⟩ := own
  simp only at hown hglobal htransparent' ⊢
  subst hown
  simp only
  rw [if_pos htransparent']
  generalize w₁.globalLocale r = got at hglobal ⊢
  obtain ⟨w₂, l'⟩ := got
  have hown₂ := w₂.idle_ownFacet l' kind
  simp only
  generalize w₂.ownFacet l' kind = own at hown₂ ⊢
  obtain ⟨w₃, found⟩ := own
  have hrest := (w₃.idle_retainOwn found).trans (idle_releaseLocale _ l')
  exact .of_idle hidle (hglobal.1.idle (hown₂.trans hrest))

theorem idle_findFacet (hsolid : w.isTransparent l = false) (r : RegistryId)
    (kind : FacetKind) : w.Idle (w.findFacet r l kind).1 := by
  have hown := w.idle_ownFacet l kind
  have hsolid' : ((w.ownFacet l kind).1.locale? l).any (·.transparent) = false := hsolid
  unfold findFacet
  generalize w.ownFacet l kind = own at hown hsolid' ⊢
  obtain ⟨w₁, found⟩ := own
  cases found with
  | some x => exact hown.trans (w₁.idle_retainFacet x)
  | none =>
      simp only at hsolid' ⊢
      rw [hsolid']
      exact hown

/-- What is used beyond what is found is created without a change of fronts. -/
theorem idle_useFacet_findFacet (w : World) (r : RegistryId) (l : LocaleId)
    (kind : FacetKind) : (w.findFacet r l kind).1.Idle (w.useFacet r l kind).1 := by
  unfold useFacet
  generalize w.findFacet r l kind = found
  obtain ⟨w₁, x⟩ := found
  cases x with
  | some x => exact .refl w₁
  | none =>
      have hindex := w₁.idle_indexOf kind
      simp only
      generalize w₁.indexOf kind = indexed at hindex ⊢
      obtain ⟨w₂, index⟩ := indexed
      simp only
      cases w₂.cachedFacet? r index kind with
      | some x => exact hindex.trans (w₂.idle_retainFacet x)
      | none => exact hindex.trans (w₂.idle_createFacet r l index kind)

end World

end Hosted
