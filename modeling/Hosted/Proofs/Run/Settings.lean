import Hosted.Proofs.Registry.Stores
import Hosted.Proofs.Run.Orderly

/-!
# Settings of threads

What a thread has set in a registry is in the registry's thread local. Most operations are
`Settled`: they change no setting and end no thread. Those that are not are the call that
sets a locale, the end of a thread and teardowns, and each of them is told by its event.
-/

namespace Hosted

namespace Event

/-- Thread `t` ended with the step. -/
def ends (t : ThreadId) : Event → Bool
  | .threadEnded t' => t' = t
  | _ => false

/-- The step took away what thread `t` had set in registry `r`. -/
def forgets (r : RegistryId) (t : ThreadId) (e : Event) : Bool := e.tearsDown r || e.ends t

/-- What thread `t` set in registry `r` with the step: a locale or none. -/
def sets? (r : RegistryId) (t : ThreadId) : Event → Option (Option LocaleId)
  | .setThread r' t' l (.ok _) => if r' = r ∧ t' = t then some l else none
  | _ => none

end Event

namespace World

/-- The locale that thread `t` has set in registry `r`. -/
def settingOf (w : World) (r : RegistryId) (t : ThreadId) : Option LocaleId :=
  (w.registry? r).bind fun g => (w.locals.get? t g.threadLocale).bind Payload.chosen?

variable {w w' w'' : World} {hand hand' : Multiset Holding} {e : Event} {r : RegistryId}
  {rs : List RegistryId} {g : Registry} {s : Store} {t : ThreadId} {id : LocalId} {v : Payload}
  {m m' : BindingMap}

theorem settingOf_of_registry (hg : w.registry? r = some g) (t : ThreadId) :
    w.settingOf r t = (w.locals.get? t g.threadLocale).bind Payload.chosen? := by
  rw [settingOf, hg, Option.bind_some]

theorem settingOf_of_none (hg : w.registry? r = none) (t : ThreadId) : w.settingOf r t = none := by
  rw [settingOf, hg, Option.bind_none]

theorem settingOf_eq_bind_store? (w : World) (r : RegistryId) (t : ThreadId) :
    w.settingOf r t = (w.store? r).bind fun s =>
      (w.locals.get? t s.threadLocale).bind Payload.chosen? := by
  rw [store?, Option.bind_map]
  rfl

/-! ## What changes no setting -/

/-- No setting has changed, and no thread has ended. -/
structure Settled (w w' : World) : Prop where
  settingOf : ∀ r t, w'.settingOf r t = w.settingOf r t
  ended : ∀ t, w'.locals.thread t = .ended ↔ w.locals.thread t = .ended

namespace Settled

theorem refl (w : World) : w.Settled w := ⟨fun _ _ => rfl, fun _ => Iff.rfl⟩

theorem trans (h : w.Settled w') (h' : w'.Settled w'') : w.Settled w'' where
  settingOf r t := (h'.settingOf r t).trans (h.settingOf r t)
  ended t := (h'.ended t).trans (h.ended t)

/-- Only what is bound through the thread locals of registries counts. -/
theorem of_describes {among among' : LocalId → Prop} (hm : m.Describes w among)
    (hm' : m'.Describes w' among')
    (hregistries : w'.registries = w.registries)
    (hvalue : ∀ t {id}, w.IsHome id → m'.value? t id = m.value? t id)
    (hended : m'.ended = m.ended) : w.Settled w' where
  settingOf r t := by
    have hregistry : w'.registry? r = w.registry? r := by
      rw [World.registry?, World.registry?, hregistries]
    cases hg : w.registry? r with
    | none => rw [settingOf_of_none hg, settingOf_of_none (hregistry.trans hg)]
    | some g =>
        rw [settingOf_of_registry hg, settingOf_of_registry (hregistry.trans hg), hm.get?,
          hm'.get?, hvalue t ⟨r, g, hg, rfl⟩]
  ended t := by rw [← hm.ended, ← hm'.ended, hended]

end Settled

theorem SameStores.toSettled (h : w.SameStores w') : w.Settled w' where
  settingOf r t := by
    rw [settingOf_eq_bind_store?, settingOf_eq_bind_store?, h.store?, h.locals]
  ended t := by rw [h.locals]

theorem Settled.of_eq (hregistries : w'.registries = w.registries)
    (hlocals : w'.locals = w.locals) : w.Settled w' :=
  (SameStores.of_eq hregistries hlocals).toSettled

theorem Restocks.toSettled {s₀ : Store} (h : w.Restocks r s w') (hs : w.store? r = some s₀)
    (hlocal : s.threadLocale = s₀.threadLocale) : w.Settled w' where
  settingOf r' t := by
    rw [settingOf_eq_bind_store?, settingOf_eq_bind_store?, h.store?, h.locals]
    by_cases hr : r' = r
    · rw [if_pos hr, hr, hs, Option.bind_some, Option.bind_some, hlocal]
    · rw [if_neg hr]
  ended t := by rw [h.locals]

theorem settled_register (w : World) (t : TableId) (h : Handler) :
    w.Settled (w.register t h).1 :=
  register_induction (fun _ _ _ => .of_eq rfl rfl) (fun _ _ => .of_eq rfl rfl) w t h

theorem settled_useFacet (hg : w.registry? r = some g) (l : LocaleId) (kind : FacetKind) :
    w.Settled (w.useFacet r l kind).1 := by
  have hmissed := sameStores_missed hg l kind
  cases hfound : (w.findFacet r l kind).2 with
  | some f =>
      rw [useFacet_of_found hfound]
      exact (sameStores_findFacet hg l kind).toSettled
  | none =>
      cases hcached : (w.missed r l kind).1.cachedFacet? r (w.missed r l kind).2 kind with
      | some f =>
          rw [useFacet_of_cached hfound hcached]
          exact (hmissed.trans (unmoved_retainFacet _ f).sameStores).toSettled
      | none =>
          rw [useFacet_of_not_cached hfound hcached]
          have hs := (hmissed.store? r).trans (store?_of_registry hg)
          exact hmissed.toSettled.trans ((restocks_createFacet hs l _ kind).toSettled hs rfl)

/-! ### Thread locals -/

theorem Housed.settled_getLocal (h : w.Housed m) (t : ThreadId) (id : LocalId) :
    w.Settled (w.getLocal t id).1 :=
  .of_describes h.describes (h.describes.getLocal t id).2 rfl (fun _ _ _ => rfl) rfl

theorem Housed.settled_takeSlot (h : w.Housed m) : w.Settled w.takeSlot.1 :=
  .of_describes h.describes h.describes.takeSlot w.calm_takeSlot.registries
    (fun _ _ _ => rfl) rfl

theorem Housed.settled_giveSlot (h : w.Housed m) {hd : SlotHandle}
    (hfree : ∀ id l, w.locals.local? id = some l → l.handle ≠ hd) :
    w.Settled (w.giveSlot hd).1 :=
  .of_describes h.describes (h.describes.giveSlot fun {id l} => hfree id l)
    (w.calm_giveSlot hd).registries (fun _ _ _ => rfl) rfl

theorem Housed.settled_useSeq (h : w.Housed m) :
    w.Settled { w with locals := { w.locals with nextSeq := w.locals.nextSeq + 1 } } :=
  .of_describes h.describes h.describes.useSeq rfl (fun _ _ _ => rfl) rfl

theorem Housed.settled_modifyAll (h : w.Housed m) (hid : ¬w.IsHome id)
    (f : Nat → Payload → Payload) :
    w.Settled { w with locals := w.locals.modifyAll id f } := by
  obtain ⟨m', hm', -, hended, hvalue⟩ := h.describes.modifyAll id f
  refine .of_describes h.describes hm' rfl (fun t id' hhome => hvalue t ?_) hended
  rintro rfl
  exact hid hhome

theorem Housed.settled_dropLocal (h : w.Housed m) (t : ThreadId) (hid : ¬w.IsHome id) :
    w.Settled (w.dropLocal t id) := by
  have hcalm := w.calm_dropLocal t id fun v hv => (h.admits hv).holdings_eq_nil hid
  refine .of_describes h.describes (h.describes.dropLocal t id) hcalm.registries
    (fun t id' hhome => if_neg ?_) rfl
  rintro rfl
  exact hid hhome

/-- A binding outside of the registries is no setting. -/
theorem Housed.settled_bind (h : w.Housed m) (hid : ¬w.IsHome id)
    (hm' : (m.bind t id v).Describes w' w.IsHome) (hregistries : w'.registries = w.registries) :
    w.Settled w' := by
  refine .of_describes h.describes hm' hregistries (fun t' id' hhome => if_neg ?_) rfl
  rintro ⟨-, rfl⟩
  exact hid hhome

theorem Housed.settled_bindValue (h : w.Housed m) (hid : ¬w.IsHome id)
    (hnil : v.holdings = []) : w.Settled (w.bindValue t id v).1 := by
  have hcalm := w.calm_bindValue t id hnil
  cases hl : w.locals.local? id with
  | none =>
      refine .of_eq hcalm.registries ?_
      simp only [World.bindValue, Locals.bind, hl]
      rfl
  | some l =>
      have hlive : id ∈ m.live := (h.describes.live id).2 (by rw [hl]; rfl)
      rcases h.describes.bindValue hlive (fun hid' => absurd hid' hid) v with
        ⟨-, -, hm'⟩ | ⟨-, -, -, hm'⟩
      · exact h.settled_bind hid hm' hcalm.registries
      · exact .of_describes h.describes hm' hcalm.registries (fun _ _ _ => rfl) rfl

theorem Housed.settled_tryNewLocal (h : w.Housed m) (t : ThreadId) (hnil : v.holdings = []) :
    w.Settled (w.tryNewLocal t v).1 := by
  have hcalm := w.calm_tryNewLocal t hnil
  rcases h.describes.tryNewLocal t v with ⟨id, -, -, hnew, -, hm'⟩ | ⟨-, hm'⟩
  · refine .of_describes h.describes hm' hcalm.registries (fun t' id' hhome => if_neg ?_) rfl
    rintro ⟨-, rfl⟩
    obtain ⟨r, g, hg, rfl⟩ := hhome
    exact hnew (h.home_live hg)
  · exact .of_describes h.describes hm' hcalm.registries (fun _ _ _ => rfl) rfl

theorem settled_raise (w : World) (f : Fault) : w.Settled (w.raise f) :=
  (w.unmoved_raise f).sameStores.toSettled

/-- In a new registry no thread has set a locale. -/
theorem settled_withRegistry (exits : TableId)
    (hunset : ∀ t, (w.locals.get? t id).bind Payload.chosen? = none) :
    w.Settled (w.withRegistry id exits) where
  settingOf r t := by
    have hregistry := registry?_withRegistry w id exits r
    by_cases hr : r = w.registries.length
    · rw [if_pos hr] at hregistry
      rw [settingOf_of_registry hregistry,
        settingOf_of_none (List.getElem?_eq_none (Nat.le_of_eq hr.symm))]
      exact hunset t
    · rw [if_neg hr] at hregistry
      rw [settingOf, hregistry]
      rfl
  ended _ := Iff.rfl

theorem Kept.settled_addRegistry (h : w.Kept hand) (t : ThreadId) (exits : TableId) :
    w.Settled (w.addRegistry t exits).1 := by
  obtain ⟨m, hm⟩ := h.housed
  have hsettled := hm.settled_tryNewLocal t (v := .setting none) rfl
  have hmade := hm.describes.tryNewLocal t (.setting none)
  unfold World.addRegistry
  rcases w.newLocal_cases t (.setting none) with ⟨id, hnew, hok⟩ | ⟨f, hnew, -⟩
  · rw [hnew]
    refine hsettled.trans (settled_withRegistry exits fun t' => ?_)
    rcases hmade with ⟨id', hok', -, -, hnone, hm'⟩ | ⟨herr | ⟨-, index, herr⟩, -⟩
    · rw [hok, Except.ok.injEq] at hok'
      subst hok'
      rw [hm'.get?]
      change (if t' = t ∧ id = id then some (Payload.setting none) else m.value? t' id).bind
        Payload.chosen? = none
      rw [hnone]
      split <;> rfl
    · rw [hok] at herr
      cases herr
    · rw [hok] at herr
      cases herr
  · rw [hnew]
    exact hsettled.trans (settled_raise _ f)

theorem Kept.settled_ownRegistry (h : w.Kept hand) (t : ThreadId) :
    w.Settled (w.ownRegistry t).1 := by
  have hadd := h.settled_addRegistry t processTable
  unfold World.ownRegistry
  split
  · exact .refl w
  · generalize w.addRegistry t processTable = added at hadd ⊢
    obtain ⟨w₁, result⟩ := added
    cases result with
    | error f => exact hadd
    | ok r => exact hadd.trans (.of_eq rfl rfl)

theorem Housed.settled_threadLocale (h : w.Housed m) (hg : w.registry? r = some g)
    (t : ThreadId) : w.Settled (w.threadLocale r t).1 :=
  (h.settled_getLocal t g.threadLocale).trans (sameStores_threadLocale hg t).toSettled

/-! ## What sets and what forgets -/

/-- What a step does to settings is told by its event. -/
structure Sets (w : World) (e : Event) (w' : World) : Prop where
  settingOf : ∀ r t, w'.settingOf r t =
    if e.forgets r t then none else (e.sets? r t).getD (w.settingOf r t)
  ended : ∀ t, w'.locals.thread t = .ended ↔ w.locals.thread t = .ended ∨ e.ends t = true

theorem Settled.sets (h : w.Settled w')
    (hquiet : ∀ r t, e.forgets r t = false ∧ e.sets? r t = none ∧ e.ends t = false) :
    w.Sets e w' where
  settingOf r t := by
    obtain ⟨hforgets, hsets, -⟩ := hquiet r t
    rw [hforgets, hsets, h.settingOf]
    rfl
  ended t := by
    obtain ⟨-, -, hends⟩ := hquiet 0 t
    rw [hends]
    simpa using h.ended t

theorem Housed.sets_endThread (h : w.Housed m) (t : ThreadId) :
    w.Sets (.threadEnded t) (w.endThread t) where
  settingOf r t' := by
    have hm' := h.describes.endThread t
    have hregistry : World.registry? (w.endThread t) r = w.registry? r :=
      Unmoved.registry? (w.unmoved_endThread t) r
    change _ = if decide (t = t') = true then none else w.settingOf r t'
    cases hg : w.registry? r with
    | none =>
        rw [settingOf_of_none hg, settingOf_of_none (hregistry.trans hg), ite_self]
    | some g =>
        rw [settingOf_of_registry hg, settingOf_of_registry (hregistry.trans hg), hm'.get?,
          h.describes.get?]
        by_cases ht : t = t'
        · simp [BindingMap.exit, ht]
        · simp [BindingMap.exit, ht, Ne.symm ht]
  ended t' := by
    rw [← (h.describes.endThread t).ended, ← h.describes.ended]
    simp [BindingMap.exit, Event.ends, or_comm, eq_comm]

/-- A binding in the registry's thread local is a setting. -/
theorem Housed.settingOf_bind (h : w.Housed m) (hg : w.registry? r = some g)
    {l : Option LocaleId} (hm' : (m.bind t g.threadLocale (.setting l)).Describes w' w.IsHome)
    (hregistries : w'.registries = w.registries) (r' : RegistryId) (t' : ThreadId) :
    w'.settingOf r' t' = if r' = r ∧ t' = t then l else w.settingOf r' t' := by
  have hregistry : w'.registry? r' = w.registry? r' := by
    rw [World.registry?, World.registry?, hregistries]
  cases hg' : w.registry? r' with
  | none =>
      rw [settingOf_of_none (hregistry.trans hg'), settingOf_of_none hg', if_neg]
      rintro ⟨rfl, -⟩
      rw [hg] at hg'
      cases hg'
  | some g' =>
      rw [settingOf_of_registry (hregistry.trans hg'), settingOf_of_registry hg', hm'.get?,
        h.describes.get?]
      by_cases heq : r' = r ∧ t' = t
      · obtain ⟨rfl, rfl⟩ := heq
        obtain rfl : g' = g := Option.some.inj (hg'.symm.trans hg)
        simp [BindingMap.bind, Payload.chosen?]
      · have hne : ¬(t' = t ∧ g'.threadLocale = g.threadLocale) := by
          rintro ⟨rfl, hid⟩
          exact heq ⟨h.home_inj hg' hg hid, rfl⟩
        rw [if_neg heq]
        exact congrArg (Option.bind · Payload.chosen?) (if_neg hne)

/-- A thread that looks up its setting gets it, or none, unless its bindings are gone. -/
theorem Kept.getOr_setting_eq (h : w.Kept hand) (hg : w.registry? r = some g) (t : ThreadId) :
    (w.locals.thread t ≠ .ended ∧ ∃ w' before m',
        w.getOr t g.threadLocale (fun w => (w, .setting none)) = (w', .ok before) ∧
          w.Settled w' ∧ w'.Housed m' ∧ w'.registries = w.registries ∧
          w'.locals.get? t g.threadLocale = some before ∧
          before.chosen? = w.settingOf r t) ∨
      (w.locals.thread t = .ended ∧ ∃ w' index,
        w.getOr t g.threadLocale (fun w => (w, .setting none)) =
            (w', .error (.bindFailed index)) ∧
          w.Settled w' ∧ w'.registries = w.registries) := by
  have h₁ := h.getLocal t g.threadLocale
  obtain ⟨m₀, hm₀⟩ := h.housed
  have hsettled := hm₀.settled_getLocal t g.threadLocale
  have hget : (w.getLocal t g.threadLocale).1.locals.get? t g.threadLocale =
      w.locals.get? t g.threadLocale := Locals.get?_touch ..
  obtain ⟨m, hm⟩ := h₁.kept.housed
  have hended : t ∈ m.ended ↔ w.locals.thread t = .ended :=
    (hm.describes.ended t).trans (hsettled.ended t)
  have hsetting := settingOf_of_registry hg t
  cases hv : w.locals.get? t g.threadLocale with
  | some v =>
      have hrunning : w.locals.thread t ≠ .ended := by
        intro heq
        rw [Locals.get?_of_ended heq] at hv
        cases hv
      refine Or.inl ⟨hrunning, _, v, m, getOr_of_some hv _, hsettled, hm, rfl, hget.trans hv, ?_⟩
      rw [hsetting, hv, Option.bind_some]
  | none =>
      have hlive : g.threadLocale ∈ m.live := hm.home_live hg
      have hun := (hm.describes.get? _ _).symm.trans (hget.trans hv)
      have hunset : (w.getLocal t g.threadLocale).1.settingOf r t = none := by
        rw [hsettled.settingOf, hsetting, hv, Option.bind_none]
      have hbound := hm.describes.bindValue hlive (fun _ => hun) (.setting none)
      have hregistries := ((w.getLocal t g.threadLocale).1.calm_bindValue t g.threadLocale
        (v := .setting none) rfl).registries
      have hadm : (w.getLocal t g.threadLocale).1.Admits g.threadLocale (.setting none) :=
        ⟨fun _ => ⟨none, rfl⟩, fun hid => absurd ⟨r, g, hg, rfl⟩ hid⟩
      have hvalues := fun id' u => @mem_valuesOf_bindValue (w.getLocal t g.threadLocale).1 t
        g.threadLocale id' u (.setting none) hm.describes.exact.toCellsOwned
      unfold getOr
      rw [tryGetOr_of_none hv]
      simp only
      generalize World.bindValue (w.getLocal t g.threadLocale).1 t g.threadLocale
        (.setting none) = bound at hbound hregistries hvalues ⊢
      obtain ⟨w₂, result⟩ := bound
      rcases hbound with ⟨hrunning, hok, hdesc⟩ | ⟨hend, index, herr, hdesc⟩
      · simp only at hok
        subst hok
        have hhoused := hm.bind hdesc hregistries (hvalues _ _) hadm
        have hbind : (w.getLocal t g.threadLocale).1.Settled w₂ := by
          refine ⟨fun r' t' => ?_, fun t' => ?_⟩
          · rw [hm.settingOf_bind hg hdesc hregistries]
            split
            · next heq => rw [heq.1, heq.2, hunset]
            · rfl
          · exact (hdesc.ended t').symm.trans (hm.describes.ended t')
        refine Or.inl ⟨mt hended.2 hrunning, w₂, .setting none, _, rfl, hsettled.trans hbind,
          hhoused, hregistries, ?_, ?_⟩
        · rw [hdesc.get?]
          exact if_pos ⟨rfl, rfl⟩
        · rw [hsetting, hv]
          rfl
      · simp only at herr
        subst herr
        refine Or.inr ⟨hended.1 hend, _, index, rfl, ?_, hregistries⟩
        exact (hsettled.trans (.of_describes hm.describes hdesc hregistries (fun _ _ _ => rfl)
          rfl)).trans (settled_raise _ _)

/-- What a thread sets comes in place of what it had set, and it is told that. A thread
whose bindings are gone sets nothing. -/
theorem Kept.setThreadLocale_eq (h : w.Kept hand) (hg : w.registry? r = some g) (t : ThreadId)
    (l : Option LocaleId) :
    (w.locals.thread t ≠ .ended ∧
        (w.setThreadLocale r t l).2 = .ok (w.settingOf r t) ∧
        (∀ r' t', (w.setThreadLocale r t l).1.settingOf r' t' =
          if r' = r ∧ t' = t then l else w.settingOf r' t') ∧
        ∀ t', (w.setThreadLocale r t l).1.locals.thread t' = .ended ↔
          w.locals.thread t' = .ended) ∨
      (w.locals.thread t = .ended ∧
        (∃ index, (w.setThreadLocale r t l).2 = .error (.bindFailed index)) ∧
        w.Settled (w.setThreadLocale r t l).1) := by
  unfold World.setThreadLocale
  rw [hg]
  simp only
  rcases h.getOr_setting_eq hg t with
    ⟨hrunning, w₁, before, m, hgot, hsettled, hm, hregistries, hget, hbefore⟩ |
      ⟨hended, w₁, index, hgot, hsettled, -⟩
  · rw [hgot]
    simp only
    obtain ⟨c, hc, -⟩ := Option.bind_eq_some_iff.1 hget
    rw [hc]
    have hg₁ : w₁.registry? r = some g := by rwa [World.registry?, hregistries]
    have hm' := hm.describes.setCell hc (.setting l)
    refine Or.inl ⟨hrunning, ?_, fun r' t' => ?_, fun t' => ?_⟩
    · rw [← hbefore]
      cases before <;> rfl
    · rw [hm.settingOf_bind hg₁ hm' rfl, hsettled.settingOf]
    · exact ((hm'.ended t').symm.trans (hm.describes.ended t')).trans (hsettled.ended t')
  · rw [hgot]
    refine Or.inr ⟨hended, ⟨index, rfl⟩, hsettled.trans ?_⟩
    cases l with
    | none => exact .refl w₁
    | some l => exact (w₁.unmoved_releaseLocale l).sameStores.toSettled

theorem Kept.registries_setThreadLocale (h : w.Kept hand) (r : RegistryId) (t : ThreadId)
    (l : Option LocaleId) : (w.setThreadLocale r t l).1.registries = w.registries := by
  unfold World.setThreadLocale
  cases hg : w.registry? r with
  | none => rfl
  | some g =>
      simp only
      rcases h.getOr_setting_eq hg t with
        ⟨-, w₁, before, m, hgot, -, -, hregistries, -⟩ | ⟨-, w₁, index, hgot, -, hregistries⟩
      · rw [hgot]
        exact hregistries
      · rw [hgot]
        cases l with
        | none => exact hregistries
        | some l => exact (w₁.unmoved_releaseLocale l).registries.trans hregistries

theorem Kept.sets_setThreadLocale (h : w.Kept hand) (hg : w.registry? r = some g) (t : ThreadId)
    (l : Option LocaleId) :
    w.Sets (.setThread r t l (w.setThreadLocale r t l).2) (w.setThreadLocale r t l).1 := by
  rcases h.setThreadLocale_eq hg t l with ⟨-, hok, hsetting, hended⟩ | ⟨-, ⟨index, herr⟩, hsettled⟩
  · rw [hok]
    refine ⟨fun r' t' => ?_, fun t' => ?_⟩
    · rw [hsetting]
      change _ = (if r = r' ∧ t = t' then some l else none).getD (w.settingOf r' t')
      by_cases heq : r' = r ∧ t' = t
      · rw [if_pos heq, if_pos ⟨heq.1.symm, heq.2.symm⟩, Option.getD_some]
      · rw [if_neg heq, if_neg fun heq' => heq ⟨heq'.1.symm, heq'.2.symm⟩, Option.getD_none]
    · rw [hended]
      simp [Event.ends]
  · rw [herr]
    exact hsettled.sets fun _ _ => ⟨rfl, rfl, rfl⟩

/-! ### Teardowns -/

theorem TearsDown.settingOf (h : w.TearsDown rs w') (r : RegistryId) (t : ThreadId) :
    w'.settingOf r t = if r ∈ rs then none else w.settingOf r t := by
  cases hg : w.registry? r with
  | none => rw [settingOf_of_none (h.absent hg), settingOf_of_none hg, ite_self]
  | some g =>
      by_cases hr : r ∈ rs
      · obtain ⟨g', hg', -, -, hempty⟩ := h.emptied hg hr
        rw [if_pos hr, settingOf_of_registry hg', Option.eq_none_iff_forall_ne_some]
        intro l hl
        exact hempty.unset t l (bind_chosen?_eq_some_iff.1 hl)
      · obtain ⟨hg', hget⟩ := h.spared hg hr
        rw [if_neg hr, settingOf_of_registry hg', settingOf_of_registry hg, hget]

theorem threads_teardown (w : World) (r : RegistryId) :
    (w.teardown r).1.locals.threads = w.locals.threads := by
  cases hr : w.registry? r with
  | none =>
      unfold World.teardown
      rw [hr]
  | some g =>
      rw [(teardown_eq hr).2]
      rfl

theorem threads_runTable {t : TableId} (ht : t < w.exits.length)
    (hran : (w.exitTable t).ran = false) :
    (w.runTable t).1.locals.threads = w.locals.threads := by
  obtain ⟨depth, heq⟩ := runTable_eq ht hran
  have hran' := ran_setExitTable ht
  have hgo := foldl_handle (P := fun _ => True)
    (R := fun w _ w' => w'.locals.threads = w.locals.threads)
    (fun _ ha => ⟨trivial, by rw [ha.unmoved.locals]⟩)
    (fun {w} r _ => ⟨trivial, w.threads_teardown r⟩) (fun h h' => h'.trans h) hran' trivial depth
    (w.exitTable t).handlers.reverse
  rw [heq]
  exact hgo

/-- A step that tears registries down. -/
theorem TearsDown.sets (h : w.TearsDown rs w') (htear : ∀ r, e.tearsDown r = decide (r ∈ rs))
    (hends : ∀ t, e.ends t = false) (hsets : ∀ r t, e.sets? r t = none)
    (hthreads : w'.locals.threads = w.locals.threads) : w.Sets e w' where
  settingOf r t := by
    rw [h.settingOf, Event.forgets, htear, hends, hsets, Bool.or_false, Option.getD_none]
    simp only [decide_eq_true_eq]
  ended t := by
    rw [hends, Locals.thread, hthreads]
    simp [Locals.thread]

/-- A run of a table does nothing to registries, or what the teardowns queued there do. -/
theorem Kept.runTable_cases (h : w.Kept hand) (ho : w.Orderly) (t : TableId) :
    (toTearDown (w.exitTable t) = [] ∧ w.SameStores (w.runTable t).1) ∨
      ∃ w₁, w.SameStores w₁ ∧ w₁.TearsDown (toTearDown (w.exitTable t)) (w.runTable t).1 ∧
        (w.runTable t).1.locals.threads = w.locals.threads := by
  cases hran : (w.exitTable t).ran with
  | true =>
      rw [runTable_of_ran hran]
      refine Or.inl ⟨?_, .refl w⟩
      rw [toTearDown, ho.closed hran]
      rfl
  | false =>
      rcases Nat.lt_or_ge t w.exits.length with ht | ht
      · exact Or.inr ⟨w.setExitTable t { handlers := [], ran := true }, .of_eq rfl rfl,
          h.tearsDown_runTable ht hran, threads_runTable ht hran⟩
      · refine Or.inl ⟨?_, (aside_runTable_of_ge ht).unmoved.sameStores⟩
        rw [World.exitTable, List.getElem?_eq_none ht]
        rfl

theorem Kept.sets_runTable (h : w.Kept hand) (ho : w.Orderly) (t : TableId) (n : Nat) :
    w.Sets (.tableRun t (toTearDown (w.exitTable t)) n) (w.runTable t).1 := by
  rcases h.runTable_cases ho t with ⟨hnil, hstores⟩ | ⟨w₁, hstores, htears, hthreads⟩
  · refine hstores.toSettled.sets fun r t' => ⟨?_, rfl, rfl⟩
    simp [Event.forgets, Event.tearsDown, Event.ends, hnil]
  · have hsets := htears.sets (e := .tableRun t (toTearDown (w.exitTable t)) n) (fun _ => rfl)
      (fun _ => rfl) (fun _ _ => rfl) (by rw [hthreads, hstores.locals])
    refine ⟨fun r t' => ?_, fun t' => ?_⟩
    · rw [hsets.settingOf, hstores.toSettled.settingOf]
    · rw [hsets.ended, hstores.locals]

/-! ## Steps -/

theorem Step.sets (hstep : Step w hand e w' hand') (h : w.Kept hand) (ho : w.Orderly) :
    w.Sets e w' := by
  obtain ⟨m, hm⟩ := h.housed
  have hsome : ∀ {r : RegistryId}, (w.registry? r).isSome → ∃ g, w.registry? r = some g :=
    Option.isSome_iff_exists.1
  cases hstep with
  | registered t exits _ => exact (h.settled_addRegistry t exits).sets fun _ _ => ⟨rfl, rfl, rfl⟩
  | owned t => exact (h.settled_ownRegistry t).sets fun _ _ => ⟨rfl, rfl, rfl⟩
  | classic hr =>
      obtain ⟨g, hg⟩ := hsome hr
      exact (sameStores_classicLocale hg).toSettled.sets fun _ _ => ⟨rfl, rfl, rfl⟩
  | global hr =>
      obtain ⟨g, hg⟩ := hsome hr
      exact (sameStores_globalLocale hg).toSettled.sets fun _ _ => ⟨rfl, rfl, rfl⟩
  | @global? _ r _ =>
      exact (w.sameStores_globalLocale? r).toSettled.sets fun _ _ => ⟨rfl, rfl, rfl⟩
  | empty hr =>
      obtain ⟨g, hg⟩ := hsome hr
      exact (sameStores_emptyLocale hg).toSettled.sets fun _ _ => ⟨rfl, rfl, rfl⟩
  | ensured hr =>
      obtain ⟨g, hg⟩ := hsome hr
      exact (sameStores_ensureLocales hg).toSettled.sets fun _ _ => ⟨rfl, rfl, rfl⟩
  | replaced hr _ =>
      obtain ⟨g, hg⟩ := hsome hr
      exact (sameStores_replaceGlobal hg _).toSettled.sets fun _ _ => ⟨rfl, rfl, rfl⟩
  | ofThread t hg => exact (hm.settled_threadLocale hg t).sets fun _ _ => ⟨rfl, rfl, rfl⟩
  | setThread t l hr =>
      obtain ⟨g, hg⟩ := hsome hr
      exact h.sets_setThreadLocale hg t l
  | found kind hr _ =>
      obtain ⟨g, hg⟩ := hsome hr
      exact (sameStores_findFacet hg _ kind).toSettled.sets fun _ _ => ⟨rfl, rfl, rfl⟩
  | used kind hr _ =>
      obtain ⟨g, hg⟩ := hsome hr
      exact (settled_useFacet hg _ kind).sets fun _ _ => ⟨rfl, rfl, rfl⟩
  | @recorded _ r f kind hr =>
      obtain ⟨g, hg⟩ := hsome hr
      have hs := store?_of_registry hg
      exact ((restocks_recordFacet hs kind f).toSettled hs rfl).sets fun _ _ => ⟨rfl, rfl, rfl⟩
  | releasedRecorded hr =>
      obtain ⟨g, hg⟩ := hsome hr
      have hs := store?_of_registry hg
      exact ((restocks_releaseRecorded hs).toSettled hs rfl).sets fun _ _ => ⟨rfl, rfl, rfl⟩
  | @toreDown _ r _ =>
      refine (h.tearsDown_teardown r).sets (fun r' => ?_) (fun _ => rfl) (fun _ _ => rfl)
        (w.threads_teardown r)
      simp [Event.tearsDown, eq_comm]
  | tableMade => exact Settled.sets (.of_eq rfl rfl) fun _ _ => ⟨rfl, rfl, rfl⟩
  | handlerAdded t tag actions =>
      exact Settled.sets (settled_register w t _) fun _ _ => ⟨rfl, rfl, rfl⟩
  | opened t _ _ => exact Settled.sets (.of_eq rfl rfl) fun _ _ => ⟨rfl, rfl, rfl⟩
  | tableRun t => exact h.sets_runTable ho t _
  | retainedLocale _ =>
      exact (unmoved_retainLocale _ _).sameStores.toSettled.sets fun _ _ => ⟨rfl, rfl, rfl⟩
  | releasedLocale =>
      exact (unmoved_releaseLocale _ _).sameStores.toSettled.sets fun _ _ => ⟨rfl, rfl, rfl⟩
  | retainedFacet _ =>
      exact (unmoved_retainFacet _ _).sameStores.toSettled.sets fun _ _ => ⟨rfl, rfl, rfl⟩
  | releasedFacet =>
      exact (unmoved_releaseFacet _ _).sameStores.toSettled.sets fun _ _ => ⟨rfl, rfl, rfl⟩
  | madeFacet body =>
      exact (w.unmoved_addFacet body).sameStores.toSettled.sets fun _ _ => ⟨rfl, rfl, rfl⟩
  | derived kind _ =>
      exact (w.unmoved_withFacet _ kind _).sameStores.toSettled.sets fun _ _ => ⟨rfl, rfl, rfl⟩
  | lookedUp l kind =>
      have hlooked := (w.unmoved_ownFacet l kind).sameStores.trans
        (sameStores_retainOwn _ (w.ownFacet l kind).2)
      exact hlooked.toSettled.sets fun _ _ => ⟨rfl, rfl, rfl⟩
  | indexed key => exact Settled.sets (.of_eq rfl rfl) fun _ _ => ⟨rfl, rfl, rfl⟩
  | forgot identity => exact Settled.sets (.of_eq rfl rfl) fun _ _ => ⟨rfl, rfl, rfl⟩
  | took => exact hm.settled_takeSlot.sets fun _ _ => ⟨rfl, rfl, rfl⟩
  | gave hd hfree => exact (hm.settled_giveSlot hfree).sets fun _ _ => ⟨rfl, rfl, rfl⟩
  | numbered => exact hm.settled_useSeq.sets fun _ _ => ⟨rfl, rfl, rfl⟩
  | madeLocal t text => exact (hm.settled_tryNewLocal t rfl).sets fun _ _ => ⟨rfl, rfl, rfl⟩
  | gotLocal t id => exact (hm.settled_getLocal t id).sets fun _ _ => ⟨rfl, rfl, rfl⟩
  | bound t id text hid =>
      exact (hm.settled_bindValue hid rfl).sets fun _ _ => ⟨rfl, rfl, rfl⟩
  | changed id hid _ => exact (hm.settled_modifyAll hid _).sets fun _ _ => ⟨rfl, rfl, rfl⟩
  | droppedLocal t id hid =>
      exact (hm.settled_dropLocal t hid).sets fun _ _ => ⟨rfl, rfl, rfl⟩
  | threadEnded t => exact hm.sets_endThread t
  | started => exact Settled.sets (.of_eq rfl rfl) fun _ _ => ⟨rfl, rfl, rfl⟩
  | aside ha => exact ha.unmoved.sameStores.toSettled.sets fun _ _ => ⟨rfl, rfl, rfl⟩

end World

end Hosted
