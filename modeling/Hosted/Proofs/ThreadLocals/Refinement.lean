import Hosted.Proofs.ThreadLocals.Map

/-!
# Thread locals refine a map

A `LocalEvent` is one use of thread locals together with what it answered. `LocalRun`
are the runs of the environment that give rise to a list of events, whatever happens to
the rest of it in between, and `BindingMap.Follows` are the same events as changes of a
map. Every run follows the map: slots that are used again, the numbers of their
allocations and the bindings that other threads still keep do not show.
-/

namespace Hosted

/-- One use of thread locals and what it answered. -/
inductive LocalEvent where
  | made (t : ThreadId) (v : Payload) (result : Except Fault LocalId)
  | got (t : ThreadId) (id : LocalId) (value : Option Payload)
  | asked (t : ThreadId) (id : LocalId) (bound : Bool)
  /-- A value was asked for, and no initializer ran. -/
  | kept (t : ThreadId) (id : LocalId) (result : Except Fault Payload)
  /-- A value was asked for, and an initializer ran and made `v`. -/
  | filled (t : ThreadId) (id : LocalId) (initializer : List LocalEvent) (v : Payload)
      (result : Except Fault Payload)
  | visited (id : LocalId) (values : List Payload)
  | changed (id : LocalId) (f : Nat → Payload → Payload)
  | counted (id : LocalId) (n : Nat)
  | dropped (t : ThreadId) (id : LocalId)
  | ended (t : ThreadId)
  /-- A raw slot was taken. -/
  | took (result : Except Fault SlotHandle)
  /-- A raw slot was given back. -/
  | gave (h : SlotHandle) (released : Bool)

/-- The map goes through the events with the answers they gave. -/
inductive BindingMap.Follows : BindingMap → List LocalEvent → BindingMap → Prop where
  | nil {m} : Follows m [] m
  | made {m m' t v id es} : t ∉ m.ended → id ∉ m.live → (∀ t', m.value? t' id = none) →
      Follows ((m.create id).bind t id v) es m' → Follows m (.made t v (.ok id) :: es) m'
  | exhausted {m m' t v limit es} : Follows m es m' →
      Follows m (.made t v (.error (.slotsExhausted limit)) :: es) m'
  | madeLate {m m' t v index es} : t ∈ m.ended → Follows m es m' →
      Follows m (.made t v (.error (.bindFailed index)) :: es) m'
  | got {m m' t id es} : Follows m es m' → Follows m (.got t id (m.value? t id) :: es) m'
  | asked {m m' t id es} : Follows m es m' →
      Follows m (.asked t id (m.value? t id).isSome :: es) m'
  | kept {m m' t id v es} : m.value? t id = some v → Follows m es m' →
      Follows m (.kept t id (.ok v) :: es) m'
  | filled {m m₁ m' t id inner v es} : m.value? t id = none → Follows m inner m₁ →
      t ∉ m₁.ended → Follows (m₁.bind t id v) es m' →
      Follows m (.filled t id inner v (.ok v) :: es) m'
  | filledLate {m m₁ m' t id inner v index es} : m.value? t id = none → Follows m inner m₁ →
      t ∈ m₁.ended → Follows m₁ es m' →
      Follows m (.filled t id inner v (.error (.bindFailed index)) :: es) m'
  | visited {m m' id threads values es} : m.Enumerates id threads →
      values.map some = threads.map (m.value? · id) → Follows m es m' →
      Follows m (.visited id values :: es) m'
  | changed {m m' id threads f es} : m.Enumerates id threads →
      Follows (m.update id f threads) es m' → Follows m (.changed id f :: es) m'
  | counted {m m' id threads es} : m.Enumerates id threads → Follows m es m' →
      Follows m (.counted id threads.length :: es) m'
  | dropped {m m' t id es} : Follows (m.drop id) es m' → Follows m (.dropped t id :: es) m'
  | ended {m m' t es} : Follows (m.exit t) es m' → Follows m (.ended t :: es) m'
  | took {m m' result es} : Follows m es m' → Follows m (.took result :: es) m'
  | gave {m m' h released es} : Follows m es m' → Follows m (.gave h released :: es) m'

/-- The environment goes through the events, while the initializers for `pending` are
running: what they are to fill is left alone. Anything may happen to the rest of the
environment between two events. -/
inductive LocalRun : List (ThreadId × LocalId) → World → List LocalEvent → World → Prop where
  | nil {pending w} : LocalRun pending w [] w
  | other {pending w w₁ w' es} : w₁.locals = w.locals → LocalRun pending w₁ es w' →
      LocalRun pending w es w'
  | made {pending w w' es} (t v) : LocalRun pending (w.tryNewLocal t v).1 es w' →
      LocalRun pending w (.made t v (w.tryNewLocal t v).2 :: es) w'
  | got {pending w w' es} (t id) : LocalRun pending (w.getLocal t id).1 es w' →
      LocalRun pending w (.got t id (w.getLocal t id).2 :: es) w'
  | asked {pending w w' es} (t id) : LocalRun pending w es w' →
      LocalRun pending w (.asked t id (w.locals.isBound t id) :: es) w'
  | kept {pending w w' es} (t id init) : (w.getLocal t id).2.isSome →
      LocalRun pending (w.tryGetOr t id init).1 es w' →
      LocalRun pending w (.kept t id (w.tryGetOr t id init).2 :: es) w'
  | filled {pending w w' inner es} (t id init) : (w.getLocal t id).2 = none →
      (w.locals.local? id).isSome → (t, id) ∉ pending →
      LocalRun ((t, id) :: pending) (w.getLocal t id).1 inner
        (init (w.getLocal t id).1).1 →
      LocalRun pending (w.tryGetOr t id init).1 es w' →
      LocalRun pending w (.filled t id inner (init (w.getLocal t id).1).2
        (w.tryGetOr t id init).2 :: es) w'
  | visited {pending w w' es} (id) : LocalRun pending w es w' →
      LocalRun pending w (.visited id (w.locals.valuesOf id) :: es) w'
  | changed {pending w w' es} (id f) :
      LocalRun pending { w with locals := w.locals.modifyAll id f } es w' →
      LocalRun pending w (.changed id f :: es) w'
  | counted {pending w w' es} (id) : LocalRun pending w es w' →
      LocalRun pending w (.counted id (w.locals.boundCount id) :: es) w'
  | dropped {pending w w' es} (t id) : (∀ p ∈ pending, p.2 ≠ id) →
      LocalRun pending (w.dropLocal t id) es w' → LocalRun pending w (.dropped t id :: es) w'
  | ended {pending w w' es} (t) : LocalRun pending (w.endThread t) es w' →
      LocalRun pending w (.ended t :: es) w'
  | took {pending w w' es} : LocalRun pending w.takeSlot.1 es w' →
      LocalRun pending w (.took w.takeSlot.2 :: es) w'
  | gave {pending w w' es} (h) : (∀ id l, w.locals.local? id = some l → l.handle ≠ h) →
      LocalRun pending (w.giveSlot h).1 es w' →
      LocalRun pending w (.gave h (w.giveSlot h).2 :: es) w'

namespace BindingMap

variable {m : BindingMap} {pending : List (ThreadId × LocalId)} {t : ThreadId} {id : LocalId}

/-- What the running initializers are to fill is there to be filled. -/
def Awaits (m : BindingMap) (pending : List (ThreadId × LocalId)) : Prop :=
  ∀ p ∈ pending, p.2 ∈ m.live ∧ m.value? p.1 p.2 = none

theorem Awaits.bind (h : m.Awaits pending) (hp : (t, id) ∉ pending) (v : Payload) :
    (m.bind t id v).Awaits pending := by
  intro p hmem
  have hne : ¬(p.1 = t ∧ p.2 = id) := by
    rintro ⟨ht, hid⟩
    exact hp (ht ▸ hid ▸ hmem)
  exact ⟨(h p hmem).1, (if_neg hne).trans (h p hmem).2⟩

theorem Awaits.create (h : m.Awaits pending) (id : LocalId) : (m.create id).Awaits pending :=
  fun p hmem => ⟨List.mem_cons_of_mem _ (h p hmem).1, (h p hmem).2⟩

theorem Awaits.update (h : m.Awaits pending) (id : LocalId) (f : Nat → Payload → Payload)
    (threads : List ThreadId) : (m.update id f threads).Awaits pending := by
  intro p hmem
  refine ⟨(h p hmem).1, ?_⟩
  simp only [BindingMap.update, (h p hmem).2, Option.map_none, ite_self]

theorem Awaits.drop (h : m.Awaits pending) (hid : ∀ p ∈ pending, p.2 ≠ id) :
    (m.drop id).Awaits pending := by
  intro p hmem
  refine ⟨List.mem_filter.2 ⟨(h p hmem).1, decide_eq_true (hid p hmem)⟩, ?_⟩
  exact (if_neg (hid p hmem)).trans (h p hmem).2

theorem Awaits.exit (h : m.Awaits pending) (t : ThreadId) : (m.exit t).Awaits pending := by
  intro p hmem
  refine ⟨(h p hmem).1, ?_⟩
  simp only [BindingMap.exit, (h p hmem).2, ite_self]

end BindingMap

open BindingMap in
theorem LocalRun.follows {pending : List (ThreadId × LocalId)} {w w' : World}
    {es : List LocalEvent} (h : LocalRun pending w es w') :
    ∀ {m : BindingMap}, m.Describes w → m.Awaits pending →
      ∃ m', m.Follows es m' ∧ m'.Describes w' ∧ m'.Awaits pending := by
  induction h with
  | nil => exact fun hm hp => ⟨_, .nil, hm, hp⟩
  | other hlocals _ ih => exact fun hm hp => ih (hm.of_locals_eq hlocals) hp
  | made t v _ ih =>
      intro m hm hp
      rcases hm.tryNewLocal t v with
        ⟨id, hok, hrunning, hnew, hnone, hm'⟩ | ⟨herr | ⟨hended, index, herr⟩, hm'⟩
      · have hfree : (t, id) ∉ _ := fun hmem => hnew (hp _ hmem).1
        obtain ⟨m', hes, hd, hp'⟩ := ih (hm'.mono fun _ _ => Or.inr trivial)
          ((hp.create id).bind hfree v)
        rw [hok]
        exact ⟨m', .made hrunning hnew hnone hes, hd, hp'⟩
      · obtain ⟨m', hes, hd, hp'⟩ := ih hm' hp
        rw [herr]
        exact ⟨m', .exhausted hes, hd, hp'⟩
      · obtain ⟨m', hes, hd, hp'⟩ := ih hm' hp
        rw [herr]
        exact ⟨m', .madeLate hended hes, hd, hp'⟩
  | got t id _ ih =>
      intro m hm hp
      obtain ⟨m', hes, hd, hp'⟩ := ih (hm.getLocal t id).2 hp
      rw [(hm.getLocal t id).1]
      exact ⟨m', .got hes, hd, hp'⟩
  | asked t id _ ih =>
      intro m hm hp
      obtain ⟨m', hes, hd, hp'⟩ := ih hm hp
      rw [hm.isBound t id]
      exact ⟨m', .asked hes, hd, hp'⟩
  | kept t id init hsome _ ih =>
      intro m hm hp
      obtain ⟨v, hv⟩ := Option.isSome_iff_exists.1 hsome
      have heq := World.tryGetOr_of_some hv init
      rw [heq] at ih
      obtain ⟨m', hes, hd, hp'⟩ := ih (hm.getLocal t id).2 hp
      rw [heq]
      exact ⟨m', .kept ((hm.getLocal t id).1 ▸ hv) hes, hd, hp'⟩
  | @filled _ w _ _ _ t id init hnone hlive hfree _ _ ihinit ih =>
      intro m hm hp
      have hun : m.value? t id = none := (hm.getLocal t id).1 ▸ hnone
      have hp₀ : m.Awaits ((t, id) :: _) :=
        List.forall_mem_cons.2 ⟨⟨(hm.live id).2 hlive, hun⟩, hp⟩
      obtain ⟨m₁, hinner, hm₁, hp₁⟩ := ihinit (hm.getLocal t id).2 hp₀
      obtain ⟨⟨hlive₁, hun₁⟩, hp₁⟩ := List.forall_mem_cons.1 hp₁
      have heq := World.tryGetOr_of_none hnone init
      rw [heq] at ih
      rw [heq]
      rcases hm₁.bindValue hlive₁ (fun _ => hun₁) (init (w.getLocal t id).1).2 with
        ⟨hrunning, hok, hm₂⟩ | ⟨hended, index, herr, hm₂⟩
      · obtain ⟨m', hes, hd, hp'⟩ := ih hm₂ (Awaits.bind hp₁ hfree _)
        rw [hok]
        exact ⟨m', .filled hun hinner hrunning hes, hd, hp'⟩
      · obtain ⟨m', hes, hd, hp'⟩ := ih hm₂ hp₁
        rw [herr]
        exact ⟨m', .filledLate hun hinner hended hes, hd, hp'⟩
  | visited id _ ih =>
      intro m hm hp
      obtain ⟨threads, henum, -, hvalues, -⟩ := hm.exists_enumerates id trivial
      obtain ⟨m', hes, hd, hp'⟩ := ih hm hp
      exact ⟨m', .visited henum hvalues hes, hd, hp'⟩
  | changed id f _ ih =>
      intro m hm hp
      obtain ⟨threads, henum, -, -, hupdate⟩ := hm.exists_enumerates id trivial
      obtain ⟨m', hes, hd, hp'⟩ := ih (hupdate f) (hp.update id f threads)
      exact ⟨m', .changed henum hes, hd, hp'⟩
  | counted id _ ih =>
      intro m hm hp
      obtain ⟨threads, henum, hcount, -, -⟩ := hm.exists_enumerates id trivial
      obtain ⟨m', hes, hd, hp'⟩ := ih hm hp
      rw [hcount]
      exact ⟨m', .counted henum hes, hd, hp'⟩
  | dropped t id hfree _ ih =>
      intro m hm hp
      obtain ⟨m', hes, hd, hp'⟩ := ih (hm.dropLocal t id) (hp.drop hfree)
      exact ⟨m', .dropped hes, hd, hp'⟩
  | ended t _ ih =>
      intro m hm hp
      obtain ⟨m', hes, hd, hp'⟩ := ih (hm.endThread t) (hp.exit t)
      exact ⟨m', .ended hes, hd, hp'⟩
  | took _ ih =>
      intro m hm hp
      obtain ⟨m', hes, hd, hp'⟩ := ih hm.takeSlot hp
      exact ⟨m', .took hes, hd, hp'⟩
  | gave h hfree _ ih =>
      intro m hm hp
      obtain ⟨m', hes, hd, hp'⟩ := ih (hm.giveSlot fun {id l} => hfree id l) hp
      exact ⟨m', .gave hes, hd, hp'⟩

/-- Every run from the beginning of a process follows the map, which describes where it
ends. There, a lookup with an initializer runs it exactly if the map has no value. -/
theorem LocalRun.refines_map {settings : Settings} {es : List LocalEvent} {w : World}
    (h : LocalRun [] (World.fresh settings) es w) :
    ∃ m : BindingMap, BindingMap.Follows {} es m ∧ m.Describes w ∧
      ∀ (t : ThreadId) (id : LocalId) (init : World → World × Payload),
        match m.value? t id with
        | some v => w.tryGetOr t id init = ((w.getLocal t id).1, .ok v)
        | none =>
          w.tryGetOr t id init =
            let made := init (w.getLocal t id).1
            let bound := made.1.bindValue t id made.2
            (bound.1, bound.2.map fun _ => made.2) := by
  have hnone : BindingMap.Awaits {} [] := fun p hp => absurd hp List.not_mem_nil
  obtain ⟨m, hes, hm, -⟩ := h.follows (BindingMap.describes_fresh settings) hnone
  refine ⟨m, hes, hm, ?_⟩
  intro t id init
  have hget := hm.get? t id
  cases hv : m.value? t id with
  | none => exact World.tryGetOr_of_none (hget.trans hv) init
  | some v => exact World.tryGetOr_of_some (hget.trans hv) init

/-- A thread that keeps a binding for a dropped thread local sees nothing through the
one that has its slot next. -/
theorem LocalRun.refines_map_recycled :
    ∃ m : BindingMap,
      BindingMap.Follows {}
        [.made 0 (.tracked "a") (.ok 0), .filled 1 0 [] (.tracked "b") (.ok (.tracked "b")),
          .counted 0 2, .dropped 0 0, .made 0 (.tracked "c") (.ok 1), .got 1 1 none,
          .visited 1 [.tracked "c"]] m ∧
        m.value? 0 1 = some (.tracked "c") := by
  have hrun : LocalRun [] (World.fresh {}) _ _ :=
    .made 0 (.tracked "a") <|
    .filled 1 0 (fun w => (w, .tracked "b")) rfl rfl List.not_mem_nil .nil <|
    .counted 0 <| .dropped 0 0 (fun p hp => absurd hp List.not_mem_nil) <|
    .made 0 (.tracked "c") <| .got 1 1 <| .visited 1 .nil
  obtain ⟨m, hes, hm, -⟩ := hrun.refines_map
  exact ⟨m, hes, (hm.get? 0 1).symm⟩

end Hosted
