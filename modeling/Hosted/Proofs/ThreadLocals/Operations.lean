import Hosted.Proofs.Slot.Reclaim
import Hosted.Proofs.World.Frame

/-!
# Thread locals of a process

What the operations of a process on its slots and thread locals do to the thread
locals. The counters, the reports and the fate of the values that are freed are left
out, as they do not come back to the thread locals.
-/

namespace Hosted.World

open Locals

variable {w w' : World} {t : ThreadId} {id id' : LocalId} {u v : Payload} {l : Local}

/-! ## Raw slots -/

theorem takeSlot_cases (w : World) :
    (∃ w', w.takeSlot = (w', .error (.slotsExhausted w.locals.table.limit)) ∧
        w'.locals = w.locals) ∨
      ∃ w' h, w.takeSlot = (w', .ok h) ∧ w.locals.allocate = (w'.locals, .ok h) := by
  unfold takeSlot
  rcases w.locals.allocate_cases with herr | ⟨i, -, hok⟩
  · rw [herr]
    exact Or.inl ⟨_, rfl, rfl⟩
  · rw [hok]
    exact Or.inr ⟨_, _, rfl, rfl⟩

theorem locals_giveSlot (w : World) (h : SlotHandle) :
    (w.giveSlot h).1.locals = (w.locals.release h).1 := by
  unfold giveSlot
  simp only
  split <;> rfl

theorem valuesOf_takeSlot (w : World) (id : LocalId) :
    w.takeSlot.1.locals.valuesOf id = w.locals.valuesOf id := by
  rcases w.takeSlot_cases with ⟨w', htake, hlocals⟩ | ⟨w', h, htake, halloc⟩
  · rw [htake, hlocals]
  · rw [htake]
    exact valuesOf_allocate halloc id

theorem valuesOf_giveSlot (w : World) (h : SlotHandle) (id : LocalId) :
    (w.giveSlot h).1.locals.valuesOf id = w.locals.valuesOf id := by
  rw [locals_giveSlot, valuesOf_release]

/-! ## Binding and dropping -/

/-- A value is bound unless the bindings of the thread are gone. -/
theorem bindValue_cases (hl : w.locals.local? id = some l) (t : ThreadId) (v : Payload) :
    (w.locals.thread t = .ended ∧
        ∃ w', w.bindValue t id v = (w', .error (.bindFailed l.handle.index)) ∧
          w'.locals = w.locals) ∨
      (w.locals.thread t ≠ .ended ∧
        ∃ w', w.bindValue t id v = (w', .ok ()) ∧ w.locals.Binds t id l v w'.locals) := by
  unfold bindValue
  rcases bind_cases hl t v with ⟨hended, hb⟩ | ⟨hrunning, s', hb, hbinds⟩
  · rw [hb]
    refine Or.inl ⟨hended, _, rfl, ?_⟩
    exact (unmoved_discard { w with locals := w.locals } v).locals
  · rw [hb]
    exact Or.inr ⟨hrunning, _, rfl, hbinds⟩

/-- The value is the only new one. -/
theorem mem_valuesOf_bindValue (hs : w.locals.CellsOwned)
    (hu : u ∈ (w.bindValue t id v).1.locals.valuesOf id') :
    u ∈ w.locals.valuesOf id' ∨ id' = id ∧ u = v := by
  cases hl : w.locals.local? id with
  | none =>
      simp only [bindValue, Locals.bind, hl] at hu
      exact Or.inl hu
  | some l =>
      rcases bindValue_cases hl t v with ⟨-, w', hb, hlocals⟩ | ⟨-, w', hb, hbinds⟩
      · rw [hb, hlocals] at hu
        exact Or.inl hu
      · rw [hb] at hu
        exact hbinds.mem_valuesOf hs hl hu

theorem dropLocal_none (hl : w.locals.local? id = none) (t : ThreadId) :
    w.dropLocal t id = w := by
  unfold dropLocal
  rw [detach_none hl]

theorem dropLocal_some (hl : w.locals.local? id = some l) (t : ThreadId) :
    ∃ s', w.locals.Detaches t id l s' ∧
      (w.dropLocal t id).locals = (s'.release l.handle).1 := by
  obtain ⟨s', hd, hdet⟩ := detach_some hl t
  refine ⟨s', hdet, ?_⟩
  unfold dropLocal
  rw [hd]
  simp only
  rw [locals_giveSlot]
  have hframe := unmoved_discards { w with locals := s' } (w.locals.valuesOf id)
  change ((List.foldl discard { w with locals := s' }
    (w.locals.valuesOf id)).locals.release l.handle).1 = _
  rw [hframe.locals]

theorem mem_valuesOf_dropLocal (hu : u ∈ (w.dropLocal t id).locals.valuesOf id') :
    u ∈ w.locals.valuesOf id' := by
  cases hl : w.locals.local? id with
  | none => rwa [dropLocal_none hl] at hu
  | some l =>
      obtain ⟨s', hdet, hlocals⟩ := dropLocal_some hl t
      rw [hlocals, valuesOf_release] at hu
      exact hdet.mem_valuesOf hu

/-- The values that a thread leaves behind do not come back to the thread locals. -/
theorem unmoved_endThread (w : World) (t : ThreadId) :
    Unmoved { w with locals := (w.locals.endThread t).1 } (w.endThread t) := by
  have hstep : ∀ (w : World) (v : Payload), Unmoved w ((w.discard v).tally .valuesFreed) :=
    fun w v => (w.unmoved_discard v).trans (unmoved_tally _ _)
  have hframe := Unmoved.foldl hstep { w with locals := (w.locals.endThread t).1 }
    (w.locals.endThread t).2
  unfold endThread
  simp only
  split
  · exact hframe
  · exact hframe.trans (unmoved_log _ _)

theorem locals_endThread (w : World) (t : ThreadId) :
    (w.endThread t).locals = (w.locals.endThread t).1 := (w.unmoved_endThread t).locals

/-- The environment with a new thread local over a slot. -/
def withLocal (w : World) (h : SlotHandle) : World :=
  { w with locals := (w.locals.create h).1 }

theorem local?_withLocal (w : World) (h : SlotHandle) :
    (w.withLocal h).locals.local? w.locals.locals.length = some { handle := h } :=
  (local?_create _ _ _).trans (if_pos rfl)

theorem tryNewLocal_of_takeSlot_error {f : Fault} (htake : w.takeSlot = (w', .error f))
    (t : ThreadId) (v : Payload) : w.tryNewLocal t v = (w'.discard v, .error f) := by
  rw [tryNewLocal, htake]

theorem tryNewLocal_of_takeSlot_ok {h : SlotHandle} (htake : w.takeSlot = (w', .ok h))
    (t : ThreadId) (v : Payload) :
    w.tryNewLocal t v =
      match (w'.withLocal h).bindValue t w'.locals.locals.length v with
      | (w₁, .ok _) => (w₁, .ok w'.locals.locals.length)
      | (w₁, .error f) => (w₁.dropLocal t w'.locals.locals.length, .error f) := by
  rw [tryNewLocal, htake]
  rfl

/-- A thread local is made over a slot that has been taken and its first value is bound.
If there is no slot, nothing changes; if the value is refused, the thread local is
dropped again. -/
theorem tryNewLocal_cases (w : World) (t : ThreadId) (v : Payload) :
    (∃ w' f, w.tryNewLocal t v = (w', .error f) ∧ w'.locals = w.locals) ∨
      ∃ s h, w.locals.allocate = (s, .ok h) ∧
        ((∃ w', w.tryNewLocal t v = (w', .ok s.locals.length) ∧
            (s.create h).1.Binds t s.locals.length { handle := h } v w'.locals) ∨
          ∃ w' f s', w.tryNewLocal t v = (w', .error f) ∧
            (s.create h).1.Detaches t s.locals.length { handle := h } s' ∧
            w'.locals = (s'.release h).1) := by
  rcases w.takeSlot_cases with ⟨w₁, htake, hlocals⟩ | ⟨w₁, h, htake, halloc⟩
  · rw [tryNewLocal_of_takeSlot_error htake]
    exact Or.inl ⟨_, _, rfl, (w₁.unmoved_discard v).locals.trans hlocals⟩
  · rw [tryNewLocal_of_takeSlot_ok htake]
    refine Or.inr ⟨w₁.locals, h, halloc, ?_⟩
    have hnew := w₁.local?_withLocal h
    rcases bindValue_cases hnew t v with ⟨-, w₂, hbind, hlocals⟩ | ⟨-, w₂, hbind, hbinds⟩
    · rw [hbind]
      rw [← hlocals] at hnew
      obtain ⟨s', hdetaches, hdrop⟩ := dropLocal_some hnew t
      rw [hlocals] at hdetaches
      exact Or.inr ⟨_, _, s', rfl, hdetaches, hdrop⟩
    · rw [hbind]
      exact Or.inl ⟨w₂, rfl, hbinds⟩

/-- The first value of the thread local that is made is the only new one. -/
theorem mem_valuesOf_tryNewLocal (hs : w.locals.Sound)
    (hu : u ∈ (w.tryNewLocal t v).1.locals.valuesOf id') :
    u ∈ w.locals.valuesOf id' ∨ (w.tryNewLocal t v).2 = .ok id' ∧ u = v := by
  rcases w.tryNewLocal_cases t v with ⟨w', f, hnew, hlocals⟩ |
    ⟨s, h, halloc, ⟨w', hnew, hbinds⟩ | ⟨w', f, s', hnew, hdetaches, hlocals⟩⟩
  · rw [hnew, hlocals] at hu
    exact Or.inl hu
  · have hcreated := (hs.allocate halloc).1.toCellsOwned.create h
    have hl : (s.create h).1.local? s.locals.length = some { handle := h } :=
      (local?_create _ _ _).trans (if_pos rfl)
    rw [hnew] at hu ⊢
    rcases hbinds.mem_valuesOf hcreated hl hu with hu | ⟨rfl, rfl⟩
    · exact Or.inl (valuesOf_allocate halloc id' ▸ mem_valuesOf_create hu)
    · exact Or.inr ⟨rfl, rfl⟩
  · rw [hnew, hlocals, valuesOf_release] at hu
    exact Or.inl (valuesOf_allocate halloc id' ▸ mem_valuesOf_create (hdetaches.mem_valuesOf hu))

/-- Thread locals are numbered in the order they are made. -/
theorem eq_length_of_tryNewLocal (h : (w.tryNewLocal t v).2 = .ok id) :
    id = w.locals.locals.length := by
  unfold tryNewLocal at h
  rcases w.takeSlot_cases with ⟨w₁, htake, -⟩ | ⟨w₁, hd, htake, halloc⟩
  · simp [htake] at h
  · rw [htake] at h
    simp only at h
    have hlocals : w₁.locals.locals = w.locals.locals := by
      rcases w.locals.allocate_cases with herr | ⟨i, -, hok⟩
      · simp [herr] at halloc
      · rw [hok, Prod.mk.injEq] at halloc
        rw [← halloc.1]
    split at h
    · rw [Except.ok.injEq] at h
      rw [← h, ← hlocals]
      rfl
    · cases h

/-! ## Looking up with an initializer -/

/-- A thread that has a value keeps it, and no initializer runs. -/
theorem tryGetOr_of_some (hv : w.locals.get? t id = some v)
    (init : World → World × Payload) :
    w.tryGetOr t id init = ((w.getLocal t id).1, .ok v) := by
  unfold tryGetOr getLocal
  rw [hv]

/-- A thread that has none runs the initializer, and then binds what it made. -/
theorem tryGetOr_of_none (hv : w.locals.get? t id = none)
    (init : World → World × Payload) :
    w.tryGetOr t id init =
      (((init (w.getLocal t id).1).1.bindValue t id (init (w.getLocal t id).1).2).1,
        ((init (w.getLocal t id).1).1.bindValue t id (init (w.getLocal t id).1).2).2.map
          fun _ => (init (w.getLocal t id).1).2) := by
  unfold tryGetOr getLocal
  rw [hv]
  simp only
  cases hb : (init { w with locals := w.locals.touch t }).1.bindValue t id
      (init { w with locals := w.locals.touch t }).2 with
  | mk w₁ result =>
      cases result with
      | ok u => rfl
      | error f => rfl

end Hosted.World
