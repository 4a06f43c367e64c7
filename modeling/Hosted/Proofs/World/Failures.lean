import Hosted.Proofs.Terminated.InPlace
import Hosted.Proofs.ThreadLocals.Operations
import Hosted.World.Registries

/-!
# Failures

An operation that fails leaves the environment as it was. What may remain of it are the
notices that it gave and, where the failure is fatal, the count of fatal errors. A value
that was passed in is freed once and has not been bound, and a handler that was passed in is
discarded once: it is in no table and has not run.
-/

namespace Hosted

namespace Locals

variable {α : Type}

/-- `s'` differs from `s` at most in which of its threads are known to use slots: every
binding, every thread local with its values, the table and the next number are the same. -/
structure Alike (s s' : Locals α) : Prop where
  table : s'.table = s.table
  nextSeq : s'.nextSeq = s.nextSeq
  locals : s'.locals = s.locals
  cells : s'.cells = s.cells
  at? : ∀ t i, (s'.thread t).at? i = (s.thread t).at? i
  ended : ∀ t, s'.thread t = .ended ↔ s.thread t = .ended

namespace Alike

variable {s s' s'' : Locals α}

theorem refl (s : Locals α) : s.Alike s :=
  ⟨rfl, rfl, rfl, rfl, fun _ _ => rfl, fun _ => Iff.rfl⟩

theorem trans (h : s.Alike s') (h' : s'.Alike s'') : s.Alike s'' where
  table := h'.table.trans h.table
  nextSeq := h'.nextSeq.trans h.nextSeq
  locals := h'.locals.trans h.locals
  cells := h'.cells.trans h.cells
  at? t i := (h'.at? t i).trans (h.at? t i)
  ended t := (h'.ended t).trans (h.ended t)

end Alike

theorem alike_touch (s : Locals α) (t : ThreadId) : s.Alike (s.touch t) :=
  ⟨rfl, rfl, rfl, rfl, s.at?_touch t, s.thread_touch_eq_ended_iff t⟩

end Locals

namespace World

open Locals

variable {w w' w'' : World} {fatal fatal' : UInt64} {new new' : List Notice} {f : Fault}

/-- `w'` is `w` but for `fatal` more fatal errors that were counted and the notices `new`. -/
structure Restored (w : World) (fatal : UInt64) (new : List Notice) (w' : World) : Prop where
  settings : w'.settings = w.settings
  locales : w'.locales = w.locales
  facets : w'.facets = w.facets
  indices : w'.indices = w.indices
  locals : w.locals.Alike w'.locals
  exits : w'.exits = w.exits
  registries : w'.registries = w.registries
  processRegistry : w'.processRegistry = w.processRegistry
  started : w'.started = w.started
  counters : ∀ which, w'.counters.get which =
    if which = .fatalErrors then w.counters.get which + fatal else w.counters.get which
  notices : w'.notices = w.notices ++ new

namespace Restored

theorem refl (w : World) : w.Restored 0 [] w where
  settings := rfl
  locales := rfl
  facets := rfl
  indices := rfl
  locals := .refl _
  exits := rfl
  registries := rfl
  processRegistry := rfl
  started := rfl
  counters which := by rw [UInt64.add_zero, ite_self]
  notices := (List.append_nil _).symm

theorem trans (h : w.Restored fatal new w') (h' : w'.Restored fatal' new' w'') :
    w.Restored (fatal + fatal') (new ++ new') w'' where
  settings := h'.settings.trans h.settings
  locales := h'.locales.trans h.locales
  facets := h'.facets.trans h.facets
  indices := h'.indices.trans h.indices
  locals := h.locals.trans h'.locals
  exits := h'.exits.trans h.exits
  registries := h'.registries.trans h.registries
  processRegistry := h'.processRegistry.trans h.processRegistry
  started := h'.started.trans h.started
  counters which := by
    rw [h'.counters, h.counters]
    split
    · exact UInt64.add_assoc _ _ _
    · rfl
  notices := by rw [h'.notices, h.notices, List.append_assoc]

end Restored

theorem restored_notify (w : World) (n : Notice) : w.Restored 0 [n] (w.notify n) :=
  { Restored.refl w with notices := rfl }

theorem restored_log (w : World) (o : Occurrence) : w.Restored 0 [.logged o] (w.log o) :=
  w.restored_notify _

theorem restored_raise (w : World) (f : Fault) : w.Restored 1 [.logged (.fatal f)] (w.raise f) :=
  { Restored.refl w with
    counters := fun which => Counters.get_add _ _ which 1
    notices := rfl }

theorem restored_getLocal (w : World) (t : ThreadId) (id : LocalId) :
    w.Restored 0 [] (w.getLocal t id).1 :=
  { Restored.refl w with locals := w.locals.alike_touch t }

/-- A call from `w` that ends in `w'` has `failed` if there was `cause` to, and only then,
and has been undone. -/
structure Aborts (w : World) (failed cause : Prop) (fatal : UInt64) (new : List Notice)
    (w' : World) : Prop where
  fails : failed ↔ cause
  restored : failed → w.Restored fatal new w'

/-! ## Slots -/

/-- The fault of a call that gets no slot of the process. -/
def noSlot (w : World) : Fault := .slotsExhausted w.locals.table.limit

theorem takeSlot_of_full (h : w.locals.table.Full) :
    w.takeSlot = (w.log (.slotRefused w.noSlot), .error w.noSlot) := by
  have hrefused := (w.locals.table.allocate_eq_error_iff w.locals.nextSeq).2 ⟨h, rfl⟩
  rw [takeSlot, Locals.allocate, hrefused]
  rfl

theorem takeSlot_of_not_full (h : ¬w.locals.table.Full) : ∃ w' hd, w.takeSlot = (w', .ok hd) := by
  rw [takeSlot, Locals.allocate]
  cases hd : w.locals.table.allocate w.locals.nextSeq with
  | error f => exact absurd ((SlotTable.allocate_eq_error_iff _ _).1 hd).1 h
  | ok p => exact ⟨_, _, rfl⟩

theorem aborts_takeSlot (w : World) :
    w.Aborts (∃ f, w.takeSlot.2 = .error f) w.locals.table.Full 0
      [.logged (.slotRefused w.noSlot)] w.takeSlot.1 := by
  by_cases h : w.locals.table.Full
  · rw [takeSlot_of_full h]
    exact ⟨iff_of_true ⟨_, rfl⟩ h, fun _ => w.restored_log _⟩
  · obtain ⟨w', hd, hok⟩ := takeSlot_of_not_full h
    have hnot : ¬∃ f, w.takeSlot.2 = .error f := by simp [hok]
    exact ⟨iff_of_false hnot h, fun hf => absurd hf hnot⟩

theorem aborts_giveSlot (w : World) (h : SlotHandle) :
    w.Aborts ((w.giveSlot h).2 = false) (w.locals.table.isLive h = false) 0 []
      (w.giveSlot h).1 := by
  unfold giveSlot
  rw [release_eq]
  cases hlive : w.locals.table.isLive h with
  | true => exact ⟨by simp, fun hf => by simp at hf⟩
  | false => exact ⟨by simp, fun _ => Restored.refl w⟩

/-! ## Thread locals -/

theorem tryNewLocal_of_full (h : w.locals.table.Full) (t : ThreadId) (v : Payload) :
    w.tryNewLocal t v = ((w.log (.slotRefused w.noSlot)).discard v, .error w.noSlot) :=
  tryNewLocal_of_takeSlot_error (takeSlot_of_full h) t v

/-- With a slot to be had, only a thread that has ended can be in the way. -/
theorem tryNewLocal_of_not_full (h : ¬w.locals.table.Full) (t : ThreadId) (v : Payload) :
    (w.tryNewLocal t v).2 ≠ .error w.noSlot := by
  obtain ⟨w₁, hd, htake⟩ := takeSlot_of_not_full h
  rw [tryNewLocal_of_takeSlot_ok htake]
  rcases bindValue_cases (w₁.local?_withLocal hd) t v with
    ⟨-, w₂, hbind, -⟩ | ⟨-, w₂, hbind, -⟩ <;> simp [hbind, noSlot]

theorem tryNewLocal_eq_error_iff (w : World) (t : ThreadId) (v : Payload) :
    (w.tryNewLocal t v).2 = .error w.noSlot ↔ w.locals.table.Full := by
  by_cases h : w.locals.table.Full
  · rw [tryNewLocal_of_full h]
    exact iff_of_true rfl h
  · exact iff_of_false (tryNewLocal_of_not_full h t v) h

theorem newLocal_snd (w : World) (t : ThreadId) (v : Payload) :
    (w.newLocal t v).2 = (w.tryNewLocal t v).2 := by
  rw [newLocal]
  rcases w.tryNewLocal t v with ⟨w', _ | _⟩ <;> rfl

theorem newLocal_of_full (h : w.locals.table.Full) (t : ThreadId) (v : Payload) :
    w.newLocal t v =
      (((w.log (.slotRefused w.noSlot)).discard v).raise w.noSlot, .error w.noSlot) := by
  rw [newLocal, tryNewLocal_of_full h]

theorem addRegistry_eq_error_iff (w : World) (t : ThreadId) (exits : TableId) :
    (w.addRegistry t exits).2 = .error f ↔ (w.newLocal t (.setting none)).2 = .error f := by
  rw [addRegistry]
  rcases w.newLocal t (.setting none) with ⟨w', _ | _⟩ <;> simp

theorem aborts_tryNewLocal (w : World) (t : ThreadId) (tag : String) :
    w.Aborts ((w.tryNewLocal t (.tracked tag)).2 = .error w.noSlot) w.locals.table.Full 0
      [.logged (.slotRefused w.noSlot), .freed tag] (w.tryNewLocal t (.tracked tag)).1 where
  fails := w.tryNewLocal_eq_error_iff t _
  restored hf := by
    rw [tryNewLocal_of_full ((w.tryNewLocal_eq_error_iff t _).1 hf)]
    exact (w.restored_log _).trans (restored_notify _ _)

theorem aborts_newLocal (w : World) (t : ThreadId) (tag : String) :
    w.Aborts ((w.newLocal t (.tracked tag)).2 = .error w.noSlot) w.locals.table.Full 1
      [.logged (.slotRefused w.noSlot), .freed tag, .logged (.fatal w.noSlot)]
      (w.newLocal t (.tracked tag)).1 := by
  rw [newLocal_snd]
  refine ⟨w.tryNewLocal_eq_error_iff t _, fun hf => ?_⟩
  rw [newLocal_of_full ((w.tryNewLocal_eq_error_iff t _).1 hf)]
  exact ((w.restored_log _).trans (restored_notify _ _)).trans (restored_raise _ _)

/-- A registry is not made halfway: without a slot for the locales of threads there is
none. -/
theorem aborts_addRegistry (w : World) (t : ThreadId) (exits : TableId) :
    w.Aborts ((w.addRegistry t exits).2 = .error w.noSlot) w.locals.table.Full 1
      [.logged (.slotRefused w.noSlot), .logged (.fatal w.noSlot)]
      (w.addRegistry t exits).1 := by
  rw [addRegistry_eq_error_iff, newLocal_snd]
  refine ⟨w.tryNewLocal_eq_error_iff t _, fun hf => ?_⟩
  -- the value for the thread that makes the registry is no locale, so freeing it says nothing
  rw [addRegistry, newLocal_of_full ((w.tryNewLocal_eq_error_iff t _).1 hf)]
  exact (w.restored_log _).trans (restored_raise _ _)

/-- The fault of a thread that has no value. -/
def unboundFault (w : World) (id : LocalId) : Fault :=
  .unbound (((w.locals.local? id).map (·.handle.index)).getD 0)

theorem aborts_deref (w : World) (t : ThreadId) (id : LocalId) :
    w.Aborts (∃ f, (w.deref t id).2 = .error f) (w.locals.get? t id = none) 1
      [.logged (.fatal (w.unboundFault id))] (w.deref t id).1 := by
  unfold deref getLocal
  cases hv : w.locals.get? t id with
  | some v => exact ⟨by simp, fun hf => by simp at hf⟩
  | none =>
      refine ⟨iff_of_true ⟨_, rfl⟩ rfl, fun _ => ?_⟩
      -- looking for the value has noted the thread as one that uses slots
      exact (w.restored_getLocal t id).trans (restored_raise _ _)

/-! ## Exit tables -/

theorem aborts_register (w : World) (x : TableId) (h : Handler) :
    w.Aborts (∃ f, (w.register x h).2 = .error f) ((w.exitTable x).ran = true) 0 [.discarded h]
      (w.register x h).1 := by
  cases hran : (w.exitTable x).ran with
  | true =>
      rw [register_of_ran hran]
      exact ⟨iff_of_true ⟨_, rfl⟩ rfl, fun _ => w.restored_notify _⟩
  | false =>
      rw [register_of_not_ran hran]
      exact ⟨by simp, fun hf => by simp at hf⟩

/-! ## All of them -/

/-- What fails, fails without a trace: the operations of the environment, allocations and
registrations in a table `own` of a caller's, and copies to a buffer. What was passed in comes
to its end in the notices, once. -/
structure Atomic (w : World) : Prop where
  allocate (own : SlotTable) {f : Fault} {left : SlotTable × Nat} :
    SlotTable.allocateInPlace.run (own, w.locals.nextSeq) = .error f left ↔
      own.Full ∧ f = .slotsExhausted own.limit ∧ left = (own, w.locals.nextSeq)
  release (own : SlotTable) (h : SlotHandle) :
    ((own.release h).2 = false ↔ own.isLive h = false) ∧
      ((own.release h).2 = false → (own.release h).1 = own)
  takeSlot : w.Aborts (∃ f, w.takeSlot.2 = .error f) w.locals.table.Full 0
    [.logged (.slotRefused w.noSlot)] w.takeSlot.1
  giveSlot (h : SlotHandle) :
    w.Aborts ((w.giveSlot h).2 = false) (w.locals.table.isLive h = false) 0 [] (w.giveSlot h).1
  tryNewLocal (t : ThreadId) (tag : String) :
    w.Aborts ((w.tryNewLocal t (.tracked tag)).2 = .error w.noSlot) w.locals.table.Full 0
      [.logged (.slotRefused w.noSlot), .freed tag] (w.tryNewLocal t (.tracked tag)).1
  newLocal (t : ThreadId) (tag : String) :
    w.Aborts ((w.newLocal t (.tracked tag)).2 = .error w.noSlot) w.locals.table.Full 1
      [.logged (.slotRefused w.noSlot), .freed tag, .logged (.fatal w.noSlot)]
      (w.newLocal t (.tracked tag)).1
  addRegistry (t : ThreadId) (exits : TableId) :
    w.Aborts ((w.addRegistry t exits).2 = .error w.noSlot) w.locals.table.Full 1
      [.logged (.slotRefused w.noSlot), .logged (.fatal w.noSlot)] (w.addRegistry t exits).1
  deref (t : ThreadId) (id : LocalId) :
    w.Aborts (∃ f, (w.deref t id).2 = .error f) (w.locals.get? t id = none) 1
      [.logged (.fatal (w.unboundFault id))] (w.deref t id).1
  register (x : TableId) (h : Handler) :
    w.Aborts (∃ f, (w.register x h).2 = .error f) ((w.exitTable x).ran = true) 0 [.discarded h]
      (w.register x h).1
  registerInPlace (own : ExitTable Handler) (h : Handler) {discarded : List Handler} {f : Fault}
      {left : ExitTable Handler × List Handler} :
    (ExitTable.registerInPlace h).run (own, discarded) = .error f left ↔
      own.ran = true ∧ f = .exitTableClosed ∧ left = (own, discarded ++ [h])
  copy {source dest left : List UInt8} {e : Panic Narrow.StringTooLong} :
    (Narrow.copyInPlace source).run dest = .error e left ↔
      dest.length ≤ Narrow.length source ∧
        e = .refused ⟨Narrow.length source, dest.length⟩ ∧ left = dest
  boundedCopy {source dest left : List UInt8} {count : Nat} {e : Panic CountTooLarge} :
    (Narrow.boundedCopyInPlace source count).run dest = .error e left ↔
      dest.length < count ∧ e = .refused ⟨count, dest.length⟩ ∧ left = dest
  wideBoundedCopy {source dest left : List UInt16} {count : Nat} {e : Panic CountTooLarge} :
    (Wide.boundedCopyInPlace source count).run dest = .error e left ↔
      dest.length < count ∧ e = .refused ⟨count, dest.length⟩ ∧ left = dest

theorem atomic (w : World) : w.Atomic where
  allocate _ _ _ := SlotTable.run_allocateInPlace_eq_error
  release own h := own.release_eq_false h
  takeSlot := w.aborts_takeSlot
  giveSlot := w.aborts_giveSlot
  tryNewLocal := w.aborts_tryNewLocal
  newLocal := w.aborts_newLocal
  addRegistry := w.aborts_addRegistry
  deref := w.aborts_deref
  register := w.aborts_register
  registerInPlace _ _ _ _ _ := ExitTable.run_registerInPlace_eq_error
  copy := Narrow.run_copyInPlace_eq_error
  boundedCopy {source _ _ count _} :=
    let h := Narrow.boundedLength_le source count
    run_fillInPlace_eq_error h.1 h.2
  wideBoundedCopy {source _ _ count _} :=
    run_fillInPlace_eq_error (Nat.min_le_right _ _) (Wide.min_length_le source count)

end World

end Hosted
