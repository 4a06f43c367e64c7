import Hosted.Proofs.Slot.Enumeration
import Hosted.Proofs.ThreadLocals.Operations
import Hosted.World.Startup

/-!
# Thread locals as a map

`BindingMap` is what a caller knows of thread locals: a partial map from threads and
thread locals to values, with the thread locals that are live and the threads that have
ended. It has no slots, no sequence numbers and no cells. `m.Describes w` says that the
map `m` is what the environment `w` shows, and each operation has one lemma that says
which change of the map describes it. The values of the thread locals are just those that the
map has; where this is asked of some thread locals only, a thread may bind once more through
the others.
-/

namespace Hosted

/-- The values that threads have bound through thread locals. -/
structure BindingMap where
  value? : ThreadId → LocalId → Option Payload := fun _ _ => none
  live : List LocalId := []
  ended : List ThreadId := []

namespace BindingMap

/-- Thread `t` binds `v` through `id`. -/
def bind (m : BindingMap) (t : ThreadId) (id : LocalId) (v : Payload) : BindingMap :=
  { m with
    value? := fun t' id' => if t' = t ∧ id' = id then some v else m.value? t' id' }

/-- A new thread local. -/
def create (m : BindingMap) (id : LocalId) : BindingMap := { m with live := id :: m.live }

/-- Takes a thread local away with all its values. -/
def drop (m : BindingMap) (id : LocalId) : BindingMap :=
  { m with
    value? := fun t' id' => if id' = id then none else m.value? t' id'
    live := m.live.filter (· ≠ id) }

/-- Takes a thread away with all its values. -/
def exit (m : BindingMap) (t : ThreadId) : BindingMap :=
  { m with
    value? := fun t' id' => if t' = t then none else m.value? t' id'
    ended := t :: m.ended }

/-- `threads` are the threads that have a value bound through `id`, each once. -/
structure Enumerates (m : BindingMap) (id : LocalId) (threads : List ThreadId) : Prop where
  nodup : threads.Nodup
  mem_iff : ∀ t, t ∈ threads ↔ (m.value? t id).isSome

/-- Changes the values bound through `id`, those of `threads` in this order. -/
def update (m : BindingMap) (id : LocalId) (f : Nat → Payload → Payload)
    (threads : List ThreadId) : BindingMap :=
  { m with
    value? := fun t' id' =>
      if id' = id then (m.value? t' id').map (f (threads.idxOf t')) else m.value? t' id' }

/-- The map is what the environment shows of its thread locals. -/
structure Describes (m : BindingMap) (w : World) (among : LocalId → Prop := fun _ => True) :
    Prop where
  exact : w.locals.Exact among
  get? : ∀ t id, w.locals.get? t id = m.value? t id
  live : ∀ id, id ∈ m.live ↔ (w.locals.local? id).isSome
  ended : ∀ t, t ∈ m.ended ↔ w.locals.thread t = .ended

theorem describes_fresh (settings : Settings) :
    Describes {} (World.fresh settings) where
  exact := by
    have hthread : ∀ t i, ((World.fresh settings).locals.thread t).at? i = none :=
      fun t i => rfl
    have hlocal : ∀ id, (World.fresh settings).locals.local? id = none := fun id => rfl
    have hcell : ∀ c, (World.fresh settings).locals.cell? c = none := fun c => rfl
    constructor
    case toSound =>
      constructor
      case toCellsOwned => constructor <;> simp [hlocal, hcell]
      case next_pos => exact Nat.one_pos
      case table_lt => exact fun h => absurd h List.not_mem_nil
      all_goals simp [hlocal, hthread]
    all_goals simp [hlocal]
  get? t id := rfl
  live id := by simp [World.fresh, Locals.local?]
  ended t := by simp [World.fresh, Locals.thread]

namespace Describes

variable {m : BindingMap} {w w' : World} {among among' : LocalId → Prop} {t : ThreadId}
  {id : LocalId} {v : Payload}

/-- Nothing but the thread locals counts. -/
theorem of_locals_eq (h : m.Describes w among) (hlocals : w'.locals = w.locals) :
    m.Describes w' among :=
  ⟨hlocals ▸ h.exact, hlocals ▸ h.get?, hlocals ▸ h.live, hlocals ▸ h.ended⟩

theorem mono (h : m.Describes w among) (hamong : ∀ id, among' id → among id) :
    m.Describes w among' :=
  ⟨h.exact.mono hamong, h.get?, h.live, h.ended⟩

theorem getLocal (h : m.Describes w among) (t : ThreadId) (id : LocalId) :
    (w.getLocal t id).2 = m.value? t id ∧ m.Describes (w.getLocal t id).1 among := by
  refine ⟨h.get? t id, h.exact.touch t, ?_, h.live, ?_⟩
  · intro t' id'
    exact (Locals.get?_touch ..).trans (h.get? t' id')
  · intro t'
    exact (h.ended t').trans (Locals.thread_touch_eq_ended_iff ..).symm

theorem isBound (h : m.Describes w among) (t : ThreadId) (id : LocalId) :
    w.locals.isBound t id = (m.value? t id).isSome := by
  rw [h.exact.toSound.isBound_eq, h.get?]

/-- What is visited is every value bound through the thread local, each once. -/
theorem exists_enumerates (h : m.Describes w among) (id : LocalId) (hid : among id) :
    ∃ threads, m.Enumerates id threads ∧ w.locals.boundCount id = threads.length ∧
      (w.locals.valuesOf id).map some = threads.map (m.value? · id) ∧
      ∀ f, (m.update id f threads).Describes
        { w with locals := w.locals.modifyAll id f } among := by
  have hs := h.exact.toSound
  obtain ⟨threads, hseen⟩ := h.exact.exists_seenBy id hid
  have hmem : ∀ t, t ∈ threads ↔ (m.value? t id).isSome := by
    intro t
    rw [hseen.mem_iff hs, ← h.isBound t id]
    exact Option.isSome_iff_exists.symm
  refine ⟨threads, ⟨hseen.nodup (hs.nodup_cellsOf id), hmem⟩,
    hseen.length_eq_boundCount.symm, ?_, ?_⟩
  · rw [hseen.map_valuesOf hs]
    exact List.map_congr_left fun t _ => h.get? t id
  · intro f
    refine ⟨h.exact.modifyAll id f, ?_, h.live, h.ended⟩
    intro t' id'
    unfold update
    by_cases hid : id' = id
    · subst hid
      simp only [if_true]
      rw [← h.get?]
      cases hc : w.locals.cellOf? t' id' with
      | none =>
          have hnone := hs.get?_eq_none_iff.2 hc
          have hnone' := (hs.modifyAll id' f).get?_eq_none_iff.2 hc
          rw [hnone, hnone']
          rfl
      | some c => rw [hs.get?_modifyAll id' f hc, hseen.idxOf_eq hs hc]
    · simp only [hid, if_false]
      rw [← h.get?]
      exact hs.get?_modifyAll_ne f hid t'

/-- Changing what is bound through one thread local changes nothing for the others. -/
theorem modifyAll (h : m.Describes w among) (id : LocalId) (f : Nat → Payload → Payload) :
    ∃ m' : BindingMap, m'.Describes { w with locals := w.locals.modifyAll id f } among ∧
      m'.live = m.live ∧ m'.ended = m.ended ∧
      ∀ t' {id'}, id' ≠ id → m'.value? t' id' = m.value? t' id' := by
  have hs := h.exact.toSound
  refine ⟨{ m with value? := (w.locals.modifyAll id f).get? },
    ⟨h.exact.modifyAll id f, fun _ _ => rfl, h.live, h.ended⟩, rfl, rfl, fun t' id' hne => ?_⟩
  exact (hs.get?_modifyAll_ne f hne t').trans (h.get? t' id')

/-- A value that a thread has bound is replaced. -/
theorem setCell (h : m.Describes w among) {c : CellId} (hc : w.locals.cellOf? t id = some c)
    (v : Payload) :
    (m.bind t id v).Describes
      { w with locals := { w.locals with cells := w.locals.cells.set c (some v) } } among := by
  have hs := h.exact.toSound
  have hfilled := hs.filled_of_cellOf? hc
  have hcell : ∀ c', (({ w.locals with cells := w.locals.cells.set c (some v) } :
      Locals Payload).cell? c') = if c' = c then some v else w.locals.cell? c' := by
    intro c'
    by_cases hcc : c' = c
    · subst hcc
      have hlt : c' < w.locals.cells.length := by
        rcases Nat.lt_or_ge c' w.locals.cells.length with hlt | hge
        · exact hlt
        · simp [Locals.cell?, List.getElem?_eq_none hge] at hfilled
      simp [Locals.cell?, hlt]
    · simp [Locals.cell?, hcc, Ne.symm hcc]
  have hsome : ∀ c', (({ w.locals with cells := w.locals.cells.set c (some v) } :
      Locals Payload).cell? c').isSome = (w.locals.cell? c').isSome := by
    intro c'
    rw [hcell]
    by_cases hcc : c' = c
    · rw [if_pos hcc, hcc, hfilled]
      rfl
    · rw [if_neg hcc]
  refine ⟨h.exact.congr ?_ (fun _ _ => rfl) (fun _ => rfl) h.exact.held, ?_, h.live, h.ended⟩
  · exact hs.congr (fun _ _ => rfl) (fun _ => rfl) hsome rfl (List.length_set ..)
      (Nat.le_refl _) hs.table_lt
  · intro t' id'
    change (w.locals.cellOf? t' id').bind _ = if t' = t ∧ id' = id then some v else _
    by_cases heq : t' = t ∧ id' = id
    · obtain ⟨rfl, rfl⟩ := heq
      rw [hc, if_pos ⟨rfl, rfl⟩, Option.bind_some, hcell, if_pos rfl]
    · rw [if_neg heq, ← h.get?]
      cases hc' : w.locals.cellOf? t' id' with
      | none => simp [Locals.get?, hc']
      | some c' =>
          have hne : c' ≠ c := by
            rintro rfl
            exact heq (hs.cellOf?_inj hc' hc)
          rw [Option.bind_some, hcell, if_neg hne]
          simp [Locals.get?, hc']

theorem dropLocal (h : m.Describes w among) (t : ThreadId) (id : LocalId) :
    (m.drop id).Describes (w.dropLocal t id) among := by
  cases hl : w.locals.local? id with
  | none =>
      rw [World.dropLocal_none hl]
      refine ⟨h.exact, ?_, ?_, h.ended⟩
      · intro t' id'
        unfold drop
        by_cases hid : id' = id
        · subst hid
          simp [Locals.get?, Locals.cellOf?_of_local?_none hl]
        · simp [hid, h.get?]
      · intro id'
        unfold drop
        by_cases hid : id' = id
        · subst hid
          simp [hl]
        · simp [hid, h.live]
  | some l =>
      obtain ⟨s', hdet, hlocals⟩ := World.dropLocal_some hl t
      have hs' := h.exact.detaches hl hdet
      have hrel := s'.release_eq l.handle
      have hfree : ∀ {id' l'}, s'.local? id' = some l' → l'.handle ≠ l.handle := by
        intro id' l' hl' heq
        obtain ⟨hne, hl'⟩ := hdet.local?_some hl'
        exact hne (h.exact.handle_inj hl' hl (by rw [heq]))
      have hthread : ∀ t', (s'.release l.handle).1.thread t' = s'.thread t' := by
        intro t'
        rw [hrel]
        split <;> rfl
      have hlocal : ∀ id', (s'.release l.handle).1.local? id' = s'.local? id' := by
        intro id'
        rw [hrel]
        split <;> rfl
      refine ⟨hlocals ▸ hs'.release hfree, ?_, ?_, ?_⟩
      · intro t' id'
        rw [hlocals, Locals.get?_release, h.exact.toSound.get?_detaches hl hdet, h.get?]
        rfl
      · intro id'
        rw [hlocals, hlocal, hdet.local?]
        unfold drop
        by_cases hid : id' = id
        · simp [hid]
        · simp [hid, h.live]
      · intro t'
        rw [hlocals, hthread, hdet.ended]
        exact h.ended t'

theorem endThread (h : m.Describes w among) (t : ThreadId) :
    (m.exit t).Describes (w.endThread t) among := by
  have he := h.exact.toSound.ends_endThread t
  have hlocals := w.locals_endThread t
  refine ⟨hlocals ▸ h.exact.ends he, ?_, ?_, ?_⟩
  · intro t' id
    rw [hlocals, h.exact.toSound.get?_ends he, h.get?]
    rfl
  · intro id
    rw [hlocals]
    apply (h.live id).trans
    cases hl : w.locals.local? id with
    | none => rw [he.reclaims.local_none hl]
    | some l =>
        obtain ⟨cells, hl', -⟩ := he.reclaims.local_some hl
        rw [hl']
        rfl
  · intro t'
    rw [hlocals, he.thread]
    unfold exit
    by_cases ht : t' = t
    · simp [ht]
    · simp [ht, h.ended]

/-- A thread whose bindings are gone binds nothing; any other sees what it has bound. -/
theorem bindValue (h : m.Describes w among) (hlive : id ∈ m.live)
    (hun : among id → m.value? t id = none) (v : Payload) :
    (t ∉ m.ended ∧ (w.bindValue t id v).2 = .ok () ∧
        (m.bind t id v).Describes (w.bindValue t id v).1 among) ∨
      (t ∈ m.ended ∧ ∃ index, (w.bindValue t id v).2 = .error (.bindFailed index) ∧
        m.Describes (w.bindValue t id v).1 among) := by
  obtain ⟨l, hl⟩ := Option.isSome_iff_exists.1 ((h.live id).1 hlive)
  have hcell : among id → w.locals.cellOf? t id = none := by
    intro hid
    rw [← h.exact.toSound.get?_eq_none_iff, h.get?, hun hid]
  rcases World.bindValue_cases hl t v with
    ⟨hended, w', hb, hlocals⟩ | ⟨hrunning, w', hb, hbinds⟩
  · rw [hb]
    exact Or.inr ⟨(h.ended t).2 hended, _, rfl, h.of_locals_eq hlocals⟩
  · rw [hb]
    refine Or.inl ⟨fun ht => hrunning ((h.ended t).1 ht), rfl, ?_⟩
    refine ⟨h.exact.binds hl hcell hbinds, ?_, ?_, ?_⟩
    · intro t' id'
      rw [h.exact.get?_binds hl hbinds, h.get?]
      rfl
    · intro id'
      rw [hbinds.local?]
      apply (h.live id').trans
      by_cases hid : id' = id
      · simp [hid, hl]
      · simp [hid]
    · intro t'
      exact (h.ended t').trans (hbinds.ended t').symm

/-- A thread local takes the next number, which nothing has used. -/
theorem creates (h : m.Describes w among) {hd : SlotHandle}
    (hnew : w.locals.Creates among hd w'.locals) :
    w.locals.locals.length ∉ m.live ∧
      (∀ t, m.value? t w.locals.locals.length = none) ∧
      (m.create w.locals.locals.length).Describes w'
        fun id => id = w.locals.locals.length ∨ among id := by
  have hfresh : w.locals.local? w.locals.locals.length = none := by simp [Locals.local?]
  refine ⟨?_, ?_, hnew.exact, ?_, ?_, ?_⟩
  · rw [h.live, hfresh]
    simp
  · intro t
    rw [← h.get?]
    simp [Locals.get?, Locals.cellOf?_of_local?_none hfresh]
  · intro t id
    exact (hnew.get? t id).trans (h.get? t id)
  · intro id
    simp only [create, List.mem_cons, hnew.local?, h.live]
    by_cases hid : id = w.locals.locals.length
    · simp [hid]
    · simp [hid]
  · intro t
    exact (h.ended t).trans (by rw [hnew.thread])

/-- A thread local that is dropped before it is bound leaves nothing behind. -/
theorem of_drop_create (h : ((m.create id).drop id).Describes w among) (hnew : id ∉ m.live)
    (hnone : ∀ t, m.value? t id = none) : m.Describes w among := by
  refine ⟨h.exact, ?_, ?_, h.ended⟩
  · intro t id'
    rw [h.get?]
    simp only [drop, create]
    by_cases hid : id' = id
    · rw [if_pos hid, hid, hnone]
    · rw [if_neg hid]
  · intro id'
    rw [← h.live]
    simp only [drop, create, List.mem_filter, List.mem_cons, decide_eq_true_eq, ne_eq]
    by_cases hid : id' = id
    · subst hid
      simp [hnew]
    · simp [hid]

/-- Making a thread local fails for want of a slot, or on a thread whose bindings are
gone, and then all is as before. -/
theorem tryNewLocal (h : m.Describes w among) (t : ThreadId) (v : Payload) :
    (∃ id, (w.tryNewLocal t v).2 = .ok id ∧ t ∉ m.ended ∧ id ∉ m.live ∧
        (∀ t', m.value? t' id = none) ∧
        ((m.create id).bind t id v).Describes (w.tryNewLocal t v).1
          fun id' => id' = id ∨ among id') ∨
      (((w.tryNewLocal t v).2 = .error (.slotsExhausted w.locals.table.limit) ∨
          t ∈ m.ended ∧ ∃ index, (w.tryNewLocal t v).2 = .error (.bindFailed index)) ∧
        m.Describes (w.tryNewLocal t v).1 among) := by
  unfold World.tryNewLocal
  rcases w.takeSlot_cases with ⟨w₁, htake, hlocals⟩ | ⟨w₁, hd, htake, halloc⟩
  · rw [htake]
    refine Or.inr ⟨Or.inl rfl, ?_⟩
    exact h.of_locals_eq ((w₁.unmoved_discard v).locals.trans hlocals)
  · rw [htake]
    simp only
    obtain ⟨hid, hcreates⟩ := h.exact.creates halloc
    generalize w₁.locals.create hd = created at hid hcreates ⊢
    obtain ⟨s, id⟩ := created
    simp only at hid hcreates ⊢
    subst hid
    have hcreates : w.locals.Creates among hd (World.locals { w₁ with locals := s }) := hcreates
    obtain ⟨hnew, hnone, hmid⟩ := h.creates hcreates
    rcases hmid.bindValue (t := t) List.mem_cons_self (fun _ => hnone t) v with
      ⟨hrunning, hok, hdesc⟩ | ⟨hended, index, herr, hdesc⟩
    · generalize World.bindValue { w₁ with locals := s } t _ v = bound at hok hdesc ⊢
      obtain ⟨w₂, result⟩ := bound
      simp only at hok hdesc
      subst hok
      exact Or.inl ⟨_, rfl, hrunning, hnew, hnone, hdesc⟩
    · generalize World.bindValue { w₁ with locals := s } t _ v = bound at herr hdesc ⊢
      obtain ⟨w₂, result⟩ := bound
      simp only at herr hdesc
      subst herr
      refine Or.inr ⟨Or.inr ⟨hended, index, rfl⟩, ?_⟩
      exact ((hdesc.dropLocal t _).of_drop_create hnew hnone).mono fun _ => Or.inr

theorem takeSlot (h : m.Describes w among) : m.Describes w.takeSlot.1 among := by
  rcases w.takeSlot_cases with ⟨w₁, htake, hlocals⟩ | ⟨w₁, hd, htake, halloc⟩
  · rw [htake]
    exact h.of_locals_eq hlocals
  · rw [htake]
    have hx := h.exact.allocate halloc
    rcases w.locals.allocate_cases with herr | ⟨i, -, hok⟩
    · simp [herr] at halloc
    · rw [hok, Prod.mk.injEq] at halloc
      have hlocals := halloc.1
      simp only at hlocals ⊢
      exact ⟨hx, fun t id => hlocals ▸ h.get? t id, fun id => hlocals ▸ h.live id,
        fun t => hlocals ▸ h.ended t⟩

/-- Giving back a slot that no live thread local holds changes no value. -/
theorem giveSlot (h : m.Describes w among) {hd : SlotHandle}
    (hfree : ∀ {id l}, w.locals.local? id = some l → l.handle ≠ hd) :
    m.Describes (w.giveSlot hd).1 among := by
  have hlocals := w.locals_giveSlot hd
  have hrel := w.locals.release_eq hd
  refine ⟨hlocals ▸ h.exact.release hfree, ?_, ?_, ?_⟩
  · intro t id
    rw [hlocals, Locals.get?_release]
    exact h.get? t id
  · intro id
    rw [hlocals, hrel]
    apply (h.live id).trans
    split <;> rfl
  · intro t
    rw [hlocals, hrel]
    apply (h.ended t).trans
    split <;> rfl

/-- Sequence numbers may be used elsewhere. -/
theorem useSeq (h : m.Describes w among) :
    m.Describes { w with locals := { w.locals with nextSeq := w.locals.nextSeq + 1 } } among := by
  have hs := h.exact.toSound
  refine ⟨h.exact.congr ?_ (fun _ _ => rfl) (fun _ => rfl) h.exact.held, h.get?, h.live,
    h.ended⟩
  exact hs.congr (fun _ _ => rfl) (fun _ => rfl) (fun _ => rfl) rfl rfl (Nat.le_succ _)
    fun hseq => Nat.lt_succ_of_lt (hs.table_lt hseq)

end Describes

end BindingMap

end Hosted
