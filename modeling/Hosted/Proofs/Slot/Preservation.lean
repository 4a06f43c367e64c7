import Hosted.Proofs.Slot.Sound

/-!
# Operations on thread locals keep their invariant

One lemma for each operation: that it keeps `Sound`, and `Exact` where no slot is given
back under a live thread local, and what it does to the values that threads see and to those
that thread locals own. Making
a thread local takes three operations, and between them the new handle is `Reserved`:
the table has it, but no thread local and no binding does.
-/

namespace Hosted

/-! ## Marks in a table -/

namespace SlotTable

/-- The next allocation takes an index that is free, or the one beyond the end. -/
theorem freeIndex?_eq_some {t : SlotTable} {i : Nat} (h : t.freeIndex? = some i) :
    t.seqs[i]? = some 0 ∨ i = t.seqs.length := by
  unfold freeIndex? at h
  cases hf : t.seqs.findIdx? (· = 0) with
  | none =>
      rw [hf] at h
      by_cases hlt : t.seqs.length < t.limit
      · simp only [hlt, if_true, Option.some.injEq] at h
        exact Or.inr h.symm
      · simp [hlt] at h
  | some j =>
      rw [hf] at h
      obtain ⟨hj, hzero, -⟩ := List.findIdx?_eq_some_iff_getElem.1 hf
      by_cases hlt : j < t.limit
      · simp only [hlt, if_true, Option.some.injEq] at h
        subst h
        exact Or.inl (by simpa [List.getElem?_eq_getElem hj] using hzero)
      · by_cases hlen : t.seqs.length < t.limit
        · simp only [hlt, hlen, if_true, if_false, Option.some.injEq] at h
          exact Or.inr h.symm
        · simp [hlt, hlen] at h

theorem le_of_freeIndex? {t : SlotTable} {i : Nat} (h : t.freeIndex? = some i) :
    i ≤ t.seqs.length := by
  rcases freeIndex?_eq_some h with hzero | hlen
  · exact Nat.le_of_lt (List.getElem?_eq_some_iff.1 hzero).1
  · exact Nat.le_of_eq hlen

theorem getElem?_mark (t : SlotTable) (index seq i : Nat) (hle : index ≤ t.seqs.length) :
    (t.mark index seq).seqs[i]? = if i = index then some seq else t.seqs[i]? := by
  unfold mark
  by_cases hlt : index < t.seqs.length
  · rw [if_pos hlt, List.getElem?_set]
    by_cases hi : i = index
    · subst hi
      simp [hlt]
    · simp [hi, Ne.symm hi]
  · have heq : index = t.seqs.length := by omega
    subst heq
    rw [if_neg hlt, List.getElem?_append]
    by_cases hi : i < t.seqs.length
    · have hne : i ≠ t.seqs.length := by omega
      simp [hi, hne]
    · by_cases hie : i = t.seqs.length
      · simp [hie]
      · have hpos : i - t.seqs.length ≠ 0 := by omega
        have hnone : t.seqs[i]? = none := List.getElem?_eq_none (by omega)
        simp [hi, hie, hpos]

theorem mem_mark {t : SlotTable} {index seq x : Nat} (h : x ∈ (t.mark index seq).seqs) :
    x ∈ t.seqs ∨ x = seq := by
  unfold mark at h
  split at h
  · exact List.mem_or_eq_of_mem_set h
  · simpa using h

/-- A refused allocation names the limit. -/
theorem allocate_cases (t : SlotTable) (seq : Nat) :
    t.allocate seq = .error (.slotsExhausted t.limit) ∨
      ∃ i, t.freeIndex? = some i ∧ t.allocate seq = .ok (⟨i, seq⟩, t.mark i seq) := by
  unfold allocate
  cases hf : t.freeIndex? with
  | none => exact Or.inl rfl
  | some i => exact Or.inr ⟨i, rfl, rfl⟩

end SlotTable

namespace Locals

variable {α : Type} {s s' : Locals α} {t t' : ThreadId} {id id' : LocalId} {h : SlotHandle}
  {l : Local} {u v : α} {among : LocalId → Prop}

/-! ## Touching a thread -/

theorem Sound.touch (hs : s.Sound) (t : ThreadId) : (s.touch t).Sound :=
  hs.congr (s.at?_touch t) (fun _ => rfl) (fun _ => rfl) rfl rfl (Nat.le_refl _) hs.table_lt

theorem Exact.touch (hs : s.Exact among) (t : ThreadId) : (s.touch t).Exact among :=
  hs.congr (hs.toSound.touch t) (s.at?_touch t) (fun _ => rfl) hs.held

theorem get?_touch (s : Locals α) (t t' : ThreadId) (id : LocalId) :
    (s.touch t).get? t' id = s.get? t' id :=
  get?_congr (s.at?_touch t) (fun _ => rfl) (fun _ => rfl) t' id

/-! ## Raw slots -/

/-- The table marks the index of a handle with its number, and nothing else knows the
number. -/
structure Reserved (s : Locals α) (h : SlotHandle) : Prop where
  pos : 0 < h.seq
  lt : h.seq < s.nextSeq
  local_ne : ∀ {id l}, s.local? id = some l → l.handle.seq ≠ h.seq
  binding_ne : ∀ {t i b}, (s.thread t).at? i = some b → b.seq ≠ h.seq
  held : s.table.seqs[h.index]? = some h.seq

theorem allocate_cases (s : Locals α) :
    s.allocate = (s, .error (.slotsExhausted s.table.limit)) ∨
      ∃ i, s.table.freeIndex? = some i ∧
        s.allocate = ({ s with table := s.table.mark i s.nextSeq, nextSeq := s.nextSeq + 1 },
          .ok ⟨i, s.nextSeq⟩) := by
  unfold allocate
  rcases s.table.allocate_cases s.nextSeq with herr | ⟨i, hi, hok⟩
  · exact Or.inl (by rw [herr])
  · exact Or.inr ⟨i, hi, by rw [hok]⟩

theorem cells_allocate (ha : s.allocate = (s', .ok h)) : s'.cells = s.cells := by
  rcases s.allocate_cases with herr | ⟨i, -, hok⟩
  · simp [herr] at ha
  · rw [hok, Prod.mk.injEq] at ha
    rw [← ha.1]

theorem valuesOf_allocate (ha : s.allocate = (s', .ok h)) (id : LocalId) :
    s'.valuesOf id = s.valuesOf id := by
  rcases s.allocate_cases with herr | ⟨i, -, hok⟩
  · simp [herr] at ha
  · rw [hok, Prod.mk.injEq] at ha
    rw [← ha.1]
    rfl

theorem Sound.allocate (hs : s.Sound) (ha : s.allocate = (s', .ok h)) :
    s'.Sound ∧ s'.Reserved h := by
  rcases s.allocate_cases with herr | ⟨i, hi, hok⟩
  · simp [herr] at ha
  · rw [hok, Prod.mk.injEq, Except.ok.injEq] at ha
    obtain ⟨rfl, rfl⟩ := ha
    have hle : i ≤ s.table.seqs.length := SlotTable.le_of_freeIndex? hi
    refine ⟨hs.congr (fun _ _ => rfl) (fun _ => rfl) (fun _ => rfl) rfl rfl
      (Nat.le_succ _) ?_, ?_⟩
    · intro seq hseq
      rcases SlotTable.mem_mark hseq with hold | rfl
      · exact Nat.lt_succ_of_lt (hs.table_lt hold)
      · exact Nat.lt_succ_self _
    · exact {
        pos := hs.next_pos
        lt := Nat.lt_succ_self _
        local_ne := fun hl => Nat.ne_of_lt (hs.handle_lt hl)
        binding_ne := fun hb => Nat.ne_of_lt (hs.seq_lt hb)
        held := by simp [SlotTable.getElem?_mark _ _ _ _ hle] }

/-- A free index is not the index of a live thread local. -/
theorem Exact.allocate (hs : s.Exact among) (ha : s.allocate = (s', .ok h)) :
    s'.Exact among := by
  have hsound := (hs.toSound.allocate ha).1
  rcases s.allocate_cases with herr | ⟨i, hi, hok⟩
  · simp [herr] at ha
  · rw [hok, Prod.mk.injEq, Except.ok.injEq] at ha
    obtain ⟨rfl, rfl⟩ := ha
    refine hs.congr hsound (fun _ _ => rfl) (fun _ => rfl) ?_
    intro id l hl
    have hheld := hs.held hl
    have hpos := hs.handle_pos hl
    have hle : i ≤ s.table.seqs.length := by
      rcases SlotTable.freeIndex?_eq_some hi with hzero | hlen
      · exact Nat.le_of_lt (List.getElem?_eq_some_iff.1 hzero).1
      · exact Nat.le_of_eq hlen
    have hne : l.handle.index ≠ i := by
      rintro rfl
      rcases SlotTable.freeIndex?_eq_some hi with hzero | hlen
      · rw [hzero, Option.some.injEq] at hheld
        omega
      · have hlt := (List.getElem?_eq_some_iff.1 hheld).1
        omega
    simpa [SlotTable.getElem?_mark _ _ _ _ hle, hne] using hheld

theorem release_eq (s : Locals α) (h : SlotHandle) :
    s.release h =
      if s.table.isLive h then
        ({ s with table := { s.table with seqs := s.table.seqs.set h.index 0 } }, true)
      else (s, false) := by
  unfold release SlotTable.release
  by_cases hlive : s.table.isLive h <;> simp [hlive]

theorem Sound.release (hs : s.Sound) (h : SlotHandle) : (s.release h).1.Sound := by
  rw [release_eq]
  by_cases hlive : s.table.isLive h
  · simp only [hlive, if_true]
    refine hs.congr (fun _ _ => rfl) (fun _ => rfl) (fun _ => rfl) rfl rfl (Nat.le_refl _) ?_
    intro seq hseq
    rcases List.mem_or_eq_of_mem_set hseq with hold | rfl
    · exact hs.table_lt hold
    · exact hs.next_pos
  · simp only [hlive]
    exact hs

/-- Giving back a slot that no live thread local holds. -/
theorem Exact.release (hs : s.Exact among)
    (hfree : ∀ {id l}, s.local? id = some l → l.handle ≠ h) : (s.release h).1.Exact among := by
  have hsound := hs.toSound.release h
  rw [release_eq] at hsound ⊢
  by_cases hlive : s.table.isLive h
  · simp only [hlive, if_true] at hsound ⊢
    refine hs.congr hsound (fun _ _ => rfl) (fun _ => rfl) ?_
    intro id l hl
    have hheld := hs.held hl
    have hne : h.index ≠ l.handle.index := by
      intro hi
      have hseq : s.table.seqs[h.index]? = some h.seq := by
        simpa [SlotTable.isLive] using hlive
      rw [hi, hheld, Option.some.injEq] at hseq
      have hhandle : l.handle = h := by
        cases hh : l.handle
        cases h
        simp_all
      exact hfree hl hhandle
    simpa [List.getElem?_set, hne] using hheld
  · simp only [hlive] at hsound ⊢
    exact hs

theorem get?_release (s : Locals α) (h : SlotHandle) (t : ThreadId) (id : LocalId) :
    (s.release h).1.get? t id = s.get? t id := by
  rw [release_eq]
  split <;> rfl

theorem valuesOf_release (s : Locals α) (h : SlotHandle) (id : LocalId) :
    (s.release h).1.valuesOf id = s.valuesOf id := by
  rw [release_eq]
  split <;> rfl

/-! ## New thread locals -/

theorem local?_create_some {id : LocalId} {l : Local} (hl : (s.create h).1.local? id = some l) :
    (id = s.locals.length ∧ l = { handle := h }) ∨ s.local? id = some l := by
  rw [local?_create] at hl
  split at hl
  · next heq => exact Or.inl ⟨heq, (Option.some.inj hl).symm⟩
  · exact Or.inr hl

/-- A new thread local has nothing bound. -/
theorem CellsOwned.create (hs : s.CellsOwned) (h : SlotHandle) : (s.create h).1.CellsOwned := by
  have hold := @local?_create_some _ s h
  have hnew : ∀ {id l}, s.local? id = some l → (s.create h).1.local? id = some l := by
    intro id l hl
    rw [local?_create, if_neg (Nat.ne_of_lt (local?_lt hl)), hl]
  constructor
  case nodup =>
    intro id l hl
    rcases hold hl with ⟨-, rfl⟩ | hl
    · exact List.nodup_nil
    · exact hs.nodup hl
  case disjoint =>
    intro id id' l l' c hl hl' hc hc'
    rcases hold hl with ⟨-, rfl⟩ | hl
    · exact absurd hc List.not_mem_nil
    · rcases hold hl' with ⟨-, rfl⟩ | hl'
      · exact absurd hc' List.not_mem_nil
      · exact hs.disjoint hl hl' hc hc'
  case filled =>
    intro id l c hl hc
    rcases hold hl with ⟨-, rfl⟩ | hl
    · exact absurd hc List.not_mem_nil
    · exact hs.filled hl hc
  case owned =>
    intro c hc
    obtain ⟨id, l, hl, hmem⟩ := hs.owned hc
    exact ⟨id, l, hnew hl, hmem⟩

/-- A new thread local takes over a reserved handle. -/
theorem Sound.create (hs : s.Sound) (hr : s.Reserved h) : (s.create h).1.Sound := by
  have hold := @local?_create_some _ s h
  constructor
  case toCellsOwned => exact hs.toCellsOwned.create h
  case next_pos => exact hs.next_pos
  case table_lt => exact hs.table_lt
  case handle_pos =>
    intro id l hl
    rcases hold hl with ⟨-, rfl⟩ | hl
    · exact hr.pos
    · exact hs.handle_pos hl
  case handle_lt =>
    intro id l hl
    rcases hold hl with ⟨-, rfl⟩ | hl
    · exact hr.lt
    · exact hs.handle_lt hl
  case handle_inj =>
    intro id id' l l' hl hl' hseq
    rcases hold hl with ⟨hid, rfl⟩ | hl
    · rcases hold hl' with ⟨hid', -⟩ | hl'
      · exact hid.trans hid'.symm
      · exact absurd hseq.symm (hr.local_ne hl')
    · rcases hold hl' with ⟨-, rfl⟩ | hl'
      · exact absurd hseq (hr.local_ne hl)
      · exact hs.handle_inj hl hl' hseq
  case seq_lt => exact hs.seq_lt
  case cell_lt => exact hs.cell_lt
  case owner_lt =>
    intro t i b hb
    have hlen : (s.create h).1.locals.length = s.locals.length + 1 := by simp [Locals.create]
    exact hlen ▸ Nat.lt_succ_of_lt (hs.owner_lt hb)
  case owner_seq =>
    intro t i b id l hb hl
    rcases hold hl with ⟨rfl, rfl⟩ | hl
    · exact iff_of_false (hr.binding_ne hb) (Nat.ne_of_lt (hs.owner_lt hb))
    · exact hs.owner_seq hb hl
  case owner_cell =>
    intro t i b id l hb hl
    rcases hold hl with ⟨rfl, rfl⟩ | hl
    · exact iff_of_false List.not_mem_nil (Nat.ne_of_lt (hs.owner_lt hb))
    · exact hs.owner_cell hb hl
  case owner_index =>
    intro t i b l hb hl
    rcases hold hl with ⟨hid, -⟩ | hl
    · exact absurd hid (Nat.ne_of_lt (hs.owner_lt hb))
    · exact hs.owner_index hb hl
  case cell_inj => exact hs.cell_inj

theorem Exact.create (hs : s.Exact among) (hr : s.Reserved h) :
    (s.create h).1.Exact fun id => id = s.locals.length ∨ among id where
  toSound := hs.toSound.create hr
  held := by
    intro id l hl
    rw [local?_create] at hl
    split at hl
    · cases hl
      exact hr.held
    · exact hs.held hl
  cell_bound := by
    intro id l c hid hl hc
    rw [local?_create] at hl
    split at hl
    · cases hl
      exact absurd hc List.not_mem_nil
    · next hne => exact hs.cell_bound (hid.resolve_left hne) hl hc

theorem mem_valuesOf_create (hu : u ∈ (s.create h).1.valuesOf id) : u ∈ s.valuesOf id := by
  obtain ⟨l, c, hl, hc, hcell⟩ := mem_valuesOf.1 hu
  rcases local?_create_some hl with ⟨-, rfl⟩ | hl
  · exact absurd hc List.not_mem_nil
  · exact mem_valuesOf.2 ⟨l, c, hl, hc, hcell⟩

/-- Nobody sees anything through a new thread local. -/
theorem Reserved.get?_create (hr : s.Reserved h) (t : ThreadId) (id : LocalId) :
    (s.create h).1.get? t id = s.get? t id := by
  by_cases hid : id = s.locals.length
  · have hnone : s.local? id = none := by simp [local?, hid]
    have hnew : (s.create h).1.local? id = some { handle := h } := by
      rw [local?_create, if_pos hid]
    have hcell : (s.create h).1.cellOf? t id = none := by
      rw [Option.eq_none_iff_forall_not_mem]
      intro c hc
      obtain ⟨b, hb, hseq, -⟩ := (cellOf?_eq_some_iff hnew t c).1 hc
      exact hr.binding_ne hb hseq
    simp [get?, hcell, cellOf?_of_local?_none hnone]
  · have hlocal : (s.create h).1.local? id = s.local? id := by
      rw [local?_create, if_neg hid]
    unfold get? cellOf?
    rw [hlocal]
    rfl

/-- `s'` is `s` with a new thread local, for which a slot has been taken. -/
structure Creates (s : Locals α) (among : LocalId → Prop) (h : SlotHandle) (s' : Locals α) :
    Prop where
  exact : s'.Exact fun id => id = s.locals.length ∨ among id
  thread : ∀ t, s'.thread t = s.thread t
  local? : ∀ id, s'.local? id =
    if id = s.locals.length then some { handle := h } else s.local? id
  get? : ∀ t id, s'.get? t id = s.get? t id

theorem Exact.creates (hs : s.Exact among) (ha : s.allocate = (s', .ok h)) :
    (s'.create h).2 = s.locals.length ∧ s.Creates among h (s'.create h).1 := by
  have hx := hs.allocate ha
  have hr := (hs.toSound.allocate ha).2
  have hget := hr.get?_create
  have hlocal := s'.local?_create h
  have hx' := hx.create hr
  rcases s.allocate_cases with herr | ⟨i, -, hok⟩
  · simp [herr] at ha
  · rw [hok, Prod.mk.injEq] at ha
    obtain ⟨rfl, -⟩ := ha
    exact ⟨rfl, hx', fun _ => rfl, hlocal, hget⟩

/-! ## Binding a value -/

/-- `s'` is `s` after thread `t` has bound `v` through the thread local `id`. -/
structure Binds (s : Locals α) (t : ThreadId) (id : LocalId) (l : Local) (v : α)
    (s' : Locals α) : Prop where
  at? : ∀ t' i, (s'.thread t').at? i =
    if t' = t ∧ i = l.handle.index then some ⟨l.handle.seq, s.cells.length, id⟩
    else (s.thread t').at? i
  ended : ∀ t', s'.thread t' = .ended ↔ s.thread t' = .ended
  local? : ∀ id', s'.local? id' =
    if id' = id then some { l with cells := l.cells ++ [s.cells.length] } else s.local? id'
  cells : s'.cells = s.cells ++ [some v]
  table : s'.table = s.table
  nextSeq : s'.nextSeq = s.nextSeq
  locals_length : s'.locals.length = s.locals.length

/-- A value is bound unless the bindings of the thread are gone. -/
theorem bind_cases (hl : s.local? id = some l) (t : ThreadId) (v : α) :
    (s.thread t = .ended ∧ s.bind t id v = (s, .error (.bindFailed l.handle.index))) ∨
      (s.thread t ≠ .ended ∧ ∃ s', s.bind t id v = (s', .ok ()) ∧ s.Binds t id l v s') := by
  unfold Locals.bind
  rw [hl]
  simp only
  cases hb : (s.thread t).bind? l.handle.index ⟨l.handle.seq, s.cells.length, id⟩ with
  | none => exact Or.inl ⟨(Thread.bind?_eq_none_iff ..).1 hb, rfl⟩
  | some thread =>
      have hrunning : s.thread t ≠ .ended := by
        intro hended
        rw [hended] at hb
        simp [Thread.bind?] at hb
      refine Or.inr ⟨hrunning, _, rfl, ?_⟩
      have hframe := setCells_frame
        ({ s with cells := s.cells ++ [some v] }.setThread t thread) id
        (l.cells ++ [s.cells.length])
      constructor
      case at? =>
        intro t' i
        rw [thread_setCells, thread_setThread]
        by_cases ht : t' = t
        · subst ht
          rw [if_pos rfl, Thread.at?_bind? hb]
          simp only [true_and]
        · simp only [ht, false_and, if_false]
          rfl
      case ended =>
        intro t'
        rw [thread_setCells, thread_setThread]
        by_cases ht : t' = t
        · subst ht
          rw [if_pos rfl]
          exact iff_of_false (Thread.bind?_ne_ended hb) hrunning
        · rw [if_neg ht]
          rfl
      case local? =>
        intro id'
        rw [local?_setCells, local?_setThread]
        have hsame : ({ s with cells := s.cells ++ [some v] } : Locals α).local? id =
            some l := hl
        rw [hsame]
        rfl
      case cells => exact hframe.2.2.1
      case table => exact hframe.1
      case nextSeq => exact hframe.2.1
      case locals_length => exact hframe.2.2.2

section Binds

variable (hb : s.Binds t id l v s')

include hb

theorem Binds.cell? (c : CellId) :
    s'.cell? c = if c = s.cells.length then some v else s.cell? c := by
  unfold Locals.cell?
  rw [hb.cells]
  rcases Nat.lt_trichotomy c s.cells.length with hlt | heq | hgt
  · simp [List.getElem?_append_left hlt, Nat.ne_of_lt hlt]
  · simp [heq]
  · have hpos : c - s.cells.length ≠ 0 := Nat.sub_ne_zero_of_lt hgt
    simp [List.getElem?_append_right (Nat.le_of_lt hgt), Nat.ne_of_gt hgt,
      List.getElem?_eq_none (Nat.le_of_lt hgt), hpos]

theorem Binds.cells_length : s'.cells.length = s.cells.length + 1 := by
  rw [hb.cells, List.length_append, List.length_singleton]

theorem Binds.local?_some {id' : LocalId} {l' : Local} (hl' : s'.local? id' = some l') :
    (id' = id ∧ l' = { l with cells := l.cells ++ [s.cells.length] }) ∨
      (id' ≠ id ∧ s.local? id' = some l') := by
  rw [hb.local?] at hl'
  split at hl'
  · next heq => exact Or.inl ⟨heq, (Option.some.inj hl').symm⟩
  · next hne => exact Or.inr ⟨hne, hl'⟩

/-- The value is the only new one. -/
theorem Binds.mem_valuesOf (hs : s.CellsOwned) (hl : s.local? id = some l)
    (hu : u ∈ s'.valuesOf id') : u ∈ s.valuesOf id' ∨ id' = id ∧ u = v := by
  obtain ⟨l', c, hl', hc, hcell⟩ := Locals.mem_valuesOf.1 hu
  rw [hb.cell?] at hcell
  split at hcell
  · next hnew =>
      rcases hb.local?_some hl' with ⟨hid, -⟩ | ⟨-, hl'⟩
      · exact Or.inr ⟨hid, (Option.some.inj hcell).symm⟩
      · exact absurd hnew (Nat.ne_of_lt (hs.cell_lt hl' hc))
  · next hold =>
      refine Or.inl (Locals.mem_valuesOf.2 ?_)
      rcases hb.local?_some hl' with ⟨rfl, rfl⟩ | ⟨-, hl'⟩
      · rcases List.mem_append.1 hc with hc | hc
        · exact ⟨l, c, hl, hc, hcell⟩
        · exact absurd (List.mem_singleton.1 hc) hold
      · exact ⟨l', c, hl', hc, hcell⟩

theorem Binds.at?_some {t' : ThreadId} {i : Nat} {b : Binding}
    (hb' : (s'.thread t').at? i = some b) :
    (t' = t ∧ i = l.handle.index ∧ b = ⟨l.handle.seq, s.cells.length, id⟩) ∨
      (¬ (t' = t ∧ i = l.handle.index) ∧ (s.thread t').at? i = some b) := by
  rw [hb.at?] at hb'
  split at hb'
  · next h => exact Or.inl ⟨h.1, h.2, (Option.some.inj hb').symm⟩
  · next h => exact Or.inr ⟨h, hb'⟩

end Binds

/-- The new cell is no cell of any thread local. -/
theorem CellsOwned.binds (hs : s.CellsOwned) (hl : s.local? id = some l)
    (hb : s.Binds t id l v s') : s'.CellsOwned := by
  have hold : ∀ {id' l' c}, s.local? id' = some l' → c ∈ l'.cells → c ≠ s.cells.length :=
    fun hl' hc => Nat.ne_of_lt (hs.cell_lt hl' hc)
  constructor
  case nodup =>
    intro id' l' hl'
    rcases hb.local?_some hl' with ⟨-, rfl⟩ | ⟨-, hl'⟩
    · refine List.nodup_append.2 ⟨hs.nodup hl, List.pairwise_singleton _ _, ?_⟩
      intro c hc c' hc'
      rw [List.mem_singleton.1 hc']
      exact hold hl hc
    · exact hs.nodup hl'
  case disjoint =>
    intro id₁ id₂ l₁ l₂ c hl₁ hl₂ hc₁ hc₂
    rcases hb.local?_some hl₁ with ⟨rfl, rfl⟩ | ⟨hne₁, hl₁⟩
    · rcases hb.local?_some hl₂ with ⟨rfl, -⟩ | ⟨-, hl₂⟩
      · rfl
      · rcases List.mem_append.1 hc₁ with hc₁ | hc₁
        · exact hs.disjoint hl hl₂ hc₁ hc₂
        · exact absurd (List.mem_singleton.1 hc₁) (hold hl₂ hc₂)
    · rcases hb.local?_some hl₂ with ⟨rfl, rfl⟩ | ⟨-, hl₂⟩
      · rcases List.mem_append.1 hc₂ with hc₂ | hc₂
        · exact hs.disjoint hl₁ hl hc₁ hc₂
        · exact absurd (List.mem_singleton.1 hc₂) (hold hl₁ hc₁)
      · exact hs.disjoint hl₁ hl₂ hc₁ hc₂
  case filled =>
    intro id' l' c hl' hc
    rw [hb.cell?]
    split
    · rfl
    · next hne =>
        rcases hb.local?_some hl' with ⟨-, rfl⟩ | ⟨-, hl'⟩
        · rcases List.mem_append.1 hc with hc | hc
          · exact hs.filled hl hc
          · exact absurd (List.mem_singleton.1 hc) hne
        · exact hs.filled hl' hc
  case owned =>
    intro c hc
    rw [hb.cell?] at hc
    split at hc
    · next heq =>
        refine ⟨id, _, (hb.local? id).trans (if_pos rfl), ?_⟩
        exact List.mem_append_right _ (List.mem_singleton.2 heq)
    · obtain ⟨id', l', hl', hmem⟩ := hs.owned hc
      by_cases hid : id' = id
      · subst hid
        rw [hl, Option.some.injEq] at hl'
        subst hl'
        exact ⟨id', _, (hb.local? id').trans (if_pos rfl), List.mem_append_left _ hmem⟩
      · exact ⟨id', l', (hb.local? id').trans ((if_neg hid).trans hl'), hmem⟩

/-- No binding has the new cell. -/
theorem Sound.binds (hs : s.Sound) (hl : s.local? id = some l) (hb : s.Binds t id l v s') :
    s'.Sound := by
  have hold : ∀ {id' l' c}, s.local? id' = some l' → c ∈ l'.cells → c ≠ s.cells.length :=
    fun hl' hc => Nat.ne_of_lt (hs.toCellsOwned.cell_lt hl' hc)
  constructor
  case toCellsOwned => exact hs.toCellsOwned.binds hl hb
  case next_pos => exact hb.nextSeq ▸ hs.next_pos
  case table_lt =>
    intro seq hseq
    rw [hb.table] at hseq
    exact hb.nextSeq ▸ hs.table_lt hseq
  case handle_pos =>
    intro id' l' hl'
    rcases hb.local?_some hl' with ⟨-, rfl⟩ | ⟨-, hl'⟩
    · have hpos := hs.handle_pos hl
      exact hpos
    · exact hs.handle_pos hl'
  case handle_lt =>
    intro id' l' hl'
    rw [hb.nextSeq]
    rcases hb.local?_some hl' with ⟨-, rfl⟩ | ⟨-, hl'⟩
    · have hlt := hs.handle_lt hl
      exact hlt
    · exact hs.handle_lt hl'
  case handle_inj =>
    intro id₁ id₂ l₁ l₂ hl₁ hl₂ hseq
    rcases hb.local?_some hl₁ with ⟨rfl, rfl⟩ | ⟨-, hl₁⟩
    · rcases hb.local?_some hl₂ with ⟨rfl, -⟩ | ⟨-, hl₂⟩
      · rfl
      · exact hs.handle_inj hl hl₂ hseq
    · rcases hb.local?_some hl₂ with ⟨rfl, rfl⟩ | ⟨-, hl₂⟩
      · exact hs.handle_inj hl₁ hl hseq
      · exact hs.handle_inj hl₁ hl₂ hseq
  case seq_lt =>
    intro t' i b hb'
    rw [hb.nextSeq]
    rcases hb.at?_some hb' with ⟨-, -, rfl⟩ | ⟨-, hb'⟩
    · exact hs.handle_lt hl
    · exact hs.seq_lt hb'
  case cell_lt =>
    intro t' i b hb'
    rw [hb.cells_length]
    rcases hb.at?_some hb' with ⟨-, -, rfl⟩ | ⟨-, hb'⟩
    · exact Nat.lt_succ_self _
    · exact Nat.lt_succ_of_lt (hs.cell_lt hb')
  case owner_lt =>
    intro t' i b hb'
    rw [hb.locals_length]
    rcases hb.at?_some hb' with ⟨-, -, rfl⟩ | ⟨-, hb'⟩
    · exact local?_lt hl
    · exact hs.owner_lt hb'
  case owner_seq =>
    intro t' i b id' l' hb' hl'
    rcases hb.at?_some hb' with ⟨-, -, rfl⟩ | ⟨-, hb'⟩
    · rcases hb.local?_some hl' with ⟨rfl, rfl⟩ | ⟨-, hl'⟩
      · simp
      · constructor
        · exact fun hseq => hs.handle_inj hl hl' hseq
        · rintro rfl
          rw [hl, Option.some.injEq] at hl'
          rw [hl']
    · rcases hb.local?_some hl' with ⟨rfl, rfl⟩ | ⟨-, hl'⟩
      · have hseq := hs.owner_seq hb' hl
        exact hseq
      · exact hs.owner_seq hb' hl'
  case owner_cell =>
    intro t' i b id' l' hb' hl'
    rcases hb.at?_some hb' with ⟨-, -, rfl⟩ | ⟨-, hb'⟩
    · rcases hb.local?_some hl' with ⟨rfl, rfl⟩ | ⟨hne, hl'⟩
      · simp
      · exact iff_of_false (fun hc => hold hl' hc rfl) (Ne.symm hne)
    · have hne : b.cell ≠ s.cells.length := Nat.ne_of_lt (hs.cell_lt hb')
      rcases hb.local?_some hl' with ⟨rfl, rfl⟩ | ⟨-, hl'⟩
      · simpa [hne] using hs.owner_cell hb' hl
      · exact hs.owner_cell hb' hl'
  case owner_index =>
    intro t' i b l' hb' hl'
    rcases hb.at?_some hb' with ⟨-, rfl, rfl⟩ | ⟨-, hb'⟩
    · rcases hb.local?_some hl' with ⟨-, rfl⟩ | ⟨hne, -⟩
      · rfl
      · exact absurd rfl hne
    · rcases hb.local?_some hl' with ⟨rfl, rfl⟩ | ⟨-, hl'⟩
      · have hindex := hs.owner_index hb' hl
        exact hindex
      · exact hs.owner_index hb' hl'
  case cell_inj =>
    intro t₁ t₂ i₁ i₂ b₁ b₂ hb₁ hb₂ hcell
    rcases hb.at?_some hb₁ with ⟨rfl, rfl, rfl⟩ | ⟨-, hb₁⟩
    · rcases hb.at?_some hb₂ with ⟨rfl, rfl, -⟩ | ⟨-, hb₂⟩
      · exact ⟨rfl, rfl⟩
      · exact absurd hcell.symm (Nat.ne_of_lt (hs.cell_lt hb₂))
    · rcases hb.at?_some hb₂ with ⟨rfl, rfl, rfl⟩ | ⟨-, hb₂⟩
      · exact absurd hcell (Nat.ne_of_lt (hs.cell_lt hb₁))
      · exact hs.cell_inj hb₁ hb₂ hcell

/-- A thread that sees nothing through a thread local loses no other value by binding
one: what it has at the index was left behind by a dropped thread local. -/
theorem Exact.binds (hs : s.Exact among) (hl : s.local? id = some l)
    (hun : among id → s.cellOf? t id = none) (hb : s.Binds t id l v s') : s'.Exact among where
  toSound := hs.toSound.binds hl hb
  held := by
    intro id' l' hl'
    rw [hb.table]
    rcases hb.local?_some hl' with ⟨-, rfl⟩ | ⟨-, hl'⟩
    · have hheld := hs.held hl
      exact hheld
    · exact hs.held hl'
  cell_bound := by
    have hkeep : ∀ {id' l' c}, among id' → s.local? id' = some l' → c ∈ l'.cells →
        ∃ t' b, (s'.thread t').at? l'.handle.index = some b ∧ b.cell = c ∧ b.owner = id' := by
      intro id' l' c hamong hl' hc
      obtain ⟨t', b, hb', hbc, howner⟩ := hs.cell_bound hamong hl' hc
      have hne : ¬ (t' = t ∧ l'.handle.index = l.handle.index) := by
        rintro ⟨rfl, hi⟩
        have hid := hs.index_inj hl' hl hi
        subst hid
        rw [hl, Option.some.injEq] at hl'
        subst hl'
        have hsome := (hs.cellOf?_eq_some_iff' hl).2 ⟨b, hb', howner, hbc⟩
        rw [hun hamong] at hsome
        cases hsome
      exact ⟨t', b, (hb.at? _ _).trans ((if_neg hne).trans hb'), hbc, howner⟩
    intro id' l' c hamong hl' hc
    rcases hb.local?_some hl' with ⟨rfl, rfl⟩ | ⟨-, hl'⟩
    · rcases List.mem_append.1 hc with hc | hc
      · have hold := hkeep hamong hl hc
        exact hold
      · refine ⟨t, ⟨l.handle.seq, s.cells.length, id'⟩, ?_, (List.mem_singleton.1 hc).symm, rfl⟩
        exact (hb.at? _ _).trans (if_pos ⟨rfl, rfl⟩)
    · exact hkeep hamong hl' hc

/-- The thread sees the value it has bound; what others see, and what it sees through
other thread locals, is as before. -/
theorem Exact.get?_binds (hs : s.Exact among) (hl : s.local? id = some l)
    (hb : s.Binds t id l v s') (t' : ThreadId) (id' : LocalId) :
    s'.get? t' id' = if t' = t ∧ id' = id then some v else s.get? t' id' := by
  have hs' := hs.toSound.binds hl hb
  by_cases hid : id' = id
  · subst hid
    have hl' : s'.local? id' = some { l with cells := l.cells ++ [s.cells.length] } :=
      (hb.local? id').trans (if_pos rfl)
    by_cases ht : t' = t
    · subst ht
      have hcell : s'.cellOf? t' id' = some s.cells.length :=
        (hs'.cellOf?_eq_some_iff' hl').2
          ⟨_, (hb.at? _ _).trans (if_pos ⟨rfl, rfl⟩), rfl, rfl⟩
      simp [get?, hcell, hb.cell?]
    · have hcell : s'.cellOf? t' id' = s.cellOf? t' id' := by
        unfold cellOf? Thread.binding?
        simp only [hl, hl', hb.at?, ht, false_and, if_false]
      have hthis : ¬ (t' = t ∧ id' = id') := fun h => ht h.1
      rw [if_neg hthis]
      unfold get?
      rw [hcell]
      cases hc : s.cellOf? t' id' with
      | none => rfl
      | some c =>
          have hne := Nat.ne_of_lt
            (hs.toCellsOwned.cell_lt hl (hs.mem_cells_of_cellOf? hl hc))
          simp [hb.cell?, hne]
  · have hthis : ¬ (t' = t ∧ id' = id) := fun h => hid h.2
    have hlocal : s'.local? id' = s.local? id' := (hb.local? id').trans (if_neg hid)
    rw [if_neg hthis]
    cases hl' : s.local? id' with
    | none =>
        rw [hl'] at hlocal
        simp [get?, cellOf?_of_local?_none hl', cellOf?_of_local?_none hlocal]
    | some l' =>
        rw [hl'] at hlocal
        have hindex : l'.handle.index ≠ l.handle.index := fun hi => hid (hs.index_inj hl' hl hi)
        have hcell : s'.cellOf? t' id' = s.cellOf? t' id' := by
          unfold cellOf? Thread.binding?
          simp only [hl', hlocal, hb.at?, hindex, and_false, if_false]
        unfold get?
        rw [hcell]
        cases hc : s.cellOf? t' id' with
        | none => rfl
        | some c =>
            have hne := Nat.ne_of_lt
              (hs.toCellsOwned.cell_lt hl' (hs.mem_cells_of_cellOf? hl' hc))
            simp [hb.cell?, hne]

/-! ## Changing values in place -/

theorem Sound.nodup_cellsOf (hs : s.Sound) (id : LocalId) : (s.cellsOf id).Nodup := by
  cases hl : s.local? id with
  | none => simp [cellsOf_of_local?_none hl]
  | some l => simpa [cellsOf_of_local? hl] using hs.nodup hl

theorem isSome_cell?_modifyAll (hs : s.Sound) (id : LocalId) (f : Nat → α → α) (c : CellId) :
    ((s.modifyAll id f).cell? c).isSome = (s.cell? c).isSome := by
  rw [cell?_modifyAll s id f (hs.nodup_cellsOf id)]
  split
  · rw [Option.isSome_map]
  · rfl

theorem Sound.modifyAll (hs : s.Sound) (id : LocalId) (f : Nat → α → α) :
    (s.modifyAll id f).Sound :=
  hs.congr (fun _ _ => rfl) (fun _ => rfl) (isSome_cell?_modifyAll hs id f) rfl
    (length_foldl_visit f _ s.cells) (Nat.le_refl _) hs.table_lt

theorem Exact.modifyAll (hs : s.Exact among) (id : LocalId) (f : Nat → α → α) :
    (s.modifyAll id f).Exact among :=
  hs.congr (hs.toSound.modifyAll id f) (fun _ _ => rfl) (fun _ => rfl) hs.held

/-- A thread's value is changed by the visit that its cell's place has. -/
theorem Sound.get?_modifyAll (hs : s.Sound) (id : LocalId) (f : Nat → α → α) {c : CellId}
    (hc : s.cellOf? t id = some c) :
    (s.modifyAll id f).get? t id = (s.get? t id).map (f ((s.cellsOf id).idxOf c)) := by
  have hmem : c ∈ s.cellsOf id := by
    cases hl : s.local? id with
    | none => simp [cellOf?_of_local?_none hl] at hc
    | some l =>
        rw [cellsOf_of_local? hl]
        exact hs.mem_cells_of_cellOf? hl hc
  have hcell : (s.modifyAll id f).cellOf? t id = some c := hc
  simp only [get?, hc, hcell, Option.bind_some]
  rw [cell?_modifyAll s id f (hs.nodup_cellsOf id), if_pos hmem]

theorem Sound.get?_modifyAll_ne (hs : s.Sound) (f : Nat → α → α) (hne : id' ≠ id)
    (t : ThreadId) : (s.modifyAll id f).get? t id' = s.get? t id' := by
  have hcell : (s.modifyAll id f).cellOf? t id' = s.cellOf? t id' := rfl
  unfold get?
  rw [hcell]
  cases hc : s.cellOf? t id' with
  | none => rfl
  | some c =>
      have hout : c ∉ s.cellsOf id := by
        intro hmem
        cases hl' : s.local? id' with
        | none => simp [cellOf?_of_local?_none hl'] at hc
        | some l' =>
            cases hl : s.local? id with
            | none => simp [cellsOf_of_local?_none hl] at hmem
            | some l =>
                rw [cellsOf_of_local? hl] at hmem
                exact hne (hs.disjoint hl' hl (hs.mem_cells_of_cellOf? hl' hc) hmem)
      simp only [Option.bind_some]
      rw [cell?_modifyAll s id f (hs.nodup_cellsOf id), if_neg hout]

/-- What is owned afterwards was owned before or is a changed value. -/
theorem Sound.mem_valuesOf_modifyAll (hs : s.Sound) {f : Nat → α → α}
    (hu : u ∈ (s.modifyAll id f).valuesOf id') :
    id' ≠ id ∧ u ∈ s.valuesOf id' ∨ id' = id ∧ ∃ i, ∃ v ∈ s.valuesOf id, f i v = u := by
  obtain ⟨l, c, hl, hc, hcell⟩ := mem_valuesOf.1 hu
  replace hl : s.local? id' = some l := hl
  rw [cell?_modifyAll s id f (hs.nodup_cellsOf id)] at hcell
  by_cases hid : id' = id
  · subst hid
    rw [if_pos (mem_cellsOf.2 ⟨l, hl, hc⟩)] at hcell
    obtain ⟨v, hv, hfv⟩ := Option.map_eq_some_iff.1 hcell
    exact Or.inr ⟨rfl, _, v, mem_valuesOf.2 ⟨l, c, hl, hc, hv⟩, hfv⟩
  · have hout : c ∉ s.cellsOf id := by
      intro hmem
      obtain ⟨l', hl', hc'⟩ := mem_cellsOf.1 hmem
      exact hid (hs.disjoint hl hl' hc hc')
    rw [if_neg hout] at hcell
    exact Or.inl ⟨hid, mem_valuesOf.2 ⟨l, c, hl, hc, hcell⟩⟩

/-- A value that a thread sees is replaced. -/
theorem Sound.mem_valuesOf_setCell (hs : s.Sound) {c : CellId} (hc : s.cellOf? t id = some c)
    (hu : u ∈ ({ s with cells := s.cells.set c (some v) } : Locals α).valuesOf id') :
    u ∈ s.valuesOf id' ∨ id' = id ∧ u = v := by
  obtain ⟨l', c', hl', hc', hcell⟩ := mem_valuesOf.1 hu
  replace hl' : s.local? id' = some l' := hl'
  by_cases heq : c' = c
  · subst heq
    have hv : u = v := by
      by_cases hlt : c' < s.cells.length
      · simpa [cell?, hlt, eq_comm] using hcell
      · simp [cell?, hlt] at hcell
    cases hl : s.local? id with
    | none => simp [cellOf?_of_local?_none hl] at hc
    | some l => exact Or.inr ⟨hs.disjoint hl' hl hc' (hs.mem_cells_of_cellOf? hl hc), hv⟩
  · have hold : s.cell? c' = some u := by simpa [cell?, Ne.symm heq] using hcell
    exact Or.inl (mem_valuesOf.2 ⟨l', c', hl', hc', hold⟩)

/-! ## Taking a thread local away -/

/-- `s'` is `s` after thread `t` has dropped the thread local `id`. -/
structure Detaches (s : Locals α) (t : ThreadId) (id : LocalId) (l : Local)
    (s' : Locals α) : Prop where
  at? : ∀ t' i, (s'.thread t').at? i =
    if t' = t ∧ i = l.handle.index ∧ ((s.thread t).binding? l.handle).isSome then none
    else (s.thread t').at? i
  ended : ∀ t', s'.thread t' = .ended ↔ s.thread t' = .ended
  local? : ∀ id', s'.local? id' = if id' = id then none else s.local? id'
  cells : s'.cells = (l.cells.foldl freeCell s).cells
  table : s'.table = s.table
  nextSeq : s'.nextSeq = s.nextSeq
  locals_length : s'.locals.length = s.locals.length

theorem detach_none (hl : s.local? id = none) (t : ThreadId) : s.detach t id = (s, none) := by
  simp [detach, hl]

theorem detach_some (hl : s.local? id = some l) (t : ThreadId) :
    ∃ s', s.detach t id = (s', some (s.valuesOf id, l.handle)) ∧ s.Detaches t id l s' := by
  unfold detach
  rw [hl]
  refine ⟨_, rfl, ?_⟩
  rw [foldl_freeCell_eq]
  constructor
  case at? =>
    intro t' i
    change (((s.setThread t ((s.thread t).touched.clear l.handle)).thread t').at? i) = _
    rw [thread_setThread]
    by_cases ht : t' = t
    · subst ht
      rw [if_pos rfl, Thread.at?_clear, Thread.at?_touched]
      simp [Thread.binding?]
    · simp [ht]
  case ended =>
    intro t'
    change (s.setThread t ((s.thread t).touched.clear l.handle)).thread t' = .ended ↔ _
    rw [thread_setThread]
    by_cases ht : t' = t
    · subst ht
      rw [if_pos rfl, Thread.clear_eq_ended_iff, Thread.touched_eq_ended_iff]
    · rw [if_neg ht]
  case local? =>
    intro id'
    have hlt := local?_lt hl
    simp only [Locals.local?, setThread, List.getElem?_set]
    by_cases hid : id' = id
    · subst hid
      simp [hlt]
    · simp [hid, Ne.symm hid]
  case cells => exact cells_foldl_freeCell l.cells rfl
  case table => rfl
  case nextSeq => rfl
  case locals_length => simp [setThread]

section Detaches

variable (hd : s.Detaches t id l s')

include hd

theorem Detaches.cell? (c : CellId) :
    s'.cell? c = if c ∈ l.cells then none else s.cell? c := by
  unfold Locals.cell?
  rw [hd.cells]
  exact cell?_foldl_freeCell s l.cells c

theorem Detaches.cells_length : s'.cells.length = s.cells.length := by
  rw [hd.cells, length_cells_foldl_freeCell]

theorem Detaches.local?_some {id' : LocalId} {l' : Local} (hl' : s'.local? id' = some l') :
    id' ≠ id ∧ s.local? id' = some l' := by
  rw [hd.local?] at hl'
  split at hl'
  · cases hl'
  · next hne => exact ⟨hne, hl'⟩

theorem Detaches.at?_some {t' : ThreadId} {i : Nat} {b : Binding}
    (hb : (s'.thread t').at? i = some b) : (s.thread t').at? i = some b := by
  rw [hd.at?] at hb
  split at hb
  · cases hb
  · exact hb

theorem Detaches.mem_valuesOf (hu : u ∈ s'.valuesOf id') : u ∈ s.valuesOf id' := by
  obtain ⟨l', c, hl', hc, hcell⟩ := Locals.mem_valuesOf.1 hu
  rw [hd.cell?] at hcell
  split at hcell
  · cases hcell
  · exact Locals.mem_valuesOf.2 ⟨l', c, (hd.local?_some hl').2, hc, hcell⟩

/-- A binding that goes is one for the thread local. -/
theorem Detaches.at?_of_owner_ne (hs : s.Sound) (hl : s.local? id = some l) {t' : ThreadId}
    {i : Nat} {b : Binding} (hb : (s.thread t').at? i = some b) (hne : b.owner ≠ id) :
    (s'.thread t').at? i = some b := by
  rw [hd.at?, if_neg]
  · exact hb
  · rintro ⟨rfl, rfl, hsome⟩
    obtain ⟨b', hb'⟩ := Option.isSome_iff_exists.1 hsome
    obtain ⟨hat, hseq⟩ := (Thread.binding?_eq_some_iff ..).1 hb'
    rw [hb, Option.some.injEq] at hat
    subst hat
    exact hne ((hs.owner_seq hb hl).1 hseq)

end Detaches

theorem CellsOwned.detaches (hs : s.CellsOwned) (hl : s.local? id = some l)
    (hd : s.Detaches t id l s') : s'.CellsOwned := by
  constructor
  case nodup => exact fun hl' => hs.nodup (hd.local?_some hl').2
  case disjoint =>
    exact fun hl₁ hl₂ => hs.disjoint (hd.local?_some hl₁).2 (hd.local?_some hl₂).2
  case filled =>
    intro id' l' c hl' hc
    obtain ⟨hne, hl'⟩ := hd.local?_some hl'
    have hout : c ∉ l.cells := fun hmem => hne (hs.disjoint hl' hl hc hmem)
    rw [hd.cell?, if_neg hout]
    exact hs.filled hl' hc
  case owned =>
    intro c hc
    rw [hd.cell?] at hc
    split at hc
    · cases hc
    · next hout =>
        obtain ⟨id', l', hl', hmem⟩ := hs.owned hc
        have hne : id' ≠ id := by
          rintro rfl
          rw [hl, Option.some.injEq] at hl'
          exact hout (hl' ▸ hmem)
        exact ⟨id', l', (hd.local? id').trans ((if_neg hne).trans hl'), hmem⟩

theorem Sound.detaches (hs : s.Sound) (hl : s.local? id = some l)
    (hd : s.Detaches t id l s') : s'.Sound := by
  constructor
  case toCellsOwned => exact hs.toCellsOwned.detaches hl hd
  case next_pos => exact hd.nextSeq ▸ hs.next_pos
  case table_lt =>
    intro seq hseq
    rw [hd.table] at hseq
    exact hd.nextSeq ▸ hs.table_lt hseq
  case handle_pos => exact fun hl' => hs.handle_pos (hd.local?_some hl').2
  case handle_lt => exact fun hl' => hd.nextSeq ▸ hs.handle_lt (hd.local?_some hl').2
  case handle_inj =>
    exact fun hl₁ hl₂ => hs.handle_inj (hd.local?_some hl₁).2 (hd.local?_some hl₂).2
  case seq_lt => exact fun hb => hd.nextSeq ▸ hs.seq_lt (hd.at?_some hb)
  case cell_lt => exact fun hb => hd.cells_length ▸ hs.cell_lt (hd.at?_some hb)
  case owner_lt => exact fun hb => hd.locals_length ▸ hs.owner_lt (hd.at?_some hb)
  case owner_seq => exact fun hb hl' => hs.owner_seq (hd.at?_some hb) (hd.local?_some hl').2
  case owner_cell => exact fun hb hl' => hs.owner_cell (hd.at?_some hb) (hd.local?_some hl').2
  case owner_index =>
    exact fun hb hl' => hs.owner_index (hd.at?_some hb) (hd.local?_some hl').2
  case cell_inj => exact fun hb hb' => hs.cell_inj (hd.at?_some hb) (hd.at?_some hb')

theorem Exact.detaches (hs : s.Exact among) (hl : s.local? id = some l)
    (hd : s.Detaches t id l s') : s'.Exact among where
  toSound := hs.toSound.detaches hl hd
  held := by
    intro id' l' hl'
    rw [hd.table]
    exact hs.held (hd.local?_some hl').2
  cell_bound := by
    intro id' l' c hamong hl' hc
    obtain ⟨hne, hl'⟩ := hd.local?_some hl'
    obtain ⟨t', b, hb, hbc, howner⟩ := hs.cell_bound hamong hl' hc
    exact ⟨t', b, hd.at?_of_owner_ne hs.toSound hl hb (howner.symm ▸ hne), hbc, howner⟩

/-- The values bound through the thread local are gone, all others are still seen. -/
theorem Sound.get?_detaches (hs : s.Sound) (hl : s.local? id = some l)
    (hd : s.Detaches t id l s') (t' : ThreadId) (id' : LocalId) :
    s'.get? t' id' = if id' = id then none else s.get? t' id' := by
  by_cases hid : id' = id
  · have hnone : s'.local? id' = none := (hd.local? id').trans (if_pos hid)
    rw [if_pos hid]
    simp [get?, cellOf?_of_local?_none hnone]
  · have hlocal : s'.local? id' = s.local? id' := (hd.local? id').trans (if_neg hid)
    rw [if_neg hid]
    cases hl' : s.local? id' with
    | none =>
        rw [hl'] at hlocal
        simp [get?, cellOf?_of_local?_none hl', cellOf?_of_local?_none hlocal]
    | some l' =>
        rw [hl'] at hlocal
        have hs' := hs.detaches hl hd
        have hcell : s'.cellOf? t' id' = s.cellOf? t' id' := by
          ext c
          rw [hs'.cellOf?_eq_some_iff' hlocal, hs.cellOf?_eq_some_iff' hl']
          constructor
          · rintro ⟨b, hb, hrest⟩
            exact ⟨b, hd.at?_some hb, hrest⟩
          · rintro ⟨b, hb, howner, hbc⟩
            exact ⟨b, hd.at?_of_owner_ne hs hl hb (howner.symm ▸ hid), howner, hbc⟩
        unfold get?
        rw [hcell]
        cases hc : s.cellOf? t' id' with
        | none => rfl
        | some c =>
            have hout : c ∉ l.cells := fun hmem =>
              hid (hs.disjoint hl' hl (hs.mem_cells_of_cellOf? hl' hc) hmem)
            simp [hd.cell?, hout]

end Locals

end Hosted
