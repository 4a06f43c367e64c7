import Hosted.Proofs.Slot.Lookup

/-!
# The invariant of thread locals

`Sound` relates the bindings that threads keep, the thread locals that own values and
the cells of the values. It holds whatever handles are given back to the slot table.
A binding left behind by a dropped thread local stays where it is, and is told apart by
its sequence number: the number of a binding is that of a live thread local exactly if
that thread local owns the binding's cell.

`Exact` adds what holds as long as no slot is given back under a live thread local: the
table still marks the slot with its number, and every value is one that some thread
sees. The last is asked of some thread locals only, and of all if nothing else is said: a
thread that binds once more where it has bound already leaves its first value behind.
-/

namespace Hosted

namespace Locals

variable {α : Type}

/-- The filled cells are those that live thread locals own, each one of them once. -/
structure CellsOwned (s : Locals α) : Prop where
  nodup : ∀ {id l}, s.local? id = some l → l.cells.Nodup
  disjoint : ∀ {id id' l l' c}, s.local? id = some l → s.local? id' = some l' →
    c ∈ l.cells → c ∈ l'.cells → id = id'
  filled : ∀ {id l c}, s.local? id = some l → c ∈ l.cells → (s.cell? c).isSome
  owned : ∀ {c}, (s.cell? c).isSome → ∃ id l, s.local? id = some l ∧ c ∈ l.cells

/-- The bindings of all threads agree with the live thread locals. -/
structure Sound (s : Locals α) : Prop extends CellsOwned s where
  next_pos : 0 < s.nextSeq
  table_lt : ∀ {seq}, seq ∈ s.table.seqs → seq < s.nextSeq
  handle_pos : ∀ {id l}, s.local? id = some l → 0 < l.handle.seq
  handle_lt : ∀ {id l}, s.local? id = some l → l.handle.seq < s.nextSeq
  handle_inj : ∀ {id id' l l'}, s.local? id = some l → s.local? id' = some l' →
    l.handle.seq = l'.handle.seq → id = id'
  seq_lt : ∀ {t i b}, (s.thread t).at? i = some b → b.seq < s.nextSeq
  cell_lt : ∀ {t i b}, (s.thread t).at? i = some b → b.cell < s.cells.length
  owner_lt : ∀ {t i b}, (s.thread t).at? i = some b → b.owner < s.locals.length
  owner_seq : ∀ {t i b id l}, (s.thread t).at? i = some b → s.local? id = some l →
    (b.seq = l.handle.seq ↔ b.owner = id)
  owner_cell : ∀ {t i b id l}, (s.thread t).at? i = some b → s.local? id = some l →
    (b.cell ∈ l.cells ↔ b.owner = id)
  owner_index : ∀ {t i b l}, (s.thread t).at? i = some b → s.local? b.owner = some l →
    i = l.handle.index
  cell_inj : ∀ {t t' i i' b b'}, (s.thread t).at? i = some b →
    (s.thread t').at? i' = some b' → b.cell = b'.cell → t = t' ∧ i = i'

/-- Each live thread local holds its slot, and each value of one `among` those given is
bound. -/
structure Exact (s : Locals α) (among : LocalId → Prop := fun _ => True) : Prop
    extends Sound s where
  held : ∀ {id l}, s.local? id = some l →
    s.table.seqs[l.handle.index]? = some l.handle.seq
  cell_bound : ∀ {id l c}, among id → s.local? id = some l → c ∈ l.cells →
    ∃ t b, (s.thread t).at? l.handle.index = some b ∧ b.cell = c ∧ b.owner = id

/-! ## What the invariant says of the views -/

section Views

variable {s : Locals α} {among : LocalId → Prop} {t t' : ThreadId} {id id' : LocalId}
  {l l' : Local} {c : CellId} {v : α}

theorem CellsOwned.cell_lt (h : s.CellsOwned) (hl : s.local? id = some l)
    (hc : c ∈ l.cells) : c < s.cells.length := by
  have hfilled := h.filled hl hc
  rcases Nat.lt_or_ge c s.cells.length with hlt | hge
  · exact hlt
  · simp [cell?, List.getElem?_eq_none hge] at hfilled

/-- A thread sees a cell through a live thread local if it has a binding for it. -/
theorem Sound.cellOf?_eq_some_iff' (h : s.Sound) (hl : s.local? id = some l) :
    s.cellOf? t id = some c ↔
      ∃ b, (s.thread t).at? l.handle.index = some b ∧ b.owner = id ∧ b.cell = c := by
  rw [cellOf?_eq_some_iff hl]
  constructor
  · rintro ⟨b, hb, hseq, hc⟩
    exact ⟨b, hb, (h.owner_seq hb hl).1 hseq, hc⟩
  · rintro ⟨b, hb, howner, hc⟩
    exact ⟨b, hb, (h.owner_seq hb hl).2 howner, hc⟩

/-- What a thread sees through a thread local is a cell of that thread local. -/
theorem Sound.mem_cells_of_cellOf? (h : s.Sound) (hl : s.local? id = some l)
    (hc : s.cellOf? t id = some c) : c ∈ l.cells := by
  obtain ⟨b, hb, howner, rfl⟩ := (h.cellOf?_eq_some_iff' hl).1 hc
  exact (h.owner_cell hb hl).2 howner

theorem Sound.filled_of_cellOf? (h : s.Sound) (hc : s.cellOf? t id = some c) :
    (s.cell? c).isSome := by
  cases hl : s.local? id with
  | none => simp [cellOf?_of_local?_none hl] at hc
  | some l => exact h.filled hl (h.mem_cells_of_cellOf? hl hc)

/-- No two threads see one cell, and no thread sees it through two thread locals. -/
theorem Sound.cellOf?_inj (h : s.Sound) (hc : s.cellOf? t id = some c)
    (hc' : s.cellOf? t' id' = some c) : t = t' ∧ id = id' := by
  cases hl : s.local? id with
  | none => simp [cellOf?_of_local?_none hl] at hc
  | some l =>
      cases hl' : s.local? id' with
      | none => simp [cellOf?_of_local?_none hl'] at hc'
      | some l' =>
          have hid := h.disjoint hl hl' (h.mem_cells_of_cellOf? hl hc)
            (h.mem_cells_of_cellOf? hl' hc')
          obtain ⟨b, hb, -, hbc⟩ := (h.cellOf?_eq_some_iff' hl).1 hc
          obtain ⟨b', hb', -, hbc'⟩ := (h.cellOf?_eq_some_iff' hl').1 hc'
          exact ⟨(h.cell_inj hb hb' (hbc.trans hbc'.symm)).1, hid⟩

theorem Sound.get?_eq_none_iff (h : s.Sound) :
    s.get? t id = none ↔ s.cellOf? t id = none := by
  unfold get?
  cases hc : s.cellOf? t id with
  | none => simp
  | some c =>
      have hsome := h.filled_of_cellOf? hc
      simp only [Option.bind_some, reduceCtorEq, iff_false]
      intro hnone
      simp [hnone] at hsome

theorem Sound.isBound_eq (h : s.Sound) (t : ThreadId) (id : LocalId) :
    s.isBound t id = (s.get? t id).isSome := by
  unfold isBound
  cases hg : s.get? t id with
  | none => simp [h.get?_eq_none_iff.1 hg]
  | some v =>
      cases hc : s.cellOf? t id with
      | none => simp [get?, hc] at hg
      | some c => simp

/-- What a thread sees is a value of the thread local. -/
theorem Sound.mem_valuesOf_of_get? (h : s.Sound) (hv : s.get? t id = some v) :
    v ∈ s.valuesOf id := by
  obtain ⟨c, hc, hcell⟩ := Option.bind_eq_some_iff.1 hv
  cases hl : s.local? id with
  | none => simp [cellOf?_of_local?_none hl] at hc
  | some l => exact mem_valuesOf.2 ⟨l, c, hl, h.mem_cells_of_cellOf? hl hc, hcell⟩

/-- Every value of a live thread local is seen by exactly one thread. -/
theorem Exact.exists_cellOf? (h : s.Exact among) (hid : among id) (hl : s.local? id = some l)
    (hc : c ∈ l.cells) : ∃ t, s.cellOf? t id = some c := by
  obtain ⟨t, b, hb, hbc, howner⟩ := h.cell_bound hid hl hc
  exact ⟨t, (h.cellOf?_eq_some_iff' hl).2 ⟨b, hb, howner, hbc⟩⟩

/-- No two live thread locals hold one slot index. -/
theorem Exact.index_inj (h : s.Exact among) (hl : s.local? id = some l)
    (hl' : s.local? id' = some l') (hi : l.handle.index = l'.handle.index) : id = id' := by
  have hheld := h.held hl
  have hheld' := h.held hl'
  rw [hi, hheld', Option.some.injEq] at hheld
  exact h.handle_inj hl hl' hheld.symm

theorem Exact.mono {among' : LocalId → Prop} (h : s.Exact among)
    (hamong : ∀ id, among' id → among id) : s.Exact among' where
  toSound := h.toSound
  held := h.held
  cell_bound hid := h.cell_bound (hamong _ hid)

end Views

/-! ## Changes that leave the bindings alone -/

section Congr

variable {s s' : Locals α} {among : LocalId → Prop}

/-- Threads may be touched, values replaced, and the table may change. -/
theorem Sound.congr (h : s.Sound)
    (hthread : ∀ t i, (s'.thread t).at? i = (s.thread t).at? i)
    (hlocal : ∀ id, s'.local? id = s.local? id)
    (hcell : ∀ c, (s'.cell? c).isSome = (s.cell? c).isSome)
    (hlocals : s'.locals.length = s.locals.length)
    (hcells : s'.cells.length = s.cells.length)
    (hseq : s.nextSeq ≤ s'.nextSeq)
    (htable : ∀ {seq}, seq ∈ s'.table.seqs → seq < s'.nextSeq) : s'.Sound where
  nodup hl := h.nodup ((hlocal _).symm.trans hl)
  disjoint hl hl' := h.disjoint ((hlocal _).symm.trans hl) ((hlocal _).symm.trans hl')
  filled hl hc := (hcell _).trans (h.filled ((hlocal _).symm.trans hl) hc)
  owned hc := by
    obtain ⟨id, l, hl, hmem⟩ := h.owned ((hcell _).symm.trans hc)
    exact ⟨id, l, (hlocal id).trans hl, hmem⟩
  next_pos := Nat.lt_of_lt_of_le h.next_pos hseq
  table_lt := htable
  handle_pos hl := h.handle_pos ((hlocal _).symm.trans hl)
  handle_lt hl := Nat.lt_of_lt_of_le (h.handle_lt ((hlocal _).symm.trans hl)) hseq
  handle_inj hl hl' := h.handle_inj ((hlocal _).symm.trans hl) ((hlocal _).symm.trans hl')
  seq_lt hb := Nat.lt_of_lt_of_le (h.seq_lt ((hthread _ _).symm.trans hb)) hseq
  cell_lt hb := hcells ▸ h.cell_lt ((hthread _ _).symm.trans hb)
  owner_lt hb := hlocals ▸ h.owner_lt ((hthread _ _).symm.trans hb)
  owner_seq hb hl := h.owner_seq ((hthread _ _).symm.trans hb) ((hlocal _).symm.trans hl)
  owner_cell hb hl := h.owner_cell ((hthread _ _).symm.trans hb) ((hlocal _).symm.trans hl)
  owner_index hb hl := h.owner_index ((hthread _ _).symm.trans hb) ((hlocal _).symm.trans hl)
  cell_inj hb hb' := h.cell_inj ((hthread _ _).symm.trans hb) ((hthread _ _).symm.trans hb')

theorem Exact.congr (h : s.Exact among) (hsound : s'.Sound)
    (hthread : ∀ t i, (s'.thread t).at? i = (s.thread t).at? i)
    (hlocal : ∀ id, s'.local? id = s.local? id)
    (hheld : ∀ {id l}, s.local? id = some l →
      s'.table.seqs[l.handle.index]? = some l.handle.seq) : s'.Exact among where
  toSound := hsound
  held hl := hheld ((hlocal _).symm.trans hl)
  cell_bound hid hl hc := by
    obtain ⟨t, b, hb, hbc⟩ := h.cell_bound hid ((hlocal _).symm.trans hl) hc
    exact ⟨t, b, (hthread _ _).trans hb, hbc⟩

/-- The values seen by threads depend on the three views only. -/
theorem get?_congr (hthread : ∀ t i, (s'.thread t).at? i = (s.thread t).at? i)
    (hlocal : ∀ id, s'.local? id = s.local? id) (hcell : ∀ c, s'.cell? c = s.cell? c)
    (t : ThreadId) (id : LocalId) : s'.get? t id = s.get? t id := by
  unfold get? cellOf? Thread.binding?
  rw [hlocal id]
  cases s.local? id with
  | none => rfl
  | some l => simp only [hthread, funext hcell]

end Congr

end Locals

end Hosted
