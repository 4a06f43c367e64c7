import Hosted.Proofs.Slot.Preservation

/-!
# The end of a thread

A thread that ends hands back what it has bound, one binding after the other. While
that goes on the bindings are in no thread any more, so the induction carries only the
cells: `Reclaims cs` says that the cells `cs` have been taken out of the thread locals
that owned them and emptied. The invariant of the bindings comes back at the end, when
no value of the thread is left.
-/

namespace Hosted

namespace Locals

variable {α : Type} {s s' s'' : Locals α} {t : ThreadId}

/-- `s'` is `s` without the cells `cs`. -/
structure Reclaims (s : Locals α) (cs : List CellId) (s' : Locals α) : Prop where
  thread : ∀ t, s'.thread t = s.thread t
  table : s'.table = s.table
  nextSeq : s'.nextSeq = s.nextSeq
  locals_length : s'.locals.length = s.locals.length
  cells_length : s'.cells.length = s.cells.length
  local_none : ∀ {id}, s.local? id = none → s'.local? id = none
  local_some : ∀ {id l}, s.local? id = some l →
    ∃ cells, s'.local? id = some { l with cells } ∧ cells.Nodup ∧
      ∀ c, c ∈ cells ↔ c ∈ l.cells ∧ c ∉ cs
  cell? : ∀ c, s'.cell? c = if c ∈ cs then none else s.cell? c

namespace Reclaims

variable {cs cs' : List CellId}

theorem nil (h : s.CellsOwned) : s.Reclaims [] s where
  thread _ := rfl
  table := rfl
  nextSeq := rfl
  locals_length := rfl
  cells_length := rfl
  local_none hl := hl
  local_some {_ l} hl := ⟨l.cells, hl, h.nodup hl, fun c => by simp⟩
  cell? c := by simp

theorem append (h : s.Reclaims cs s') (h' : s'.Reclaims cs' s'') :
    s.Reclaims (cs ++ cs') s'' where
  thread t := (h'.thread t).trans (h.thread t)
  table := h'.table.trans h.table
  nextSeq := h'.nextSeq.trans h.nextSeq
  locals_length := h'.locals_length.trans h.locals_length
  cells_length := h'.cells_length.trans h.cells_length
  local_none hl := h'.local_none (h.local_none hl)
  local_some {id l} hl := by
    obtain ⟨cells, hl', -, hmem⟩ := h.local_some hl
    obtain ⟨cells', hl'', hnd, hmem'⟩ := h'.local_some hl'
    refine ⟨cells', hl'', hnd, ?_⟩
    intro c
    rw [hmem', hmem, List.mem_append, not_or, and_assoc]
  cell? c := by
    rw [h'.cell?, h.cell?]
    by_cases hc : c ∈ cs <;> by_cases hc' : c ∈ cs' <;> simp [hc, hc']

theorem local_of_some (h : s.Reclaims cs s') {id : LocalId} {l' : Local}
    (hl' : s'.local? id = some l') :
    ∃ l, s.local? id = some l ∧ l'.handle = l.handle ∧ l'.cells.Nodup ∧
      ∀ c, c ∈ l'.cells ↔ c ∈ l.cells ∧ c ∉ cs := by
  cases hl : s.local? id with
  | none => rw [h.local_none hl] at hl'; cases hl'
  | some l =>
      obtain ⟨cells, hl'', hnd, hmem⟩ := h.local_some hl
      rw [hl', Option.some.injEq] at hl''
      subst hl''
      exact ⟨l, rfl, rfl, hnd, hmem⟩

theorem mem_valuesOf (h : s.Reclaims cs s') {id : LocalId} {u : α}
    (hu : u ∈ s'.valuesOf id) : u ∈ s.valuesOf id := by
  obtain ⟨l', c, hl', hc, hcell⟩ := Locals.mem_valuesOf.1 hu
  obtain ⟨l, hl, -, -, hmem⟩ := h.local_of_some hl'
  obtain ⟨hc, hout⟩ := (hmem c).1 hc
  rw [h.cell?, if_neg hout] at hcell
  exact Locals.mem_valuesOf.2 ⟨l, c, hl, hc, hcell⟩

theorem cellsOwned (h : s.Reclaims cs s') (hs : s.CellsOwned) : s'.CellsOwned where
  nodup hl' := by
    obtain ⟨-, -, -, hnd, -⟩ := h.local_of_some hl'
    exact hnd
  disjoint hl₁ hl₂ hc₁ hc₂ := by
    obtain ⟨l₁, hl₁, -, -, hmem₁⟩ := h.local_of_some hl₁
    obtain ⟨l₂, hl₂, -, -, hmem₂⟩ := h.local_of_some hl₂
    exact hs.disjoint hl₁ hl₂ ((hmem₁ _).1 hc₁).1 ((hmem₂ _).1 hc₂).1
  filled hl' hc := by
    obtain ⟨l, hl, -, -, hmem⟩ := h.local_of_some hl'
    obtain ⟨hc, hout⟩ := (hmem _).1 hc
    rw [h.cell?, if_neg hout]
    exact hs.filled hl hc
  owned {c} hc := by
    rw [h.cell?] at hc
    split at hc
    · cases hc
    · next hout =>
        obtain ⟨id, l, hl, hmem⟩ := hs.owned hc
        obtain ⟨cells, hl', -, hmem'⟩ := h.local_some hl
        exact ⟨id, _, hl', (hmem' c).2 ⟨hmem, hout⟩⟩

end Reclaims

/-! ## Handing back bindings -/

/-- The cell of a binding is one of its owner, and of no other live thread local. -/
def OwnerHas (s : Locals α) (b : Binding) : Prop :=
  ∀ {id l}, s.local? id = some l → (b.cell ∈ l.cells ↔ b.owner = id)

/-- The value of a thread local that has been dropped has been freed before. -/
theorem reclaims_of_not_mem (hs : s.CellsOwned) {c : CellId}
    (hout : ∀ {id l}, s.local? id = some l → c ∉ l.cells) : s.Reclaims [c] s where
  thread _ := rfl
  table := rfl
  nextSeq := rfl
  locals_length := rfl
  cells_length := rfl
  local_none h := h
  local_some {_ l} hl := by
    refine ⟨l.cells, hl, hs.nodup hl, ?_⟩
    intro c'
    have hne : c' ∈ l.cells → c' ≠ c := by
      rintro hc rfl
      exact hout hl hc
    simpa using hne
  cell? c' := by
    have hempty : s.cell? c = none := by
      by_contra hne
      obtain ⟨id, l, hl, hmem⟩ := hs.owned (Option.isSome_iff_ne_none.2 hne)
      exact hout hl hmem
    by_cases hc : c' = c
    · subst hc
      simp [hempty]
    · simp [hc]

/-- A live thread local gives up the cell and nothing else. -/
theorem reclaims_freeCell (hs : s.CellsOwned) {c : CellId} {id : LocalId} {l : Local}
    (hl : s.local? id = some l)
    (hown : ∀ {id' l'}, s.local? id' = some l' → c ∈ l'.cells → id' = id) :
    s.Reclaims [c] ((s.setCells id (swapErase l.cells c)).freeCell c) := by
  have hframe := setCells_frame s id (swapErase l.cells c)
  have hlocal : ∀ id', ((s.setCells id (swapErase l.cells c)).freeCell c).local? id' =
      if id' = id then some { l with cells := swapErase l.cells c } else s.local? id' := by
    intro id'
    have h := local?_setCells s id (swapErase l.cells c) id'
    rw [hl] at h
    exact h
  refine ⟨thread_setCells s id _, hframe.1, hframe.2.1, hframe.2.2.2, ?_, ?_, ?_, ?_⟩
  · simp [freeCell, hframe.2.2.1]
  · intro id' hnone
    have hne : id' ≠ id := by
      rintro rfl
      rw [hl] at hnone
      cases hnone
    exact (hlocal id').trans ((if_neg hne).trans hnone)
  · intro id' l' hl'
    by_cases hid : id' = id
    · subst hid
      rw [hl, Option.some.injEq] at hl'
      subst hl'
      refine ⟨_, (hlocal _).trans (if_pos rfl), nodup_swapErase (hs.nodup hl) _, ?_⟩
      intro c'
      rw [mem_swapErase_iff (hs.nodup hl), List.mem_singleton]
    · refine ⟨l'.cells, (hlocal id').trans ((if_neg hid).trans hl'), hs.nodup hl', ?_⟩
      intro c'
      have hne : c' ∈ l'.cells → c' ≠ c := by
        rintro hc rfl
        exact hid (hown hl' hc)
      simpa using hne
  · intro c'
    rw [cell?_freeCell, cell?_setCells]
    simp only [List.mem_singleton]

theorem reclaims_reclaim (hs : s.CellsOwned) {b : Binding} (hb : s.OwnerHas b) :
    s.Reclaims [b.cell] (s.reclaim b).1 := by
  unfold reclaim
  cases hl : s.local? b.owner with
  | none =>
      rw [cellsOf_of_local?_none hl, if_neg List.not_mem_nil]
      apply reclaims_of_not_mem hs
      intro id l hl' hmem
      rw [← (hb hl').1 hmem, hl] at hl'
      cases hl'
  | some l =>
      rw [cellsOf_of_local? hl, if_pos ((hb hl).2 rfl)]
      exact reclaims_freeCell hs hl fun hl' hc => ((hb hl').1 hc).symm

theorem ownerHas_reclaim (hs : s.CellsOwned) {b b' : Binding} (hb : s.OwnerHas b)
    (hb' : s.OwnerHas b') (hne : b'.cell ≠ b.cell) : (s.reclaim b).1.OwnerHas b' := by
  intro id l' hl'
  obtain ⟨l, hl, -, -, hmem⟩ := (reclaims_reclaim hs hb).local_of_some hl'
  rw [hmem, hb' hl]
  simp [hne]

/-- Distinct cells are handed back independently of each other. -/
theorem reclaims_reclaimAll {bs : List Binding} (hs : s.CellsOwned)
    (hbs : ∀ b ∈ bs, s.OwnerHas b) (hnd : (bs.map (·.cell)).Nodup) :
    s.Reclaims (bs.map (·.cell)) (s.reclaimAll bs).1 := by
  induction bs generalizing s with
  | nil => exact Reclaims.nil hs
  | cons b bs ih =>
      obtain ⟨hfirst, hrest⟩ := List.nodup_cons.1 hnd
      have hstep := reclaims_reclaim hs (hbs b List.mem_cons_self)
      have hbs' : ∀ b' ∈ bs, (s.reclaim b).1.OwnerHas b' := fun b' hb' =>
        ownerHas_reclaim hs (hbs b List.mem_cons_self) (hbs b' (List.mem_cons_of_mem _ hb'))
          fun heq => hfirst (List.mem_map.2 ⟨b', hb', heq⟩)
      have htail := ih (hstep.cellsOwned hs) hbs' hrest
      have happ := hstep.append htail
      simpa [reclaimAll] using happ

/-- A cell is filled exactly if its owner still has it. -/
theorem mem_cellsOf_owner_iff (hs : s.CellsOwned) {b : Binding} (hb : s.OwnerHas b) :
    b.cell ∈ s.cellsOf b.owner ↔ (s.cell? b.cell).isSome := by
  constructor
  · intro hmem
    cases hl : s.local? b.owner with
    | none => simp [cellsOf_of_local?_none hl] at hmem
    | some l => exact hs.filled hl (cellsOf_of_local? hl ▸ hmem)
  · intro hsome
    obtain ⟨id, l, hl, hmem⟩ := hs.owned hsome
    obtain rfl := (hb hl).1 hmem
    exact (cellsOf_of_local? hl).symm ▸ hmem

/-- What is freed is what is in the cell. -/
theorem reclaim_snd (hs : s.CellsOwned) {b : Binding} (hb : s.OwnerHas b) :
    (s.reclaim b).2 = s.cell? b.cell := by
  unfold reclaim
  by_cases hmem : b.cell ∈ s.cellsOf b.owner
  · rw [if_pos hmem]
  · rw [if_neg hmem]
    rw [mem_cellsOf_owner_iff hs hb, Bool.not_eq_true, Option.isSome_eq_false_iff,
      Option.isNone_iff_eq_none] at hmem
    exact hmem.symm

/-- The filled ones of some cells, each with what is in it. -/
def contentsOf (s : Locals α) (cs : List CellId) : List (CellId × α) :=
  cs.filterMap fun c => (s.cell? c).map (c, ·)

theorem map_fst_contentsOf (s : Locals α) (cs : List CellId) :
    (s.contentsOf cs).map (·.1) = cs.filter fun c => (s.cell? c).isSome := by
  induction cs with
  | nil => rfl
  | cons c cs ih =>
      unfold contentsOf at ih ⊢
      cases hc : s.cell? c <;> simp [hc, ih]

theorem map_snd_contentsOf (s : Locals α) (cs : List CellId) :
    (s.contentsOf cs).map (·.2) = cs.filterMap s.cell? := by
  induction cs with
  | nil => rfl
  | cons c cs ih =>
      unfold contentsOf at ih ⊢
      cases hc : s.cell? c <;> simp [hc, ih]

/-- What is freed when bindings are handed back one after the other, each value with the
cell it was in. -/
def handedBack (s : Locals α) : List Binding → List (CellId × α)
  | [] => []
  | b :: rest => ((s.reclaim b).2.map (b.cell, ·)).toList ++ (s.reclaim b).1.handedBack rest

theorem map_snd_handedBack (s : Locals α) (bs : List Binding) :
    (s.handedBack bs).map (·.2) = (s.reclaimAll bs).2 := by
  induction bs generalizing s with
  | nil => rfl
  | cons b bs ih =>
      rw [handedBack, List.map_append, ih]
      cases hfreed : (s.reclaim b).2 <;> simp [reclaimAll, hfreed]

/-- From distinct cells, what is in them is freed. -/
theorem handedBack_eq {bs : List Binding} (hs : s.CellsOwned) (hbs : ∀ b ∈ bs, s.OwnerHas b)
    (hnd : (bs.map (·.cell)).Nodup) :
    s.handedBack bs = s.contentsOf (bs.map (·.cell)) := by
  induction bs generalizing s with
  | nil => rfl
  | cons b bs ih =>
      obtain ⟨hfirst, hrest⟩ := List.nodup_cons.1 hnd
      have hb : s.OwnerHas b := hbs b List.mem_cons_self
      have hstep := reclaims_reclaim hs hb
      have hbs' : ∀ b' ∈ bs, (s.reclaim b).1.OwnerHas b' := fun b' hb' =>
        ownerHas_reclaim hs hb (hbs b' (List.mem_cons_of_mem _ hb'))
          fun heq => hfirst (List.mem_map.2 ⟨b', hb', heq⟩)
      rw [handedBack, reclaim_snd hs hb, ih (hstep.cellsOwned hs) hbs' hrest, List.map_cons]
      have hsame : (s.reclaim b).1.contentsOf (bs.map (·.cell)) =
          s.contentsOf (bs.map (·.cell)) := by
        refine List.filterMap_congr fun c hc => ?_
        have hne : c ≠ b.cell := by
          rintro rfl
          exact hfirst hc
        rw [hstep.cell?, if_neg (by simpa using hne)]
      rw [hsame]
      cases hc : s.cell? b.cell <;> simp [contentsOf, hc]

/-! ## Ending a thread -/

/-- A thread leaves every cell behind once. -/
theorem nodup_remaining {thread : Thread}
    (h : ∀ {i i' b b'}, thread.at? i = some b → thread.at? i' = some b' →
      b.cell = b'.cell → i = i') : (thread.remaining.map (·.cell)).Nodup := by
  cases thread with
  | untouched => exact List.nodup_nil
  | ended => exact List.nodup_nil
  | running bindings =>
      unfold List.Nodup Thread.remaining
      rw [List.pairwise_map, List.pairwise_filterMap, List.pairwise_iff_getElem]
      intro i i' hi hi' hlt b hb b' hb' hcell
      have hat : ∀ {i b} (hi : i < bindings.length), id bindings[i] = some b →
          (Thread.running bindings).at? i = some b := by
        intro i b hi hb
        simpa [Thread.at?, List.getElem?_eq_getElem hi] using hb
      exact Nat.ne_of_lt hlt (h (hat hi hb) (hat hi' hb') hcell)

theorem Sound.ownerHas_remaining (hs : s.Sound) (t : ThreadId) :
    ∀ b ∈ (s.thread t).remaining, (s.setThread t .ended).OwnerHas b := by
  intro b hb id l hl
  obtain ⟨i, hb⟩ := (Thread.mem_remaining_iff ..).1 hb
  exact hs.owner_cell hb hl

theorem Sound.nodup_remaining (hs : s.Sound) (t : ThreadId) :
    ((s.thread t).remaining.map (·.cell)).Nodup :=
  Locals.nodup_remaining fun hb hb' hcell => (hs.cell_inj hb hb' hcell).2

/-- What a thread frees at its end, each value with the cell it was in. -/
def leftBehind (s : Locals α) (t : ThreadId) : List (CellId × α) :=
  (s.setThread t .ended).handedBack (s.thread t).remaining

theorem map_snd_leftBehind (s : Locals α) (t : ThreadId) :
    (s.leftBehind t).map (·.2) = (s.endThread t).2 := map_snd_handedBack _ _

theorem Sound.leftBehind_eq (hs : s.Sound) (t : ThreadId) :
    s.leftBehind t = s.contentsOf ((s.thread t).remaining.map (·.cell)) :=
  handedBack_eq ⟨hs.nodup, hs.disjoint, hs.filled, hs.owned⟩ (hs.ownerHas_remaining t)
    (hs.nodup_remaining t)

/-- `s'` is `s` after thread `t` has ended: its bindings are gone, and their cells with
them. -/
structure Ends (s : Locals α) (t : ThreadId) (cs : List CellId) (s' : Locals α) : Prop where
  mem : ∀ c, c ∈ cs ↔ ∃ i b, (s.thread t).at? i = some b ∧ b.cell = c
  reclaims : (s.setThread t .ended).Reclaims cs s'

theorem Sound.ends_endThread (hs : s.Sound) (t : ThreadId) :
    s.Ends t ((s.thread t).remaining.map (·.cell)) (s.endThread t).1 where
  mem c := by
    simp only [List.mem_map, Thread.mem_remaining_iff]
    constructor
    · rintro ⟨b, ⟨i, hb⟩, hc⟩
      exact ⟨i, b, hb, hc⟩
    · rintro ⟨i, b, hb, hc⟩
      exact ⟨b, ⟨i, hb⟩, hc⟩
  reclaims := reclaims_reclaimAll ⟨hs.nodup, hs.disjoint, hs.filled, hs.owned⟩
    (hs.ownerHas_remaining t) (hs.nodup_remaining t)

section Ends

variable {cs : List CellId} (he : s.Ends t cs s')

include he

theorem Ends.thread (t' : ThreadId) :
    s'.thread t' = if t' = t then .ended else s.thread t' := by
  rw [he.reclaims.thread, thread_setThread]

theorem Ends.at?_some {t' : ThreadId} {i : Nat} {b : Binding}
    (hb : (s'.thread t').at? i = some b) : t' ≠ t ∧ (s.thread t').at? i = some b := by
  rw [he.thread] at hb
  split at hb
  · simp at hb
  · next hne => exact ⟨hne, hb⟩

/-- The cells of the other threads stay. -/
theorem Ends.cell_not_mem (hs : s.Sound) {t' : ThreadId} {i : Nat} {b : Binding}
    (hne : t' ≠ t) (hb : (s.thread t').at? i = some b) : b.cell ∉ cs := by
  intro hmem
  obtain ⟨i', b', hb', hcell⟩ := (he.mem _).1 hmem
  exact hne (hs.cell_inj hb hb' hcell.symm).1

theorem Sound.ends (hs : s.Sound) : s'.Sound := by
  have hr := he.reclaims
  constructor
  case toCellsOwned => exact hr.cellsOwned ⟨hs.nodup, hs.disjoint, hs.filled, hs.owned⟩
  case next_pos => exact hr.nextSeq ▸ hs.next_pos
  case table_lt =>
    intro seq hseq
    rw [hr.table] at hseq
    exact hr.nextSeq ▸ hs.table_lt hseq
  case handle_pos =>
    intro id l' hl'
    obtain ⟨l, hl, hh, -⟩ := hr.local_of_some hl'
    exact hh ▸ hs.handle_pos hl
  case handle_lt =>
    intro id l' hl'
    obtain ⟨l, hl, hh, -⟩ := hr.local_of_some hl'
    rw [hr.nextSeq, hh]
    exact hs.handle_lt hl
  case handle_inj =>
    intro id₁ id₂ l₁ l₂ hl₁ hl₂ hseq
    obtain ⟨l₁', hl₁', hh₁, -⟩ := hr.local_of_some hl₁
    obtain ⟨l₂', hl₂', hh₂, -⟩ := hr.local_of_some hl₂
    exact hs.handle_inj hl₁' hl₂' (hh₁ ▸ hh₂ ▸ hseq)
  case seq_lt => exact fun hb => hr.nextSeq ▸ hs.seq_lt (he.at?_some hb).2
  case cell_lt => exact fun hb => hr.cells_length ▸ hs.cell_lt (he.at?_some hb).2
  case owner_lt => exact fun hb => hr.locals_length ▸ hs.owner_lt (he.at?_some hb).2
  case owner_seq =>
    intro t' i b id l' hb hl'
    obtain ⟨l, hl, hh, -⟩ := hr.local_of_some hl'
    rw [hh]
    exact hs.owner_seq (he.at?_some hb).2 hl
  case owner_cell =>
    intro t' i b id l' hb hl'
    obtain ⟨hne, hb⟩ := he.at?_some hb
    obtain ⟨l, hl, -, -, hmem⟩ := hr.local_of_some hl'
    rw [hmem, hs.owner_cell hb hl]
    simp [he.cell_not_mem hs hne hb]
  case owner_index =>
    intro t' i b l' hb hl'
    obtain ⟨l, hl, hh, -⟩ := hr.local_of_some hl'
    rw [hh]
    exact hs.owner_index (he.at?_some hb).2 hl
  case cell_inj =>
    exact fun hb hb' => hs.cell_inj (he.at?_some hb).2 (he.at?_some hb').2

theorem Exact.ends {among : LocalId → Prop} (hs : s.Exact among) : s'.Exact among where
  toSound := hs.toSound.ends he
  held := by
    intro id l' hl'
    obtain ⟨l, hl, hh, -⟩ := he.reclaims.local_of_some hl'
    rw [he.reclaims.table, hh]
    exact hs.held hl
  cell_bound := by
    intro id l' c hid hl' hc
    obtain ⟨l, hl, hh, -, hmem⟩ := he.reclaims.local_of_some hl'
    obtain ⟨hc, hout⟩ := (hmem c).1 hc
    obtain ⟨t', b, hb, hbc, howner⟩ := hs.cell_bound hid hl hc
    have hne : t' ≠ t := by
      rintro rfl
      exact hout ((he.mem c).2 ⟨_, b, hb, hbc⟩)
    refine ⟨t', b, ?_, hbc, howner⟩
    rw [he.thread, if_neg hne, hh]
    exact hb

/-- The thread sees nothing any more, and the others see what they saw. -/
theorem Sound.get?_ends (hs : s.Sound) (t' : ThreadId) (id : LocalId) :
    s'.get? t' id = if t' = t then none else s.get? t' id := by
  have hr := he.reclaims
  by_cases ht : t' = t
  · rw [if_pos ht]
    have hcell : s'.cellOf? t' id = none := by
      unfold cellOf? Thread.binding?
      rw [he.thread, if_pos ht]
      cases s'.local? id with
      | none => rfl
      | some l => rfl
    simp [get?, hcell]
  · rw [if_neg ht]
    have hcell : s'.cellOf? t' id = s.cellOf? t' id := by
      unfold cellOf?
      rw [he.thread, if_neg ht]
      cases hl : s.local? id with
      | none => rw [hr.local_none hl]
      | some l =>
          obtain ⟨cells, hl', -, -⟩ := hr.local_some hl
          rw [hl']
    unfold get?
    rw [hcell]
    cases hc : s.cellOf? t' id with
    | none => rfl
    | some c =>
        have hout : c ∉ cs := by
          cases hl : s.local? id with
          | none => simp [cellOf?_of_local?_none hl] at hc
          | some l =>
              obtain ⟨b, hb, -, rfl⟩ := (hs.cellOf?_eq_some_iff' hl).1 hc
              exact he.cell_not_mem hs ht hb
        simp only [Option.bind_some]
        rw [hr.cell?, if_neg hout]
        rfl

end Ends

end Locals

end Hosted
