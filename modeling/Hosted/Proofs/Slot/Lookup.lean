import Hosted.Slot.Locals
import Mathlib.Data.List.Perm.Basic

/-!
# Looking up threads, thread locals and cells

What a thread has at a slot index, which thread locals are live and what the cells
hold, after each of the operations that change one of them. The invariants of thread
locals are stated through these three views, so the rows of bindings and the lists of
cells are not opened again outside of this module.
-/

namespace Hosted

/-! ## Threads -/

namespace Thread

/-- Growing a row leaves every other place as it was. -/
theorem getElem?_putAt (bindings : List (Option Binding)) (index : Nat)
    (b : Option Binding) (i : Nat) :
    (putAt bindings index b)[i]?.join =
      if i = index then b else bindings[i]?.join := by
  unfold putAt
  by_cases hlt : index < bindings.length
  · rw [if_pos hlt, List.getElem?_set]
    by_cases hi : i = index
    · subst hi
      simp [hlt]
    · simp [hi, Ne.symm hi]
  · rw [if_neg hlt, List.append_assoc, List.getElem?_append]
    by_cases hi : i < bindings.length
    · have hne : i ≠ index := by omega
      simp [hi, hne]
    · have hnone : bindings[i]? = none := List.getElem?_eq_none (by omega)
      rw [if_neg hi, List.getElem?_append, List.length_replicate, hnone]
      by_cases hmid : i - bindings.length < index - bindings.length
      · have hne : i ≠ index := by omega
        simp [hmid, hne]
      · rw [if_neg hmid]
        by_cases heq : i = index
        · subst heq
          simp
        · have hpos : i - bindings.length - (index - bindings.length) ≠ 0 := by omega
          simp [heq, hpos]

@[simp] theorem at?_untouched (i : Nat) : untouched.at? i = none := rfl

@[simp] theorem at?_ended (i : Nat) : ended.at? i = none := rfl

@[simp] theorem at?_touched (t : Thread) (i : Nat) : t.touched.at? i = t.at? i := by
  cases t with
  | untouched => simp [touched, at?]
  | running bindings => rfl
  | ended => rfl

theorem touched_eq_ended_iff (t : Thread) : t.touched = ended ↔ t = ended := by
  cases t with
  | untouched => simp [touched]
  | running bindings => simp [touched]
  | ended => simp [touched]

theorem binding?_eq_some_iff (t : Thread) (h : SlotHandle) (b : Binding) :
    t.binding? h = some b ↔ t.at? h.index = some b ∧ b.seq = h.seq := by
  unfold binding?
  cases hat : t.at? h.index with
  | none => simp
  | some b' =>
      by_cases hseq : b'.seq = h.seq
      · simp only [hseq, if_true, Option.some.injEq]
        constructor
        · rintro rfl
          exact ⟨rfl, hseq⟩
        · exact fun hb => hb.1
      · simp only [hseq, if_false, Option.some.injEq, reduceCtorEq, false_iff]
        rintro ⟨rfl, h'⟩
        exact hseq h'

/-- Only a thread whose bindings are gone refuses to record one. -/
theorem bind?_eq_none_iff (t : Thread) (index : Nat) (b : Binding) :
    t.bind? index b = none ↔ t = ended := by
  cases t with
  | untouched => simp [bind?]
  | running bindings => simp [bind?]
  | ended => simp [bind?]

theorem bind?_ne_ended {t t' : Thread} {index : Nat} {b : Binding}
    (h : t.bind? index b = some t') : t' ≠ ended := by
  cases t with
  | untouched => simp only [bind?, Option.some.injEq] at h; subst h; simp
  | running bindings => simp only [bind?, Option.some.injEq] at h; subst h; simp
  | ended => simp [bind?] at h

theorem at?_bind? {t t' : Thread} {index : Nat} {b : Binding}
    (h : t.bind? index b = some t') (i : Nat) :
    t'.at? i = if i = index then some b else t.at? i := by
  cases t with
  | untouched =>
      simp only [bind?, Option.some.injEq] at h
      subst h
      simp only [at?, getElem?_putAt]
      simp
  | running bindings =>
      simp only [bind?, Option.some.injEq] at h
      subst h
      simp only [at?, getElem?_putAt]
  | ended => simp [bind?] at h

/-- Forgetting the binding for an allocation takes away that binding only. -/
theorem at?_clear (t : Thread) (h : SlotHandle) (i : Nat) :
    (t.clear h).at? i =
      if i = h.index ∧ (t.binding? h).isSome then none else t.at? i := by
  cases t with
  | untouched => simp [clear]
  | ended => simp [clear]
  | running bindings =>
      cases hb : (running bindings).binding? h with
      | none => simp [clear, hb]
      | some b =>
          simp only [clear, hb, Option.isSome_some, and_true, at?, List.getElem?_set]
          by_cases hi : i = h.index
          · subst hi
            by_cases hlt : h.index < bindings.length <;> simp [hlt]
          · simp [hi, Ne.symm hi]

theorem clear_eq_ended_iff (t : Thread) (h : SlotHandle) : t.clear h = ended ↔ t = ended := by
  cases t with
  | untouched => simp [clear]
  | ended => simp [clear]
  | running bindings =>
      cases hb : (running bindings).binding? h with
      | none => simp [clear, hb]
      | some b => simp [clear, hb]

/-- What a thread leaves behind is what it has at some index. -/
theorem mem_remaining_iff (t : Thread) (b : Binding) :
    b ∈ t.remaining ↔ ∃ i, t.at? i = some b := by
  cases t with
  | untouched => simp [remaining]
  | ended => simp [remaining]
  | running bindings =>
      simp only [remaining, at?, List.mem_filterMap, id_eq, exists_eq_right,
        Option.join_eq_some_iff]
      exact List.mem_iff_getElem?

end Thread

/-! ## Swapping an element out -/

/-- The order changes, the elements do not. -/
theorem swapErase_perm {α : Type} [DecidableEq α] (l : List α) (a : α) :
    (swapErase l a).Perm (l.erase a) := by
  unfold swapErase
  cases hi : l.idxOf? a with
  | none =>
      have ha : a ∉ l := List.idxOf?_eq_none_iff.1 hi
      simp [List.erase_of_not_mem ha]
  | some i =>
      obtain ⟨hlt, -, -⟩ := List.idxOf?_eq_some_iff.1 hi
      have hne : l ≠ [] := by
        rintro rfl
        simp at hlt
      have herase : l.erase a = l.eraseIdx i := by rw [List.erase_eq_eraseIdx, hi]
      have hset := List.set_perm_cons_eraseIdx hlt (l.getLast hne)
      have hne' : l.set i (l.getLast hne) ≠ [] := by simpa using hne
      have hlast : (l.set i (l.getLast hne)).getLast hne' = l.getLast hne := by
        rw [List.getLast_eq_getElem, List.getElem_set]
        simp [List.getLast_eq_getElem]
      have hsplit := List.dropLast_append_getLast hne'
      rw [hlast] at hsplit
      rw [← hsplit] at hset
      have hcons : ((l.set i (l.getLast hne)).dropLast ++ [l.getLast hne]).Perm
          (l.getLast hne :: (l.set i (l.getLast hne)).dropLast) := List.perm_append_comm
      rw [List.getLast?_eq_some_getLast hne, herase]
      exact (hcons.symm.trans hset).cons_inv

theorem mem_swapErase_iff {α : Type} [DecidableEq α] {l : List α} (hl : l.Nodup)
    (a x : α) : x ∈ swapErase l a ↔ x ∈ l ∧ x ≠ a := by
  rw [(swapErase_perm l a).mem_iff, hl.mem_erase_iff, and_comm]

theorem nodup_swapErase {α : Type} [DecidableEq α] {l : List α} (hl : l.Nodup) (a : α) :
    (swapErase l a).Nodup :=
  (swapErase_perm l a).nodup_iff.2 (hl.erase a)

/-! ## Thread locals and cells -/

namespace Locals

variable {α : Type} (s : Locals α)

theorem thread_setThread (t : ThreadId) (thread : Thread) (t' : ThreadId) :
    (s.setThread t thread).thread t' = if t' = t then thread else s.thread t' := by
  unfold Locals.thread setThread
  simp only
  rw [List.getElem?_set]
  by_cases ht : t' = t
  · subst ht
    have hlt : t' < (s.threads ++
        List.replicate (t' + 1 - s.threads.length) Thread.untouched).length := by
      rw [List.length_append, List.length_replicate]
      exact Nat.sub_le_iff_le_add'.1 (Nat.le_refl _)
    rw [if_pos rfl, if_pos hlt, if_pos rfl, Option.getD_some]
  · rw [if_neg (Ne.symm ht), if_neg ht]
    rcases Nat.lt_or_ge t' s.threads.length with hlt | hge
    · rw [List.getElem?_append_left hlt]
    · rw [List.getElem?_append_right hge, List.getElem?_eq_none hge, List.getElem?_replicate]
      split <;> rfl

@[simp] theorem local?_setThread (t : ThreadId) (thread : Thread) (id : LocalId) :
    (s.setThread t thread).local? id = s.local? id := rfl

@[simp] theorem at?_touch (t t' : ThreadId) (i : Nat) :
    ((s.touch t).thread t').at? i = (s.thread t').at? i := by
  unfold touch
  rw [thread_setThread]
  by_cases ht : t' = t
  · subst ht
    rw [if_pos rfl, Thread.at?_touched]
  · rw [if_neg ht]

theorem thread_touch_eq_ended_iff (t t' : ThreadId) :
    (s.touch t).thread t' = .ended ↔ s.thread t' = .ended := by
  unfold touch
  rw [thread_setThread]
  by_cases ht : t' = t
  · subst ht
    rw [if_pos rfl, Thread.touched_eq_ended_iff]
  · rw [if_neg ht]

/-- A binding that carries the number of a live thread local shows its cell. -/
theorem cellOf?_eq_some_iff {s : Locals α} {id : LocalId} {l : Local}
    (hl : s.local? id = some l) (t : ThreadId) (c : CellId) :
    s.cellOf? t id = some c ↔
      ∃ b, (s.thread t).at? l.handle.index = some b ∧ b.seq = l.handle.seq ∧ b.cell = c := by
  unfold cellOf?
  simp only [hl, Option.map_eq_some_iff, Thread.binding?_eq_some_iff, and_assoc]

theorem cellOf?_of_local?_none {s : Locals α} {id : LocalId} (hl : s.local? id = none)
    (t : ThreadId) : s.cellOf? t id = none := by
  simp [cellOf?, hl]

/-- An ended thread sees nothing. -/
theorem get?_of_ended {s : Locals α} {t : ThreadId} (ht : s.thread t = .ended) (id : LocalId) :
    s.get? t id = none := by
  unfold get? cellOf?
  cases s.local? id with
  | none => rfl
  | some l => simp [ht, Thread.binding?]

theorem cellsOf_of_local? {s : Locals α} {id : LocalId} {l : Local}
    (hl : s.local? id = some l) : s.cellsOf id = l.cells := by
  simp [cellsOf, hl]

theorem cellsOf_of_local?_none {s : Locals α} {id : LocalId} (hl : s.local? id = none) :
    s.cellsOf id = [] := by
  simp [cellsOf, hl]

theorem mem_cellsOf {s : Locals α} {id : LocalId} {c : CellId} :
    c ∈ s.cellsOf id ↔ ∃ l, s.local? id = some l ∧ c ∈ l.cells := by
  unfold cellsOf
  cases s.local? id <;> simp

theorem mem_valuesOf {s : Locals α} {id : LocalId} {v : α} :
    v ∈ s.valuesOf id ↔ ∃ l c, s.local? id = some l ∧ c ∈ l.cells ∧ s.cell? c = some v := by
  unfold valuesOf
  rw [List.mem_filterMap]
  constructor
  · rintro ⟨c, hc, hv⟩
    obtain ⟨l, hl, hc⟩ := mem_cellsOf.1 hc
    exact ⟨l, c, hl, hc, hv⟩
  · rintro ⟨l, c, hl, hc, hv⟩
    exact ⟨c, mem_cellsOf.2 ⟨l, hl, hc⟩, hv⟩

theorem local?_lt {s : Locals α} {id : LocalId} {l : Local} (hl : s.local? id = some l) :
    id < s.locals.length := by
  rcases Nat.lt_or_ge id s.locals.length with hlt | hge
  · exact hlt
  · simp [local?, List.getElem?_eq_none hge] at hl

theorem cell?_freeCell (c c' : CellId) :
    (s.freeCell c).cell? c' = if c' = c then none else s.cell? c' := by
  unfold cell? freeCell
  simp only [List.getElem?_set]
  by_cases hc : c' = c
  · subst hc
    by_cases hlt : c' < s.cells.length <;> simp [hlt]
  · simp [hc, Ne.symm hc]

theorem cell?_foldl_freeCell (cs : List CellId) (c : CellId) :
    (cs.foldl freeCell s).cell? c = if c ∈ cs then none else s.cell? c := by
  induction cs generalizing s with
  | nil => simp
  | cons c' cs ih =>
      rw [List.foldl_cons, ih, cell?_freeCell]
      by_cases hc : c = c' <;> by_cases hcs : c ∈ cs <;> simp [hc, hcs]

/-- Emptying cells changes nothing but the cells. -/
theorem foldl_freeCell_eq (cs : List CellId) :
    cs.foldl freeCell s = { s with cells := (cs.foldl freeCell s).cells } := by
  induction cs generalizing s with
  | nil => rfl
  | cons c cs ih =>
      rw [List.foldl_cons, ih]
      rfl

theorem cells_foldl_freeCell {s s' : Locals α} (cs : List CellId) (h : s.cells = s'.cells) :
    (cs.foldl freeCell s).cells = (cs.foldl freeCell s').cells := by
  induction cs generalizing s s' with
  | nil => exact h
  | cons c cs ih => exact ih (congrArg (·.set c none) h)

theorem length_cells_foldl_freeCell (cs : List CellId) :
    (cs.foldl freeCell s).cells.length = s.cells.length := by
  induction cs generalizing s with
  | nil => rfl
  | cons c cs ih =>
      rw [List.foldl_cons, ih]
      simp [freeCell]

theorem local?_setCells (id : LocalId) (cells : List CellId) (id' : LocalId) :
    (s.setCells id cells).local? id' =
      if id' = id then (s.local? id).map fun l => { l with cells } else s.local? id' := by
  unfold setCells
  cases hl : s.local? id with
  | none =>
      by_cases hid : id' = id
      · subst hid
        simp [hl]
      · simp [hid]
  | some l =>
      have hlt := local?_lt hl
      simp only [local?, List.getElem?_set]
      by_cases hid : id' = id
      · subst hid
        simp [hlt]
      · simp [hid, Ne.symm hid]

@[simp] theorem cell?_setCells (id : LocalId) (cells : List CellId) (c : CellId) :
    (s.setCells id cells).cell? c = s.cell? c := by
  unfold setCells
  split <;> rfl

@[simp] theorem thread_setCells (id : LocalId) (cells : List CellId) (t : ThreadId) :
    (s.setCells id cells).thread t = s.thread t := by
  unfold setCells
  split <;> rfl

theorem setCells_frame (id : LocalId) (cells : List CellId) :
    (s.setCells id cells).table = s.table ∧ (s.setCells id cells).nextSeq = s.nextSeq ∧
      (s.setCells id cells).cells = s.cells ∧
      (s.setCells id cells).locals.length = s.locals.length := by
  unfold setCells
  split <;> simp

theorem local?_create (h : SlotHandle) (id : LocalId) :
    (s.create h).1.local? id =
      if id = s.locals.length then some { handle := h } else s.local? id := by
  unfold local? create
  rcases Nat.lt_trichotomy id s.locals.length with hlt | heq | hgt
  · simp [List.getElem?_append_left hlt, Nat.ne_of_lt hlt]
  · simp [heq]
  · have hpos : id - s.locals.length ≠ 0 := Nat.sub_ne_zero_of_lt hgt
    simp [List.getElem?_append_right (Nat.le_of_lt hgt), Nat.ne_of_gt hgt,
      List.getElem?_eq_none (Nat.le_of_lt hgt), hpos]

/-- Visiting cells one after the other changes each of them once, with its place among
the visits. -/
theorem getElem?_foldl_visit (f : Nat → α → α) (places : List CellId) (k : Nat)
    (cells : List (Option α)) (hnd : places.Nodup) (c : CellId) :
    ((places.zipIdx k).foldl (fun cells (p : CellId × Nat) =>
        cells.modify p.1 (·.map (f p.2))) cells)[c]?.join =
      if c ∈ places then (cells[c]?.join).map (f (k + places.idxOf c))
      else cells[c]?.join := by
  induction places generalizing k cells with
  | nil => simp
  | cons p places ih =>
      obtain ⟨hp, hnd⟩ := List.nodup_cons.1 hnd
      rw [List.zipIdx_cons, List.foldl_cons, ih (k + 1) _ hnd, List.getElem?_modify]
      by_cases hc : c = p
      · subst hc
        cases hcell : cells[c]? with
        | none => simp [hp]
        | some o => simp [hp]
      · have hidx : (p :: places).idxOf c = places.idxOf c + 1 :=
          List.idxOf_cons_ne _ (Ne.symm hc)
        rw [hidx]
        have hadd : k + 1 + places.idxOf c = k + (places.idxOf c + 1) := by omega
        cases hcell : cells[c]? with
        | none => simp [hc, Ne.symm hc, hadd]
        | some o => simp [hc, Ne.symm hc, hadd]

theorem cell?_modifyAll (id : LocalId) (f : Nat → α → α) (hnd : (s.cellsOf id).Nodup)
    (c : CellId) :
    (s.modifyAll id f).cell? c =
      if c ∈ s.cellsOf id then (s.cell? c).map (f ((s.cellsOf id).idxOf c))
      else s.cell? c := by
  have h := getElem?_foldl_visit f (s.cellsOf id) 0 s.cells hnd c
  simpa [cell?, modifyAll] using h

theorem length_foldl_visit (f : Nat → α → α) (places : List (CellId × Nat))
    (cells : List (Option α)) :
    (places.foldl (fun cells (p : CellId × Nat) =>
        cells.modify p.1 (·.map (f p.2))) cells).length = cells.length := by
  induction places generalizing cells with
  | nil => rfl
  | cons p places ih => simp [ih]

end Locals

end Hosted
