import Hosted.Proofs.References.Objects
import Hosted.Proofs.Slot.Preservation
import Mathlib.Data.List.Nodup

/-!
# The weight of values

The weight of all values that are in cells, for any weight of a single value. What an operation
on thread locals frees goes with its weight, and a value that is bound brings its own. With the
references that values hold for weights this counts references; with 1 for every value it counts
the values that are bound.
-/

namespace Hosted

/-- A change that leaves the share of every element alone. -/
theorem map_modify_of_eq {α β : Type} (xs : List α) (i : Nat) {f : α → α} {g : α → β}
    (hg : ∀ a, g (f a) = g a) : (xs.modify i f).map g = xs.map g := by
  induction xs generalizing i with
  | nil => rw [List.modify_nil]
  | cons x xs ih =>
      cases i with
      | zero => rw [List.modify_zero_cons, List.map_cons, List.map_cons, hg]
      | succ i => rw [List.modify_succ_cons, List.map_cons, List.map_cons, ih]

/-- The weight of all values that are in cells. -/
def Locals.weigh {α : Type} (s : Locals α) (weight : α → Nat) : Nat :=
  (s.cells.map fun cell => cell.elim 0 weight).sum

/-- The number of values bound through live thread locals. A dropped one has none. -/
def Locals.boundTotal {α : Type} (s : Locals α) : Nat :=
  ((List.range s.locals.length).map s.boundCount).sum

namespace Locals

variable {α : Type} {s s' : Locals α} {t : ThreadId} {id : LocalId} {l : Local} {v : α}

theorem weigh_freeCell (s : Locals α) (weight : α → Nat) (c : CellId) :
    (s.freeCell c).weigh weight + (s.cell? c).elim 0 weight = s.weigh weight := by
  cases hc : s.cells[c]? with
  | none =>
      have hlen := List.getElem?_eq_none_iff.1 hc
      simp [weigh, freeCell, List.set_eq_of_length_le hlen, cell?, hc]
  | some cell =>
      have hset := sum_map_set hc (fun cell => cell.elim 0 weight) none
      have hcell : s.cell? c = cell := by simp [cell?, hc]
      rw [hcell]
      exact hset

theorem weigh_foldl_freeCell (s : Locals α) (weight : α → Nat) {cs : List CellId}
    (hnd : cs.Nodup) :
    (cs.foldl freeCell s).weigh weight + ((cs.filterMap s.cell?).map weight).sum =
      s.weigh weight := by
  induction cs generalizing s with
  | nil => rfl
  | cons c cs ih =>
      obtain ⟨hc, hnd⟩ := List.nodup_cons.1 hnd
      have hfirst := s.weigh_freeCell weight c
      have hrest := ih (s.freeCell c) hnd
      have hsame : cs.filterMap (s.freeCell c).cell? = cs.filterMap s.cell? := by
        refine List.filterMap_congr fun c' hc' => ?_
        rw [cell?_freeCell, if_neg]
        rintro rfl
        exact hc hc'
      rw [hsame] at hrest
      rw [List.foldl_cons, List.filterMap_cons]
      cases hv : s.cell? c with
      | none =>
          rw [hv, Option.elim_none] at hfirst
          simp only
          omega
      | some v =>
          rw [hv, Option.elim_some] at hfirst
          simp only [List.map_cons, List.sum_cons]
          omega

theorem weigh_reclaimAll (s : Locals α) (weight : α → Nat) (bs : List Binding) :
    (s.reclaimAll bs).1.weigh weight + ((s.reclaimAll bs).2.map weight).sum =
      s.weigh weight := by
  induction bs generalizing s with
  | nil => rfl
  | cons b bs ih =>
      have hstep : (s.reclaim b).1.weigh weight + ((s.reclaim b).2.toList.map weight).sum =
          s.weigh weight := by
        unfold reclaim
        split
        · have hfree := (s.setCells b.owner
            (swapErase (s.cellsOf b.owner) b.cell)).weigh_freeCell weight b.cell
          have hcells : (s.setCells b.owner (swapErase (s.cellsOf b.owner) b.cell)).weigh weight =
              s.weigh weight := by
            rw [weigh, (s.setCells_frame ..).2.2.1, weigh]
          rw [cell?_setCells, hcells] at hfree
          rw [← hfree]
          cases s.cell? b.cell <;> simp
        · simp
      have hrest := ih (s.reclaim b).1
      unfold reclaimAll
      simp only [List.map_append, List.sum_append]
      omega

theorem weigh_endThread (s : Locals α) (weight : α → Nat) (t : ThreadId) :
    (s.endThread t).1.weigh weight + ((s.endThread t).2.map weight).sum = s.weigh weight :=
  (s.setThread t .ended).weigh_reclaimAll weight (s.thread t).remaining

theorem Binds.weigh (hb : s.Binds t id l v s') (weight : α → Nat) :
    s'.weigh weight = s.weigh weight + weight v := by
  rw [Locals.weigh, hb.cells, List.map_append, List.sum_append, Locals.weigh]
  rfl

theorem Detaches.weigh (hd : s.Detaches t id l s') (hs : s.Sound) (hl : s.local? id = some l)
    (weight : α → Nat) :
    s'.weigh weight + ((s.valuesOf id).map weight).sum = s.weigh weight := by
  have hfree := s.weigh_foldl_freeCell weight (hs.nodup hl)
  rw [valuesOf, cellsOf_of_local? hl, ← hfree, Locals.weigh, hd.cells, Locals.weigh]

/-- Changing values does not change weights that the change leaves alone. -/
theorem weigh_modifyAll (s : Locals α) (id : LocalId) {f : Nat → α → α} {weight : α → Nat}
    (hf : ∀ i v, weight (f i v) = weight v) :
    (s.modifyAll id f).weigh weight = s.weigh weight := by
  simp only [weigh, modifyAll]
  generalize s.cells = cells
  induction (s.cellsOf id).zipIdx generalizing cells with
  | nil => rfl
  | cons place places ih =>
      rw [List.foldl_cons, ih, map_modify_of_eq]
      intro cell
      cases cell with
      | none => rfl
      | some v => exact hf place.2 v

/-- The places of a row that are filled. -/
theorem length_filter_isSome (row : List (Option α)) :
    ((List.range row.length).filter fun i => row[i]?.join.isSome).length =
      (row.map fun o => o.elim 0 fun _ => 1).sum := by
  induction row with
  | nil => rfl
  | cons o row ih =>
      rw [List.map_cons, List.sum_cons, ← ih, List.length_cons, List.range_succ_eq_map,
        List.filter_cons, List.filter_map, List.getElem?_cons_zero, Option.join_some]
      cases o with
      | none => simp [Function.comp_def]
      | some a => simp [Function.comp_def, Nat.add_comm]

/-- No cell belongs to two thread locals, or to one of them twice. -/
theorem CellsOwned.nodup_owned (h : s.CellsOwned) :
    ((List.range s.locals.length).flatMap s.cellsOf).Nodup := by
  refine List.nodup_flatMap.2 ⟨?_, ?_⟩
  · intro id _
    unfold cellsOf
    split
    · next l hl => exact h.nodup hl
    · exact List.nodup_nil
  · refine List.nodup_range.imp fun hne => ?_
    intro c hc hc'
    obtain ⟨l, hl, hc⟩ := mem_cellsOf.1 hc
    obtain ⟨l', hl', hc'⟩ := mem_cellsOf.1 hc'
    exact hne (h.disjoint hl hl' hc hc')

theorem CellsOwned.mem_owned_iff (h : s.CellsOwned) {c : CellId} :
    c ∈ (List.range s.locals.length).flatMap s.cellsOf ↔ (s.cell? c).isSome := by
  rw [List.mem_flatMap]
  constructor
  · rintro ⟨id, -, hc⟩
    obtain ⟨l, hl, hc⟩ := mem_cellsOf.1 hc
    exact h.filled hl hc
  · intro hfilled
    obtain ⟨id, l, hl, hc⟩ := h.owned hfilled
    exact ⟨id, List.mem_range.2 (local?_lt hl), mem_cellsOf.2 ⟨l, hl, hc⟩⟩

/-- Each value that is in a cell is bound through one thread local. -/
theorem CellsOwned.boundTotal_eq (h : s.CellsOwned) :
    s.boundTotal = s.weigh fun _ => 1 := by
  have hperm : ((List.range s.locals.length).flatMap s.cellsOf).Perm
      ((List.range s.cells.length).filter fun c => (s.cell? c).isSome) := by
    rw [List.perm_ext_iff_of_nodup h.nodup_owned (List.nodup_range.filter _)]
    intro c
    rw [h.mem_owned_iff, List.mem_filter, List.mem_range]
    refine ⟨fun hfilled => ⟨?_, hfilled⟩, fun hc => hc.2⟩
    by_contra hge
    simp [cell?, List.getElem?_eq_none (Nat.not_lt.1 hge)] at hfilled
  exact (List.length_flatMap.symm.trans hperm.length_eq).trans (length_filter_isSome s.cells)

end Locals

end Hosted
