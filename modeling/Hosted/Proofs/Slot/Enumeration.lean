import Hosted.Proofs.Slot.Sound
import Mathlib.Data.List.Forall2

/-!
# The threads that have bound a value

A live thread local keeps its values in a list of cells. Where the invariant is
`Exact` for the thread local, this list is an enumeration of the threads that see a value
through it, in the order of the visits: each such thread stands in it once, at the place of
its cell.
-/

namespace Hosted

namespace Locals

variable {α : Type} {s : Locals α} {among : LocalId → Prop} {id : LocalId}
  {threads : List ThreadId}

/-- `threads` are the threads that see the cells of a thread local, cell by cell. -/
def SeenBy (s : Locals α) (id : LocalId) (threads : List ThreadId) : Prop :=
  List.Forall₂ (fun c t => s.cellOf? t id = some c) (s.cellsOf id) threads

theorem Exact.exists_seenBy (hs : s.Exact among) (id : LocalId) (hid : among id) :
    ∃ threads, s.SeenBy id threads := by
  have hseen : ∀ c ∈ s.cellsOf id, ∃ t, s.cellOf? t id = some c := by
    intro c hc
    cases hl : s.local? id with
    | none => simp [cellsOf_of_local?_none hl] at hc
    | some l =>
        rw [cellsOf_of_local? hl] at hc
        exact hs.exists_cellOf? hid hl hc
  unfold SeenBy
  generalize s.cellsOf id = cells at hseen
  induction cells with
  | nil => exact ⟨[], .nil⟩
  | cons c cs ih =>
      obtain ⟨t, ht⟩ := hseen c List.mem_cons_self
      obtain ⟨threads, hts⟩ := ih fun c' hc' => hseen c' (List.mem_cons_of_mem _ hc')
      exact ⟨t :: threads, .cons ht hts⟩

namespace SeenBy

/-- The thread of a cell is listed, and at the place of the cell. -/
theorem mem_iff (h : s.SeenBy id threads) (hs : s.Sound) (t : ThreadId) :
    t ∈ threads ↔ ∃ c, s.cellOf? t id = some c := by
  constructor
  · intro ht
    obtain ⟨i, hi, rfl⟩ := List.mem_iff_getElem.1 ht
    have hlen := h.length_eq
    exact ⟨_, h.get (by omega) hi⟩
  · rintro ⟨c, hc⟩
    have hmem : c ∈ s.cellsOf id := by
      cases hl : s.local? id with
      | none => simp [cellOf?_of_local?_none hl] at hc
      | some l =>
          rw [cellsOf_of_local? hl]
          exact hs.mem_cells_of_cellOf? hl hc
    obtain ⟨i, hi, rfl⟩ := List.mem_iff_getElem.1 hmem
    have hlen := h.length_eq
    have hi' : i < threads.length := by omega
    have ht := h.get hi hi'
    rw [(hs.cellOf?_inj hc ht).1]
    exact List.getElem_mem hi'

theorem nodup (h : s.SeenBy id threads) (hnd : (s.cellsOf id).Nodup) : threads.Nodup := by
  unfold SeenBy at h
  generalize s.cellsOf id = cells at h hnd
  induction h with
  | nil => exact List.nodup_nil
  | @cons c t cs threads ht hts ih =>
      obtain ⟨hc, hnd⟩ := List.nodup_cons.1 hnd
      refine List.nodup_cons.2 ⟨?_, ih hnd⟩
      intro hmem
      obtain ⟨i, hi, rfl⟩ := List.mem_iff_getElem.1 hmem
      have hlen := hts.length_eq
      have hi' : i < cs.length := by omega
      have ht' := hts.get hi' hi
      simp only [List.get_eq_getElem] at ht'
      rw [ht, Option.some.injEq] at ht'
      exact hc (ht' ▸ List.getElem_mem hi')

theorem idxOf_eq (h : s.SeenBy id threads) (hs : s.Sound) {t : ThreadId} {c : CellId}
    (hc : s.cellOf? t id = some c) : threads.idxOf t = (s.cellsOf id).idxOf c := by
  unfold SeenBy at h
  generalize s.cellsOf id = cells at h
  induction h with
  | nil => rfl
  | @cons c' t' cs threads ht hts ih =>
      by_cases heq : t = t'
      · subst heq
        rw [hc, Option.some.injEq] at ht
        subst ht
        rw [List.idxOf_cons_self, List.idxOf_cons_self]
      · have hne : c ≠ c' := by
          rintro rfl
          exact heq (hs.cellOf?_inj hc ht).1
        rw [List.idxOf_cons_ne _ (Ne.symm heq), List.idxOf_cons_ne _ (Ne.symm hne), ih]

/-- The values in the order of the visits are what the threads see. -/
theorem map_valuesOf (h : s.SeenBy id threads) (hs : s.Sound) :
    (s.valuesOf id).map some = threads.map (s.get? · id) := by
  unfold valuesOf
  unfold SeenBy at h
  generalize s.cellsOf id = cells at h
  induction h with
  | nil => rfl
  | @cons c t cs threads ht hts ih =>
      have hget : s.get? t id = s.cell? c := by simp [get?, ht]
      obtain ⟨v, hv⟩ := Option.isSome_iff_exists.1 (hs.filled_of_cellOf? ht)
      rw [List.map_cons, hget, hv, List.filterMap_cons, hv]
      simp only [List.map_cons, ih]

theorem length_eq_boundCount (h : s.SeenBy id threads) : threads.length = s.boundCount id :=
  h.length_eq.symm

end SeenBy

end Locals

end Hosted
