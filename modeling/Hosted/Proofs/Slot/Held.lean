import Hosted.Proofs.Slot.Preservation
import Mathlib.Data.List.Sigma

/-!
# The handles that a table holds

A slot table seen as the list of the handles it holds, one for each index that is not
free. An allocation adds the handle it gives out and a release takes one away; the
table has room as long as it holds fewer handles than its limit.
-/

namespace Hosted

namespace SlotTable

variable {t t' : SlotTable} {h : SlotHandle} {i seq : Nat}

theorem eq_of_index_of_seq {g h : SlotHandle} (hindex : g.index = h.index)
    (hseq : g.seq = h.seq) : g = h := by
  cases g
  cases h
  exact congrArg₂ SlotHandle.mk hindex hseq

/-- The handles that the table holds, by index. -/
def held (t : SlotTable) : List SlotHandle :=
  (t.seqs.zipIdx.map fun p => ⟨p.2, p.1⟩).filter (·.seq ≠ 0)

/-- The table has not grown beyond its limit. -/
def Fits (t : SlotTable) : Prop := t.seqs.length ≤ t.limit

theorem mem_held : h ∈ t.held ↔ t.seqs[h.index]? = some h.seq ∧ h.seq ≠ 0 := by
  simp only [held, List.mem_filter, List.mem_map, decide_eq_true_eq]
  constructor
  · rintro ⟨⟨p, hp, rfl⟩, hpos⟩
    exact ⟨List.mem_zipIdx_iff_getElem?.1 hp, hpos⟩
  · rintro ⟨hmark, hpos⟩
    exact ⟨⟨(h.seq, h.index), List.mem_zipIdx_iff_getElem?.2 hmark, rfl⟩, hpos⟩

theorem nodup_held (t : SlotTable) : t.held.Nodup := by
  refine List.Nodup.filter _ ?_
  have hindices := List.nodup_zipIdx_map_snd t.seqs
  refine List.Nodup.of_map SlotHandle.index ?_
  rwa [List.map_map]

theorem inUse_eq_length (t : SlotTable) : t.inUse = t.held.length := by
  have hseqs : (t.seqs.zipIdx.map Prod.fst).countP (· ≠ 0) = t.held.length := by
    rw [held, ← List.countP_eq_length_filter, List.countP_map, List.countP_map]
    rfl
  rwa [List.zipIdx_map_fst] at hseqs

/-- A handle with a number of its own is live while the table holds it. -/
theorem isLive_iff (hpos : h.seq ≠ 0) : t.isLive h = true ↔ h ∈ t.held := by
  simp [isLive, mem_held, hpos]

/-- An index with a mark is held. -/
theorem exists_held (hlt : i < t.seqs.length) (hpos : t.seqs[i] ≠ 0) :
    ∃ h ∈ t.held, h.index = i :=
  ⟨⟨i, t.seqs[i]⟩, mem_held.2 ⟨List.getElem?_eq_getElem hlt, hpos⟩, rfl⟩

/-- A handle with the number 0 is live at every index that is free: the mark of a free index
is compared like any other. -/
theorem isLive_iff_of_zero (hzero : h.seq = 0) :
    t.isLive h = true ↔ h.index < t.seqs.length ∧ ∀ g ∈ t.held, g.index ≠ h.index := by
  rw [isLive, decide_eq_true_eq, hzero]
  constructor
  · intro hmark
    refine ⟨(List.getElem?_eq_some_iff.1 hmark).1, fun g hg heq => ?_⟩
    obtain ⟨hseq, hpos⟩ := mem_held.1 hg
    rw [heq, hmark, Option.some.injEq] at hseq
    exact hpos hseq.symm
  · rintro ⟨hlt, hfree⟩
    by_contra hmark
    have hpos : t.seqs[h.index] ≠ 0 := by
      intro hseq
      rw [List.getElem?_eq_getElem hlt, hseq] at hmark
      exact hmark rfl
    obtain ⟨g, hg, hindex⟩ := exists_held hlt hpos
    exact hfree g hg hindex

/-! ## Allocation -/

/-- In a table within its limit, a free index is below the limit. -/
theorem Fits.freeIndex?_some (ht : t.Fits) (hi : t.seqs.findIdx? (· = 0) = some i) :
    t.freeIndex? = some i := by
  obtain ⟨hlt, -⟩ := List.findIdx?_eq_some_iff_getElem.1 hi
  have hlimit : i < t.limit := Nat.lt_of_lt_of_le hlt ht
  simp [freeIndex?, hi, hlimit]

theorem freeIndex?_none (hi : t.seqs.findIdx? (· = 0) = none) :
    t.freeIndex? = if t.seqs.length < t.limit then some t.seqs.length else none := by
  simp [freeIndex?, hi]

/-- An allocation of a table within its limit takes the lowest index that no handle
has. -/
theorem Fits.freeIndex?_least (ht : t.Fits) (hi : t.freeIndex? = some i) :
    i < t.limit ∧ (∀ h ∈ t.held, h.index ≠ i) ∧ ∀ j < i, ∃ h ∈ t.held, h.index = j := by
  cases hf : t.seqs.findIdx? (· = 0) with
  | some k =>
      rw [ht.freeIndex?_some hf, Option.some.injEq] at hi
      subst hi
      obtain ⟨hlt, hzero, hbelow⟩ := List.findIdx?_eq_some_iff_getElem.1 hf
      refine ⟨Nat.lt_of_lt_of_le hlt ht, ?_, ?_⟩
      · rintro h hh rfl
        obtain ⟨hmark, hpos⟩ := mem_held.1 hh
        rw [List.getElem?_eq_getElem hlt, Option.some.injEq] at hmark
        exact hpos (hmark ▸ of_decide_eq_true hzero)
      · intro j hj
        exact exists_held (Nat.lt_trans hj hlt) (by simpa using hbelow j hj)
  | none =>
      rw [freeIndex?_none hf] at hi
      split at hi
      · next hlimit =>
          obtain rfl := Option.some.inj hi
          refine ⟨hlimit, ?_, ?_⟩
          · intro h hh heq
            obtain ⟨hlt, -⟩ := List.getElem?_eq_some_iff.1 (mem_held.1 hh).1
            exact Nat.ne_of_lt hlt heq
          · intro j hj
            have hpos := List.findIdx?_eq_none_iff.1 hf t.seqs[j] (List.getElem_mem hj)
            exact exists_held hj (by simpa using hpos)
      · cases hi

/-- There is an index to take as long as fewer handles are held than the limit allows. -/
theorem Fits.isSome_freeIndex? (ht : t.Fits) :
    t.freeIndex?.isSome = true ↔ t.held.length < t.limit := by
  rw [← inUse_eq_length, inUse]
  cases hf : t.seqs.findIdx? (· = 0) with
  | some k =>
      obtain ⟨hlt, hzero, -⟩ := List.findIdx?_eq_some_iff_getElem.1 hf
      have hfree : t.seqs.countP (· ≠ 0) < t.seqs.length := by
        refine Nat.lt_of_le_of_ne List.countP_le_length fun hall => ?_
        have hpos := List.countP_eq_length.1 hall t.seqs[k] (List.getElem_mem hlt)
        exact of_decide_eq_true hpos (of_decide_eq_true hzero)
      rw [ht.freeIndex?_some hf]
      exact iff_of_true rfl (Nat.lt_of_lt_of_le hfree ht)
  | none =>
      have hall : t.seqs.countP (· ≠ 0) = t.seqs.length := by
        refine List.countP_eq_length.2 fun x hx => ?_
        simpa using List.findIdx?_eq_none_iff.1 hf x hx
      rw [freeIndex?_none hf, hall]
      split <;> simp [*]

/-- An allocation succeeds if there is an index to take. -/
theorem exists_allocate_iff (t : SlotTable) (seq : Nat) :
    (∃ h t', t.allocate seq = .ok (h, t')) ↔ t.freeIndex?.isSome = true := by
  unfold allocate
  cases t.freeIndex? with
  | none => exact iff_of_false (fun ⟨_, _, hok⟩ => nomatch hok) Bool.false_ne_true
  | some i => exact iff_of_true ⟨_, _, rfl⟩ rfl

/-- The new handle joins those that are held. -/
theorem Fits.held_mark (ht : t.Fits) (hi : t.freeIndex? = some i) (hpos : seq ≠ 0) :
    (t.mark i seq).held.Perm (⟨i, seq⟩ :: t.held) := by
  obtain ⟨-, hfree, -⟩ := ht.freeIndex?_least hi
  have hle : i ≤ t.seqs.length := le_of_freeIndex? hi
  have hnew : (⟨i, seq⟩ : SlotHandle) ∉ t.held := fun hh => hfree _ hh rfl
  refine (List.perm_ext_iff_of_nodup (nodup_held _) (List.nodup_cons.2 ⟨hnew, nodup_held t⟩)).2 ?_
  rintro ⟨j, x⟩
  rw [List.mem_cons, mem_held, getElem?_mark _ _ _ _ hle, SlotHandle.mk.injEq]
  by_cases hj : j = i
  · subst hj
    have hout : (⟨j, x⟩ : SlotHandle) ∉ t.held := fun hh => hfree _ hh rfl
    simp only [if_true, Option.some.injEq, true_and, hout, or_false]
    exact ⟨fun h => h.1.symm, fun h => ⟨h.symm, h ▸ hpos⟩⟩
  · simp [hj, mem_held]

theorem Fits.mark (ht : t.Fits) (hi : t.freeIndex? = some i) (seq : Nat) :
    (t.mark i seq).Fits := by
  obtain ⟨hlimit, -⟩ := ht.freeIndex?_least hi
  unfold Fits SlotTable.mark at *
  split
  · rwa [List.length_set]
  · next hlen =>
      rw [List.length_append, List.length_singleton]
      change t.seqs.length + 1 ≤ t.limit
      omega

/-- The table has grown to the index that is taken. -/
theorem lt_length_mark_iff (hi : t.freeIndex? = some i) (seq : Nat) {j : Nat} :
    j < (t.mark i seq).seqs.length ↔ j = i ∨ j < t.seqs.length := by
  have hle := le_of_freeIndex? hi
  unfold mark
  split
  · rw [List.length_set]
    omega
  · rw [List.length_append, List.length_singleton]
    omega

theorem limit_mark (t : SlotTable) (i seq : Nat) : (t.mark i seq).limit = t.limit := by
  unfold mark
  split <;> rfl

/-! ## Release -/

/-- A handle that the table does not hold changes nothing. -/
theorem release_of_not_mem (hpos : h.seq ≠ 0) (hh : h ∉ t.held) : t.release h = (t, false) := by
  have hlive : ¬t.isLive h = true := fun hlive => hh ((isLive_iff hpos).1 hlive)
  rw [release, if_neg hlive]

theorem release_of_mem (hh : h ∈ t.held) :
    t.release h = ({ t with seqs := t.seqs.set h.index 0 }, true) := by
  have hlive : t.isLive h = true := (isLive_iff (mem_held.1 hh).2).2 hh
  rw [release, if_pos hlive]

theorem release_snd (hpos : h.seq ≠ 0) : (t.release h).2 = true ↔ h ∈ t.held := by
  by_cases hh : h ∈ t.held
  · simp [release_of_mem hh, hh]
  · simp [release_of_not_mem hpos hh, hh]

/-- A handle that the table does not hold takes nothing from it. The number 0 may be at the
index already, and then it is put there once more. -/
theorem release_fst_of_not_mem (hh : h ∉ t.held) : (t.release h).1 = t := by
  by_cases hlive : t.isLive h = true
  · have hmark : t.seqs[h.index]? = some h.seq := of_decide_eq_true hlive
    have hseq : h.seq = 0 := by_contra fun hpos => hh (mem_held.2 ⟨hmark, hpos⟩)
    obtain ⟨hlt, hget⟩ := List.getElem?_eq_some_iff.1 hmark
    have hset : t.seqs.set h.index 0 = t.seqs := by
      rw [← hseq, ← hget, List.set_getElem_self]
    rw [release, if_pos hlive, hset]
  · rw [release, if_neg hlive]

/-- The handle that is released is not held any more, all others are. -/
theorem held_release (t : SlotTable) (h : SlotHandle) :
    (t.release h).1.held.Perm (t.held.filter (· ≠ h)) := by
  refine (List.perm_ext_iff_of_nodup (nodup_held _) ((nodup_held t).filter _)).2 ?_
  intro g
  simp only [List.mem_filter, decide_eq_true_eq]
  by_cases hh : h ∈ t.held
  · rw [release_of_mem hh, mem_held, mem_held, List.getElem?_set]
    obtain ⟨hmark, -⟩ := mem_held.1 hh
    by_cases hg : h.index = g.index
    · obtain ⟨hlt, -⟩ := List.getElem?_eq_some_iff.1 hmark
      rw [if_pos hg, if_pos (hg ▸ hlt), ← hg, hmark]
      simp only [Option.some.injEq]
      refine iff_of_false (fun hzero => hzero.2 hzero.1.symm) ?_
      rintro ⟨⟨hseq, -⟩, hne⟩
      exact hne (eq_of_index_of_seq hg.symm hseq.symm)
    · have hne : g ≠ h := fun heq => hg (heq ▸ rfl)
      simp [hg, hne]
  · rw [release_fst_of_not_mem hh]
    exact ⟨fun hg => ⟨hg, fun heq => hh (heq ▸ hg)⟩, fun hg => hg.1⟩

theorem release_snd_eq (t : SlotTable) (h : SlotHandle) : (t.release h).2 = t.isLive h := by
  unfold release
  split
  · next hlive => exact hlive.symm
  · next hlive => exact (Bool.eq_false_iff.2 hlive).symm

/-- One handle less is held after it has been released. -/
theorem inUse_release (hh : h ∈ t.held) : (t.release h).1.inUse + 1 = t.inUse := by
  have herase : t.held.filter (· ≠ h) = t.held.erase h := by
    rw [t.nodup_held.erase_eq_filter]
    exact List.filter_congr fun g _ => by by_cases hg : g = h <;> simp [hg]
  rw [inUse_eq_length, inUse_eq_length, (t.held_release h).length_eq, herase,
    List.length_erase_add_one hh]

theorem length_release (t : SlotTable) (h : SlotHandle) :
    (t.release h).1.seqs.length = t.seqs.length := by
  unfold release
  split
  · exact List.length_set
  · rfl

theorem Fits.release (ht : t.Fits) (h : SlotHandle) : (t.release h).1.Fits := by
  unfold SlotTable.release
  split
  · exact Nat.le_trans (Nat.le_of_eq List.length_set) ht
  · exact ht

theorem limit_release (t : SlotTable) (h : SlotHandle) : (t.release h).1.limit = t.limit := by
  unfold release
  split <;> rfl

end SlotTable

end Hosted
