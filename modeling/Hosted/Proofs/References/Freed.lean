import Hosted.Proofs.References.Exchange
import Hosted.Proofs.World.Classics
import Mathlib.Data.List.Induction

/-!
# What a row of releases destroys

References are given up one after the other, and each release of a last reference destroys its
object. Where there is a reference for every place of the row, an object of the row is destroyed
if there is no other reference to it, at the last of its places. So a row that is released from its
end destroys objects at their first places, and in the decreasing order of these.
-/

namespace Hosted

namespace Shared

variable {α : Type} {s : Shared α} {ids : List Nat} {id : Nat}

/-- The objects that are destroyed as references to `ids` are given up, in the order in which they
are. -/
def freed (s : Shared α) : List Nat → List Nat
  | [] => []
  | id :: ids =>
    let rest := freed (s.release id).1 ids
    if (s.release id).2.isSome then id :: rest else rest

/-- There is a reference for every place of the row. -/
def Backs (s : Shared α) (ids : List Nat) : Prop := ∀ id, ids.count id ≤ s.refs id

theorem isSome_release (h : 0 < s.refs id) : (s.release id).2.isSome ↔ s.refs id = 1 := by
  obtain ⟨o, -, hrefs, hrelease⟩ := release_of_refs_pos h
  rw [hrelease, ← hrefs]
  by_cases hone : o.refs = 1 <;> simp [hone]

namespace Backs

theorem refs_pos (h : s.Backs ids) (hid : id ∈ ids) : 0 < s.refs id :=
  Nat.lt_of_lt_of_le (List.count_pos_iff.2 hid) (h id)

theorem reverse (h : s.Backs ids) : s.Backs ids.reverse := fun id => by
  rw [List.count_reverse]
  exact h id

/-- One reference of a row is given up, and those for the rest of the row are still there. -/
theorem release (h : s.Backs (id :: ids)) : (s.release id).1.Backs ids := by
  intro id'
  have hle := h id'
  have hrefs := refs_release (h.refs_pos List.mem_cons_self) id'
  rw [List.count_cons] at hle
  simp only [beq_iff_eq, eq_comm (a := id)] at hle
  omega

end Backs

/-- Destroyed are those to which there is no reference but those of the row. -/
theorem mem_freed (h : s.Backs ids) :
    id ∈ s.freed ids ↔ id ∈ ids ∧ s.refs id = ids.count id := by
  induction ids generalizing s with
  | nil => simp [freed]
  | cons first ids ih =>
      have hpos := h.refs_pos List.mem_cons_self
      have hrefs := refs_release hpos id
      rw [freed]
      by_cases hid : id = first
      · subst hid
        rw [if_pos rfl] at hrefs
        have hle := h id
        rw [List.count_cons_self] at hle ⊢
        have hlater : id ∈ (s.release id).1.freed ids ↔
            id ∈ ids ∧ s.refs id = ids.count id + 1 := by
          rw [ih h.release]
          exact and_congr_right fun _ => by omega
        by_cases hlast : (s.release id).2.isSome
        · have hone := (isSome_release hpos).1 hlast
          rw [if_pos hlast]
          simp only [List.mem_cons, true_or, true_and, true_iff]
          omega
        · have hmore := mt (isSome_release hpos).2 hlast
          rw [if_neg hlast, hlater, and_congr_left_iff]
          intro hall
          have hagain : id ∈ ids := List.count_pos_iff.1 (by omega)
          simp [hagain]
      · rw [if_neg hid, Nat.add_zero] at hrefs
        have hlater : id ∈ (s.release first).1.freed ids ↔
            id ∈ first :: ids ∧ s.refs id = (first :: ids).count id := by
          rw [ih h.release, hrefs, List.count_cons_of_ne (Ne.symm hid), List.mem_cons]
          simp only [hid, false_or]
        split
        · rw [List.mem_cons, hlater]
          simp only [hid, false_or]
        · exact hlater

/-- A row that is released from its end destroys first what has the last first place. -/
theorem pairwise_freed_reverse (h : s.Backs ids) :
    (s.freed ids.reverse).Pairwise fun a b => ids.idxOf b < ids.idxOf a := by
  induction ids using List.reverseRecOn generalizing s with
  | nil => exact List.Pairwise.nil
  | append_singleton ids last ih =>
      have hreverse := h.reverse
      rw [List.reverse_concat'] at hreverse ⊢
      have hmem : ∀ {id}, id ∈ (s.release last).1.freed ids.reverse → id ∈ ids :=
        fun hid => List.mem_reverse.1 ((mem_freed hreverse.release).1 hid).1
      have hlater : ((s.release last).1.freed ids.reverse).Pairwise fun a b =>
          (ids ++ [last]).idxOf b < (ids ++ [last]).idxOf a := by
        have hbacks := hreverse.release.reverse
        rw [List.reverse_reverse] at hbacks
        refine (ih hbacks).imp_of_mem fun ha hb hlt => ?_
        rwa [List.idxOf_append_of_mem (hmem ha), List.idxOf_append_of_mem (hmem hb)]
      rw [freed]
      split
      · next hsome =>
          refine List.pairwise_cons.2 ⟨fun id hid => ?_, hlater⟩
          -- The reference at the end was the last one, so the object has no other place.
          have hone := (isSome_release (hreverse.refs_pos List.mem_cons_self)).1 hsome
          have hle := hreverse last
          rw [List.count_cons_self, List.count_reverse, hone] at hle
          have honly : last ∉ ids := List.count_eq_zero.1 (by omega)
          rw [List.idxOf_append_of_mem (hmem hid), List.idxOf_append_of_notMem honly]
          exact Nat.lt_of_lt_of_le (List.idxOf_lt_length_of_mem (hmem hid)) (Nat.le_add_right _ _)
      · exact hlater

theorem nodup_freed_reverse (h : s.Backs ids) : (s.freed ids.reverse).Nodup := by
  refine (pairwise_freed_reverse h).imp ?_
  rintro a b hlt rfl
  exact Nat.lt_irrefl _ hlt

end Shared

namespace World

variable {w : World}

/-- What is noticed as a row of facets is destroyed. -/
def farewells (w : World) (fs : List FacetId) : List Notice :=
  fs.flatMap fun f => (w.facets.body? f).elim [] Facet.farewell

theorem facets_releaseFacet (w : World) (f : FacetId) :
    (w.releaseFacet f).facets = (w.facets.release f).1 := by
  unfold releaseFacet
  simp only
  split <;> rfl

theorem notices_releaseFacet (w : World) (f : FacetId) :
    (w.releaseFacet f).notices =
      w.notices ++ if (w.facets.release f).2.isSome then w.farewells [f] else [] := by
  cases ho : w.facets.objects[f]? with
  | none => simp [releaseFacet, Shared.release, ho]
  | some o =>
      rw [releaseFacet_eq ho, farewells, List.flatMap_singleton, Shared.body?, Shared.release, ho]
      by_cases hone : o.refs = 1 <;> simp [hone]

/-- A row of releases gives up a reference for every place of the row. -/
theorem refs_releaseFacets {fs : List FacetId} (h : w.facets.Backs fs) (f : FacetId) :
    (w.releaseFacets fs).facets.refs f + fs.count f = w.facets.refs f := by
  induction fs generalizing w with
  | nil => rfl
  | cons first fs ih =>
      have hrefs := Shared.refs_release (h.refs_pos List.mem_cons_self) f
      have hrest := h.release
      rw [← facets_releaseFacet] at hrefs hrest
      have hnext := ih hrest
      rw [List.count_cons]
      simp only [beq_iff_eq, eq_comm (a := first)]
      change ((w.releaseFacet first).releaseFacets fs).facets.refs f + _ = _
      omega

/-- Each facet that a row of releases destroys says farewell. -/
theorem notices_releaseFacets (w : World) (fs : List FacetId) :
    (w.releaseFacets fs).notices = w.notices ++ w.farewells (w.facets.freed fs) := by
  induction fs generalizing w with
  | nil => exact (List.append_nil _).symm
  | cons f fs ih =>
      have hbody : World.farewells (w.releaseFacet f) = w.farewells := by
        funext fs
        simp only [farewells, facets_releaseFacet, Shared.body?_release]
      have hnext := ih (w.releaseFacet f)
      rw [hbody, facets_releaseFacet, notices_releaseFacet, List.append_assoc] at hnext
      rw [Shared.freed]
      refine hnext.trans (congrArg (w.notices ++ ·) ?_)
      split
      · exact List.flatMap_append.symm
      · rfl

end World

end Hosted
