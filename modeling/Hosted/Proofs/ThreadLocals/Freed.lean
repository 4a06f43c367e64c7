import Hosted.Proofs.ThreadLocals.Operations
import Hosted.Proofs.World.Notices

/-!
# Values that are freed

The environment notices the tag of every value that it frees. For each operation on
thread locals: which tags are added to those noticed before, in order.
-/

namespace Hosted

/-- The tag that is noticed when the value is freed. -/
def Payload.tag? : Payload → Option String
  | tracked tag => some tag
  | setting _ => none

namespace World

open Locals

variable {w : World} {t : ThreadId} {id : LocalId} {v : Payload} {l : Local}

/-- The tags of the values that were freed, in order. -/
def freedTags (w : World) : List String := w.notices.filterMap Notice.freedTag?

theorem Gives.freedTags {w' : World} (h : w.Gives Notice.Plain w') :
    w'.freedTags = w.freedTags :=
  (h.mono fun _ hn => hn.freedTag?).filterMap_eq

theorem freedTags_log (w : World) (o : Occurrence) : (w.log o).freedTags = w.freedTags :=
  (Gives.notify (P := (·.freedTag? = none)) rfl w).filterMap_eq

theorem freedTags_discard (w : World) (v : Payload) :
    (w.discard v).freedTags = w.freedTags ++ v.tag?.toList := by
  cases v with
  | tracked tag => exact List.filterMap_append
  | setting l =>
      refine Eq.trans ?_ (List.append_nil _).symm
      cases l with
      | none => rfl
      | some l => exact (w.plain_releaseLocale l).freedTags

/-- Values that are freed one after the other, whatever is counted in between. -/
theorem freedTags_foldl {f : World → Payload → World}
    (hf : ∀ w v, (f w v).freedTags = w.freedTags ++ v.tag?.toList) (w : World)
    (vs : List Payload) : (vs.foldl f w).freedTags = w.freedTags ++ vs.filterMap Payload.tag? := by
  induction vs generalizing w with
  | nil => exact (List.append_nil _).symm
  | cons v vs ih =>
      rw [List.foldl_cons, ih, hf, List.append_assoc]
      cases htag : v.tag? <;> simp [htag]

theorem freedTags_takeSlot (w : World) : w.takeSlot.1.freedTags = w.freedTags := by
  unfold takeSlot
  split
  · exact freedTags_log _ _
  · exact freedTags_log _ _

theorem freedTags_giveSlot (w : World) (h : SlotHandle) :
    (w.giveSlot h).1.freedTags = w.freedTags := by
  unfold giveSlot
  simp only
  split <;> rfl

/-- A value that is bound is kept, and one that is refused is freed at once. -/
theorem freedTags_bindValue (w : World) (t : ThreadId) (id : LocalId) (v : Payload) :
    (w.bindValue t id v).1.freedTags =
      match (w.bindValue t id v).2 with
      | .ok _ => w.freedTags
      | .error _ => w.freedTags ++ v.tag?.toList := by
  unfold bindValue
  split
  · rfl
  · next locals f _ =>
      have hdiscard := freedTags_discard { w with locals } v
      cases f with
      | bindFailed index => exact (freedTags_log _ _).trans hdiscard
      | _ => exact hdiscard

theorem freedTags_dropLocal (w : World) (t : ThreadId) (id : LocalId) :
    (w.dropLocal t id).freedTags =
      w.freedTags ++ (w.locals.valuesOf id).filterMap Payload.tag? := by
  cases hl : w.locals.local? id with
  | none =>
      rw [dropLocal_none hl, valuesOf, cellsOf_of_local?_none hl]
      exact (List.append_nil _).symm
  | some l =>
      obtain ⟨s', hd, -⟩ := detach_some hl t
      unfold dropLocal
      rw [hd]
      exact (freedTags_giveSlot _ _).trans (freedTags_foldl freedTags_discard _ _)

theorem freedTags_endThread (w : World) (t : ThreadId) :
    (w.endThread t).freedTags = w.freedTags ++ (w.locals.endThread t).2.filterMap Payload.tag? := by
  have hfree := freedTags_foldl (f := fun w v => (w.discard v).tally .valuesFreed)
    freedTags_discard { w with locals := (w.locals.endThread t).1 } (w.locals.endThread t).2
  unfold endThread
  simp only
  split
  · exact hfree
  · exact (freedTags_log _ _).trans hfree

/-- The value is freed if the thread local could not be made. -/
theorem freedTags_tryNewLocal (w : World) (t : ThreadId) (v : Payload) :
    (w.tryNewLocal t v).1.freedTags =
      match (w.tryNewLocal t v).2 with
      | .ok _ => w.freedTags
      | .error _ => w.freedTags ++ v.tag?.toList := by
  have htags := w.freedTags_takeSlot
  rcases w.takeSlot_cases with ⟨w₁, htake, -⟩ | ⟨w₁, h, htake, -⟩
  · rw [tryNewLocal_of_takeSlot_error htake]
    rw [htake] at htags
    exact (freedTags_discard w₁ v).trans (congrArg (· ++ _) htags)
  · rw [tryNewLocal_of_takeSlot_ok htake]
    rw [htake] at htags
    have hnew := w₁.local?_withLocal h
    have hbind := freedTags_bindValue (w₁.withLocal h) t w₁.locals.locals.length v
    have hsame : (w₁.withLocal h).freedTags = w.freedTags := htags
    rcases bindValue_cases hnew t v with ⟨-, w₂, hb, hlocals⟩ | ⟨-, w₂, hb, -⟩
    · have hnone : w₂.locals.valuesOf w₁.locals.locals.length = [] := by
        rw [hlocals, valuesOf, cellsOf_of_local? hnew]
        rfl
      rw [hb, hsame] at hbind
      rw [hb]
      refine (freedTags_dropLocal _ _ _).trans ?_
      rw [hnone]
      exact (List.append_nil _).trans hbind
    · rw [hb, hsame] at hbind
      rw [hb]
      exact hbind

end World

end Hosted
