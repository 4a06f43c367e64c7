import Hosted.World.ThreadLocals

/-!
# The notices that an operation gives

Notices are only ever added. `Gives P w w'` says that those added on the way from `w`
to `w'` all satisfy `P`. What is done to locales and facets is `Plain`: it neither
frees the value of a thread local nor reports that a teardown was refused.
-/

namespace Hosted

namespace Notice

/-- The tag of the value that was freed. -/
def freedTag? : Notice → Option String
  | freed tag => some tag
  | _ => none

/-- Why a teardown could not be queued. -/
def refusal? : Notice → Option Fault
  | logged (.teardownRefused f) => some f
  | _ => none

/-- Neither a value freed nor a teardown refused. -/
structure Plain (n : Notice) : Prop where
  freedTag? : n.freedTag? = none
  refusal? : n.refusal? = none

end Notice

namespace World

/-- The notices given on the way from `w` to `w'` satisfy `P`. -/
def Gives (P : Notice → Prop) (w w' : World) : Prop :=
  ∃ new, w'.notices = w.notices ++ new ∧ ∀ n ∈ new, P n

namespace Gives

variable {P Q : Notice → Prop} {w w₁ w₂ : World}

theorem of_eq (h : w₁.notices = w.notices) : w.Gives P w₁ :=
  ⟨[], h.trans (List.append_nil _).symm, fun _ hn => nomatch hn⟩

theorem refl (w : World) : w.Gives P w := of_eq rfl

theorem trans (h : w.Gives P w₁) (h' : w₁.Gives P w₂) : w.Gives P w₂ := by
  obtain ⟨new, hnew, hall⟩ := h
  obtain ⟨new', hnew', hall'⟩ := h'
  refine ⟨new ++ new', by rw [hnew', hnew, List.append_assoc], ?_⟩
  intro n hn
  rcases List.mem_append.1 hn with hn | hn
  · exact hall n hn
  · exact hall' n hn

theorem mono (h : w.Gives P w₁) (hPQ : ∀ n, P n → Q n) : w.Gives Q w₁ := by
  obtain ⟨new, hnew, hall⟩ := h
  exact ⟨new, hnew, fun n hn => hPQ n (hall n hn)⟩

theorem notify {n : Notice} (hn : P n) (w : World) : w.Gives P (w.notify n) :=
  ⟨[n], rfl, fun _ hmem => List.mem_singleton.1 hmem ▸ hn⟩

theorem foldl {β : Type} {f : World → β → World} (hf : ∀ w b, Gives P w (f w b))
    (w : World) (bs : List β) : w.Gives P (bs.foldl f w) :=
  bs.foldlRecOn f (refl w) fun w' h b _ => h.trans (hf w' b)

/-- What no notice given has a value for, the list of the values does not change. -/
theorem filterMap_eq {β : Type} {f : Notice → Option β} (h : w.Gives (f · = none) w₁) :
    w₁.notices.filterMap f = w.notices.filterMap f := by
  obtain ⟨new, hnew, hall⟩ := h
  rw [hnew, List.filterMap_append, List.filterMap_eq_nil_iff.2 hall, List.append_nil]

end Gives

/-! ## Locales and facets -/

theorem plain_releaseFacet (w : World) (f : FacetId) : w.Gives Notice.Plain (w.releaseFacet f) := by
  unfold releaseFacet
  simp only
  split
  · exact .notify ⟨rfl, rfl⟩ _
  · exact .of_eq rfl

theorem plain_releaseFacets (w : World) (fs : List FacetId) :
    w.Gives Notice.Plain (w.releaseFacets fs) :=
  Gives.foldl plain_releaseFacet w fs

theorem plain_releaseLocale (w : World) (l : LocaleId) :
    w.Gives Notice.Plain (w.releaseLocale l) := by
  unfold releaseLocale
  simp only
  split
  · refine Gives.trans ?_ (plain_releaseFacets _ _)
    exact ⟨_, rfl, fun n hn => List.mem_singleton.1 hn ▸ ⟨rfl, rfl⟩⟩
  · exact .of_eq rfl

end World

end Hosted
