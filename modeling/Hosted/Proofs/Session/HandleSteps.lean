import Hosted.Proofs.Session.Answers

/-!
# Steps on raw handles

As long as a handle has its name, references are held through it. A step that only looks
at handles leaves the session as it was.
-/

namespace Hosted.Session

open World

variable {s : Session} {extra : Multiset Holding} {e : Event} {l : LocaleId}

/-! ## Handles -/

theorem Valid.mem_of_handle (h : s.Valid extra) {name : String} {raw : RawHandle}
    (hraw : s.handles.find? name = some raw) : Holding.locale raw.locale ∈ extra + s.hand := by
  have hheld := h.gripped raw (Names.mem_values_of_find? hraw)
  have hgrip : Holding.locale raw.locale ∈ grip raw :=
    List.mem_replicate.2 ⟨Nat.ne_of_gt hheld, rfl⟩
  have hmem := Names.mem_hold_of_find? hraw hgrip
  simp only [hand, Multiset.mem_add, hmem, true_or, or_true]

theorem Valid.releaseTimes {raw : RawHandle} (h : s.Valid ((grip raw : Multiset Holding) + extra)) :
    s.Leads ((grip raw : Multiset Holding) + extra) (s.releaseTimes raw.locale raw.held)
      extra := by
  have hgrip : grip raw = (List.replicate raw.held raw.locale).map Holding.locale :=
    List.map_replicate.symm
  rw [hgrip] at h ⊢
  exact h.releaseLocales

theorem Valid.releaseTimes? {raw : Option RawHandle}
    (h : s.Valid ((raw.elim [] grip : List Holding) + extra)) :
    s.Leads ((raw.elim [] grip : List Holding) + extra)
      (raw.elim s fun raw => s.releaseTimes raw.locale raw.held) extra := by
  cases raw with
  | none => exact h.refl.of_eq (Multiset.zero_add _)
  | some raw => exact h.releaseTimes

theorem Valid.answerHandle (h : s.Valid (.locale l ::ₘ extra)) (keep : Option String) :
    s.Leads (.locale l ::ₘ extra) (s.answerHandle keep l).1 extra := by
  cases keep with
  | none => exact h.releaseLocale
  | some name =>
      rw [← Multiset.singleton_add] at h ⊢
      have hput : s.Leads _ { s with handles := s.handles.put name ⟨l, 1⟩ } _ :=
        h.putHandle Nat.one_pos (Multiset.add_comm _ _)
      exact hput.trans hput.valid.releaseTimes?

theorem Valid.answerHandleOf (h : s.Valid extra) (op : World → World × LocaleId)
    (hstep : World.Step s.world (extra + s.hand) e (op s.world).1
      (.locale (op s.world).2 ::ₘ (extra + s.hand))) (keep : Option String) :
    s.Leads extra ((s.perform op).1.answerHandle keep (s.perform op).2).1 extra := by
  have hgain := h.gain hstep
  exact hgain.trans (hgain.valid.answerHandle keep)

/-- One of the references of a handle is taken out of it. -/
theorem Valid.loosen (h : s.Valid extra) {name : String} {raw : RawHandle}
    (hraw : s.handles.find? name = some raw) :
    s.Leads extra (s.loosen name raw) (.locale raw.locale ::ₘ extra) := by
  have hheld := h.gripped raw (Names.mem_values_of_find? hraw)
  unfold Session.loosen
  by_cases hlast : raw.held ≤ 1
  · have hone : raw.held = 1 := Nat.le_antisymm hlast hheld
    have hgrip : (grip raw : Multiset Holding) + extra = .locale raw.locale ::ₘ extra := by
      rw [grip, hone]
      rfl
    rw [if_pos hlast, ← hgrip]
    exact h.eraseHandle hraw
  · have hgrip : grip raw = .locale raw.locale :: grip { raw with held := raw.held - 1 } := by
      obtain ⟨n, hn⟩ := Nat.exists_eq_add_one.2 hheld
      simp only [grip, hn, Nat.add_sub_cancel]
      rfl
    have hnew : 0 + (((s.handles.find? name).elim [] grip : List Holding) : Multiset Holding) =
        {.locale raw.locale} + (grip { raw with held := raw.held - 1 } : Multiset Holding) := by
      rw [hraw, Option.elim_some, hgrip, Multiset.zero_add]
      rfl
    rw [← Multiset.zero_add extra] at h
    have hput := h.putHandle (Nat.sub_pos_of_lt (Nat.not_le.1 hlast)) hnew
    rw [Multiset.zero_add, Multiset.singleton_add] at hput
    rw [if_neg hlast]
    exact hput

/-- One more reference is held through a handle. -/
theorem Valid.tighten {name : String} {raw : RawHandle}
    (h : s.Valid (.locale raw.locale ::ₘ extra)) (hraw : s.handles.find? name = some raw) :
    s.Leads (.locale raw.locale ::ₘ extra)
      { s with handles := s.handles.put name { raw with held := raw.held + 1 } } extra := by
  have hnew : {.locale raw.locale} + (((s.handles.find? name).elim [] grip : List Holding) :
      Multiset Holding) = 0 + (grip { raw with held := raw.held + 1 } : Multiset Holding) := by
    rw [hraw, Option.elim_some, Multiset.zero_add]
    rfl
  rw [← Multiset.singleton_add] at h ⊢
  exact (h.putHandle (Nat.succ_pos _) hnew).of_eq (Multiset.zero_add _)

theorem Valid.withHandle {ref : HandleRef} {ifNull : Outcome}
    {go : String → RawHandle → Session × Outcome} (h : s.Valid extra)
    (hgo : ∀ name raw, s.handles.find? name = some raw → s.Leads extra (go name raw).1 extra) :
    s.Leads extra (s.withHandle ref ifNull go).1 extra := by
  cases ref with
  | null => exact h.refl
  | named name => exact h.withNamed fun raw hraw => hgo name raw hraw

theorem Valid.withRegistryForC {t : ThreadId} {go : Session → RegistryId → Session × Outcome}
    (h : s.Valid extra)
    (hgo : ∀ w r, ({ s with world := w } : Session).Valid extra → (w.registry? r).isSome →
      ({ s with world := w } : Session).Leads extra (go { s with world := w } r).1 extra) :
    s.Leads extra (s.withRegistryForC t go).1 extra := h.withRegistry (r := .own) hgo

/-! ## Steps -/

/-- The step only looks at handles. -/
def HandleStep.Borrows : HandleStep → Prop
  | .name _ _ | .isTransparent _ | .covers _ _ | .same _ _ => True
  | _ => False

theorem handleStep_of_borrows {step : HandleStep} (hstep : step.Borrows) (s : Session)
    (t : ThreadId) : (s.handleStep t step).1 = s := by
  cases step <;> first | rfl | cases hstep

theorem Valid.handleStep (h : s.Valid 0) (t : ThreadId) (step : HandleStep) :
    s.Leads 0 (s.handleStep t step).1 0 := by
  cases step with
  | classic keep =>
      exact h.withRegistryForC fun w r hw hr =>
        hw.answerHandleOf (·.classicLocale r) (.classic hr) keep
  | «global» keep =>
      exact h.withRegistryForC fun w r hw hr =>
        hw.answerHandleOf (·.globalLocale r) (.global hr) keep
  | empty keep =>
      exact h.withRegistryForC fun w r hw hr =>
        hw.answerHandleOf (·.emptyLocale r) (.empty hr) keep
  | replaceGlobal handle keep =>
      refine h.withHandle fun name raw hraw => h.withRegistryForC fun w r hw hr => ?_
      exact hw.answerHandleOf (·.replaceGlobal r raw.locale) (.replaced hr (hw.mem_of_handle hraw))
        keep
  | retain handle =>
      refine h.withHandle fun name raw hraw => ?_
      have hretain := h.retainLocale (h.mem_of_handle hraw)
      exact hretain.trans (hretain.valid.tighten hraw)
  | release handle =>
      refine h.withHandle fun name raw hraw => ?_
      have hloosen := h.loosen hraw
      exact hloosen.trans hloosen.valid.releaseLocale
  | name handle buffer => exact h.refl
  | isTransparent handle => exact h.refl
  | covers handle category => exact h.refl
  | same first second => exact h.refl
  | toLocale handle keep =>
      refine h.withHandle fun name raw hraw => ?_
      have hloosen := h.loosen hraw
      exact hloosen.trans (hloosen.valid.answerLocale keep)
  | ofLocale locale keep =>
      refine h.withNamed fun l hl => ?_
      have hretain := h.retainLocale (h.mem_of_locale hl)
      exact hretain.trans (hretain.valid.answerHandle keep)

end Hosted.Session
