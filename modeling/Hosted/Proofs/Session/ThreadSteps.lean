import Hosted.Proofs.Session.FacetSteps

/-!
# Steps on slots and thread locals, and the end of a thread

The thread locals of a session are not those in which registries keep the settings of
threads, so none of these steps moves a reference, but for the end of a thread, which
gives up the references in its settings. A slot may be given back unless a live thread
local holds it.
-/

namespace Hosted.Session

open World

variable {s : Session} {extra : Multiset Holding} {t : ThreadId} {id : LocalId}

/-! ## Slots -/

/-- What a slot is given back by. -/
def slot? (s : Session) : SlotRef → Option SlotHandle
  | .named name => s.slots.find? name
  | .written h => some (s.writtenSlot h)

/-- No live thread local holds the slot. -/
def Free (s : Session) (ref : SlotRef) : Prop :=
  ∀ h, s.slot? ref = some h → ∀ id l, s.world.locals.local? id = some l → l.handle ≠ h

theorem Valid.withSlot {ref : SlotRef} {go : SlotHandle → Session × Outcome}
    (h : s.Valid extra) (hgo : ∀ hd, s.slot? ref = some hd → s.Leads extra (go hd).1 extra) :
    s.Leads extra (s.withSlot ref go).1 extra := by
  cases ref with
  | named name => exact h.withNamed fun hd hhd => hgo hd hhd
  | written hd => exact hgo _ rfl

theorem Valid.putTable (h : s.Valid extra) (name : String) (table : SlotTable) :
    s.Leads extra (s.putTable name table) extra :=
  h.rehold rfl rfl fun hkept => { h with kept := hkept }

theorem Valid.answerSlot (h : s.Valid extra) (keep : Option String) (hd : SlotHandle) :
    s.Leads extra (s.answerSlot keep hd).1 extra := by
  cases keep with
  | none => exact h.refl
  | some name => exact h.rehold rfl rfl fun hkept => { h with kept := hkept }

theorem Valid.slotStep (h : s.Valid extra) {step : SlotStep}
    (hfree : ∀ ref, step = .give ref → s.Free ref) :
    s.Leads extra (s.slotStep step).1 extra := by
  cases step with
  | makeTable table limit => exact h.putTable _ _
  | allocateIn table keep =>
      refine h.withNamed fun body _ => ?_
      cases body.allocate s.world.locals.nextSeq with
      | error f => exact h.refl
      | ok made =>
          have hseq : s.Leads extra s.useSeq extra := h.onStep .numbered
          have hput := hseq.valid.putTable table made.2
          exact (hseq.trans hput).trans (hput.valid.answerSlot keep made.1)
  | releaseIn table handle =>
      exact h.withNamed fun body _ => h.withSlot fun hd _ => h.putTable _ _
  | isLiveIn table handle => exact h.withNamed fun _ _ => h.withSlot fun _ _ => h.refl
  | inspectTable table => exact h.withNamed fun _ _ => h.refl
  | take keep =>
      have htake := h.onStep .took
      simp only [Session.slotStep, Session.perform]
      generalize s.world.takeSlot = taken at htake ⊢
      obtain ⟨w, result⟩ := taken
      cases result with
      | error f => exact htake
      | ok hd => exact htake.trans (htake.valid.answerSlot keep hd)
  | give ref => exact h.withSlot fun hd hhd => h.onStep (.gave hd (hfree ref rfl hd hhd))
  | inUse => exact h.refl

/-! ## Thread locals -/

theorem Valid.letGo (h : s.Valid extra) (t : ThreadId) (hid : s.world.OfCallers id) :
    s.Leads extra (s.letGo t id) extra := by
  unfold Session.letGo
  split
  · exact h.refl
  · exact h.onStep (.droppedLocal t id hid.2)

theorem Valid.keepLocal (h : s.Valid extra) (t : ThreadId) (name : String)
    (hid : s.world.OfCallers id) : s.Leads extra (s.keepLocal t name id) extra := by
  have hput : s.Leads extra { s with locals := s.locals.put name id } extra := by
    refine h.rehold rfl rfl fun hkept => { h with locals := ?_, kept := hkept }
    intro id' hid'
    rcases mem_localIds.1 hid' with hid' | hrun
    · rcases Names.mem_values_put hid' with rfl | hid'
      · exact hid
      · exact h.locals id' (mem_localIds.2 (Or.inl hid'))
    · exact h.locals id' (mem_localIds.2 (Or.inr hrun))
  unfold Session.keepLocal
  cases hbefore : s.locals.find? name with
  | none => exact hput
  | some before =>
      refine hput.trans (hput.valid.letGo t ?_)
      exact h.locals before (mem_localIds.2 (Or.inl (Names.mem_values_of_find? hbefore)))

theorem Valid.ofCallers (h : s.Valid extra) {name : String}
    (hid : s.locals.find? name = some id) : s.world.OfCallers id :=
  h.locals id (mem_localIds.2 (Or.inl (Names.mem_values_of_find? hid)))

/-- A thread without a value binds the one that is made for it. -/
theorem Valid.tryGetOr (h : s.Valid extra) (t : ThreadId) (hid : s.world.OfCallers id)
    (init : World → World × Payload)
    (hinit : ∀ w, w.Aside (init w).1 ∧ ∃ text, (init w).2 = .tracked text) :
    s.Leads extra { s with world := (s.world.tryGetOr t id init).1 } extra := by
  have hget := h.onStep (.gotLocal t id)
  cases hv : s.world.locals.get? t id with
  | some v =>
      rw [tryGetOr_of_some hv]
      exact hget
  | none =>
      rw [tryGetOr_of_none hv]
      obtain ⟨haside, text, htext⟩ := hinit (s.world.getLocal t id).1
      have hinit' := hget.valid.aside haside
      rw [htext]
      refine (hget.trans hinit').trans (hinit'.valid.onStep (.bound t id text ?_))
      exact ((hget.trans hinit').ofCallers h hid).2

theorem Valid.getOr (h : s.Valid extra) (t : ThreadId) (hid : s.world.OfCallers id)
    (init : World → World × Payload)
    (hinit : ∀ w, w.Aside (init w).1 ∧ ∃ text, (init w).2 = .tracked text) :
    s.Leads extra { s with world := (s.world.getOr t id init).1 } extra := by
  have htry := h.tryGetOr t hid init hinit
  unfold World.getOr
  generalize s.world.tryGetOr t id init = got at htry ⊢
  obtain ⟨w, result⟩ := got
  cases result with
  | ok v => exact htry
  | error f => exact htry.trans (htry.valid.aside (w.aside_raise f))

theorem Valid.tryNewLocal (h : s.Valid extra) (t : ThreadId) (tag : String) :
    s.Leads extra { s with world := (s.world.tryNewLocal t (.tracked tag)).1 } extra ∧
      ∀ id, (s.world.tryNewLocal t (.tracked tag)).2 = .ok id →
        (s.world.tryNewLocal t (.tracked tag)).1.OfCallers id :=
  ⟨h.onStep (.madeLocal t tag), fun _ => h.kept.ofCallers_of_tryNewLocal⟩

theorem Valid.newLocal (h : s.Valid extra) (t : ThreadId) (tag : String) :
    s.Leads extra { s with world := (s.world.newLocal t (.tracked tag)).1 } extra ∧
      ∀ id, (s.world.newLocal t (.tracked tag)).2 = .ok id →
        (s.world.newLocal t (.tracked tag)).1.OfCallers id := by
  obtain ⟨htry, hid⟩ := h.tryNewLocal t tag
  unfold World.newLocal
  generalize s.world.tryNewLocal t (.tracked tag) = made at htry hid ⊢
  obtain ⟨w, result⟩ := made
  cases result with
  | ok id => exact ⟨htry, hid⟩
  | error f => exact ⟨htry.trans (htry.valid.aside (w.aside_raise f)), fun id hok => nomatch hok⟩

/-! ## Accesses -/

theorem Valid.ofCallers_access (h : s.Valid extra) {run : ThreadRun}
    (hrun : run = s.main ∨ run ∈ s.threads.values) {a : Access} (ha : a ∈ run.accesses) :
    s.world.OfCallers a.target :=
  h.locals _ (mem_localIds.2 (Or.inr ⟨run, hrun, a, ha, rfl⟩))

/-- A thread is put under a name with accesses to thread locals of callers. -/
theorem Valid.putThread (h : s.Valid extra) (name : String) (run : ThreadRun)
    (hrun : ∀ a ∈ run.accesses, s.world.OfCallers a.target) :
    s.Leads extra { s with threads := s.threads.put name run } extra := by
  refine h.rehold rfl rfl fun hkept => { h with locals := ?_, kept := hkept }
  intro id hid
  rcases mem_localIds.1 hid with hid | ⟨run', hrun', a, ha, rfl⟩
  · exact h.locals id (mem_localIds.2 (Or.inl hid))
  · rcases hrun' with hmain | hrun'
    · exact h.ofCallers_access (Or.inl hmain) ha
    · rcases Names.mem_values_put hrun' with rfl | hrun'
      · exact hrun a ha
      · exact h.ofCallers_access (Or.inr hrun') ha

/-- The access waits with the thread, if there is one of that name. -/
theorem Valid.putOff (h : s.Valid extra) (on : Option String) {a : Access}
    (ha : s.world.OfCallers a.target) : s.Leads extra (s.putOff on a) extra := by
  have hadd : ∀ {run : ThreadRun}, (run = s.main ∨ run ∈ s.threads.values) →
      ∀ b ∈ run.accesses ++ [a], s.world.OfCallers b.target := by
    intro run hrun b hb
    rcases List.mem_append.1 hb with hb | hb
    · exact h.ofCallers_access hrun hb
    · rw [List.mem_singleton.1 hb]
      exact ha
  cases on with
  | none =>
      refine h.rehold rfl rfl fun hkept => { h with locals := ?_, kept := hkept }
      intro id hid
      rcases mem_localIds.1 hid with hid | ⟨run', hmain | hrun', b, hb, rfl⟩
      · exact h.locals id (mem_localIds.2 (Or.inl hid))
      · subst hmain
        exact hadd (Or.inl rfl) b hb
      · exact h.ofCallers_access (Or.inr hrun') hb
  | some name =>
      simp only [Session.putOff]
      cases hrun : s.threads.find? name with
      | none => exact h.refl
      | some run =>
          apply h.putThread name _
          exact hadd (Or.inr (Names.mem_values_of_find? hrun))

/-! ## Steps on thread locals -/

theorem aside_initialValue (tag : String) (w : World) :
    w.Aside (initialValue tag w).1 ∧ ∃ text, (initialValue tag w).2 = .tracked text :=
  ⟨w.aside_notify rfl, tag, rfl⟩

theorem extendPayload_tracked (suffix : String) (i : Nat) (text : String) :
    ∃ text', extendPayload suffix i (.tracked text) = .tracked text' := ⟨_, rfl⟩

theorem Valid.localStep (h : s.Valid extra) (on : Option String) (t : ThreadId)
    (step : LocalStep) : s.Leads extra (s.localStep on t step).1 extra := by
  cases step with
  | make name tag fatal =>
      have hmade : let made := if fatal then s.world.newLocal t (.tracked tag)
            else s.world.tryNewLocal t (.tracked tag)
          s.Leads extra { s with world := made.1 } extra ∧
            ∀ id, made.2 = .ok id → made.1.OfCallers id := by
        cases fatal with
        | false => exact h.tryNewLocal t tag
        | true => exact h.newLocal t tag
      simp only [Session.localStep, Session.perform]
      generalize (if fatal then s.world.newLocal t (.tracked tag)
        else s.world.tryNewLocal t (.tracked tag)) = made at hmade ⊢
      obtain ⟨w, result⟩ := made
      obtain ⟨hmade, hid⟩ := hmade
      cases result with
      | error f => exact hmade
      | ok id => exact hmade.trans (hmade.valid.keepLocal t name (hid id rfl))
  | get name => exact h.withNamed fun id _ => h.onStep (.gotLocal t id)
  | getOr name tag fatal =>
      refine h.withNamed fun id hid => ?_
      have hgot : let got := if fatal then s.world.getOr t id (initialValue tag)
            else s.world.tryGetOr t id (initialValue tag)
          s.Leads extra { s with world := got.1 } extra := by
        cases fatal with
        | false => exact h.tryGetOr t (h.ofCallers hid) _ (aside_initialValue tag)
        | true => exact h.getOr t (h.ofCallers hid) _ (aside_initialValue tag)
      simp only [Session.perform]
      generalize (if fatal then s.world.getOr t id (initialValue tag)
        else s.world.tryGetOr t id (initialValue tag)) = got at hgot ⊢
      obtain ⟨w, result⟩ := got
      cases result <;> exact hgot
  | deref name =>
      refine h.withNamed fun id _ => ?_
      have hget := h.onStep (.gotLocal t id)
      simp only [Session.perform, World.deref]
      generalize s.world.getLocal t id = got at hget ⊢
      obtain ⟨w, v⟩ := got
      cases v with
      | some v => exact hget
      | none => exact hget.trans (hget.valid.aside (World.aside_raise _ _))
  | each name => exact h.withNamed fun _ _ => h.refl
  | extend name suffix =>
      exact h.withNamed fun id hid =>
        h.onStep (.changed id (h.ofCallers hid).2 (extendPayload_tracked suffix))
  | handle name keep => exact h.withNamed fun id _ => h.answerSlot keep _
  | drop name =>
      refine h.withNamed fun id hid => ?_
      have herase : s.Leads extra { s with locals := s.locals.erase name } extra := by
        refine h.rehold rfl rfl fun hkept => { h with locals := ?_, kept := hkept }
        intro id' hid'
        refine h.locals id' (mem_localIds.2 ?_)
        exact (mem_localIds.1 hid').imp_left Names.mem_values_erase
      exact herase.trans (herase.valid.letGo t (h.ofCallers hid))
  | text name => exact h.withNamed fun id _ => h.onStep (.gotLocal t id)
  | atExit name kind tag =>
      exact h.withNamed fun id hid => h.putOff on (h.ofCallers hid)

/-! ## The end of a thread -/

theorem Valid.access (h : s.Valid extra) (t : ThreadId) {a : Access}
    (ha : s.world.OfCallers a.target) :
    s.Leads extra { s with world := access s.world t a } extra := by
  obtain ⟨kind, id, tag⟩ := a
  cases kind with
  | get =>
      have hget := h.onStep (.gotLocal t id)
      exact hget.trans (hget.valid.aside (World.aside_notify _ rfl))
  | getOr =>
      have hget := h.tryGetOr t ha (fun w => (w, .tracked tag)) fun w =>
        ⟨Aside.refl w, tag, rfl⟩
      exact hget.trans (hget.valid.aside (World.aside_notify _ rfl))
  | make =>
      obtain ⟨hmade, hid⟩ := h.tryNewLocal t tag
      simp only [Session.access]
      generalize s.world.tryNewLocal t (.tracked tag) = made at hmade hid ⊢
      obtain ⟨w, result⟩ := made
      cases result with
      | error f => exact hmade.trans (hmade.valid.aside (w.aside_notify rfl))
      | ok id =>
          have hdrop := hmade.valid.onStep (.droppedLocal t id (hid id rfl).2)
          exact (hmade.trans hdrop).trans (hdrop.valid.aside (World.aside_notify _ rfl))

theorem Valid.makeAccesses (h : s.Valid extra) (name : String) (t : ThreadId)
    {accesses : List Access} (haccesses : ∀ a ∈ accesses, s.world.OfCallers a.target) :
    s.Leads extra (s.makeAccesses name t accesses) extra := by
  induction accesses generalizing s with
  | nil => exact h.refl
  | cons a rest ih =>
      obtain ⟨ha, hrest⟩ := List.forall_mem_cons.1 haccesses
      have haccess := h.access t ha
      have hput := haccess.valid.putThread name { id := t, accesses := rest }
        fun b hb => haccess.ofCallers h (hrest b hb)
      have hgo := (haccess.trans hput).trans
        (hput.valid.letGo t ((haccess.trans hput).ofCallers h ha))
      exact hgo.trans (ih hgo.valid fun b hb => hgo.ofCallers h (hrest b hb))

theorem Valid.endThread (h : s.Valid extra) (name : String) :
    s.Leads extra (s.endThread name).1 extra := by
  simp only [Session.endThread]
  cases hrun : s.threads.find? name with
  | none => exact h.refl
  | some run =>
      have haccesses : ∀ a ∈ run.accesses, s.world.OfCallers a.target := fun a ha =>
        h.ofCallers_access (Or.inr (Names.mem_values_of_find? hrun)) ha
      have herase : ∀ {s' : Session}, s'.Valid extra →
          s'.Leads extra { s' with threads := s'.threads.erase name } extra := by
        intro s' hs'
        refine hs'.rehold rfl rfl fun hkept => { hs' with locals := ?_, kept := hkept }
        intro id hid
        refine hs'.locals id (mem_localIds.2 ?_)
        rcases mem_localIds.1 hid with hid | ⟨run', hrun', hid⟩
        · exact Or.inl hid
        · exact Or.inr ⟨run', hrun'.imp_right Names.mem_values_erase, hid⟩
      simp only
      split
      · have hend : s.Leads extra (s.onWorld (·.endThread run.id)) extra :=
          h.onStep (.threadEnded run.id)
        have hmade := hend.trans (hend.valid.makeAccesses name run.id fun a ha =>
          hend.ofCallers h (haccesses a ha))
        exact hmade.trans (herase hmade.valid)
      · have hmade := h.makeAccesses name run.id haccesses
        have hend := hmade.trans (hmade.valid.onStep (.threadEnded run.id))
        exact hend.trans (herase hend.valid)

end Hosted.Session
