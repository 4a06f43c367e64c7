import Hosted.Proofs.References.Holders
import Hosted.World.Exits

/-!
# Runs of exit tables

While a table runs it has given out its handlers and takes no more, so of its handlers
only the teardowns of registries do anything beyond giving notices. A run is then its
teardowns, one after the other, with notices in between.
-/

namespace Hosted.World

variable {w w' w'' : World} {t : TableId}

/-- `w'` differs from `w` in what was counted and in notices only, and nothing has been
destroyed. -/
structure Aside (w w' : World) : Prop where
  locales : w'.locales = w.locales
  facets : w'.facets = w.facets
  indices : w'.indices = w.indices
  unmoved : w.Unmoved w'
  notices : ∃ new, w'.notices = w.notices ++ new ∧ new.filterMap Notice.remains? = []

namespace Aside

theorem refl (w : World) : w.Aside w :=
  ⟨rfl, rfl, rfl, Unmoved.refl w, [], (List.append_nil _).symm, rfl⟩

theorem trans (h : w.Aside w') (h' : w'.Aside w'') : w.Aside w'' where
  locales := h'.locales.trans h.locales
  facets := h'.facets.trans h.facets
  indices := h'.indices.trans h.indices
  unmoved := h.unmoved.trans h'.unmoved
  notices := by
    obtain ⟨new, hnew, hnone⟩ := h.notices
    obtain ⟨new', hnew', hnone'⟩ := h'.notices
    refine ⟨new ++ new', by rw [hnew', hnew, List.append_assoc], ?_⟩
    rw [List.filterMap_append, hnone, hnone', List.append_nil]

end Aside

theorem aside_notify (w : World) {n : Notice} (hn : n.remains? = none) : w.Aside (w.notify n) :=
  ⟨rfl, rfl, rfl, w.unmoved_notify n, [n], rfl, by simp [hn]⟩

theorem aside_tally (w : World) (which : Counter) : w.Aside (w.tally which) :=
  ⟨rfl, rfl, rfl, w.unmoved_tally which, [], (List.append_nil _).symm, rfl⟩

theorem aside_count (w : World) (which : Counter) (n : Nat) : w.Aside (w.count which n) :=
  ⟨rfl, rfl, rfl, w.unmoved_count which n, [], (List.append_nil _).symm, rfl⟩

theorem aside_raise (w : World) (f : Fault) : w.Aside (w.raise f) :=
  (w.aside_tally _).trans (aside_notify _ rfl)

theorem aside_reportRecorded (w : World) (index : Option Nat) (count : Nat) :
    w.Aside (w.reportRecorded index count) :=
  (w.aside_tally _).trans (aside_notify _ rfl)

/-- The registries that the handlers of a table are to tear down, in the order they were
registered. -/
def toTearDown (table : ExitTable Handler) : List RegistryId :=
  table.handlers.filterMap fun
    | .teardown r => some r
    | .report _ _ => none

theorem mem_toTearDown_iff {table : ExitTable Handler} {r : RegistryId} :
    r ∈ toTearDown table ↔ .teardown r ∈ table.handlers := by
  unfold toTearDown
  rw [List.mem_filterMap]
  constructor
  · rintro ⟨handler, hmem, hr⟩
    cases handler with
    | report tag actions => cases hr
    | teardown r' =>
        rw [← Option.some.inj hr]
        exact hmem
  · exact fun hmem => ⟨_, hmem, rfl⟩

/-! ## Tables that have run -/

theorem runTableWithin_of_ran (hran : (w.exitTable t).ran = true) (depth : Nat) :
    runTableWithin depth w t = (w, 0) := by
  cases depth with
  | zero => rfl
  | succ depth =>
      unfold runTableWithin ExitTable.start
      rw [if_pos hran]

theorem runTable_of_ran (hran : (w.exitTable t).ran = true) : w.runTable t = (w, 0) :=
  runTableWithin_of_ran hran _

theorem aside_perform (hran : (w.exitTable t).ran = true) (depth : Nat)
    (action : HandlerAction) : w.Aside (perform (runTableWithin depth) t w action) := by
  cases action with
  | look => exact w.aside_notify rfl
  | run =>
      simp only [perform, runTableWithin_of_ran hran]
      exact w.aside_notify rfl
  | register tag =>
      simp only [perform, register_of_ran hran]
      exact (w.aside_notify rfl).trans (aside_notify _ rfl)

/-- A handler that reports gives notices only. -/
theorem aside_report (hran : (w.exitTable t).ran = true) (depth : Nat) (tag : String)
    (actions : List HandlerAction) :
    w.Aside (runHandler (runTableWithin depth) t w (.report tag actions)) := by
  have hactions : ∀ w : World, (w.exitTable t).ran = true →
      w.Aside (actions.foldl (perform (runTableWithin depth) t) w) := by
    induction actions with
    | nil => exact fun w _ => Aside.refl w
    | cons action actions ih =>
        intro w hran
        have hstep := aside_perform hran depth action
        have hran' := (hstep.unmoved.exitTable t).symm ▸ hran
        exact hstep.trans (ih _ hran')
  have hnotify := w.aside_notify (n := .handlerRan tag) rfl
  exact hnotify.trans (hactions _ hran)

/-! ## The run -/

/-- What the running table `t` does for one handler. -/
def handle (depth : Nat) (t : TableId) (w : World) (h : Handler) : World :=
  (runHandler (runTableWithin depth) t w h).tally .exitHandlersRun

theorem aside_handle_report (hran : (w.exitTable t).ran = true) (depth : Nat) (tag : String)
    (actions : List HandlerAction) : w.Aside (w.handle depth t (.report tag actions)) :=
  (aside_report hran depth tag actions).trans (aside_tally _ _)

theorem aside_handle_teardown (w : World) (depth : Nat) (t : TableId) (r : RegistryId) :
    (w.teardown r).1.Aside (w.handle depth t (.teardown r)) := aside_tally _ _

theorem runTable_eq (ht : t < w.exits.length) (hran : (w.exitTable t).ran = false) :
    ∃ depth, w.runTable t =
      (((w.exitTable t).handlers.reverse.foldl (handle depth t)
          (w.setExitTable t { handlers := [], ran := true })).log
        (.handlersRan (w.exitTable t).handlers.length), (w.exitTable t).handlers.length) := by
  obtain ⟨depth, hdepth⟩ := Nat.exists_eq_add_one.2 (Nat.lt_of_le_of_lt (Nat.zero_le _) ht)
  refine ⟨depth, ?_⟩
  unfold runTable
  rw [hdepth, runTableWithin, ExitTable.start, hran]
  simp only [Bool.false_eq_true, if_false, List.length_reverse]
  rfl

theorem setExitTable_of_ge (ht : w.exits.length ≤ t) (table : ExitTable Handler) :
    w.setExitTable t table = w := by
  unfold setExitTable
  rw [List.set_eq_of_length_le ht]

/-- There is no such table. -/
theorem aside_runTable_of_ge (ht : w.exits.length ≤ t) : w.Aside (w.runTable t).1 := by
  have hnone : w.exitTable t = {} := by simp [exitTable, List.getElem?_eq_none ht]
  unfold runTable
  cases w.exits.length with
  | zero => exact Aside.refl w
  | succ depth =>
      rw [runTableWithin, hnone]
      simp only [ExitTable.start, Bool.false_eq_true, if_false, List.reverse_nil, List.foldl_nil,
        setExitTable_of_ge ht]
      exact w.aside_notify rfl

/-- A relation that the steps of such a release keep holds between its start and its end. -/
theorem releaseRecorded_induction {R : World → World → Prop} (hrefl : ∀ w, R w w)
    (htrans : ∀ {w w' w''}, R w w' → R w' w'' → R w w'')
    (htake : ∀ w r, R w (modifyRegistry w r ({ · with entries := [] })))
    (hfacet : ∀ w f, R w (w.releaseFacet f))
    (hcount : ∀ w n, R w (w.count .facetsReleased n))
    (hreleased : ∀ w n, R w (w.log (.facetsReleased n))) (w : World) (r : RegistryId) :
    R w (w.releaseRecorded r).1 := by
  have hfacets : ∀ (fs : List FacetId) w, R w (w.releaseFacets fs) := fun fs w =>
    fs.foldlRecOn releaseFacet (hrefl w) fun w' h f _ => htrans h (hfacet w' f)
  refine htrans (htake w r) (htrans (htrans ?_ (hcount _ _)) (hreleased _ _))
  exact hfacets _ _

/-- A relation that the steps of a teardown keep holds between its start and its end. -/
theorem teardown_induction {R : World → World → Prop} (hrefl : ∀ w, R w w)
    (htrans : ∀ {w w' w''}, R w w' → R w' w'' → R w w'')
    (hregistry : ∀ w r change, R w (modifyRegistry w r change))
    (hsettings : ∀ w id, R w (w.takeSettings id).1)
    (hlocale : ∀ w l, R w (w.releaseLocale l)) (hfacet : ∀ w f, R w (w.releaseFacet f))
    (hcount : ∀ w n, R w (w.count .facetsReleased n))
    (hreleased : ∀ w n, R w (w.log (.facetsReleased n)))
    (htorn : ∀ w report, R w (w.log (.tornDown report))) (w : World) (r : RegistryId) :
    R w (w.teardown r).1 := by
  have hfoldl : ∀ {f : World → Nat → World}, (∀ w n, R w (f w n)) →
      ∀ (ns : List Nat) w, R w (ns.foldl f w) := fun {f} hf ns w =>
    ns.foldlRecOn f (hrefl w) fun w' h n _ => htrans h (hf w' n)
  unfold teardown
  split
  · exact hrefl w
  · next g hg =>
      refine htrans ?_ (htorn _ _)
      refine htrans ?_ (releaseRecorded_induction hrefl htrans (fun w r => hregistry w r _) hfacet
        hcount hreleased _ r)
      refine htrans ?_ (hfoldl hfacet _ _)
      refine htrans ?_ (hfoldl hlocale _ _)
      refine htrans ?_ (hfoldl hlocale _ _)
      exact htrans (hregistry _ _ _) (hsettings _ _)

theorem exits_teardown (w : World) (r : RegistryId) : (w.teardown r).1.exits = w.exits :=
  teardown_induction (R := fun w w' => w'.exits = w.exits) (fun _ => rfl)
    (fun h h' => h'.trans h) (fun _ _ _ => rfl) (fun _ _ => rfl)
    (fun w l => (w.unmoved_releaseLocale l).exits) (fun w f => (w.unmoved_releaseFacet f).exits)
    (fun _ _ => rfl) (fun _ _ => rfl) (fun _ _ => rfl) w r

/-- What a run does is what its teardowns do, one after the other, if notices in between
do nothing. `P` is what teardowns need, and `R` says what became of the registries. -/
theorem foldl_handle {P : World → Prop} {R : World → List RegistryId → World → Prop}
    (haside : ∀ {w w'}, P w → w.Aside w' → P w' ∧ R w [] w')
    (hteardown : ∀ {w} r, P w → P (w.teardown r).1 ∧ R w [r] (w.teardown r).1)
    (htrans : ∀ {w w' w'' rs rs'}, R w rs w' → R w' rs' w'' → R w (rs ++ rs') w'')
    {t : TableId} (hran : (w.exitTable t).ran = true) (h : P w) (depth : Nat)
    (handlers : List Handler) :
    R w (toTearDown { handlers }) (handlers.foldl (handle depth t) w) := by
  induction handlers generalizing w with
  | nil => exact (haside h (Aside.refl w)).2
  | cons handler handlers ih =>
      rw [List.foldl_cons]
      cases handler with
      | report tag actions =>
          have hreport := aside_handle_report hran depth tag actions
          have hran' : ((w.handle depth t (.report tag actions)).exitTable t).ran = true := by
            rw [hreport.unmoved.exitTable, hran]
          have hone := haside h hreport
          exact htrans hone.2 (ih hran' hone.1)
      | teardown r =>
          have hcounted := w.aside_handle_teardown depth t r
          have hran' : ((w.handle depth t (.teardown r)).exitTable t).ran = true := by
            rw [hcounted.unmoved.exitTable, exitTable, exits_teardown]
            exact hran
          have hone := hteardown r h
          have htwo := haside hone.1 hcounted
          exact htrans (htrans hone.2 htwo.2) (ih hran' htwo.1)

/-- A relation that lets notices through and that teardowns keep holds between the start
and the end of a run. -/
theorem runTable_induction {R : World → World → Prop} (hrefl : ∀ w, R w w)
    (htrans : ∀ {w w' w''}, R w w' → R w' w'' → R w w'')
    (haside : ∀ {w w'}, w.Aside w' → R w w') (w : World) (t : TableId)
    (hstart : R w (w.setExitTable t { handlers := [], ran := true }))
    (hteardown : ∀ w r, R w (w.teardown r).1) : R w (w.runTable t).1 := by
  cases hran : (w.exitTable t).ran with
  | true =>
      rw [runTable_of_ran hran]
      exact hrefl w
  | false =>
      rcases Nat.lt_or_ge t w.exits.length with ht | ht
      · obtain ⟨depth, heq⟩ := runTable_eq ht hran
        rw [heq]
        have hran' := ran_setExitTable ht
        have hhandlers := foldl_handle (P := fun _ => True) (R := fun w _ w' => R w w')
          (fun _ ha => ⟨trivial, haside ha⟩) (fun r _ => ⟨trivial, hteardown _ r⟩) htrans hran'
          trivial depth (w.exitTable t).handlers.reverse
        exact htrans hstart (htrans hhandlers (haside (aside_notify _ rfl)))
      · exact haside (aside_runTable_of_ge ht)

end Hosted.World
