import Hosted.Proofs.World.Exits

/-!
# The protocol of exit tables

What a table does depends on the calls made on it only. It accepts handlers until its first
run, which executes each of them once, the newest first. From the start of that run on the
table is empty and closed, for the handlers that it is running too, so that whatever these
try with it comes to nothing. A handler that comes too late is released without having run.
-/

namespace Hosted

/-! ## Handlers of a running table -/

/-- What comes of a handler's action on the table that runs it. -/
def HandlerAction.notices : HandlerAction → List Notice
  | look => [.tableSeen 0 true]
  | run => [.nestedRun 0]
  | register tag =>
    [.discarded (.report tag []), .registration (.error .exitTableClosed)]

/-- What a handler says when it is run. -/
def Handler.notices : Handler → List Notice
  | report tag actions => .handlerRan tag :: actions.flatMap HandlerAction.notices
  | teardown _ => []

/-- The notice is about a handler, or it is a handler that gave it. -/
def Notice.ofHandler : Notice → Bool
  | handlerRan _ | discarded _ | tableSeen _ _ | nestedRun _ | registration _ => true
  | _ => false

theorem Handler.ofHandler_of_mem (h : Handler) : ∀ n ∈ h.notices, n.ofHandler = true := by
  cases h with
  | teardown r => exact fun _ hn => nomatch hn
  | report tag actions =>
      intro n hn
      rcases List.mem_cons.1 hn with rfl | hn
      · rfl
      · obtain ⟨action, -, hn⟩ := List.mem_flatMap.1 hn
        cases action with
        | look => exact List.mem_singleton.1 hn ▸ rfl
        | run => exact List.mem_singleton.1 hn ▸ rfl
        | register tag' =>
            rcases List.mem_pair.1 hn with rfl | rfl
            · rfl
            · rfl

namespace World

variable {w w' w₀ : World} {t : TableId} {depth : Nat}

/-- Executes one handler and counts it. -/
def execute (w : World) (h : Handler) : World :=
  (match h with
    | .report _ _ => { w with notices := w.notices ++ h.notices }
    | .teardown r => (w.teardown r).1).tally .exitHandlersRun

theorem exits_execute (w : World) (h : Handler) : (w.execute h).exits = w.exits := by
  cases h with
  | report tag actions => rfl
  | teardown r => exact w.exits_teardown r

theorem exits_foldl_execute (w : World) (hs : List Handler) :
    (hs.foldl execute w).exits = w.exits := by
  induction hs generalizing w with
  | nil => rfl
  | cons h hs ih => exact (ih _).trans (w.exits_execute h)

/-- To the handlers it runs a table is empty, has run, runs nothing and takes nothing. -/
theorem perform_of_closed (hclosed : w.exitTable t = ⟨[], true⟩) (action : HandlerAction) :
    perform (runTableWithin depth) t w action =
      { w with notices := w.notices ++ action.notices } := by
  have hran : (w.exitTable t).ran = true := by rw [hclosed]
  cases action with
  | look =>
      simp only [perform, hclosed, ExitTable.length, List.length_nil, HandlerAction.notices]
      rfl
  | run =>
      simp only [perform, runTableWithin_of_ran hran, HandlerAction.notices]
      rfl
  | register tag =>
      simp only [perform, register_of_ran hran, HandlerAction.notices, notify, List.append_assoc]
      rfl

theorem foldl_perform_of_closed (hclosed : w.exitTable t = ⟨[], true⟩)
    (actions : List HandlerAction) :
    actions.foldl (perform (runTableWithin depth) t) w =
      { w with notices := w.notices ++ actions.flatMap HandlerAction.notices } := by
  induction actions generalizing w with
  | nil => rw [List.foldl_nil, List.flatMap_nil, List.append_nil]
  | cons action actions ih =>
      have hclosed' : ({ w with notices := w.notices ++ action.notices } : World).exitTable t =
          ⟨[], true⟩ := hclosed
      rw [List.foldl_cons, perform_of_closed hclosed, ih hclosed', List.flatMap_cons,
        List.append_assoc]

theorem handle_of_closed (hclosed : w.exitTable t = ⟨[], true⟩) (h : Handler) :
    w.handle depth t h = w.execute h := by
  cases h with
  | teardown r => rfl
  | report tag actions =>
      have hclosed' : (w.notify (.handlerRan tag)).exitTable t = ⟨[], true⟩ := hclosed
      refine congrArg (tally · .exitHandlersRun)
        ((foldl_perform_of_closed hclosed' actions).trans ?_)
      rw [notify, List.append_assoc]
      rfl

theorem foldl_handle_of_closed (hclosed : w.exitTable t = ⟨[], true⟩) (hs : List Handler) :
    hs.foldl (handle depth t) w = hs.foldl execute w := by
  induction hs generalizing w with
  | nil => rfl
  | cons h hs ih =>
      rw [List.foldl_cons, List.foldl_cons, handle_of_closed hclosed]
      refine ih ?_
      rw [exitTable, exits_execute]
      exact hclosed

theorem exitTable_of_getElem? {table : ExitTable Handler} (ht : w.exits[t]? = some table) :
    w.exitTable t = table := by
  rw [exitTable, ht, Option.getD_some]

theorem getElem?_setExitTable {table : ExitTable Handler} (ht : w.exits[t]? = some table)
    (table' : ExitTable Handler) : (w.setExitTable t table').exits[t]? = some table' := by
  obtain ⟨hlt, -⟩ := List.getElem?_eq_some_iff.1 ht
  exact List.getElem?_set_self hlt

/-- The first run of a table. -/
theorem runTable_of_waiting {hs : List Handler} (ht : w.exits[t]? = some ⟨hs, false⟩) :
    w.runTable t = ((hs.reverse.foldl execute (w.setExitTable t ⟨[], true⟩)).log
      (.handlersRan hs.length), hs.length) := by
  obtain ⟨hlt, -⟩ := List.getElem?_eq_some_iff.1 ht
  have htable := exitTable_of_getElem? ht
  obtain ⟨depth, heq⟩ := runTable_eq hlt (by rw [htable])
  rw [heq, htable, foldl_handle_of_closed (exitTable_of_getElem? (getElem?_setExitTable ht _))]

/-! ## What a run says and counts -/

/-- From `w` to `w'` no handler has said anything, and none has been counted. -/
structure Unheard (w w' : World) : Prop where
  counted : w'.counters.get .exitHandlersRun = w.counters.get .exitHandlersRun
  said : w'.notices.filter Notice.ofHandler = w.notices.filter Notice.ofHandler

namespace Unheard

theorem refl (w : World) : w.Unheard w := ⟨rfl, rfl⟩

theorem trans {w'' : World} (h : w.Unheard w') (h' : w'.Unheard w'') : w.Unheard w'' :=
  ⟨h'.counted.trans h.counted, h'.said.trans h.said⟩

theorem notify (n : Notice) (hn : n.ofHandler = false) (w : World) : w.Unheard (w.notify n) := by
  refine ⟨rfl, ?_⟩
  change (w.notices ++ [n]).filter Notice.ofHandler = _
  rw [List.filter_append, List.filter_singleton, hn, Bool.cond_false, List.append_nil]

theorem add (which : Counter) {n : UInt64} (hwhich : which ≠ .exitHandlersRun)
    (hcounters : w'.counters = w.counters.add which n) (hnotices : w'.notices = w.notices) :
    w.Unheard w' := by
  refine ⟨?_, congrArg _ hnotices⟩
  rw [hcounters, Counters.get_add, if_neg hwhich.symm]

end Unheard

theorem unheard_releaseFacet (w : World) (f : FacetId) : w.Unheard (w.releaseFacet f) := by
  unfold releaseFacet
  simp only
  split
  · refine Unheard.trans ?_ (.notify (.dropped _ _) rfl _)
    exact ⟨rfl, rfl⟩
  · exact ⟨rfl, rfl⟩

theorem unheard_releaseLocale (w : World) (l : LocaleId) : w.Unheard (w.releaseLocale l) := by
  have hfacets : ∀ (fs : List FacetId) w, Unheard w (w.releaseFacets fs) := fun fs w =>
    fs.foldlRecOn releaseFacet (.refl w) fun w' h f _ => h.trans (w'.unheard_releaseFacet f)
  unfold releaseLocale
  simp only
  split
  · refine Unheard.trans ?_ (hfacets _ _)
    refine Unheard.trans ?_ (.notify (.logged _) rfl _)
    exact .add .localesDestroyed (by decide) rfl rfl
  · exact ⟨rfl, rfl⟩

theorem unheard_teardown (w : World) (r : RegistryId) : w.Unheard (w.teardown r).1 :=
  teardown_induction Unheard.refl Unheard.trans (fun _ _ _ => ⟨rfl, rfl⟩) (fun _ _ => ⟨rfl, rfl⟩)
    unheard_releaseLocale unheard_releaseFacet
    (fun _ _ => .add .facetsReleased (by decide) rfl rfl)
    (fun _ _ => .notify (.logged _) rfl _) (fun _ _ => .notify (.logged _) rfl _) w r

theorem get_execute (w : World) (h : Handler) :
    (w.execute h).counters.get .exitHandlersRun = w.counters.get .exitHandlersRun + 1 := by
  have htally : ∀ w : World, (w.tally .exitHandlersRun).counters.get .exitHandlersRun =
      w.counters.get .exitHandlersRun + 1 := by
    intro w
    change (w.counters.add .exitHandlersRun 1).get .exitHandlersRun = _
    rw [Counters.get_add, if_pos rfl]
  cases h with
  | report tag actions => exact htally _
  | teardown r => exact (htally _).trans (by rw [(w.unheard_teardown r).counted])

theorem get_foldl_execute (w : World) (hs : List Handler) :
    (hs.foldl execute w).counters.get .exitHandlersRun =
      w.counters.get .exitHandlersRun + hs.length.toUInt64 := by
  induction hs generalizing w with
  | nil => exact (UInt64.add_zero _).symm
  | cons h hs ih =>
      rw [List.foldl_cons, ih, get_execute, UInt64.add_assoc, UInt64.add_comm 1]
      exact congrArg _ (UInt64.ofNat_add _ 1).symm

theorem filter_notices_execute (w : World) (h : Handler) :
    (w.execute h).notices.filter Notice.ofHandler =
      w.notices.filter Notice.ofHandler ++ h.notices := by
  cases h with
  | report tag actions =>
      have hall := (Handler.report tag actions).ofHandler_of_mem
      refine (List.filter_append _ _).trans ?_
      rw [List.filter_eq_self.2 hall]
  | teardown r => exact (w.unheard_teardown r).said.trans (List.append_nil _).symm

theorem filter_notices_foldl_execute (w : World) (hs : List Handler) :
    (hs.foldl execute w).notices.filter Notice.ofHandler =
      w.notices.filter Notice.ofHandler ++ hs.flatMap Handler.notices := by
  induction hs generalizing w with
  | nil => exact (List.append_nil _).symm
  | cons h hs ih =>
      rw [List.foldl_cons, ih, filter_notices_execute, List.append_assoc, List.flatMap_cons]

/-! ## Calls on a table -/

end World

/-- A call on an exit table. -/
inductive TableCall where
  | register (h : Handler)
  | run
  deriving DecidableEq, Repr

namespace TableCall

/-- The handlers that are registered before the first run. -/
def accepted : List TableCall → List Handler
  | register h :: calls => h :: accepted calls
  | run :: _ | [] => []

/-- The table that the calls on a new one leave. -/
def table (calls : List TableCall) : ExitTable Handler :=
  if run ∈ calls then ⟨[], true⟩ else ⟨accepted calls, false⟩

theorem accepted_append {calls : List TableCall} (hrun : run ∉ calls) (later : List TableCall) :
    accepted (calls ++ later) = accepted calls ++ accepted later := by
  induction calls with
  | nil => rfl
  | cons call calls ih =>
      cases call with
      | run => exact absurd (List.mem_cons_self ..) hrun
      | register h =>
          have hcalls := ih fun hmem => hrun (List.mem_cons_of_mem _ hmem)
          exact congrArg (h :: ·) hcalls

theorem register_table (calls : List TableCall) (h : Handler) :
    (table calls).register h =
      if run ∈ calls then .error .exitTableClosed else .ok (table (calls ++ [register h])) := by
  unfold table
  by_cases hrun : run ∈ calls
  · rw [if_pos hrun, if_pos hrun]
    rfl
  · have hrun' : run ∉ calls ++ [register h] := by simp [hrun]
    rw [if_neg hrun, if_neg hrun, if_neg hrun', accepted_append hrun]
    rfl

theorem table_of_mem {calls : List TableCall} (hrun : run ∈ calls) : table calls = ⟨[], true⟩ :=
  if_pos hrun

end TableCall

namespace World

open TableCall (accepted)

variable {w w' w₀ : World} {t : TableId} {calls : List TableCall}

/-- The calls made on table `t` from `w₀` to `w`. Between them anything can happen that leaves
the table alone. -/
inductive Serves (t : TableId) (w₀ : World) : List TableCall → World → Prop
  | nil : Serves t w₀ [] w₀
  | elsewhere {calls : List TableCall} {w w' : World} (h : Serves t w₀ calls w)
      (hsame : w'.exits[t]? = w.exits[t]?) : Serves t w₀ calls w'
  | register {calls : List TableCall} {w : World} (h : Serves t w₀ calls w) (handler : Handler) :
      Serves t w₀ (calls ++ [.register handler]) (w.register t handler).1
  | run {calls : List TableCall} {w : World} (h : Serves t w₀ calls w) :
      Serves t w₀ (calls ++ [.run]) (w.runTable t).1

/-- What there is to know of a table on which `calls` have been made. -/
structure FollowsProtocol (w : World) (t : TableId) (calls : List TableCall) : Prop where
  table : w.exitTable t = TableCall.table calls
  /-- Before the first run the table takes any handler, afterwards none. -/
  register : ∀ h, (w.exitTable t).register h =
    if .run ∈ calls then .error .exitTableClosed else .ok ⟨accepted calls ++ [h], false⟩
  /-- One that is not taken is released. -/
  released : .run ∈ calls → ∀ h, w.register t h = (w.notify (.discarded h), .error .exitTableClosed)
  /-- The first run executes what was accepted, the newest first. -/
  firstRun : .run ∉ calls → w.runTable t =
    (((accepted calls).reverse.foldl execute (w.setExitTable t ⟨[], true⟩)).log
      (.handlersRan (accepted calls).length), (accepted calls).length)
  /-- Whichever handler it has come to, the table is empty and has run. -/
  whileRunning : .run ∉ calls → ∀ done, done <+: (accepted calls).reverse →
    (done.foldl execute (w.setExitTable t ⟨[], true⟩)).exitTable t = ⟨[], true⟩
  /-- Any other run does nothing. -/
  laterRun : .run ∈ calls → w.runTable t = (w, 0)
  /-- Each handler of the first run speaks once, and of an empty table that has run. -/
  said : (w.runTable t).1.notices.filter Notice.ofHandler =
    w.notices.filter Notice.ofHandler ++
      if .run ∈ calls then [] else (accepted calls).reverse.flatMap Handler.notices
  counted : (w.runTable t).1.counters.get .exitHandlersRun =
    w.counters.get .exitHandlersRun + (w.runTable t).2.toUInt64

theorem getElem?_runTable (ht : w.exits[t]? = some (TableCall.table calls)) :
    (w.runTable t).1.exits[t]? = some ⟨[], true⟩ := by
  by_cases hrun : .run ∈ calls
  · rw [TableCall.table_of_mem hrun] at ht
    rw [runTable_of_ran (by rw [exitTable_of_getElem? ht])]
    exact ht
  · have hwaiting := ht.trans (congrArg some (if_neg hrun))
    rw [runTable_of_waiting hwaiting]
    exact (congrArg (·[t]?) (exits_foldl_execute _ _)).trans (getElem?_setExitTable ht _)

/-- The calls alone determine the table. -/
theorem Serves.getElem? (h : Serves t w₀ calls w) (hnew : w₀.exits[t]? = some {}) :
    w.exits[t]? = some (TableCall.table calls) := by
  induction h with
  | nil => exact hnew
  | elsewhere h hsame ih => exact hsame.trans ih
  | @register calls w h handler ih =>
      have htable := exitTable_of_getElem? ih
      by_cases hrun : .run ∈ calls
      · have hran : (w.exitTable t).ran = true := by rw [htable, TableCall.table_of_mem hrun]
        rw [register_of_ran hran, TableCall.table_of_mem (List.mem_append_left _ hrun)]
        exact ih.trans (congrArg some (TableCall.table_of_mem hrun))
      · have haccepts := TableCall.register_table calls handler
        rw [if_neg hrun, ← htable] at haccepts
        simp only [World.register, haccepts]
        exact getElem?_setExitTable ih _
  | @run calls w h ih =>
      have hrun : .run ∈ calls ++ [TableCall.run] := List.mem_append_right _ List.mem_cons_self
      rw [getElem?_runTable ih, TableCall.table_of_mem hrun]

/-- However the calls are placed, the table follows the protocol. -/
theorem Serves.followsProtocol (h : Serves t w₀ calls w) (hnew : w₀.exits[t]? = some {}) :
    w.FollowsProtocol t calls := by
  have ht := h.getElem? hnew
  have htable := exitTable_of_getElem? ht
  by_cases hrun : .run ∈ calls
  · have hran : (w.exitTable t).ran = true := by rw [htable, TableCall.table_of_mem hrun]
    have hlater := runTable_of_ran hran
    refine ⟨htable, fun h => ?_, fun _ => register_of_ran hran, absurd hrun, absurd hrun,
      fun _ => hlater, ?_, ?_⟩
    · rw [htable, TableCall.register_table, if_pos hrun, if_pos hrun]
    · rw [hlater, if_pos hrun, List.append_nil]
    · rw [hlater]
      exact (UInt64.add_zero _).symm
  · have hwaiting : w.exits[t]? = some ⟨accepted calls, false⟩ :=
      ht.trans (congrArg some (if_neg hrun))
    have hfirst := runTable_of_waiting hwaiting
    have hlog : ∀ (w : World) n, w.Unheard (w.log (.handlersRan n)) := fun w n =>
      .notify (.logged _) rfl w
    refine ⟨htable, fun h => ?_, fun hlater => absurd hlater hrun, fun _ => hfirst,
      fun _ done _ => ?_, fun hlater => absurd hlater hrun, ?_, ?_⟩
    · rw [if_neg hrun, exitTable_of_getElem? hwaiting]
      rfl
    · rw [exitTable, exits_foldl_execute, getElem?_setExitTable hwaiting]
      rfl
    · rw [hfirst, (hlog _ _).said, filter_notices_foldl_execute, if_neg hrun]
      rfl
    · rw [hfirst, (hlog _ _).counted, get_foldl_execute, List.length_reverse]
      rfl

/-- A handler that looks at its table, runs it and registers another handler. -/
theorem Serves.followsProtocol_reentrant :
    let a := Handler.report "a" [.look, .run, .register "c"]
    let b := Handler.report "b" []
    let w := (fresh {}).setExitTable 0 ⟨[a, b], false⟩
    let w' := (w.runTable 0).1
    (Serves 0 (fresh {}) [.register a, .register b] w ∧
        (fresh {}).exits[0]? = some (ExitTable.mk [] false)) ∧
      (w.runTable 0).2 = 2 ∧ w'.counters.get .exitHandlersRun = 2 ∧
      w'.notices.filter Notice.ofHandler =
        [.handlerRan "b", .handlerRan "a", .tableSeen 0 true, .nestedRun 0,
          .discarded (.report "c" []), .registration (.error .exitTableClosed)] ∧
      (w'.exitTable 0).register b = .error .exitTableClosed ∧ w'.runTable 0 = (w', 0) := by
  intro a b w w'
  have ha : Serves 0 (fresh {}) [.register a] _ := Serves.nil.register a
  have hw : Serves 0 (fresh {}) [.register a, .register b] w := ha.register b
  have hw' : Serves 0 (fresh {}) [.register a, .register b, .run] w' := hw.run
  have h := hw.followsProtocol rfl
  have h' := hw'.followsProtocol rfl
  have hran : TableCall.run ∈ [.register a, .register b, .run] := by decide
  have hn : (w.runTable 0).2 = 2 := congrArg Prod.snd (h.firstRun (by decide))
  refine ⟨⟨hw, rfl⟩, hn, ?_, h.said, (h'.register b).trans (if_pos hran), h'.laterRun hran⟩
  rw [h.counted, hn]
  rfl

end World

end Hosted
