import Hosted.Proofs.ThreadLocals.Lifetime

/-!
# Values that outlive their threads

A thread that ends hands back what it has bound at each slot index, and that is only
the value it bound there last. A value before it, overwritten by a value for another
thread local with the same index or by one that was bound while its initializer ran, is
not found any more, and stays with its thread local. `Traces` follows what threads have
bound last; the values of a thread local are then told exactly by the events.
-/

namespace Hosted

open ValueEvent Locals

namespace ValueEvent

variable {es new : List ValueEvent} {t t' : ThreadId} {i i' : Nat} {id : LocalId} {c : CellId}

/-- The cell that a thread has bound at an index, by one event. -/
def boundAt? (t : ThreadId) (i : Nat) : ValueEvent → Option CellId
  | bound t' i' _ c => if t' = t ∧ i' = i then some c else none
  | _ => none

/-- The cell that a thread has bound last at an index. -/
def lastBound? (t : ThreadId) (i : Nat) (es : List ValueEvent) : Option CellId :=
  (es.filterMap (boundAt? t i)).getLast?

/-- The value was bound, but its thread has bound another one at its index since. -/
def overwritten (es : List ValueEvent) (c : CellId) : Bool :=
  es.any fun
    | bound t i _ c' => c' = c && lastBound? t i es ≠ some c
    | _ => false

theorem lastBound?_bound (t : ThreadId) (i : Nat) (es : List ValueEvent) (t' : ThreadId)
    (i' : Nat) (id : LocalId) (c : CellId) :
    lastBound? t i (es ++ [bound t' i' id c]) =
      if t' = t ∧ i' = i then some c else lastBound? t i es := by
  unfold lastBound?
  rw [List.filterMap_append]
  by_cases h : t' = t ∧ i' = i <;> simp [boundAt?, h]

theorem lastBound?_append (hnew : boundCells new = []) (t : ThreadId) (i : Nat) :
    lastBound? t i (es ++ new) = lastBound? t i es := by
  have hnone : new.filterMap (boundAt? t i) = [] := by
    refine List.filterMap_eq_nil_iff.2 fun e he => ?_
    have hcell := List.filterMap_eq_nil_iff.1 hnew e he
    cases e with
    | bound t' i' id c => cases hcell
    | _ => rfl
  rw [lastBound?, List.filterMap_append, hnone, List.append_nil, lastBound?]

/-- What was bound last was bound. -/
theorem bound_of_lastBound? (h : lastBound? t i es = some c) : ∃ id, bound t i id c ∈ es := by
  obtain ⟨e, he, hcell⟩ := List.mem_filterMap.1 (List.mem_of_getLast? h)
  unfold boundAt? at hcell
  split at hcell
  · next t' i' id c' =>
      split at hcell
      · next heq =>
          obtain ⟨rfl, rfl⟩ := heq
          obtain rfl := Option.some.inj hcell
          exact ⟨id, he⟩
      · cases hcell
  · cases hcell

theorem overwritten_eq_false_iff (hnd : (boundCells es).Nodup) (h : bound t i id c ∈ es) :
    overwritten es c = false ↔ lastBound? t i es = some c := by
  unfold overwritten
  rw [List.any_eq_false]
  constructor
  · intro hall
    simpa using hall _ h
  · intro hlast e he
    split
    · next t' i' id' c' =>
        by_cases hc : c' = c
        · subst hc
          obtain ⟨rfl, rfl, -⟩ := bound_inj hnd h he
          simp [hlast]
        · simp [hc]
    · exact Bool.false_ne_true

end ValueEvent

/-- The threads that have ended and what the others have bound last are told by the
events, and so are the values of each thread local. -/
structure Traces (es : List ValueEvent) (s : Locals Payload) : Prop extends Chronicle es s where
  ended_iff : ∀ {t}, .ended t ∈ es ↔ s.thread t = .ended
  binding_last : ∀ {t i b}, (s.thread t).at? i = some b → lastBound? t i es = some b.cell
  last_binding : ∀ {t id l c}, s.local? id = some l → c ∈ l.cells → s.thread t ≠ .ended →
    lastBound? t l.handle.index es = some c →
    ∃ b, (s.thread t).at? l.handle.index = some b ∧ b.cell = c
  cells_iff : ∀ {id l c}, s.local? id = some l → (c ∈ l.cells ↔
    ∃ t, .bound t l.handle.index id c ∈ es ∧
      (.ended t ∈ es → lastBound? t l.handle.index es ≠ some c))

namespace Traces

variable {es new : List ValueEvent} {s s' : Locals Payload} {t : ThreadId} {id : LocalId}
  {l : Local} {c : CellId} {v : Payload} {h : SlotHandle}

theorem fresh (settings : Settings) : Traces [] (World.fresh settings).locals where
  toChronicle := chronicle_fresh settings
  ended_iff := ⟨nofun, nofun⟩
  binding_last := nofun
  last_binding := nofun
  cells_iff := nofun

/-- No value is bound and no thread ends, and what threads have bound for the thread
locals that stay is kept. -/
theorem keeps (h : Traces es s) (new : List ValueEvent) (hc : Chronicle (es ++ new) s')
    (hnew : boundCells new = []) (hnone : ∀ t, .ended t ∉ new)
    (hended : ∀ t, s'.thread t = .ended ↔ s.thread t = .ended)
    (hat : ∀ {t i b}, (s'.thread t).at? i = some b → (s.thread t).at? i = some b)
    (hlocal : ∀ {id l}, s'.local? id = some l →
      s.local? id = some l ∨ l.cells = [] ∧ s.locals.length ≤ id)
    (hkept : ∀ {t i b l}, s'.local? b.owner = some l → (s.thread t).at? i = some b →
      (s'.thread t).at? i = some b) : Traces (es ++ new) s' := by
  have hend : ∀ {t}, .ended t ∈ es ++ new ↔ .ended t ∈ es := fun {t} => by
    rw [List.mem_append, or_iff_left (hnone t)]
  constructor
  case toChronicle => exact hc
  case ended_iff => exact fun {t} => hend.trans (h.ended_iff.trans (hended t).symm)
  case binding_last =>
    intro t i b hb
    rw [lastBound?_append hnew]
    exact h.binding_last (hat hb)
  case last_binding =>
    intro t id l c hl hmem hrunning hlast
    rw [lastBound?_append hnew] at hlast
    rcases hlocal hl with hl' | ⟨hempty, -⟩
    · obtain ⟨b, hb, rfl⟩ := h.last_binding hl' hmem (mt (hended t).2 hrunning) hlast
      obtain rfl := (h.owner_cell hb hl').1 hmem
      exact ⟨b, hkept hl hb, rfl⟩
    · rw [hempty] at hmem
      cases hmem
  case cells_iff =>
    intro id l c hl
    simp only [mem_append_of_boundCells hnew, hend, lastBound?_append hnew]
    rcases hlocal hl with hl' | ⟨hempty, hlt⟩
    · exact h.cells_iff hl'
    · rw [hempty]
      refine iff_of_false List.not_mem_nil ?_
      rintro ⟨t, hbound, -⟩
      exact Nat.not_lt.2 hlt (h.id_lt hbound)

/-- Threads may be touched, values changed and the table may change. -/
theorem same (h : Traces es s) (hc : Chronicle es s')
    (hended : ∀ t, s'.thread t = .ended ↔ s.thread t = .ended)
    (hat : ∀ t i, (s'.thread t).at? i = (s.thread t).at? i)
    (hlocal : ∀ id, s'.local? id = s.local? id) : Traces es s' := by
  have hkeeps := h.keeps [] ((List.append_nil es).symm ▸ hc) rfl (fun _ => nofun) hended
    (fun hb => (hat _ _).symm.trans hb) (fun hl => Or.inl ((hlocal _).symm.trans hl))
    fun _ hb => (hat _ _).trans hb
  rwa [List.append_nil] at hkeeps

theorem touch (h : Traces es s) (t : ThreadId) : Traces es (s.touch t) :=
  h.same (h.toChronicle.touch t) (s.thread_touch_eq_ended_iff t) (s.at?_touch t) fun _ => rfl

theorem modifyAll (h : Traces es s) (id : LocalId) (f : Nat → Payload → Payload) :
    Traces es (s.modifyAll id f) :=
  h.same (h.toChronicle.modifyAll id f) (fun _ => Iff.rfl) (fun _ _ => rfl) fun _ => rfl

theorem release (h : Traces es s) (hd : SlotHandle) : Traces es (s.release hd).1 :=
  h.same (h.toChronicle.release hd) (fun _ => Iff.rfl) (fun _ _ => rfl) fun _ => rfl

theorem allocate (h : Traces es s) {hd : SlotHandle} (ha : s.allocate = (s', .ok hd)) :
    Traces es s' := by
  have hc := (h.toChronicle.allocate ha).1
  rcases s.allocate_cases with herr | ⟨i, -, hok⟩
  · simp [herr] at ha
  · rw [hok, Prod.mk.injEq] at ha
    obtain ⟨rfl, -⟩ := ha
    exact h.same hc (fun _ => Iff.rfl) (fun _ _ => rfl) fun _ => rfl

theorem create (h : Traces es s) {hd : SlotHandle} (hr : s.Reserved hd) :
    Traces es (s.create hd).1 := by
  have hc : Chronicle (es ++ []) (s.create hd).1 :=
    (List.append_nil es).symm ▸ h.toChronicle.create hr
  have hlocal : ∀ {id l}, (s.create hd).1.local? id = some l →
      s.local? id = some l ∨ l.cells = [] ∧ s.locals.length ≤ id := by
    intro id l hl
    rcases local?_create_some hl with ⟨rfl, rfl⟩ | hl
    · exact Or.inr ⟨rfl, Nat.le_refl _⟩
    · exact Or.inl hl
  have hkeeps := h.keeps [] hc rfl (fun _ => nofun) (fun _ => Iff.rfl) (fun hb => hb) hlocal
    fun _ hb => hb
  rwa [List.append_nil] at hkeeps

theorem refused (h : Traces es s) (v : Payload) : Traces (es ++ [.refused v]) s :=
  h.keeps _ (h.toChronicle.refused v) rfl (fun _ hmem => nomatch List.mem_singleton.1 hmem)
    (fun _ => Iff.rfl) (fun hb => hb) Or.inl fun _ hb => hb

theorem detaches_keeps (h : Traces es s) (hl : s.local? id = some l)
    (hd : s.Detaches t id l s') (hc : Chronicle (es ++ new) s') (hnew : boundCells new = [])
    (hnone : ∀ t, .ended t ∉ new) : Traces (es ++ new) s' := by
  refine h.keeps _ hc hnew hnone hd.ended hd.at?_some (fun hl' => Or.inl (hd.local?_some hl').2) ?_
  intro t' i b l' hl' hb
  exact hd.at?_of_owner_ne h.toSound hl hb (hd.local?_some hl').1

theorem detaches (h : Traces es s) (hl : s.local? id = some l) (hd : s.Detaches t id l s') :
    Traces (es ++ freeing (s.contentsOf (s.cellsOf id)) ++ [.dropped id]) s' := by
  have hc := h.toChronicle.detaches hl hd
  rw [List.append_assoc] at hc ⊢
  refine h.detaches_keeps hl hd hc ?_ ?_
  · rw [boundCells_append, boundCells_freeing]
    rfl
  · simp [freeing]

theorem detachesEmpty (h : Traces es s) (hl : s.local? id = some l) (hempty : l.cells = [])
    (hd : s.Detaches t id l s') : Traces es s' := by
  have hc := h.toChronicle.detachesEmpty hl hempty hd
  rw [← List.append_nil es] at hc ⊢
  exact h.detaches_keeps hl hd hc rfl fun _ => nofun

theorem binds (h : Traces es s) (hl : s.local? id = some l) (hb : s.Binds t id l v s') :
    Traces (es ++ [.bound t l.handle.index id s.cells.length]) s' := by
  have hrunning : .ended t ∉ es := by
    intro hended
    have hat := hb.at? t l.handle.index
    rw [(hb.ended t).2 (h.ended_iff.1 hended), if_pos ⟨rfl, rfl⟩] at hat
    cases hat
  have hfresh : ∀ {t i id}, .bound t i id s.cells.length ∉ es := fun hmem =>
    Nat.lt_irrefl _ (h.bound_lt (mem_boundCells.2 ⟨_, _, _, hmem⟩))
  have hend : ∀ {t'}, .ended t' ∈ es ++ [.bound t l.handle.index id s.cells.length] ↔
      .ended t' ∈ es := by simp
  have hlast : ∀ {t' i}, .ended t' ∈ es →
      lastBound? t' i (es ++ [.bound t l.handle.index id s.cells.length]) =
        lastBound? t' i es := by
    intro t' i hended
    rw [lastBound?_bound, if_neg]
    rintro ⟨rfl, -⟩
    exact hrunning hended
  constructor
  case toChronicle => exact h.toChronicle.binds hl hb
  case ended_iff => exact fun {t'} => hend.trans (h.ended_iff.trans (hb.ended t').symm)
  case binding_last =>
    intro t' i b hb'
    rw [lastBound?_bound]
    rcases hb.at?_some hb' with ⟨rfl, rfl, rfl⟩ | ⟨hne, hb'⟩
    · rw [if_pos ⟨rfl, rfl⟩]
    · rw [if_neg fun heq => hne ⟨heq.1.symm, heq.2.symm⟩]
      exact h.binding_last hb'
  case last_binding =>
    intro t' id' l' c hl' hmem hrunning' hc
    rw [lastBound?_bound] at hc
    split at hc
    · next heq =>
        obtain ⟨rfl, hindex⟩ := heq
        obtain rfl := Option.some.inj hc
        exact ⟨_, (hb.at? _ _).trans (if_pos ⟨rfl, hindex.symm⟩), rfl⟩
    · next hne =>
        obtain ⟨id₀, hbound⟩ := bound_of_lastBound? hc
        have hold : ∃ l₀, s.local? id' = some l₀ ∧ l'.handle = l₀.handle ∧ c ∈ l₀.cells := by
          rcases hb.local?_some hl' with ⟨rfl, rfl⟩ | ⟨-, hl'⟩
          · rcases List.mem_append.1 hmem with hmem | hmem
            · exact ⟨l, hl, rfl, hmem⟩
            · rw [List.mem_singleton.1 hmem] at hbound
              exact absurd hbound hfresh
          · exact ⟨l', hl', rfl, hmem⟩
        obtain ⟨l₀, hl₀, hhandle, hmem₀⟩ := hold
        rw [hhandle] at hne hc ⊢
        obtain ⟨b, hb₀, rfl⟩ := h.last_binding hl₀ hmem₀ (mt (hb.ended t').2 hrunning') hc
        refine ⟨b, (hb.at? _ _).trans ((if_neg ?_).trans hb₀), rfl⟩
        exact fun heq => hne ⟨heq.1.symm, heq.2.symm⟩
  case cells_iff =>
    intro id' l' c hl'
    have hcond : ∀ {t' i}, (.ended t' ∈ es ++ [.bound t l.handle.index id s.cells.length] →
        lastBound? t' i (es ++ [.bound t l.handle.index id s.cells.length]) ≠ some c) ↔
        (.ended t' ∈ es → lastBound? t' i es ≠ some c) := by
      intro t' i
      rw [hend]
      exact forall_congr' fun hended => by rw [hlast hended]
    simp only [hcond]
    simp only [List.mem_append, List.mem_singleton]
    rcases hb.local?_some hl' with ⟨rfl, rfl⟩ | ⟨hne, hl'⟩
    · rw [List.mem_append, List.mem_singleton, h.cells_iff hl]
      constructor
      · rintro (⟨t', hbound, hkept⟩ | rfl)
        · exact ⟨t', Or.inl hbound, hkept⟩
        · exact ⟨t, Or.inr rfl, fun hended => absurd hended hrunning⟩
      · rintro ⟨t', hbound | hbound, hkept⟩
        · exact Or.inl ⟨t', hbound, hkept⟩
        · cases hbound
          exact Or.inr rfl
    · rw [h.cells_iff hl']
      refine exists_congr fun t' => and_congr_left fun _ => (or_iff_left ?_).symm
      intro heq
      injection heq with _ _ hid _
      exact hne hid

/-- The thread hands back what it has bound last, and nothing else is lost. -/
theorem ends (h : Traces es s) (t : ThreadId) :
    Traces (es ++ freeing (s.leftBehind t) ++ [.ended t]) (s.endThread t).1 := by
  have hc := h.toChronicle.ends t
  have he := h.toSound.ends_endThread t
  rw [List.append_assoc] at hc ⊢
  have hnew : boundCells (freeing (s.leftBehind t) ++ [.ended t]) = [] := by
    rw [boundCells_append, boundCells_freeing]
    rfl
  have hend : ∀ {t'}, .ended t' ∈ es ++ (freeing (s.leftBehind t) ++ [.ended t]) ↔
      .ended t' ∈ es ∨ t' = t := by simp [freeing]
  constructor
  case toChronicle => exact hc
  case ended_iff =>
    intro t'
    rw [hend, he.thread]
    by_cases ht : t' = t
    · simp [ht]
    · simpa [ht] using h.ended_iff
  case binding_last =>
    intro t' i b hb
    rw [lastBound?_append hnew]
    exact h.binding_last (he.at?_some hb).2
  case last_binding =>
    intro t' id l' c hl' hmem hrunning hlast
    rw [lastBound?_append hnew] at hlast
    obtain ⟨l, hl, hhandle, -, hmem'⟩ := he.reclaims.local_of_some hl'
    rw [he.thread] at hrunning ⊢
    by_cases ht : t' = t
    · exact absurd (if_pos ht) hrunning
    · rw [if_neg ht] at hrunning ⊢
      rw [hhandle] at hlast ⊢
      exact h.last_binding hl ((hmem' c).1 hmem).1 hrunning hlast
  case cells_iff =>
    intro id l' c hl'
    obtain ⟨l, hl, hhandle, -, hmem⟩ := he.reclaims.local_of_some hl'
    simp only [hend, mem_append_of_boundCells hnew, lastBound?_append hnew]
    rw [hmem, he.mem, hhandle]
    constructor
    · rintro ⟨hcell, hleft⟩
      obtain ⟨t', hbound, hkept⟩ := (h.cells_iff hl).1 hcell
      refine ⟨t', hbound, ?_⟩
      rintro (hended | rfl) hlast
      · exact hkept hended hlast
      · by_cases hended : .ended t' ∈ es
        · exact hkept hended hlast
        · obtain ⟨b, hb, hbc⟩ := h.last_binding hl hcell (mt h.ended_iff.2 hended) hlast
          exact hleft ⟨_, b, hb, hbc⟩
    · rintro ⟨t', hbound, hkept⟩
      refine ⟨(h.cells_iff hl).2 ⟨t', hbound, fun hended => hkept (Or.inl hended)⟩, ?_⟩
      rintro ⟨i, b, hb, rfl⟩
      obtain ⟨rfl, rfl, -⟩ := bound_inj h.bound_nodup hbound (h.binding_bound hb)
      exact hkept (Or.inr rfl) (h.binding_last hb)

end Traces

/-- Paths keep the traces, one lemma for each step. -/
theorem ValuePath.traces {start s : Locals Payload} {es : List ValueEvent}
    (path : ValuePath start es s) (hstart : Traces [] start) : Traces es s := by
  induction path with
  | nil => exact hstart
  | touch t _ ih => exact ih.touch t
  | modifyAll id f _ ih => exact ih.modifyAll id f
  | release h _ ih => exact ih.release h
  | allocate _ ha ih => exact ih.allocate ha
  | create _ hr ih => exact ih.create hr
  | bind _ hl hb ih => exact ih.binds hl hb
  | refuse v _ ih => exact ih.refused v
  | detach _ hl hd ih => exact ih.detaches hl hd
  | detachEmpty _ hl hempty hd ih => exact ih.detachesEmpty hl hempty hd
  | endThread t _ ih => exact ih.ends t

/-- The values of a live thread local: all that were bound through it, but for those
that their thread had bound last when it ended. Each value that is not overwritten is of
a thread of its own, which has not ended. -/
structure Leftovers (es : List ValueEvent) (w : World) (id : LocalId) (l : Local) : Prop where
  mem_iff : ∀ c, c ∈ l.cells ↔ ∃ t, .bound t l.handle.index id c ∈ es ∧
    (.ended t ∈ es → lastBound? t l.handle.index es ≠ some c)
  count : ∃ threads : List ThreadId, threads.Nodup ∧
    (∀ t ∈ threads, .ended t ∉ es ∧ ∃ c ∈ l.cells, lastBound? t l.handle.index es = some c) ∧
    w.locals.boundCount id = threads.length + l.cells.countP (overwritten es)

/-- The threads of values that are not overwritten. -/
theorem Traces.exists_threads {es : List ValueEvent} {s : Locals Payload} {id : LocalId}
    {l : Local} (h : Traces es s) (hl : s.local? id = some l) {cells : List CellId}
    (hcells : ∀ c ∈ cells, c ∈ l.cells ∧ overwritten es c = false) (hnd : cells.Nodup) :
    ∃ threads : List ThreadId, threads.Nodup ∧ threads.length = cells.length ∧
      ∀ t ∈ threads, .ended t ∉ es ∧ ∃ c ∈ cells, lastBound? t l.handle.index es = some c := by
  induction cells with
  | nil => exact ⟨[], .nil, rfl, nofun⟩
  | cons c cells ih =>
      obtain ⟨hfirst, hrest⟩ := List.nodup_cons.1 hnd
      obtain ⟨threads, hthreads, hlength, hall⟩ :=
        ih (fun c' hc' => hcells c' (List.mem_cons_of_mem _ hc')) hrest
      obtain ⟨hmem, hlast⟩ := hcells c List.mem_cons_self
      obtain ⟨t, hbound, hkept⟩ := (h.cells_iff hl).1 hmem
      rw [overwritten_eq_false_iff h.bound_nodup hbound] at hlast
      refine ⟨t :: threads, List.nodup_cons.2 ⟨?_, hthreads⟩, congrArg (· + 1) hlength, ?_⟩
      · intro ht
        obtain ⟨-, c', hc', hlast'⟩ := hall t ht
        obtain rfl := Option.some.inj (hlast.symm.trans hlast')
        exact hfirst hc'
      · intro t' ht'
        rcases List.mem_cons.1 ht' with rfl | ht'
        · exact ⟨fun hended => hkept hended hlast, c, List.mem_cons_self, hlast⟩
        · obtain ⟨hrunning, c', hc', hlast'⟩ := hall t' ht'
          exact ⟨hrunning, c', List.mem_cons_of_mem _ hc', hlast'⟩

/-- In every run, the values that a thread local keeps beyond those of running threads
are those that were overwritten; its list grows by them, whether their threads have
ended or not. -/
theorem ValueRun.leftovers {settings : Settings} {es : List ValueEvent} {w : World}
    {id : LocalId} {l : Local} (run : ValueRun settings es w)
    (hl : w.locals.local? id = some l) : Leftovers es w id l := by
  have h := run.path.traces (.fresh settings)
  refine ⟨fun c => h.cells_iff hl, ?_⟩
  have hkept : ∀ c ∈ l.cells.filter (!overwritten es ·),
      c ∈ l.cells ∧ overwritten es c = false := by
    intro c hc
    simpa using hc
  obtain ⟨threads, hnd, hlength, hall⟩ := h.exists_threads hl hkept ((h.nodup hl).filter _)
  refine ⟨threads, hnd, fun t ht => ?_, ?_⟩
  · obtain ⟨hrunning, c, hc, hlast⟩ := hall t ht
    exact ⟨hrunning, c, (hkept c hc).1, hlast⟩
  · rw [boundCount, cellsOf_of_local? hl, hlength, ← List.countP_eq_length_filter]
    have hsum := List.length_eq_countP_add_countP (overwritten es) (l := l.cells)
    rw [hsum, Nat.add_comm]
    simp

/-- A thread that binds a second value through a thread local, as one does whose
initializer has bound the first, leaves the first behind when it ends. -/
theorem ValueRun.leftovers_bound_twice :
    ∃ w l, Leftovers [.bound 0 0 0 0, .bound 1 0 0 1, .bound 1 0 0 2,
        .freed 2 (.tracked "y"), .ended 1] w 0 l ∧
      w.locals.valuesOf 0 = [.tracked "a", .tracked "x"] := by
  have hrun : ValueRun {} _ _ :=
    .ended 1
      (.bound 1 0 (.tracked "y")
        (.bound 1 0 (.tracked "x") (.made 0 (.tracked "a") .fresh rfl rfl) rfl rfl) rfl rfl)
  exact ⟨_, _, hrun.leftovers rfl, rfl⟩

end Hosted
